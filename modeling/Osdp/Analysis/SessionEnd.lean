import Osdp.Analysis.Conversation
import Osdp.Analysis.KeyAdoption

/-!
# Commands that end the session

Four commands make one of the two forget the session over which they are carried: the answers to
`osdp_ID` and `osdp_CAP` take the panel back into enrolment, a key that is installed is adopted by both
ends, and after an `osdp_COMSET` the panel starts again at the address the reader reports. In each case
the two are left on their way to a new channel (`Line.carried_id`, `Line.carried_cap`,
`Line.carried_key`, `Line.carried_address`), provided that the command is apt (`Line.Apt`).
`Line.carried` puts them beside the commands that leave the channel up.
-/

set_option autoImplicit false

namespace Osdp

open Osdp.Secure (Session Rnd BaseKey CipherSuite)

/-- The settings a device reports are read back as it adopted them. -/
theorem parseCommunication_command (c : Communication) :
    parseCommunication (communicationCommand c).data = some c := by
  have hlong : ¬ (communicationCommand c).data.length < communicationSize := by
    simp [communicationCommand, communicationSize, littleEndian]
  have hlt : c.baud.toNat < 256 ^ 4 := c.baud.toNat_lt
  have hbaud : UInt32.ofNat (fromLittleEndian (littleEndian 4 c.baud.toNat)) = c.baud := by
    rw [fromLittleEndian_littleEndian, Nat.mod_eq_of_lt hlt, UInt32.ofNat_toNat]
  have htake : ((communicationCommand c).data.take communicationSize).drop 1 =
      littleEndian 4 c.baud.toNat := by
    simp [communicationCommand, communicationSize, littleEndian]
  simp only [parseCommunication, if_neg hlong, htake, hbaud]
  rfl

/-! ## The device -/

namespace Pd.Device

variable {d : Device}

/-- What adopting an address and a key leaves of the device. -/
theorem adopted_device (d : Device) :
    ∃ s report, d.adoptAddress.adoptKey = { d with
      address := d.adopting.getD d.address, adopting := none, key := d.adoptingKey.getD d.key
      adoptingKey := none, session := s, capabilities := report } := by
  obtain ⟨cfg, address, inputs, outputs, tamper, power, capabilities, key, session, pending, seen, last,
    cached, seq, valid, adopting, adoptingKey⟩ := d
  cases adopting <;> cases adoptingKey <;>
    simp only [adoptAddress, adoptKey, dropSession, refreshCapabilities, Option.getD_none,
      Option.getD_some]
  · exact ⟨_, _, rfl⟩
  · split <;> exact ⟨_, _, rfl⟩
  · exact ⟨_, _, rfl⟩
  · split <;> exact ⟨_, _, rfl⟩

/-- A key is taken or refused. -/
theorem dispatch_key (d : Device) (data : Octets) :
    (∃ k, carriedKey data = some k ∧
      d.dispatch Code.keySet data true = (ack, { d with adoptingKey := some k })) ∨
    (carriedKey data = none ∧ ∃ reason, d.dispatch Code.keySet data true = (nak reason, d)) := by
  rw [dispatch_keySet]
  unfold installKey carriedKey
  cases parseKeySet data with
  | none => exact .inr ⟨rfl, _, rfl⟩
  | some payload =>
    by_cases hc : payload.type ≠ keySCBK ∨ payload.key.length ≠ Secure.blockSize
    · exact .inr ⟨if_pos hc, _, if_pos hc⟩
    · exact .inl ⟨_, if_neg hc, if_neg hc⟩

/-- So is an address. -/
theorem dispatch_address (d : Device) (data : Octets) (secured : Bool) :
    (∃ c, parseCommunication data = some c ∧ d.dispatch Code.comSet data secured =
      (⟨Code.com, false, (communicationCommand ⟨c.address, c.baud⟩).data⟩,
        { d with adopting := some c.address })) ∨
    (∀ c, parseCommunication data = some c → ¬ Address.valid c.address ∨ c.address = broadcastAddress) ∧
      ∃ reason, d.dispatch Code.comSet data secured = (nak reason, d) := by
  have hrow : d.dispatch Code.comSet data secured = d.applyCommunication data := rfl
  rw [hrow]
  unfold applyCommunication
  cases parseCommunication data with
  | none => exact .inr ⟨nofun, _, rfl⟩
  | some c =>
    by_cases hc : ¬ Address.valid c.address ∨ c.address = broadcastAddress
    · exact .inr ⟨by rintro _ ⟨⟩; exact hc, _, if_pos hc⟩
    · exact .inl ⟨c, rfl, if_neg hc⟩

end Pd.Device

/-! ## The panel -/

namespace Bus

/-- The acknowledgement of a key that the panel waits to adopt. -/
theorem dispatch_installed (b : Bus) {d : Device} {k : BaseKey} (hk : d.pendingKey = some k)
    (hack : d.acknowledged = Code.keySet) (data : Octets) :
    dispatch b d { code := Code.ack, isReply := true, data := data } =
      (.ok (.keyInstalled (Secure.isDefault k)), { d with
        pendingKey := none, installedKey := some k, session := none, pending := none
        state := .identifying }) := by
  simp [dispatch, hk, hack, Device.awaitingKeySet, onKeyInstalled, Device.adoptPendingKey,
    Device.clearPendingKey, Device.dropSession, Code.ack, Code.pdID, Code.pdCap, Code.iStatR,
    Code.oStatR, Code.lStatR, Code.rStatR, Code.cCrypt, Code.rMacI, Code.raw, Code.keypad, Code.nak, Code.mfgReply, Code.com,
    Code.busy]

/-- The report of a device that has moved. -/
theorem dispatch_moved (b : Bus) (d : Device) {data : Octets} {c : Communication}
    (hc : parseCommunication data = some c) :
    dispatch b d { code := Code.com, isReply := true, data := data } =
      (.ok (.communication c d.address), { d with address := c.address }.resync) := by
  have hrow : dispatch b d { code := Code.com, isReply := true, data := data } =
      onCommunication d data := rfl
  rw [hrow, onCommunication, hc]

end Bus

/-! ## The line -/

namespace Line

section Exchange

variable {b : Bus} {channel : Bus.SecureChannel} {cfg : Pd.Settings} {l : Line} {x : Exchange}

/-- What is asked of a command that is carried over the channel: a key that the reader takes is the one
the panel waits to adopt, and an address that it takes is one the panel has the reader's key for. The
panel does not ask the reader to stay where it is while the number of its answer comes round next. -/
structure Apt (channel : Bus.SecureChannel) (l : Line) : Prop where
  key : l.panel.utterance.code = Code.keySet →
    ∀ k, Pd.carriedKey l.panel.utterance.data = some k → l.panel.pendingKey = some k
  address : l.panel.utterance.code = Code.comSet →
    ∀ c, parseCommunication l.panel.utterance.data = some c →
      (c.address ≠ l.panel.address ∨ l.panel.number ≠ 1) ∧
        { l.panel with address := c.address }.baseKey channel.keys = some l.device.key

/-- The same to be computed. -/
def apt (channel : Bus.SecureChannel) (l : Line) : Bool :=
  (l.panel.utterance.code != Code.keySet ||
    (Pd.carriedKey l.panel.utterance.data).all fun k => l.panel.pendingKey == some k) &&
  (l.panel.utterance.code != Code.comSet ||
    (parseCommunication l.panel.utterance.data).all fun c =>
      (c.address != l.panel.address || l.panel.number != 1) &&
        { l.panel with address := c.address }.baseKey channel.keys == some l.device.key)

/-- The test of an apt command. -/
theorem apt_iff : l.apt channel = true ↔ l.Apt channel := by
  simp only [apt, Bool.and_eq_true, Bool.or_eq_true, bne_iff_ne, Option.all_eq_true, beq_iff_eq]
  constructor
  · rintro ⟨hkey, haddress⟩
    exact ⟨fun hcode => hkey.resolve_left (not_not_intro hcode),
      fun hcode => haddress.resolve_left (not_not_intro hcode)⟩
  · rintro ⟨hkey, haddress⟩
    exact ⟨or_iff_not_imp_left.mpr fun hcode => hkey (not_not.mp hcode),
      or_iff_not_imp_left.mpr fun hcode => haddress (not_not.mp hcode)⟩

instance : Decidable (l.Apt channel) := decidable_of_iff _ apt_iff

/-- What an exchange over the channel does, whatever the command: it is run, and the channel is up as
before or the two are on their way to a new one. -/
structure Carried (channel : Bus.SecureChannel) (cfg : Pd.Settings) (l : Line) (x : Exchange)
    (res : Option Bus.Event × Line) : Prop where
  line : res.2.Live channel cfg ∨ res.2.Enrolling channel cfg
  quiet : res.2.Quiet
  outbox : res.2.panel.outbox = l.panel.rest
  pending : res.2.device.pending = (l.ran x.now).2.pending
  returned : res.1.toList.filter Bus.Event.isReport = (l.ran x.now).1.event.toList

/-- What was conducted was carried. -/
theorem Conducted.carried {res : Option Bus.Event × Line} (h : Conducted channel cfg l x res) :
    Carried channel cfg l x res :=
  ⟨.inl h.live, quiet_fresh h.live.fresh, h.outbox, h.pending, h.returned⟩

/-- What is adopted with an answer is an address or a key; the answer is in the cache in any case. -/
theorem rejoined_device (l : Line) (now : ℤ) (t : Session) (r : Frame) :
    (l.rejoined now t r).pending = (l.ran now).2.pending ∧ (l.rejoined now t r).cached = r ∧
      ((l.rejoined now t r).cachedSeq = l.panel.number ∧ (l.rejoined now t r).cachedValid = true) ∧
      (l.rejoined now t r).address = (l.ran now).2.adopting.getD (l.ran now).2.address ∧
      (l.rejoined now t r).key = (l.ran now).2.adoptingKey.getD (l.ran now).2.key := by
  obtain ⟨s, report, he⟩ := Pd.Device.adopted_device ((l.ran now).2.replied t r l.panel.number)
  rw [rejoined, he]
  exact ⟨rfl, rfl, ⟨rfl, rfl⟩, rfl, rfl⟩

section Ended

variable (hb : b.secure = some channel) (ha : Agreeable channel cfg) (h : l.Live channel cfg)
  {s t : Session} {p d q : Bus.Device} {r : Frame} (hc : l.Conversed channel b x s t p r) {m : Message}
  {e : Pd.Device} {ev : Bus.Event} (hran : l.ran x.now = (m, e)) (hd : l.panel.heardBack s = d)
  (hq : Bus.dispatch b d { code := m.code, isReply := true, data := m.data } = (.ok ev, q))
  (hkey : q.baseKey channel.keys = some (l.rejoined x.now t r).key)
  (haddress : q.address = (l.rejoined x.now t r).address) (houtbox : q.outbox = l.panel.rest)
  (hidle : q.inflight = none)
include hb ha h hc hran hd hq hkey haddress houtbox hidle

/-- What the exchange comes to when the panel takes the answer. -/
theorem exchange_ended :
    l.exchange b x = (some ev, { l with panel := q, device := l.rejoined x.now t r }) ∧
      { l with panel := q, device := l.rejoined x.now t r }.Met channel cfg := by
  have hex : l.exchange b x = (some ev, { l with panel := q, device := l.rejoined x.now t r }) := by
    have hreply := hc.reply
    rw [hran, hd, hq] at hreply
    rw [hc.exchange, await_ok hreply]
  have hhonest := (honest_exchange hb ha.suite ha.derives.server h.honest h.key
    (h.misleads_false ha hc)).2
  rw [hex] at hhonest
  refine ⟨hex, { honest := hhonest, key := hkey, address := haddress, serving := h.serving
                 idle := hidle, commands := fun m hm => ?_ }⟩
  have hm' : m ∈ l.panel.rest := houtbox ▸ hm
  exact h.commands m (by rw [← l.panel.takes_rest]; exact List.mem_append_right _ hm')

/-- **The panel is on its way to a new session** when the answer ends the old one. -/
theorem carried_ended (hstate : q.state ≠ .online ∧ q.state ≠ .secure)
    (hsuite : ∀ s', q.session = some s' → s'.suite = channel.suite) (hpending : q.pending = none)
    (hnext : (q.seq = l.panel.number ∧ q.repeatSequence = false) ∨ (q.secureEstablished = false ∧
      (q.number = l.panel.number → l.panel.address ≠ q.address)))
    (hev : ev.isReport = false) (hcode : m.code ≠ Code.raw ∧ m.code ≠ Code.keypad) :
    Carried channel cfg l x (l.exchange b x) := by
  obtain ⟨hevents, hcached, ⟨hnumber, -⟩, -, -⟩ := l.rejoined_device x.now t r
  obtain ⟨hex, hmet⟩ := exchange_ended hb ha h hc hran hd hq hkey haddress houtbox hidle
  have hstale : { l with panel := q, device := l.rejoined x.now t r }.stale = true →
      q.secureEstablished = false ∧ r.address ≠ q.address := by
    intro hyes
    obtain ⟨hseq, hrepeat⟩ | ⟨hno, hmoved⟩ := hnext
    · have hfresh := stale_after (l := { l with panel := q, device := l.rejoined x.now t r })
        h.isNumber hseq hrepeat hnumber
      exact absurd (hfresh.symm.trans hyes) (by decide)
    · simp only [stale, hnumber, Bool.and_eq_true, beq_iff_eq] at hyes
      refine ⟨hno, ?_⟩
      rw [hc.replied.address, ← h.address]
      exact hmoved hyes.2.symm
  rw [hex]
  have he : { l with panel := q, device := l.rejoined x.now t r }.Enrolling channel cfg := by
    refine { hmet with
      offered := hstate.1
      forgotten := fun hest => ⟨?_, hsuite, fun hsecure => absurd hsecure hstate.2⟩
      script := fun step hstep => absurd (hpending.symm.trans hstep) (by simp)
      cached := fun hyes hsame => ?_ }
    · by_contra hyes
      exact absurd ((hstale (Bool.eq_true_of_not_eq_false hyes)).1.symm.trans hest) (by decide)
    · have hr : r.address = q.address := hcached ▸ hsame
      exact absurd hr (hstale hyes).2
  refine { line := .inr he, quiet := fun _ => ?_, outbox := houtbox, pending := hevents
           returned := ?_ }
  · show Frame.event (l.rejoined x.now t r).cached = none
    have hsame : (Message.decode r).code = m.code := hc.replied.code.trans (by rw [hran])
    rw [hcached]
    exact Message.event_of_code (hsame ▸ hcode.1) (hsame ▸ hcode.2)
  · rw [hran]
    simp [hev, Message.event_of_code hcode.1 hcode.2]

end Ended

section Carried

variable (hb : b.secure = some channel) (ha : Agreeable channel cfg) (hlaw : channel.suite.Lawful)
  (h : l.Live channel cfg) (hx : x.fate = .delivered)
include hb ha hlaw h hx

/-- **The identity** asked for over the channel: the panel takes itself to be at the start, with a
session that it will give up at the next answer. -/
theorem carried_id (hcode : l.panel.utterance.code = Code.id) : Carried channel cfg l x (l.exchange b x) := by
  obtain ⟨s, t, p, r, hc⟩ := exchange_live ha hlaw h hx b
  obtain ⟨s₀, t₀, hjoined, -⟩ := h.up
  have hran : l.ran x.now = (⟨Code.pdID, false, Pd.appendDeviceID []
      (l.device.noticed x.now).cfg.identity⟩, l.device.noticed x.now) := by
    rw [ran, hcode]
    rfl
  have hdevice : l.rejoined x.now t r = (l.device.noticed x.now).replied t r l.panel.number := by
    rw [rejoined_settled (by rw [hran]; exact h.honest.device.settled), hran]
  refine carried_ended hb ha h hc hran (Bus.Device.heardBack_eq h.idle s)
    (Bus.dispatch_pdID b _ (l.device.noticed x.now).cfg.identity) ?_ ?_ rfl rfl (by simp) ?_
    (h.honest.panel.pending_none ?_) (.inl ⟨rfl, rfl⟩) rfl
    ⟨show Code.pdID ≠ Code.raw by decide, show Code.pdID ≠ Code.keypad by decide⟩
  · rw [hdevice]
    exact h.key
  · rw [hdevice]
    exact h.address
  · rintro _ ⟨⟩
    exact hc.suite
  · rw [hjoined.state]
    decide

/-- **The capabilities** asked for over the channel: a new handshake begins. -/
theorem carried_cap (hcode : l.panel.utterance.code = Code.cap) : Carried channel cfg l x (l.exchange b x) := by
  obtain ⟨s, t, p, r, hc⟩ := exchange_live ha hlaw h hx b
  obtain ⟨s₀, t₀, hjoined, -⟩ := h.up
  have hran : l.ran x.now = (⟨Code.pdCap, false, CapabilityReport.append
      (l.device.noticed x.now).capabilities []⟩, l.device.noticed x.now) := by
    rw [ran, hcode]
    rfl
  have hdevice : l.rejoined x.now t r = (l.device.noticed x.now).replied t r l.panel.number := by
    rw [rejoined_settled (by rw [hran]; exact h.honest.device.settled), hran]
  have haes : (l.device.noticed x.now).capabilities.secureChannel.1 = true :=
    h.honest.advertises.report
  refine carried_ended hb ha h hc hran (Bus.Device.heardBack_eq h.idle s)
    (Bus.dispatch_pdCap hb (by exact h.honest.panel.undeclined) haes (by exact h.key)) ?_ ?_ rfl rfl
    (by simp) ?_
    (h.honest.panel.pending_none ?_) (.inl ⟨rfl, rfl⟩) rfl
    ⟨show Code.pdCap ≠ Code.raw by decide, show Code.pdCap ≠ Code.keypad by decide⟩
  · rw [hdevice]
    exact h.key
  · rw [hdevice]
    exact h.address
  · rintro _ ⟨⟩
    rfl
  · rw [hjoined.state]
    decide

/-- **A key** that the reader takes over the channel, and the panel with it: both hold it, and neither
holds the old session. -/
theorem carried_key (hcode : l.panel.utterance.code = Code.keySet) {k : BaseKey}
    (hcarried : Pd.carriedKey l.panel.utterance.data = some k) (hpending : l.panel.pendingKey = some k) :
    Carried channel cfg l x (l.exchange b x) := by
  obtain ⟨s, t, p, r, hc⟩ := exchange_live ha hlaw h hx b
  have hset := h.honest.device.settled
  obtain ⟨k', hk', hdispatch⟩ | ⟨hno, -⟩ := Pd.Device.dispatch_key (l.device.noticed x.now)
    l.panel.utterance.data
  · obtain rfl : k' = k := Option.some.inj (hk'.symm.trans hcarried)
    have hran : l.ran x.now = (Pd.ack, { l.device.noticed x.now with adoptingKey := some k' }) := by
      rw [ran, hcode, hdispatch]
    obtain ⟨-, -, -, haddress, hkey⟩ := l.rejoined_device x.now t r
    rw [hran] at haddress hkey
    refine carried_ended hb ha h hc hran (Bus.Device.heardBack_eq h.idle s)
      (Bus.dispatch_installed b (by exact hpending) (by exact hcode) _) ?_ ?_ rfl rfl (by simp) (by simp)
      rfl (.inl ⟨rfl, rfl⟩) rfl
      ⟨show Code.ack ≠ Code.raw by decide, show Code.ack ≠ Code.keypad by decide⟩
    · rw [hkey]
      rfl
    · rw [haddress, show ({ l.device.noticed x.now with adoptingKey := some k' } : Pd.Device).adopting =
        none from hset.1]
      exact h.address
  · exact absurd (hno.symm.trans hcarried) (by simp)

/-- **An address** that the reader takes over the channel, and the panel with it. -/
theorem carried_address {c : Communication}
    (hran : l.ran x.now = (⟨Code.com, false, (communicationCommand ⟨c.address, c.baud⟩).data⟩,
      { l.device.noticed x.now with adopting := some c.address }))
    (hnumber : c.address ≠ l.panel.address ∨ l.panel.number ≠ 1)
    (hkey : { l.panel with address := c.address }.baseKey channel.keys = some l.device.key) :
    Carried channel cfg l x (l.exchange b x) := by
  obtain ⟨s, t, p, r, hc⟩ := exchange_live ha hlaw h hx b
  have hset := h.honest.device.settled
  obtain ⟨-, -, -, haddress, hkept⟩ := l.rejoined_device x.now t r
  rw [hran] at haddress hkept
  have hq := Bus.dispatch_moved b (l.panel.heardBack s) (parseCommunication_command c)
  rw [Bus.Device.resync_eq, Bus.Device.heardBack_eq h.idle] at hq
  refine carried_ended hb ha h hc hran (Bus.Device.heardBack_eq h.idle s) hq ?_ ?_ rfl rfl (by simp)
    (by simp) rfl (.inr ⟨rfl, ?_⟩) rfl
    ⟨show Code.com ≠ Code.raw by decide, show Code.com ≠ Code.keypad by decide⟩
  · rw [hkept, show ({ l.device.noticed x.now with adopting := some c.address } : Pd.Device).adoptingKey =
      none from hset.2]
    exact hkey
  · rw [haddress]
    rfl
  · intro hone
    have hone' : l.panel.number = 1 := hone.symm
    exact hnumber.resolve_right (fun hne => hne hone') |>.symm

/-- A command that the reader refuses leaves the channel up. -/
theorem conducted_refused (havailable : l.device.Available) {reason : NAKReason}
    (hran : l.ran x.now = (Pd.nak reason, l.device.noticed x.now)) :
    Conducted channel cfg l x (l.exchange b x) := by
  refine conducted hb ha hlaw h hx havailable ?_ ?_ fun hack => ?_
  · rw [hran]
    rfl
  · rw [hran]
    exact h.honest.device.settled
  · rw [hran] at hack
    exact absurd (show Code.nak = Code.ack from hack) (by decide)

/-- **Every command** is carried over the channel. -/
theorem carried (havailable : l.device.Available) (hapt : l.Apt channel) :
    Carried channel cfg l x (l.exchange b x) := by
  by_cases hordinary : Code.endsSession l.panel.utterance.code = false
  · exact (conducted_ordinary hb ha hlaw h hx havailable hordinary).carried
  · simp only [Code.endsSession, Bool.not_eq_false, Bool.or_eq_true, beq_iff_eq] at hordinary
    obtain ((hcode | hcode) | hcode) | hcode := hordinary
    · exact carried_id hb ha hlaw h hx hcode
    · exact carried_cap hb ha hlaw h hx hcode
    · obtain ⟨c, hc, hdispatch⟩ | ⟨-, reason, hdispatch⟩ := Pd.Device.dispatch_address
        (l.device.noticed x.now) l.panel.utterance.data true
      · obtain ⟨hnumber, hkey⟩ := hapt.address hcode c hc
        exact carried_address hb ha hlaw h hx (by rw [ran, hcode, hdispatch]) hnumber hkey
      · exact (conducted_refused hb ha hlaw h hx havailable (by rw [ran, hcode, hdispatch])).carried
    · obtain ⟨k, hk, -⟩ | ⟨-, reason, hdispatch⟩ := Pd.Device.dispatch_key (l.device.noticed x.now)
        l.panel.utterance.data
      · exact carried_key hb ha hlaw h hx hcode hk (hapt.key hcode k hk)
      · exact (conducted_refused hb ha hlaw h hx havailable (by rw [ran, hcode, hdispatch])).carried

end Carried

end Exchange

end Line

end Osdp
