import Osdp.Analysis.NextSpec
import Osdp.Analysis.SessionSpec

/-!
# What `Reply` and `Timeout` do to a device

`reply_cases` lists the four things a reply can come to: it is not for this device, it
restarts the exchange, it fails its check under an established session, or it is let
through, in which case whatever was in flight is released before the message is
dispatched. `dispatch_queue` says what the dispatcher then does to the queue: only
`osdp_BUSY` gives the released command back.
-/

set_option autoImplicit false

namespace Osdp.Bus

open Osdp.Secure (Session BaseKey Rnd)

namespace Device

/-! ## The queue operations -/

/-- Nothing is in flight after a delivery. -/
@[simp] theorem delivered_inflight (d : Device) : d.delivered.inflight = none := by
  unfold delivered
  split
  · assumption
  · rfl

/-- A delivery leaves the outbox. -/
@[simp] theorem delivered_outbox (d : Device) : d.delivered.outbox = d.outbox := by
  unfold delivered; split <;> rfl

/-- It releases what was in flight. -/
@[simp] theorem delivered_released (d : Device) : d.delivered.released = d.inflight := by
  unfold delivered
  split
  · rename_i h; simp [h]
  · rename_i h; simp [h]

/-- It leaves the address. -/
@[simp] theorem delivered_address (d : Device) : d.delivered.address = d.address := by
  unfold delivered; split <;> rfl

/-- It leaves the state. -/
@[simp] theorem delivered_state (d : Device) : d.delivered.state = d.state := by
  unfold delivered; split <;> rfl

/-- It leaves the session. -/
@[simp] theorem delivered_session (d : Device) : d.delivered.session = d.session := by
  unfold delivered; split <;> rfl

/-- It leaves what is deferred. -/
@[simp] theorem delivered_deferCommands (d : Device) : d.delivered.deferCommands = d.deferCommands := by
  unfold delivered; split <;> rfl

/-- It leaves the key that waits. -/
@[simp] theorem delivered_pendingKey (d : Device) : d.delivered.pendingKey = d.pendingKey := by
  unfold delivered; split <;> rfl

/-- It leaves the installed key. -/
@[simp] theorem delivered_installedKey (d : Device) : d.delivered.installedKey = d.installedKey := by
  unfold delivered; split <;> rfl

/-- It leaves the repeat flag. -/
@[simp] theorem delivered_repeatSequence (d : Device) : d.delivered.repeatSequence = d.repeatSequence := by
  unfold delivered; split <;> rfl

/-- It leaves the number. -/
@[simp] theorem delivered_seq (d : Device) : d.delivered.seq = d.seq := by
  unfold delivered; split <;> rfl

/-- It leaves the count of misses. -/
@[simp] theorem delivered_misses (d : Device) : d.delivered.misses = d.misses := by
  unfold delivered; split <;> rfl

/-- It acknowledges the command in flight, or a poll. -/
@[simp] theorem delivered_acknowledged (d : Device) :
    d.delivered.acknowledged = (d.inflight.map Message.code).getD Code.poll := by
  unfold delivered
  split <;> rename_i h <;> simp [h]

/-- The bookkeeping of `delivered` concerns the queue alone. -/
theorem delivered_eq (d : Device) :
    d.delivered = { d with
      inflight := none
      released := d.inflight
      acknowledged := (d.inflight.map Message.code).getD Code.poll } := by
  unfold delivered
  split <;> rename_i h <;> simp [h]

/-- What is in flight goes back to the front of the outbox. -/
theorem requeue_eq (d : Device) :
    d.requeue = { d with outbox := d.inflight.toList ++ d.outbox, inflight := none } := by
  unfold requeue
  cases d with
  | mk => split <;> simp_all

/-- A device that starts over keeps its commands. -/
theorem resync_eq (d : Device) :
    d.resync = { d with
      outbox := d.inflight.toList ++ d.outbox
      inflight := none
      seq := 0
      repeatSequence := false
      state := .offline
      session := none
      pending := none } := by
  simp [resync, requeue_eq, dropSession]

/-- A command in flight is sent again under its number. -/
theorem retransmit_eq (d : Device) :
    d.retransmit = { d with
      outbox := d.inflight.toList ++ d.outbox
      inflight := none
      repeatSequence := d.inflight.isSome || d.repeatSequence } := by
  unfold retransmit
  simp only [requeue_eq]
  cases d with
  | mk => split <;> simp_all

/-- A command that was released goes back to the front. -/
theorem reclaim_eq (d : Device) :
    d.reclaim = match d.released with
      | none => d
      | some m => { d with outbox := m :: d.outbox, inflight := none, released := none } := by
  unfold reclaim
  cases h : d.released with
  | none => rfl
  | some m => simp [requeue_eq]

end Device

/-! ## The dispatcher -/

/-- A report changes the state, the session and the refusal. -/
theorem afterCapabilities_eq (b : Bus) (d : Device) :
    ∃ st se de,
      afterCapabilities b d = { d with state := st, session := se, secureDeclined := de } := by
  unfold afterCapabilities
  simp only
  split
  · exact ⟨_, _, _, rfl⟩
  · split
    · exact ⟨_, _, _, rfl⟩
    · split
      · exact ⟨_, _, _, rfl⟩
      · split <;> exact ⟨_, _, _, rfl⟩

/-- Whether a capability report begins a new session: a channel is configured and was not declined,
the report has AES-128, and there is a key for the device. -/
def Device.begins (b : Bus) (d : Device) (report : CapabilityReport) : Bool :=
  b.secure.any fun channel =>
    !d.secureDeclined && report.secureChannel.1 && (d.baseKey channel.keys).isSome

variable {b : Bus} {d e : Device} {report : CapabilityReport} {m : Message} {f g : Frame}
  {data : Octets} {n : ℕ}

/-- A report that begins none puts the device online, with the session it had. -/
theorem afterCapabilities_online (h : d.begins b report = false) :
    ∃ de, afterCapabilities b { d with caps := report } =
      { d with caps := report, state := .online, secureDeclined := de } := by
  unfold afterCapabilities
  cases hb : b.secure with
  | none => exact ⟨_, rfl⟩
  | some channel =>
    simp only
    split
    · exact ⟨_, rfl⟩
    · rename_i hdeclined
      split
      · exact ⟨_, rfl⟩
      · rename_i haes
        split
        · exact ⟨_, rfl⟩
        · rename_i key hkey
          have hbase : d.baseKey channel.keys = some key := hkey
          simp_all [Device.begins]

/-- A report of AES-128 from a device whose key is known begins a handshake. -/
theorem afterCapabilities_begins {channel : SecureChannel} (hb : b.secure = some channel)
    {key : BaseKey} (hdeclined : d.secureDeclined = false) (haes : d.caps.secureChannel.1 = true)
    (hkey : d.baseKey channel.keys = some key) :
    afterCapabilities b d = { d with state := .secureHandshake
                                     session := some (Secure.newSession channel.suite .cp key) } := by
  have hbase : { d with state := .online }.baseKey channel.keys = some key := hkey
  unfold afterCapabilities
  simp only [hb]
  rw [if_neg (by rw [hdeclined]; decide), if_neg (by rw [haes]; decide), hbase]

/-- These are all the reports that begin one. -/
theorem afterCapabilities_begun (h : d.begins b report = true) :
    ∃ channel key, b.secure = some channel ∧ d.baseKey channel.keys = some key ∧
      afterCapabilities b { d with caps := report } =
        { d with caps := report, state := .secureHandshake,
                 session := some (Secure.newSession channel.suite .cp key) } := by
  obtain ⟨channel, hb, hall⟩ := (Option.any_eq_true _ _).mp h
  simp only [Bool.and_eq_true, Bool.not_eq_true', Option.isSome_iff_exists] at hall
  obtain ⟨⟨hdeclined, haes⟩, key, hkey⟩ := hall
  exact ⟨channel, key, hb, hkey,
    afterCapabilities_begins (d := { d with caps := report }) hb hdeclined haes hkey⟩

/-- A status report changes the contacts only. -/
theorem onStatus_eq (d : Device) (parse : Octets → Option (List StatusChange)) (data : Octets) :
    ∃ st, (onStatus d parse data).2 = { d with status := st } := by
  unfold onStatus
  split
  · exact ⟨_, rfl⟩
  · simp only
    split <;> exact ⟨_, rfl⟩

/-- A cryptogram changes the handshake only. -/
theorem onCryptogram_eq (d : Device) (data : Octets) :
    ∃ st se pe de, (onCryptogram d data).2 =
      { d with state := st, session := se, pending := pe, secureDeclined := de } := by
  unfold onCryptogram
  split
  · exact ⟨_, _, _, _, rfl⟩
  · split <;> exact ⟨_, _, _, _, rfl⟩

/-- So does an initial code. -/
theorem onInitialRMAC_eq (d : Device) (data : Octets) :
    ∃ st se pe de, (onInitialRMAC d data).2 =
      { d with state := st, session := se, pending := pe, secureDeclined := de } := by
  unfold onInitialRMAC
  split
  · exact ⟨_, _, _, _, rfl⟩
  · split <;> exact ⟨_, _, _, _, rfl⟩

/-- Any other answer changes the state only. -/
theorem onAnswer_eq (d : Device) : ∃ st, (onAnswer d).2 = { d with state := st } := by
  unfold onAnswer
  split <;> exact ⟨_, rfl⟩

/-- A cryptogram fails the handshake or moves it on. -/
theorem onCryptogram_cases (d : Device) (data : Octets) :
    onCryptogram d data = (.secureFailed, { d.abandonSecure with state := .online }) ∨
    ∃ s s' out, d.session = some s ∧ s.answerCryptogram data = (.ok out, s') ∧
      onCryptogram d data = (.none, { d with
        session := some s'
        pending := some ⟨{ code := Code.sCrypt, data := out }, { type := Secure.scs13 }⟩ }) := by
  unfold onCryptogram
  split
  · exact .inl rfl
  · rename_i s hs
    split
    · exact .inl rfl
    · rename_i out s' hok
      exact .inr ⟨s, s', out, hs, hok, rfl⟩

/-- An initial code fails the handshake or completes it. -/
theorem onInitialRMAC_cases (d : Device) (data : Octets) :
    onInitialRMAC d data = (.secureFailed, { d.abandonSecure with state := .online }) ∨
    ∃ s s' u, d.session = some s ∧ s.completeHandshake data = (.ok u, s') ∧
      onInitialRMAC d data =
        (.secure s'.usingDefaultKey, { d with session := some s', state := .secure }) := by
  unfold onInitialRMAC
  split
  · exact .inl rfl
  · rename_i s hs
    split
    · exact .inl rfl
    · rename_i u s' hok
      exact .inr ⟨s, s', u, hs, hok, rfl⟩

/-- An answer identifies a device that was offline. -/
theorem onAnswer_cases (d : Device) :
    (d.state = .offline ∧ onAnswer d = (.online [], { d with state := .identifying })) ∨
    (d.state ≠ .offline ∧ onAnswer d = (.none, d)) := by
  unfold onAnswer
  split
  · rename_i h
    exact .inl ⟨h, rfl⟩
  · rename_i h
    exact .inr ⟨h, rfl⟩

/-- The codes with a row of their own, apart from that of `osdp_ACK`. -/
def tabled : List Code :=
  [Code.pdID, Code.pdCap, Code.iStatR, Code.oStatR, Code.lStatR, Code.rStatR, Code.cCrypt,
    Code.rMacI, Code.raw, Code.keypad, Code.nak, Code.mfgReply, Code.com, Code.busy]

/-- Those of them whose payload is parsed. -/
def parsed : List Code :=
  [Code.pdID, Code.pdCap, Code.iStatR, Code.oStatR, Code.lStatR, Code.rStatR, Code.raw,
    Code.keypad, Code.nak, Code.mfgReply, Code.com]

/-- The codes of the status reports. -/
def statusCodes : List Code := [Code.iStatR, Code.oStatR, Code.lStatR, Code.rStatR]

/-- **The dispatcher's table.** A fact about what the dispatcher returns is one about each of its
rows. -/
theorem dispatch_rows (b : Bus) (d : Device) (m : Message)
    {motive : Except Error Event × Device → Prop}
    (malformed : m.code ∈ parsed → motive (.error .shortPayload, d))
    (identified : ∀ id, m.code = Code.pdID → parseDeviceID m.data = some id →
      motive (.ok (.identified id), { d with id := id, state := .identifying }))
    (capabilities : ∀ report e, m.code = Code.pdCap → parseCapabilities m.data = some report →
      e = .capabilities report ∨ (e = .online report ∧
        (afterCapabilities b { d with caps := report }).state ≠ .secureHandshake) →
      motive (.ok e, afterCapabilities b { d with caps := report }))
    (status : ∀ ss e, m.code ∈ statusCodes → e = .none ∨ (∃ changed, changed ≠ [] ∧ e = .statusChange changed) →
      motive (.ok e, { d with status := ss }))
    (cryptogram : m.code = Code.cCrypt →
      motive (.ok (onCryptogram d m.data).1, (onCryptogram d m.data).2))
    (initialRMAC : m.code = Code.rMacI →
      motive (.ok (onInitialRMAC d m.data).1, (onInitialRMAC d m.data).2))
    (card : ∀ card, m.code = Code.raw → parseCardRead m.data = some card →
      motive (.ok (.cardRead card), d))
    (keypad : ∀ entry, m.code = Code.keypad → parseKeypadEntry m.data = some entry →
      motive (.ok (.keypad entry), d))
    (refused : ∀ reason, m.code = Code.nak → motive (.ok (.nak reason), { d with pendingKey := none }))
    (manufacturer : ∀ mfg, m.code = Code.mfgReply → parseManufacturerMessage m.data = some mfg →
      motive (.ok (.manufacturer mfg), d))
    (moved : ∀ c, m.code = Code.com → parseCommunication m.data = some c →
      motive (.ok (.communication c d.address), { d with address := c.address }.resync))
    (busy : m.code = Code.busy → motive (.ok .busy, { d.reclaim with deferCommands := true }))
    (installed : ∀ k, m.code = Code.ack → d.pendingKey = some k → d.acknowledged = Code.keySet →
      motive (.ok (.keyInstalled (Secure.isDefault k)),
        { d with pendingKey := none, installedKey := some k, session := none, pending := none,
                 state := .identifying }))
    (answer : m.code ∉ tabled → motive (.ok (onAnswer d).1, (onAnswer d).2)) :
    motive (dispatch b d m) := by
  have hparsed : ∀ {c : Code}, m.code = c → c ∈ parsed → motive (.error .shortPayload, d) := by
    rintro c rfl h
    exact malformed h
  have hstatus : ∀ {c : Code} (parse : Octets → Option (List StatusChange)), m.code = c →
      c ∈ parsed → c ∈ statusCodes → motive (onStatus d parse m.data) := by
    rintro c parse rfl hp hs
    unfold onStatus
    split
    · exact malformed hp
    · simp only
      split
      · exact status _ _ hs (.inl rfl)
      · rename_i hne
        exact status _ _ hs (.inr ⟨_, fun h => hne (by rw [h]; rfl), rfl⟩)
  unfold dispatch
  refine iteInduction (motive := motive) (fun h => ?_) fun h1 => ?_
  · split
    · exact hparsed h (by decide)
    · rename_i id hid
      exact identified id h hid
  refine iteInduction (motive := motive) (fun h => ?_) fun h2 => ?_
  · split
    · exact hparsed h (by decide)
    · rename_i report hreport
      simp only
      split
      · exact capabilities report _ h hreport (.inl rfl)
      · rename_i hstate
        exact capabilities report _ h hreport (.inr ⟨rfl, hstate⟩)
  refine iteInduction (motive := motive) (fun h => hstatus _ h (by decide) (by decide)) fun h3 => ?_
  refine iteInduction (motive := motive) (fun h => hstatus _ h (by decide) (by decide)) fun h4 => ?_
  refine iteInduction (motive := motive) (fun h => hstatus _ h (by decide) (by decide)) fun h5 => ?_
  refine iteInduction (motive := motive) (fun h => hstatus _ h (by decide) (by decide)) fun h6 => ?_
  refine iteInduction (motive := motive) cryptogram fun h7 => ?_
  refine iteInduction (motive := motive) initialRMAC fun h8 => ?_
  refine iteInduction (motive := motive) (fun h => ?_) fun h9 => ?_
  · split
    · exact hparsed h (by decide)
    · rename_i c hc
      exact card c h hc
  refine iteInduction (motive := motive) (fun h => ?_) fun h10 => ?_
  · split
    · exact hparsed h (by decide)
    · rename_i entry hentry
      exact keypad entry h hentry
  refine iteInduction (motive := motive) (fun h => ?_) fun h11 => ?_
  · split
    · exact hparsed h (by decide)
    · exact refused _ h
  refine iteInduction (motive := motive) (fun h => ?_) fun h12 => ?_
  · split
    · exact hparsed h (by decide)
    · rename_i mfg hmfg
      exact manufacturer mfg h hmfg
  refine iteInduction (motive := motive) (fun h => ?_) fun h13 => ?_
  · unfold onCommunication
    split
    · exact hparsed h (by decide)
    · rename_i c hc
      exact moved c h hc
  refine iteInduction (motive := motive) busy fun h14 => ?_
  have hlast : m.code ∉ tabled := by simp [tabled, *]
  refine iteInduction (motive := motive) (fun hack => ?_) fun _ => answer hlast
  split
  · rename_i k hk haw
    have hacknowledged : d.acknowledged = Code.keySet := by
      simpa [Device.awaitingKeySet, hk] using haw
    simpa [onKeyInstalled, Device.adoptPendingKey, hk, Device.clearPendingKey, Device.dropSession]
      using installed k hack hk hacknowledged
  · exact answer hlast

/-- **What the dispatcher may come to.** Apart from the enrolment and session fields, a
message changes the keys (`osdp_NAK`, `osdp_ACK`), restarts the exchange at a new address
(`osdp_COM`), or gives a released command back (`osdp_BUSY`). -/
def Dispatched (d : Device) (m : Message) (r : Except Error Event × Device) : Prop :=
  (m.code ≠ Code.busy ∧ ∃ i c st se pe de ss, r.2 =
    { d with id := i, caps := c, state := st, session := se, pending := pe,
             secureDeclined := de, status := ss }) ∨
  (m.code = Code.nak ∧ r.2 = { d with pendingKey := none }) ∨
  (∃ k, m.code = Code.ack ∧ d.pendingKey = some k ∧ d.acknowledged = Code.keySet ∧
    r = (.ok (.keyInstalled (Secure.isDefault k)),
      { d with pendingKey := none, installedKey := some k, session := none, pending := none,
               state := .identifying })) ∨
  (∃ c, m.code = Code.com ∧ parseCommunication m.data = some c ∧
    r = (.ok (.communication c d.address), { d with address := c.address }.resync)) ∨
  (m.code = Code.busy ∧ r = (.ok .busy, { d.reclaim with deferCommands := true }))

/-- **What a message does**, row by row. -/
theorem dispatch_cases (b : Bus) (d : Device) (m : Message) :
    Dispatched d m (dispatch b d m) := by
  apply dispatch_rows b d m (motive := Dispatched d m)
  case malformed => exact fun h => .inl ⟨ne_of_mem_of_not_mem h (by decide), _, _, _, _, _, _, _, rfl⟩
  case identified => exact fun id h _ => .inl ⟨h.trans_ne (by decide), _, _, _, _, _, _, _, rfl⟩
  case capabilities =>
    intro report e h _ _
    obtain ⟨st, se, de, he⟩ := afterCapabilities_eq b { d with caps := report }
    refine .inl ⟨h.trans_ne (by decide), ?_⟩
    rw [he]
    exact ⟨_, _, _, _, _, _, _, rfl⟩
  case status => exact fun ss e h _ => .inl ⟨ne_of_mem_of_not_mem h (by decide), _, _, _, _, _, _, _, rfl⟩
  case cryptogram =>
    intro h
    obtain ⟨st, se, pe, de, he⟩ := onCryptogram_eq d m.data
    refine .inl ⟨h.trans_ne (by decide), ?_⟩
    rw [he]
    exact ⟨_, _, _, _, _, _, _, rfl⟩
  case initialRMAC =>
    intro h
    obtain ⟨st, se, pe, de, he⟩ := onInitialRMAC_eq d m.data
    refine .inl ⟨h.trans_ne (by decide), ?_⟩
    rw [he]
    exact ⟨_, _, _, _, _, _, _, rfl⟩
  case card => exact fun card h _ => .inl ⟨h.trans_ne (by decide), _, _, _, _, _, _, _, rfl⟩
  case keypad => exact fun entry h _ => .inl ⟨h.trans_ne (by decide), _, _, _, _, _, _, _, rfl⟩
  case refused => exact fun reason h => .inr (.inl ⟨h, rfl⟩)
  case manufacturer => exact fun mfg h _ => .inl ⟨h.trans_ne (by decide), _, _, _, _, _, _, _, rfl⟩
  case moved => exact fun c h hc => .inr (.inr (.inr (.inl ⟨c, h, hc, rfl⟩)))
  case busy => exact fun h => .inr (.inr (.inr (.inr ⟨h, rfl⟩)))
  case installed => exact fun k h hk hak => .inr (.inr (.inl ⟨k, h, hk, hak, rfl⟩))
  case answer =>
    intro h
    obtain ⟨st, he⟩ := onAnswer_eq d
    refine .inl ⟨fun hm => h (hm ▸ by decide), ?_⟩
    rw [he]
    exact ⟨_, _, _, _, _, _, _, rfl⟩

/-- The row of a capability report. -/
theorem dispatch_capabilityReport (b : Bus) (d : Device) (h : m.code = Code.pdCap) :
    (dispatch b d m).2 = match parseCapabilities m.data with
      | none => d
      | some report => afterCapabilities b { d with caps := report } := by
  have hne : ¬ m.code = Code.pdID := h.trans_ne (by decide)
  cases hreport : parseCapabilities m.data with
  | none => simp only [dispatch, if_neg hne, if_pos h, hreport]
  | some report =>
    simp only [dispatch, if_neg hne, if_pos h, hreport]
    split <;> rfl

/-- The row of an initial R-MAC. -/
theorem dispatch_initialRMAC (b : Bus) (d : Device) (h : m.code = Code.rMacI) :
    (dispatch b d m).2 = (onInitialRMAC d m.data).2 := by
  simp [dispatch, h, Code.rMacI, Code.pdID, Code.pdCap, Code.iStatR, Code.oStatR, Code.lStatR,
    Code.rStatR, Code.cCrypt]

/-- **Where a message leaves enrolment and the handshake.** -/
inductive Enrolled (b : Bus) (d : Device) (m : Message) (e : Device) : Prop where
  | same (hst : e.state = d.state) (hse : e.session = d.session) (hpe : e.pending = d.pending)
  | identifying (hst : e.state = .identifying) (hse : e.session = d.session)
      (hpe : e.pending = d.pending)
  | capabilities (report : CapabilityReport) (hm : m.code = Code.pdCap)
      (hst : e.state = (afterCapabilities b { d with caps := report }).state)
      (hse : e.session = (afterCapabilities b { d with caps := report }).session)
      (hpe : e.pending = d.pending)
  | dropped (hse : e.session = none) (hpe : e.pending = none)
  | cryptogram (s s' : Session) (hm : m.code = Code.cCrypt) (hs : d.session = some s)
      (hfrom : s.state = .challenged) (hto : s'.state = .cryptogram) (hst : e.state = d.state)
      (hse : e.session = some s') (hpe : ∃ st, e.pending = some st ∧ st.msg.code = Code.sCrypt)
  | established (s s' : Session) (hm : m.code = Code.rMacI) (hs : d.session = some s)
      (hfrom : s.state = .cryptogram) (hto : s'.state = .established) (hst : e.state = .secure)
      (hse : e.session = some s') (hpe : e.pending = d.pending)

/-- **What a message does to enrolment.** -/
theorem dispatch_enrolled (b : Bus) (d : Device) (m : Message) :
    Enrolled b d m (dispatch b d m).2 := by
  apply dispatch_rows b d m (motive := fun r => Enrolled b d m r.2)
  case malformed => exact fun _ => .same rfl rfl rfl
  case identified => exact fun _ _ _ => .identifying rfl rfl rfl
  case capabilities =>
    intro report e h _ _
    obtain ⟨st, se, de, he⟩ := afterCapabilities_eq b { d with caps := report }
    exact .capabilities report h rfl rfl (by rw [he])
  case status => exact fun _ _ _ _ => .same rfl rfl rfl
  case cryptogram =>
    intro h
    obtain he | ⟨s, s', out, hs, hok, he⟩ := onCryptogram_cases d m.data
    · rw [he]
      exact .dropped rfl rfl
    · obtain ⟨hfrom, hto⟩ := Secure.Session.answerCryptogram_ok hok
      rw [he]
      exact .cryptogram s s' h hs hfrom hto rfl rfl ⟨_, rfl, rfl⟩
  case initialRMAC =>
    intro h
    obtain he | ⟨s, s', u, hs, hok, he⟩ := onInitialRMAC_cases d m.data
    · rw [he]
      exact .dropped rfl rfl
    · obtain ⟨hfrom, hto⟩ := Secure.Session.completeHandshake_ok hok
      rw [he]
      exact .established s s' h hs hfrom hto rfl rfl rfl
  case card => exact fun _ _ _ => .same rfl rfl rfl
  case keypad => exact fun _ _ _ => .same rfl rfl rfl
  case refused => exact fun _ _ => .same rfl rfl rfl
  case manufacturer => exact fun _ _ _ => .same rfl rfl rfl
  case moved => exact fun _ _ _ => .dropped rfl rfl
  case busy =>
    intro _
    rw [Device.reclaim_eq]
    split <;> exact .same rfl rfl rfl
  case installed => exact fun _ _ _ _ => .dropped rfl rfl
  case answer =>
    intro _
    obtain ⟨-, he⟩ | ⟨-, he⟩ := onAnswer_cases d
    · rw [he]
      exact .identifying rfl rfl rfl
    · rw [he]
      exact .same rfl rfl rfl

/-- An `osdp_ACK` to an `osdp_KEYSET` adopts the key the slot holds. -/
theorem dispatch_adopts (b : Bus) {k : BaseKey} (hm : m.code = Code.ack)
    (hk : d.pendingKey = some k) (hak : d.acknowledged = Code.keySet) :
    dispatch b d m = (.ok (.keyInstalled (Secure.isDefault k)),
      { d with pendingKey := none, installedKey := some k, session := none, pending := none,
               state := .identifying }) := by
  have haw : d.awaitingKeySet = true := by simp [Device.awaitingKeySet, hk, hak]
  simp [dispatch, hm, Code.ack, Code.pdID, Code.pdCap, Code.iStatR, Code.oStatR, Code.lStatR,
    Code.rStatR, Code.cCrypt, Code.rMacI, Code.raw, Code.keypad, Code.nak, Code.mfgReply, Code.com,
    Code.busy, haw, hk, onKeyInstalled, Device.adoptPendingKey, Device.clearPendingKey,
    Device.dropSession]

/-! ## `Reply` and `Timeout` -/

/-- A reply let through keeps its header, and only the session may have moved. -/
theorem openIfEstablished_ok (h : openIfEstablished d f = .ok (g, e)) :
    ∃ data s, g = { f with data := data } ∧ e = { d with session := s } := by
  unfold openIfEstablished at h
  split at h
  · cases h
    exact ⟨f.data, d.session, rfl, rfl⟩
  · split at h
    · split at h
      · cases h
      · cases h
        exact ⟨_, _, rfl, rfl⟩
    · cases h
      exact ⟨f.data, d.session, rfl, rfl⟩

/-- Opening a reply does not look at the count of misses. -/
theorem openIfEstablished_misses (d : Device) (f : Frame) (n : ℕ) :
    openIfEstablished { d with misses := n } f =
      (openIfEstablished d f).map fun r => (r.1, { r.2 with misses := n }) := by
  unfold openIfEstablished
  cases hs : d.session with
  | none => simp [Except.map, hs]
  | some s =>
    simp only
    split
    · cases openReply s f <;> simp [Except.map]
    · simp [Except.map, hs]

/-- What is let through once the count is reset is let through by the record itself. -/
theorem openIfEstablished_of_misses {n : ℕ} {data : Octets} {s : Option Session}
    (h : openIfEstablished { d with misses := n } f =
      .ok ({ f with data := data }, { d with misses := n, session := s })) :
    openIfEstablished d f = .ok ({ f with data := data }, { d with session := s }) := by
  rw [openIfEstablished_misses] at h
  cases ho : openIfEstablished d f with
  | error e => simp [ho, Except.map] at h
  | ok r =>
    obtain ⟨g, e⟩ := r
    obtain ⟨data', s', rfl, rfl⟩ := openIfEstablished_ok ho
    simp only [ho, Except.map, Except.ok.injEq, Prod.mk.injEq] at h
    rw [h.1, show s' = s from congrArg Device.session h.2]

/-- And what is refused then is refused by the record itself. -/
theorem openIfEstablished_error_of_misses {n : ℕ} {e : Secure.Error}
    (h : openIfEstablished { d with misses := n } f = .error e) :
    openIfEstablished d f = .error e := by
  rw [openIfEstablished_misses] at h
  cases ho : openIfEstablished d f with
  | error e' => simpa [ho, Except.map] using h
  | ok r => simp [ho, Except.map] at h

/-- Only an established session refuses a reply. -/
theorem openIfEstablished_error {e : Secure.Error} (h : openIfEstablished d f = .error e) :
    d.session ≠ none := by
  intro hs
  simp [openIfEstablished, hs] at h

/-- A reply that opens moves the reply chain. -/
theorem openReply_ok {s s' : Session} (h : openReply s f = .ok (data, s')) :
    ∃ mac, s' = s.commit false mac := by
  unfold openReply at h
  split at h
  · cases h
  · split at h
    · cases h
    · simp only at h
      generalize hv : s.verify _ _ false = r at h
      cases r with
      | error e => cases h
      | ok s'' =>
        obtain ⟨-, mac, -, -, rfl⟩ := Secure.Session.verify_ok hv
        simp only at h
        split at h
        · cases h
          exact ⟨mac, rfl⟩
        · split at h
          · cases h
          · cases h
            exact ⟨mac, rfl⟩

/-- A reply let through moves nothing, or moves the chain of an established session. -/
theorem openIfEstablished_session {s : Option Session}
    (h : openIfEstablished d f = .ok (g, { d with session := s })) :
    s = d.session ∨ ∃ t t', d.session = some t ∧ s = some t' ∧ t.state = .established ∧
      t'.state = .established := by
  unfold openIfEstablished at h
  split at h
  · simp only [Except.ok.injEq, Prod.mk.injEq] at h
    exact .inl (congrArg Device.session h.2).symm
  · rename_i t ht
    split at h
    · rename_i hest
      split at h
      · cases h
      · rename_i data t' hok
        simp only [Except.ok.injEq, Prod.mk.injEq] at h
        have hs : some t' = s := congrArg Device.session h.2
        obtain ⟨mac, hcommit⟩ := openReply_ok hok
        have hst : t.state = .established := by simpa [Session.established] using hest
        refine .inr ⟨t, t', ht, hs.symm, hst, ?_⟩
        rw [hcommit, Secure.Session.commit_state, hst]
    · simp only [Except.ok.injEq, Prod.mk.injEq] at h
      exact .inl (congrArg Device.session h.2).symm

/-- The message a reply turns out to carry once an established session has let it through. -/
def Device.opened (d : Device) (f : Frame) : Option Message :=
  match openIfEstablished d f with
  | .ok (g, _) => some (Message.decode g)
  | .error _ => none

/-- Opening a reply does not look at the count of misses. -/
theorem Device.opened_misses (d : Device) (f : Frame) (n : ℕ) :
    { d with misses := n }.opened f = d.opened f := by
  unfold opened openIfEstablished
  cases d.session with
  | none => rfl
  | some s =>
    simp only
    by_cases he : s.established = true
    · simp only [he, if_true]
      cases openReply s f <;> rfl
    · simp [he]

/-- A reply to this device with a sequence number, as its session lets it through. -/
def Device.hears (d : Device) (f : Frame) : Option Message :=
  if f.isReply = true ∧ f.address = d.address ∧ f.control.sequence ≠ 0 then d.opened f else none

/-- What a reply that was let through says. -/
theorem Device.hears_eq (hr : f.isReply = true) (ha : f.address = d.address)
    (hz : f.control.sequence ≠ 0)
    (ho : openIfEstablished { d with misses := n } f = .ok ({ f with data := data }, e)) :
    d.hears f = some { code := f.code, isReply := f.isReply, data := data } := by
  rw [hears, if_pos ⟨hr, ha, hz⟩, ← d.opened_misses f n]
  simp [opened, ho, Message.decode]

/-- A frame that is no reply of this device is not heard. -/
theorem Device.hears_of_foreign (h : f.isReply = false ∨ f.address ≠ d.address) :
    d.hears f = none := by
  rw [hears, if_neg]
  rintro ⟨hr, ha, -⟩
  obtain hr' | ha' := h
  · rw [hr] at hr'
    cases hr'
  · exact ha' ha

/-- Nor is one that its session refuses. -/
theorem Device.hears_of_closed {e : Secure.Error}
    (h : openIfEstablished { d with misses := n } f = .error e) : d.hears f = none := by
  have hclosed : d.opened f = none := by
    rw [← d.opened_misses f n]
    simp [opened, h]
  rw [hears, hclosed]
  exact ite_self _

/-- **What a reply may come to.** -/
theorem reply_cases (b : Bus) (d : Device) (f : Frame) :
    ((f.isReply = false ∨ f.address ≠ d.address) ∧ ∃ e, reply b d f = (.error e, d)) ∨
    (f.isReply = true ∧ f.address = d.address ∧
      ((f.control.sequence = 0 ∧ reply b d f = (.ok .resync, { d with misses := 0 }.resync)) ∨
       (f.control.sequence ≠ 0 ∧ (∃ e, openIfEstablished { d with misses := 0 } f = .error e) ∧
         reply b d f = (.ok .secureFailed, { d with misses := 0 }.resync)) ∨
       (f.control.sequence ≠ 0 ∧ ∃ data s,
         openIfEstablished { d with misses := 0 } f =
           .ok ({ f with data := data }, { d with misses := 0, session := s }) ∧
         reply b d f = dispatch b { d with misses := 0, session := s }.delivered
           { code := f.code, isReply := f.isReply, data := data }))) := by
  unfold reply
  by_cases hr : f.isReply = true
  · by_cases ha : f.address = d.address
    · refine .inr ⟨hr, ha, ?_⟩
      by_cases hz : f.control.sequence = 0
      · exact .inl ⟨hz, by simp [hr, ha, hz]⟩
      · cases ho : openIfEstablished { d with misses := 0 } f with
        | error e => exact .inr (.inl ⟨hz, ⟨e, rfl⟩, by simp [hr, ha, hz, ho]⟩)
        | ok r =>
          obtain ⟨g, e⟩ := r
          obtain ⟨data, s, rfl, rfl⟩ := openIfEstablished_ok ho
          exact .inr (.inr ⟨hz, data, s, rfl, by simp [hr, ha, hz, ho, Message.decode]⟩)
    · exact .inl ⟨.inr ha, .wrongAddress, by simp [hr, ha]⟩
  · exact .inl ⟨.inl (by simpa using hr), .notAReply, by simp [hr]⟩

/-- A silence puts whatever was in flight back at the head of the outbox, and the third in a
row restarts the exchange with a device that was answering. -/
theorem timeout_cases (d : Device) :
    ((d.misses + 1 < offlineThreshold ∨ d.state = .offline) ∧
      timeout d = (.none, { d with misses := d.misses + 1 }.retransmit)) ∨
    (offlineThreshold ≤ d.misses + 1 ∧ d.state ≠ .offline ∧
      timeout d = (.offline, { d with misses := d.misses + 1 }.resync)) := by
  have hresync : ({ d with misses := d.misses + 1 }.retransmit).resync =
      { d with misses := d.misses + 1 }.resync := by
    simp [Device.resync_eq, Device.retransmit_eq]
  have hm : ({ d with misses := d.misses + 1 }.retransmit).misses = d.misses + 1 := by
    simp [Device.retransmit_eq]
  have hst : ({ d with misses := d.misses + 1 }.retransmit).state = d.state := by
    simp [Device.retransmit_eq]
  unfold timeout
  simp only [hm, hst, hresync]
  by_cases h : d.misses + 1 < offlineThreshold ∨ d.state = .offline
  · exact .inl ⟨h, if_pos h⟩
  · refine .inr ⟨?_, ?_, if_neg h⟩
    · omega
    · exact fun hs => h (.inr hs)

end Osdp.Bus
