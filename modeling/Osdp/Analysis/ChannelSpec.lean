import Osdp.Analysis.RetrySpec
import Osdp.Analysis.SealedFrame

/-!
# One exchange over a Secure Channel, end by end

What an established session meets at the panel and at the device while the traffic is ordinary:
commands that neither end the session nor ask for its parameters anew, and replies that do not take
the panel back into enrolment.
-/

set_option autoImplicit false

namespace Osdp

open Osdp.Secure (Session Block Rnd)

/-- The replies that belong to enrolment and the handshake, or announce another address. -/
def Code.enrols (c : Code) : Bool :=
  c == Code.pdID || c == Code.pdCap || c == Code.cCrypt || c == Code.rMacI || c == Code.com

/-- The commands whose replies take a panel out of its session: two ask for what enrolment asks
for, the others change the address or the key the session rests on. -/
def Code.endsSession (c : Code) : Bool :=
  c == Code.id || c == Code.cap || c == Code.comSet || c == Code.keySet

/-! ## The panel -/

namespace Bus

variable {b : Bus} {d e : Device} {m : Message} {err : Error} {rndA : Rnd} {s : Session}

/-- A failure to compose a frame leaves the session as it was. -/
theorem compose_error_session {block : Option SecurityBlock}
    (h : compose b d m block = (.error err, e)) : e.session = d.session := by
  unfold compose at h
  simp only [Device.nextSequence_eq] at h
  split at h
  · split at h <;> cases h
    rfl
  · split at h
    · cases h
      rfl
    · split at h
      · cases h
        rfl
      · split at h
        · split at h
          · cases h
            rfl
          · split at h <;> cases h
            rfl
        · cases h

/-- What a panel asks in the state `Secure`. -/
theorem commandFor_secure (hst : d.state = .secure) (rndA : Rnd) :
    ∃ q e, commandFor d rndA = (q, some (blockForCommand q.data.length), e) ∧
      q = d.takes.getD Device.pollMessage ∧ e.session = d.session ∧ e.state = .secure ∧
      e.inflight = (d.takes.map some).getD d.inflight := by
  cases ht : d.takes with
  | some m =>
    refine ⟨m, { d with outbox := d.outbox.tail, inflight := some m }, ?_, rfl, rfl, hst, rfl⟩
    rw [commandFor_of_takes ht, if_pos hst]
  | none =>
    refine ⟨Device.pollMessage, { d with deferCommands := false }, ?_, rfl, rfl, hst, rfl⟩
    obtain ⟨m, hm, -⟩ | ⟨-, hs, -⟩ | ⟨-, hs, -⟩ | ⟨-, hs, -⟩ | ⟨-, -, he⟩ := commandFor_cases d rndA
    · rw [ht] at hm
      cases hm
    · rw [hst] at hs
      cases hs
    · rw [hst] at hs
      cases hs
    · rw [hst] at hs
      cases hs
    · rw [he, if_pos hst]
      rfl

/-- A command of a session goes under one of two blocks. -/
theorem blockForCommand_type (n : ℕ) :
    (blockForCommand n).type = Secure.scs15 ∨ (blockForCommand n).type = Secure.scs17 := by
  unfold blockForCommand
  split
  · exact .inr rfl
  · exact .inl rfl

/-- Both are blocks of an established session. -/
theorem blockForCommand_established (n : ℕ) :
    Secure.BlockType.established (blockForCommand n).type = true := by
  rcases blockForCommand_type n with h | h <;> rw [h] <;> decide

/-- What `Next` leaves of a panel in the state `Secure`. -/
structure Asked (d e : Device) (s : Session) : Prop where
  state : e.state = .secure
  session : e.session = some s
  inflight : e.inflight = (d.takes.map some).getD d.inflight

/-- **A command that a panel sends in the state `Secure`** is sealed by its session. -/
theorem transact_sealed {f : Frame} (hst : d.state = .secure) (hs : d.session = some s)
    (h : transact b d rndA = (.ok f, e)) :
    ∃ block mac, (block.type = Secure.scs15 ∨ block.type = Secure.scs17) ∧
      Sealed s true block (d.takes.getD Device.pollMessage).data mac f ∧
      f.code = (d.takes.getD Device.pollMessage).code ∧ Asked d e (s.commit true mac) := by
  obtain ⟨q, e', he, rfl, hse, hst', hin⟩ := commandFor_secure hst rndA
  have hcode := (transact_ok h).code
  unfold transact at h
  simp only [he] at h hcode
  obtain ⟨s', mac, hs', -, hsealed, hsession⟩ := sealed_of_compose (blockForCommand_established _) h
  rw [hse, hs] at hs'
  cases hs'
  obtain ⟨q, r, se, hdev⟩ := compose_device b e' (d.takes.getD Device.pollMessage)
    (some (blockForCommand (d.takes.getD Device.pollMessage).data.length))
  rw [h] at hdev
  simp only at hdev
  refine ⟨_, mac, blockForCommand_type _, hsealed, hcode, ?_, hsession, ?_⟩
  · rw [hdev]
    exact hst'
  · rw [hdev]
    exact hin

/-- A command that cannot be sealed leaves the session as it was. -/
theorem transact_unsealed (hst : d.state = .secure) (hs : d.session = some s)
    (h : transact b d rndA = (.error err, e)) : Asked d e s := by
  obtain ⟨q, e', he, rfl, hse, hst', hin⟩ := commandFor_secure hst rndA
  unfold transact at h
  simp only [he] at h
  have hsession := compose_error_session h
  obtain ⟨q, r, se, hdev⟩ := compose_device b e' (d.takes.getD Device.pollMessage)
    (some (blockForCommand (d.takes.getD Device.pollMessage).data.length))
  rw [h] at hdev
  simp only at hdev
  refine ⟨?_, by rw [hsession, hse, hs], ?_⟩
  · rw [hdev]
    exact hst'
  · rw [hdev]
    exact hin

/-- A silence that is not the third keeps the session, and repeats the number of what was lost. -/
theorem timeout_keeps (h : (timeout d).1 ≠ .offline) :
    (timeout d).2.state = d.state ∧ (timeout d).2.session = d.session ∧
      (timeout d).2.inflight = none ∧ (timeout d).2.seq = d.seq ∧
      (timeout d).2.repeatSequence = (d.inflight.isSome || d.repeatSequence) := by
  obtain ⟨-, he⟩ | ⟨-, -, he⟩ := timeout_cases d
  · rw [he, Device.retransmit_eq]
    exact ⟨rfl, rfl, rfl, rfl, rfl⟩
  · rw [he] at h
    exact absurd rfl h

/-- A reply outside enrolment, to a command that was not an `osdp_KEYSET`, leaves the session. -/
theorem dispatch_keeps (b : Bus) (hst : d.state ≠ .offline) (hcode : Code.enrols m.code = false)
    (hack : d.acknowledged ≠ Code.keySet) :
    (dispatch b d m).2.state = d.state ∧ (dispatch b d m).2.session = d.session ∧
      (dispatch b d m).2.misses = d.misses ∧
      (dispatch b d m).2.repeatSequence = d.repeatSequence := by
  simp only [Code.enrols, Bool.or_eq_false_iff, beq_eq_false_iff_ne, ne_eq] at hcode
  obtain ⟨⟨⟨⟨hid, hcap⟩, hcrypt⟩, hrmac⟩, hcom⟩ := hcode
  apply dispatch_rows b d m (motive := fun r => r.2.state = d.state ∧ r.2.session = d.session ∧
    r.2.misses = d.misses ∧ r.2.repeatSequence = d.repeatSequence)
  case malformed => exact fun _ => ⟨rfl, rfl, rfl, rfl⟩
  case identified => exact fun _ h _ => absurd h hid
  case capabilities => exact fun _ _ h _ _ => absurd h hcap
  case status => exact fun _ _ _ _ => ⟨rfl, rfl, rfl, rfl⟩
  case cryptogram => exact fun h => absurd h hcrypt
  case initialRMAC => exact fun h => absurd h hrmac
  case card => exact fun _ _ _ => ⟨rfl, rfl, rfl, rfl⟩
  case keypad => exact fun _ _ _ => ⟨rfl, rfl, rfl, rfl⟩
  case refused => exact fun _ _ => ⟨rfl, rfl, rfl, rfl⟩
  case manufacturer => exact fun _ _ _ => ⟨rfl, rfl, rfl, rfl⟩
  case moved => exact fun _ h _ => absurd h hcom
  case busy =>
    intro _
    rw [Device.reclaim_eq]
    split <;> exact ⟨rfl, rfl, rfl, rfl⟩
  case installed => exact fun _ _ _ h => absurd h hack
  case answer =>
    intro _
    simp only [onAnswer, if_neg hst, and_self]

end Bus

/-- **A reply that opens** leaves the panel secure, with the chain moved on and nothing to repeat. -/
theorem Line.await_opened (b : Bus) {l : Line} {s s' : Session} {r : Frame} {payload : Octets}
    (hst : l.panel.state = .secure) (hs : l.panel.session = some s) (hest : s.established = true)
    (hrep : l.panel.repeatSequence = false)
    (hkey : ∀ m, l.panel.inflight = some m → m.code ≠ Code.keySet) (hr : r.isReply = true)
    (ha : r.address = l.panel.address) (hz : r.control.sequence ≠ 0)
    (hcode : Code.enrols r.code = false) (hopen : Bus.openReply s r = .ok (payload, s'))
    (x : Exchange) :
    (l.await b x (some r)).2.panel.state = .secure ∧
      (l.await b x (some r)).2.panel.session = some s' ∧
      (l.await b x (some r)).2.panel.inflight = none ∧
      (l.await b x (some r)).2.panel.repeatSequence = false := by
  let d := { l.panel with misses := 0, session := some s' }
  let m : Message := { code := r.code, isReply := r.isReply, data := payload }
  have hreply : Bus.reply b l.panel r = Bus.dispatch b d.delivered m := by
    simp [Bus.reply, hr, ha, hz, Bus.openIfEstablished, hs, hest, hopen, Message.decode, d, m]
  have hack : d.delivered.acknowledged ≠ Code.keySet := by
    rw [Bus.Device.delivered_eq]
    cases hin : l.panel.inflight with
    | none => simp [Code.poll, Code.keySet]
    | some q => simpa [d, hin] using hkey q hin
  have hoffline : d.delivered.state ≠ .offline := by
    simp [d, Bus.Device.delivered_eq, hst]
  obtain ⟨hstate, hsession, hmisses, hrepeat⟩ := Bus.dispatch_keeps b (m := m) hoffline hcode hack
  have hinflight := (Bus.dispatch_queue b d m).1
  rw [← hreply] at hstate hsession hmisses hrepeat hinflight
  rw [Bus.Device.delivered_eq] at hstate hsession hmisses hrepeat
  -- a reply whose payload does not parse is a first silence at most
  have hfirst : (Bus.timeout (Bus.reply b l.panel r).2).1 ≠ .offline := by
    obtain ⟨-, he⟩ | ⟨hthird, -⟩ := Bus.timeout_cases (Bus.reply b l.panel r).2
    · rw [he]
      simp
    · rw [hmisses] at hthird
      exact absurd hthird (by simp [d, Bus.offlineThreshold])
  obtain ⟨hst', hse', hin', -, hrep'⟩ := Bus.timeout_keeps hfirst
  obtain ⟨hnone, -⟩ | ⟨a, ha, hpanel | hpanel⟩ := l.await_panel b x (some r)
  · cases hnone
  · cases ha
    rw [hpanel]
    exact ⟨hstate.trans hst, hsession, hinflight, hrepeat.trans hrep⟩
  · cases ha
    rw [hpanel]
    refine ⟨hst'.trans (hstate.trans hst), hse'.trans hsession, hin', ?_⟩
    rw [hrep', hinflight, hrepeat]
    exact hrep

/-! ## The device -/

namespace Pd.Device

/-- The handler of the commands the table does not know answers none of them with a reply of
enrolment. -/
def Civil (d : Device) : Prop := ∀ code data, Code.enrols (d.delegate code data).code = false

/-- What waits for a poll is no reply of enrolment, and a device without a suite has no session. -/
structure Regular (d : Device) : Prop where
  pending : ∀ m ∈ d.pending, Code.enrols m.code = false
  keyed : d.cfg.suite = none → d.session = none

variable {d : Device} {t : Session} {m : Message}

/-- **The table's row for a command that does not end the session.** Nothing is adopted, and the
reply does not enrol. -/
theorem dispatch_ordinary (hd : ∀ m ∈ d.pending, Code.enrols m.code = false) (hh : d.Civil)
    {code : Code} (hcode : Code.endsSession code = false) (data : Octets) (secured : Bool) :
    Code.enrols (d.dispatch code data secured).1.code = false ∧
      (d.dispatch code data secured).2.adopting = d.adopting ∧
      (d.dispatch code data secured).2.adoptingKey = d.adoptingKey := by
  simp only [Code.endsSession, Bool.or_eq_false_iff, beq_eq_false_iff_ne, ne_eq] at hcode
  obtain ⟨⟨⟨hid, hcap⟩, hcom⟩, hkey⟩ := hcode
  apply dispatch_rows d code data secured (motive := fun r => Code.enrols r.1.code = false ∧
    r.2.adopting = d.adopting ∧ r.2.adoptingKey = d.adoptingKey)
  case idle => exact fun _ _ => ⟨rfl, rfl, rfl⟩
  case event => exact fun m rest _ hp => ⟨hd m (by simp [hp]), rfl, rfl⟩
  case identity => exact fun h => absurd h hid
  case capabilities => exact fun h => absurd h hcap
  case answered =>
    intro m _ hm
    have hall : ∀ c ∈ routine, Code.enrols c = false := by decide +kernel
    exact ⟨hall m.code hm.code, rfl, rfl⟩
  case outputs => exact fun _ _ => ⟨rfl, rfl, rfl⟩
  case address => exact fun _ h _ _ => absurd h hcom
  case key => exact fun _ h _ _ _ => absurd h hkey
  case delegated => exact fun _ => ⟨hh code data, rfl, rfl⟩

/-- A reply under the block of an established session is sealed by it and cached, or cannot be
built and changes nothing. -/
theorem emit_sealed (h : d.Settled) (hs : d.session = some t) (command : Frame) {seq : UInt8}
    (hz : seq ≠ 0) (m : Message) (n : ℕ) :
    (∃ err, d.emit command seq m (some (replyBlock n)) = (.error err, d)) ∨
    ∃ g mac, Sealed t false (replyBlock n) m.data mac g ∧
      d.emit command seq m (some (replyBlock n)) =
        (.ok g, { d with session := some (t.commit false mac), cached := g, cachedSeq := seq,
                         cachedValid := true }) := by
  have hblock : Secure.BlockType.handshake (replyBlock n).type = false := by
    unfold replyBlock
    split <;> decide
  cases he : d.encode { m with isReply := true } seq command.control.scheme
      (some (replyBlock n)) with
  | mk r e =>
    cases r with
    | error err =>
      refine .inl ⟨err, ?_⟩
      simp only [emit, he, (encode_error he).2]
      rw [← h.1, ← h.2]
    | ok g =>
      have hseal := he
      simp only [encode, hblock, Bool.false_eq_true, if_false] at hseal
      obtain ⟨t', mac, ht, hsealed, rfl⟩ := sealed_of_sealReply hseal
      rw [hs] at ht
      cases ht
      refine .inr ⟨g, mac, hsealed, ?_⟩
      have hset : { d with session := some (t.commit false mac), cached := g, cachedSeq := seq,
                           cachedValid := true }.Settled := h
      simp only [emit, he, if_neg hz]
      rw [adoptAddress_of_none hset.1, adoptKey_of_none hset.2]

/-- **A device that answers a sealed command.** The command opens; the reply is sealed with the
chain the command moved, or could not be built. -/
theorem handle_sealed {s : Session} {block : SecurityBlock} {plain : Octets} {mac : Block}
    {f : Frame} {now : ℤ} (hlaw : s.suite.Lawful) (hp : s.Paired t) (hchain : t.rmac = s.rmac)
    (hs : d.session = some t) (hsuite : d.secureEnabled = true) (hsettled : d.Settled)
    (hpending : ∀ m ∈ d.pending, Code.enrols m.code = false) (hh : d.Civil)
    (hf : Sealed s true block plain mac f)
    (hblock : block.type = Secure.scs15 ∨ block.type = Secure.scs17)
    (hcode : Code.endsSession f.code = false) (hz : f.control.sequence ≠ 0)
    (hsilent : d.silent now = false) (hheard : d.heard f = true) (hrep : d.replays now f = false)
    (hstrict : d.cfg.strict = true → d.cachedValid = true →
      f.control.sequence = nextSequence d.cachedSeq) (rndB : Rnd) :
    d.dispatched now f = some (plain, true) ∧
    ((∃ err e, d.handle now rndB f = (.error err, e) ∧ e.session = some (t.commit true mac) ∧
        e.cachedSeq = d.cachedSeq ∧ e.cachedValid = d.cachedValid) ∨
      ∃ g e block' plain' mac', d.handle now rndB f = (.ok g, e) ∧
        Sealed (t.commit true mac) false block' plain' mac' g ∧
        e.session = some ((t.commit true mac).commit false mac')) := by
  have hobs := observe_of_not_silent hsilent
  have hopening : d.opening now f = d.noticed now := by
    simp only [opening, if_neg hz, hobs]
  have hopens : openCommand t f block = .ok (plain, t.commit true mac) := hf.opens hlaw hp hchain
  have hfor : (d.noticed now).dispatchFor f f.control.sequence = some (plain, true) := by
    have hlenient : ¬ ((d.noticed now).cfg.strict = true ∧ (d.noticed now).cachedValid = true ∧
        f.control.sequence ≠ nextSequence (d.noticed now).cachedSeq) :=
      fun hc => hc.2.2 (hstrict hc.1 hc.2.1)
    have hof : (d.noticed now).dispatchOf f = some (plain, true) := by
      have hen : (d.noticed now).secureEnabled = true := hsuite
      have hse : (d.noticed now).session = some t := hs
      simp only [dispatchOf, hf.security, hen, hblock, and_self, if_true, hse, hp.peer, hopens]
    rw [dispatchFor, if_neg hlenient, hof]
  refine ⟨by simp [dispatched, hheard, hrep, hopening, hfor], ?_⟩
  have hhandle := handle_eq_replyTo hheard hrep rndB
  obtain ⟨s', hans, ⟨h, -⟩ | ⟨-, block', u, u', hsec, hu, hopen, rfl⟩⟩ :=
    answerFor_of_dispatchFor hfor rndB
  · cases h
  · rw [hf.security] at hsec
    cases hsec
    rw [show (d.noticed now).session = some t from hs] at hu
    cases hu
    rw [hopens] at hopen
    cases hopen
    obtain ⟨-, hadopt, hadoptKey⟩ := dispatch_ordinary
      (d := { d.noticed now with session := some (t.commit true mac) }) hpending hh hcode plain true
    obtain ⟨p, o, a, k, hdev⟩ := dispatch_device
      { d.noticed now with session := some (t.commit true mac) } f.code plain true
    rw [hhandle, replyTo, hopening, hans]
    simp only [tableAnswer, if_true]
    generalize { d.noticed now with session := some (t.commit true mac) }.dispatch f.code plain true
      = res at hadopt hadoptKey hdev ⊢
    have hset : res.2.Settled := ⟨hadopt.trans hsettled.1, hadoptKey.trans hsettled.2⟩
    have hses : res.2.session = some (t.commit true mac) := by rw [hdev]
    obtain ⟨err, he⟩ | ⟨g, mac', hsealed, he⟩ :=
      emit_sealed hset hses f hz res.1 res.1.data.length
    · refine .inl ⟨err, res.2, he, hses, ?_, ?_⟩
      · rw [hdev]
        rfl
      · rw [hdev]
        rfl
    · exact .inr ⟨g, _, _, _, mac', he, hsealed, rfl⟩

/-! ### What every device keeps -/

/-- A new device is regular. -/
theorem regular_new {addr : Address} {cfg : Settings} (h : new addr cfg = .ok d) : d.Regular := by
  obtain ⟨-, -, -, c, rfl, -⟩ := new_ok h
  exact ⟨by simp, fun _ => rfl⟩

/-- Queueing keeps it regular. -/
theorem queue_regular (h : d.Regular) (hm : Code.enrols m.code = false) :
    (d.queue m).2.Regular := by
  unfold queue
  split
  · exact h
  · refine ⟨fun w hw => ?_, h.keyed⟩
    rcases List.mem_append.mp hw with hw | hw
    · exact h.pending w hw
    · rw [List.mem_singleton.mp hw]
      exact hm

/-- What replaces a report is the new one. -/
theorem mem_replaceFirst {w : Message} {ws ws' : List Message} (h : replaceFirst m ws = some ws')
    (hw : w ∈ ws') : w = m ∨ w ∈ ws := by
  induction ws generalizing ws' with
  | nil => cases h
  | cons v ws ih =>
    unfold replaceFirst at h
    split at h
    · cases h
      rcases List.mem_cons.mp hw with rfl | hw
      · exact .inl rfl
      · exact .inr (List.mem_cons_of_mem v hw)
    · obtain ⟨us, hus, rfl⟩ := Option.map_eq_some_iff.mp h
      rcases List.mem_cons.mp hw with rfl | hw
      · exact .inr List.mem_cons_self
      · rcases ih hus hw with rfl | hw
        · exact .inl rfl
        · exact .inr (List.mem_cons_of_mem v hw)

/-- So does coalescing. -/
theorem coalesce_regular (h : d.Regular) (hm : Code.enrols m.code = false) :
    (d.coalesce m).2.Regular := by
  unfold coalesce
  split
  · rename_i pending hp
    refine ⟨fun w hw => ?_, h.keyed⟩
    rcases mem_replaceFirst hp hw with rfl | hw
    · exact hm
    · exact h.pending w hw
  · exact queue_regular h hm

/-- So does a report. -/
theorem report_regular (h : d.Regular) (r : Report) : (d.report r).2.Regular := by
  cases r with
  | cardRead c =>
    simp only [report, reportCardRead]
    split
    · exact h
    · exact queue_regular h rfl
  | keypad k => exact queue_regular h rfl
  | input index active =>
    simp only [report, setInput]
    split
    · exact h
    · refine coalesce_regular ?_ rfl
      exact ⟨h.pending, h.keyed⟩
  | tamper active =>
    refine coalesce_regular (d := { d with tamper := active }) ?_ rfl
    exact ⟨h.pending, h.keyed⟩
  | power failure =>
    refine coalesce_regular (d := { d with powerFailure := failure }) ?_ rfl
    exact ⟨h.pending, h.keyed⟩

/-- Outputs are set, not added. -/
theorem foldl_applyOutput_length (entries : List (UInt8 × UInt8)) (outputs : List Bool) :
    (entries.foldl applyOutput outputs).length = outputs.length := by
  induction entries generalizing outputs with
  | nil => rfl
  | cons e entries ih =>
    rw [List.foldl_cons, ih]
    unfold applyOutput
    split <;> simp

/-- The table takes events from the front of the queue and keeps the number of outputs. -/
theorem dispatch_sizes (d : Device) (code : Code) (data : Octets) (secured : Bool) :
    (d.dispatch code data secured).2.pending <:+ d.pending ∧
      (d.dispatch code data secured).2.outputs.length = d.outputs.length := by
  apply dispatch_rows d code data secured (motive := fun r => r.2.pending <:+ d.pending ∧
    r.2.outputs.length = d.outputs.length)
  case idle => exact fun _ _ => ⟨List.suffix_rfl, rfl⟩
  case event =>
    intro m rest _ hp
    rw [hp]
    exact ⟨List.suffix_cons m rest, rfl⟩
  case identity => exact fun _ => ⟨List.suffix_rfl, rfl⟩
  case capabilities => exact fun _ => ⟨List.suffix_rfl, rfl⟩
  case answered => exact fun _ _ _ => ⟨List.suffix_rfl, rfl⟩
  case outputs => exact fun _ _ => ⟨List.suffix_rfl, foldl_applyOutput_length _ _⟩
  case address => exact fun _ _ _ _ => ⟨List.suffix_rfl, rfl⟩
  case key => exact fun _ _ _ _ _ => ⟨List.suffix_rfl, rfl⟩
  case delegated => exact fun _ => ⟨List.suffix_rfl, rfl⟩

/-- Without a suite nothing opens a session. -/
theorem answerFor_unkeyed (hsuite : d.cfg.suite = none) (hs : d.session = none) (f : Frame)
    (seq : UInt8) (rndB : Rnd) : (d.answerFor f seq rndB).2.2.session = none := by
  unfold answerFor
  split
  · exact hs
  · unfold answer
    split
    · simp only [answerSecure, hsuite]
      exact hs
    · split
      · rfl
      · obtain ⟨p, o, a, k, he⟩ := dispatch_device d f.code f.data false
        simp only [he]
        exact hs

/-- So does an answer. -/
theorem answerFor_regular (h : d.Regular) (f : Frame) (seq : UInt8) (rndB : Rnd) :
    (d.answerFor f seq rndB).2.2.Regular := by
  obtain ⟨s, p, o, a, k, hdev⟩ := answerFor_device d f seq rndB
  refine ⟨fun m hm => h.pending m ?_, fun hsuite => ?_⟩
  · cases hdisp : d.dispatchFor f seq with
    | none =>
      obtain ⟨s, q, block, he, -⟩ := answerFor_of_none hdisp rndB
      rw [he] at hm
      exact hm
    | some q =>
      obtain ⟨s, he, -⟩ := answerFor_of_dispatchFor hdisp rndB
      rw [he] at hm
      exact (dispatch_sizes { d with session := s } f.code q.1 q.2).1.subset hm
  · have hcfg : d.cfg.suite = none := by
      rw [hdev] at hsuite
      exact hsuite
    exact answerFor_unkeyed hcfg (h.keyed hcfg) f seq rndB

/-- So does adopting a key or an address. -/
theorem regular_adopted (h : d.Regular) : d.adoptAddress.adoptKey.Regular := by
  have haddr : d.adoptAddress.Regular := by
    unfold adoptAddress
    split
    · exact h
    · exact ⟨h.pending, h.keyed⟩
  generalize d.adoptAddress = e at haddr ⊢
  unfold adoptKey
  split
  · exact haddr
  · unfold refreshCapabilities
    split <;> exact ⟨haddr.pending, fun _ => rfl⟩

/-- Without a session a reply makes none. -/
theorem encode_unkeyed (hs : d.session = none) (m : Message) (seq : UInt8) (scheme : Scheme)
    (block : Option SecurityBlock) : (d.encode m seq scheme block).2.session = none := by
  unfold encode
  split
  · split <;> exact hs
  · split
    · split <;> exact hs
    · simp only [sealReply, hs]

/-- So does building a reply. -/
theorem emit_regular (h : d.Regular) (f : Frame) (seq : UInt8) (m : Message)
    (block : Option SecurityBlock) : (d.emit f seq m block).2.Regular := by
  obtain ⟨s, hs⟩ := encode_device d { m with isReply := true } seq f.control.scheme block
  have hencoded : (d.encode { m with isReply := true } seq f.control.scheme block).2.Regular := by
    refine ⟨?_, fun hsuite => ?_⟩
    · rw [hs]
      exact h.pending
    · rw [hs] at hsuite
      exact encode_unkeyed (h.keyed hsuite) _ seq _ block
  unfold emit
  split
  · rename_i err e he
    rw [he] at hencoded
    exact ⟨hencoded.pending, hencoded.keyed⟩
  · rename_i g e he
    rw [he] at hencoded
    refine regular_adopted ?_
    split <;> exact ⟨hencoded.pending, hencoded.keyed⟩

/-- **Every command leaves a device regular.** -/
theorem handle_regular (h : d.Regular) (now : ℤ) (rndB : Rnd) (f : Frame) :
    (d.handle now rndB f).2.Regular := by
  have hobserve : (d.observe now).Regular := by
    unfold observe
    simp only
    split
    · exact ⟨h.pending, fun _ => rfl⟩
    · exact ⟨h.pending, h.keyed⟩
  obtain ⟨-, e, -, he⟩ | ⟨-, -, he⟩ | ⟨-, -, he⟩ := handle_cases d now rndB f
  · rw [he]
    exact h
  · rw [he]
    exact hobserve
  · rw [he]
    refine emit_regular (answerFor_regular ?_ f _ rndB) f _ _ _
    unfold opening
    split
    · exact ⟨hobserve.pending, fun _ => rfl⟩
    · exact hobserve

end Pd.Device

end Osdp
