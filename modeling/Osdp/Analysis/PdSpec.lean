import Osdp.Model.Pd
import Osdp.Analysis.NextSpec

/-!
# What `Handle` does to a device

`Device.dispatchOf` is the payload `answer` hands to the command table, if it hands one;
`answer_of_dispatchOf` and `answer_of_none` say that an answer is a dispatch of that payload
and otherwise touches nothing but the session. `Device.dispatched` carries the same through
the screens, the clock and the sequence number, to `Handle` itself.
-/

set_option autoImplicit false

namespace Osdp

/-! ## Payloads there and back -/

/-- A number is read back modulo its width. -/
theorem fromLittleEndian_littleEndian (n v : ℕ) :
    fromLittleEndian (littleEndian n v) = v % 256 ^ n := by
  induction n generalizing v with
  | zero => simp [littleEndian, fromLittleEndian, Nat.mod_one]
  | succ n ih =>
    rw [littleEndian, fromLittleEndian, ih, Nat.pow_succ', Nat.mod_mul, UInt8.toNat_ofNat']

/-- An identity survives its encoding. -/
theorem parseDeviceID_append (id : DeviceID) : parseDeviceID (Pd.appendDeviceID [] id) = some id := by
  obtain ⟨⟨vendor, hv⟩, model, version, serial, ⟨firmware, hf⟩⟩ := id
  obtain ⟨a, b, c, rfl⟩ := List.length_eq_three.mp hv
  obtain ⟨d, e, f, rfl⟩ := List.length_eq_three.mp hf
  have hserial : UInt32.ofNat (fromLittleEndian (littleEndian 4 serial.toNat)) = serial := by
    have hlt : serial.toNat < 256 ^ 4 := serial.toNat_lt
    rw [fromLittleEndian_littleEndian, Nat.mod_eq_of_lt hlt, UInt32.ofNat_toNat]
  calc parseDeviceID (a :: b :: c :: model :: version :: (littleEndian 4 serial.toNat ++ [d, e, f]))
      = some ⟨⟨[a, b, c], hv⟩, model, version,
          UInt32.ofNat (fromLittleEndian (littleEndian 4 serial.toNat)), ⟨[d, e, f], hf⟩⟩ := rfl
    _ = _ := by rw [hserial]

/-- So does a report of capabilities. -/
theorem parseCapabilities_append (r : CapabilityReport) :
    parseCapabilities (r.append []) = some r := by
  have hentries : (r.append []).length % 3 = 0 ∧ capabilityEntries (r.append []) = r := by
    simp only [CapabilityReport.append, List.nil_append]
    induction r with
    | nil => exact ⟨rfl, rfl⟩
    | cons c r ih =>
      obtain ⟨hlen, hrest⟩ := ih
      refine ⟨?_, ?_⟩
      · rw [List.flatMap_cons, List.length_append]
        simp only [List.length_cons, List.length_nil]
        omega
      · simp only [List.flatMap_cons, List.cons_append, List.nil_append, capabilityEntries, hrest]
  rw [parseCapabilities, if_neg (not_not_intro hentries.1), hentries.2]

namespace Pd

/-- **A device as `New` leaves it**, and what it accepts. -/
theorem new_ok {addr : Address} {cfg : Settings} {d : Device} (h : new addr cfg = .ok d) :
    Address.valid addr = true ∧ addr ≠ broadcastAddress ∧ cfg.validate = .ok () ∧
      ∃ c, d = { cfg := cfg, address := addr, key := cfg.key, capabilities := c,
                 inputs := List.replicate cfg.inputs false,
                 outputs := List.replicate cfg.outputs false } ∧
        (cfg.capabilities = some c ∨ cfg.capabilities = none ∧ c.length = 8) := by
  unfold new at h
  split at h
  · cases h
  · rename_i ha
    simp only [not_or, not_not] at ha
    split at h
    · cases h
    · rename_i hvalid
      cases h
      refine ⟨ha.1, ha.2, hvalid, ?_⟩
      unfold Device.refreshCapabilities
      split
      · rename_i r hr
        exact ⟨r, rfl, .inl hr⟩
      · rename_i hr
        exact ⟨_, rfl, .inr ⟨hr, rfl⟩⟩

open Osdp.Secure (Session BaseKey CipherSuite Rnd macTagSize)

namespace Device

/-- The payload the command table is run on, and whether it came over an established session;
nothing when the answer does not come from the table. -/
def dispatchOf (d : Device) (f : Frame) : Option (Octets × Bool) :=
  match f.security with
  | none => if d.session.any Session.established then none else some (f.data, false)
  | some block =>
    if d.secureEnabled ∧ (block.type = Secure.scs15 ∨ block.type = Secure.scs17) then
      match d.session with
      | none => none
      | some s =>
        if s.established then
          match openCommand s f block with
          | .error _ => none
          | .ok (payload, _) => some (payload, true)
        else none
    else none

/-- The same for a command `answerFor` gets to see. -/
def dispatchFor (d : Device) (f : Frame) (seq : UInt8) : Option (Octets × Bool) :=
  if d.cfg.strict ∧ d.cachedValid ∧ seq ≠ nextSequence d.cachedSeq then none else d.dispatchOf f

/-- Whether `Handle` takes a frame for a command to this device. -/
def heard (d : Device) (f : Frame) : Bool := !f.isReply && f.checkOK && d.addressed f.address

/-- Whether `Handle` answers a command it heard from its cache. -/
def replays (d : Device) (now : ℤ) (f : Frame) : Bool :=
  f.control.sequence ≠ 0 && (d.observe now).cachedValid &&
    f.control.sequence == (d.observe now).cachedSeq

/-- The device that answers a command it neither ignores nor replays: the clock read, and the
exchange started again when the number is zero. -/
def opening (d : Device) (now : ℤ) (f : Frame) : Device :=
  if f.control.sequence = 0 then (d.observe now).restart else d.observe now

/-- What `Handle` runs the command table on. -/
def dispatched (d : Device) (now : ℤ) (f : Frame) : Option (Octets × Bool) :=
  if d.heard f && !d.replays now f then (d.opening now f).dispatchFor f f.control.sequence else none

/-! ## Reports -/

/-- Queueing an event touches the queue only. -/
theorem queue_device (d : Device) (m : Message) :
    ∃ p, (d.queue m).2 = { d with pending := p } := by
  unfold queue
  split <;> exact ⟨_, rfl⟩

/-- Coalescing touches the queue only. -/
theorem coalesce_device (d : Device) (m : Message) :
    ∃ p, (d.coalesce m).2 = { d with pending := p } := by
  unfold coalesce
  split
  · exact ⟨_, rfl⟩
  · exact queue_device d m

/-- A report touches the contacts and the queue of events only. -/
theorem report_device (d : Device) (r : Report) :
    ∃ i t w p, (d.report r).2 =
      { d with inputs := i, tamper := t, powerFailure := w, pending := p } := by
  cases r with
  | cardRead c =>
    simp only [report, reportCardRead]
    split
    · exact ⟨_, _, _, _, rfl⟩
    · obtain ⟨p, hp⟩ := queue_device d { code := Code.raw, data := appendCardRead [] c }
      exact ⟨_, _, _, p, hp⟩
  | keypad k =>
    obtain ⟨p, hp⟩ := queue_device d { code := Code.keypad, data := appendKeypad [] k }
    exact ⟨_, _, _, p, hp⟩
  | input index active =>
    simp only [report, setInput]
    split
    · exact ⟨_, _, _, _, rfl⟩
    · obtain ⟨p, hp⟩ := coalesce_device { d with inputs := d.inputs.set index.toNat active }
        (contactStatus Code.iStatR (d.inputs.set index.toNat active))
      exact ⟨_, _, _, p, hp⟩
  | tamper active =>
    obtain ⟨p, hp⟩ := coalesce_device { d with tamper := active }
      { d with tamper := active }.localStatus
    exact ⟨_, _, _, p, hp⟩
  | power failure =>
    obtain ⟨p, hp⟩ := coalesce_device { d with powerFailure := failure }
      { d with powerFailure := failure }.localStatus
    exact ⟨_, _, _, p, hp⟩

/-! ## The answer -/

/-- The table's answer to a payload, and the block it travels under. -/
def tableAnswer (d : Device) (code : Code) (payload : Octets) (secured : Bool) :
    Message × Option SecurityBlock × Device :=
  let (m, e) := d.dispatch code payload secured
  (m, if secured then some (replyBlock m.data.length) else none, e)

variable {d : Device} {f : Frame} {payload : Octets} {secured : Bool} {seq : UInt8} {now : ℤ}
  {t : Session}

/-- An answer that comes from the table. -/
theorem answer_of_dispatchOf (h : d.dispatchOf f = some (payload, secured)) (rndB : Rnd) :
    ∃ s, d.answer f rndB = { d with session := s }.tableAnswer f.code payload secured ∧
      ((secured = false ∧ s = d.session ∧ payload = f.data ∧ f.security = none) ∨
       (secured = true ∧ ∃ block t t', f.security = some block ∧ d.session = some t ∧
          openCommand t f block = .ok (payload, t') ∧ s = some t')) := by
  unfold dispatchOf at h
  cases hsec : f.security with
  | none =>
    simp only [hsec] at h
    split at h
    · cases h
    · rename_i hest
      cases h
      refine ⟨d.session, ?_, .inl ⟨rfl, rfl, rfl, rfl⟩⟩
      simp [answer, hsec, hest, tableAnswer]
  | some block =>
    simp only [hsec] at h
    split at h
    · rename_i hen
      split at h
      · cases h
      · rename_i t ht
        split at h
        · rename_i hest
          split at h
          · cases h
          · rename_i p t' hopen
            cases h
            obtain ⟨suite, hsuite⟩ := Option.isSome_iff_exists.mp hen.1
            refine ⟨some t', ?_, .inr ⟨rfl, block, t, t', rfl, ht, hopen, rfl⟩⟩
            have h11 : block.type ≠ Secure.scs11 := by
              rintro h11
              rcases hen.2 with h | h <;> rw [h11] at h <;> exact absurd h (by decide)
            have h13 : block.type ≠ Secure.scs13 := by
              rintro h13
              rcases hen.2 with h | h <;> rw [h13] at h <;> exact absurd h (by decide)
            simp [answer, hsec, answerSecure, hsuite, h11, h13, hen.2, answerEstablished, ht, hest,
              hopen, tableAnswer]
        · cases h
    · cases h

/-- An answer that does not come from the table: a refusal or a step of the handshake, and
nothing moved but the session. -/
theorem answer_of_none (h : d.dispatchOf f = none) (rndB : Rnd) :
    ∃ s m block, d.answer f rndB = (m, block, { d with session := s }) ∧
      (∀ b, block = some b → Secure.BlockType.handshake b.type = true) ∧
      (m.code = Code.nak ∨ m.code = Code.cCrypt ∨
        (m.code = Code.rMacI ∧ ∃ t, d.session = some t ∧ t.state = .cryptogram)) := by
  -- a refusal in the clear, with the session kept or dropped
  have hrefused : ∀ reason s, d.answer f rndB = (nak reason, none, { d with session := s }) →
      ∃ s m block, d.answer f rndB = (m, block, { d with session := s }) ∧
        (∀ b, block = some b → Secure.BlockType.handshake b.type = true) ∧
        (m.code = Code.nak ∨ m.code = Code.cCrypt ∨
          (m.code = Code.rMacI ∧ ∃ t, d.session = some t ∧ t.state = .cryptogram)) :=
    fun reason s hs => ⟨s, nak reason, none, hs, by simp, .inl rfl⟩
  cases hsec : f.security with
  | none =>
    have hest : d.session.any Session.established = true := by
      by_contra hest
      simp [dispatchOf, hsec, hest] at h
    exact hrefused .secureRequired none (by simp [answer, hsec, hest, dropSession])
  | some block =>
    cases hsuite : d.cfg.suite with
    | none => exact hrefused .encryptionUnsup d.session (by simp [answer, hsec, answerSecure, hsuite])
    | some suite =>
      by_cases h11 : block.type = Secure.scs11
      · have hans : d.answer f rndB = d.answerChallenge suite f.data rndB := by
          simp [answer, hsec, answerSecure, hsuite, h11]
        rw [hans] at hrefused ⊢
        unfold answerChallenge
        simp only
        split
        · exact ⟨none, _, none, rfl, by simp, .inl rfl⟩
        · exact ⟨_, _, _, rfl, by simp [Secure.scs12, Secure.BlockType.handshake, Secure.scs11,
            Secure.scs14], .inr (.inl rfl)⟩
      · by_cases h13 : block.type = Secure.scs13
        · have hans : d.answer f rndB = d.answerCryptogram f.data := by
            simp [answer, hsec, answerSecure, hsuite, h13, Secure.scs13, Secure.scs11]
          rw [hans]
          unfold answerCryptogram
          split
          · exact ⟨d.session, _, none, rfl, by simp, .inl rfl⟩
          · rename_i t ht
            split
            · exact ⟨none, _, none, rfl, by simp, .inl rfl⟩
            · rename_i rmac t' hok
              exact ⟨_, _, _, rfl, by simp [Secure.scs14, Secure.BlockType.handshake, Secure.scs11],
                .inr (.inr ⟨rfl, t, ht, (Secure.Session.answerServerCryptogram_ok hok).1⟩)⟩
        · by_cases h15 : block.type = Secure.scs15 ∨ block.type = Secure.scs17
          · have hans : d.answer f rndB = d.answerEstablished f block := by
              simp [answer, hsec, answerSecure, hsuite, h11, h13, h15]
            have hen : d.secureEnabled = true := by simp [secureEnabled, hsuite]
            rw [hans]
            simp only [dispatchOf, hsec, hen, h15, and_self, if_true] at h
            unfold answerEstablished
            split
            · exact ⟨d.session, _, none, rfl, by simp, .inl rfl⟩
            · rename_i t ht
              simp only [ht] at h
              split
              · exact ⟨d.session, _, none, rfl, by simp, .inl rfl⟩
              · rename_i hest
                simp only [not_not] at hest
                simp only [hest, if_true] at h
                split
                · exact ⟨none, _, none, rfl, by simp, .inl rfl⟩
                · rename_i p t' hopen
                  simp [hopen] at h
          · exact hrefused .encryptionUnsup d.session
              (by simp [answer, hsec, answerSecure, hsuite, h11, h13, h15])

/-! ## The command table -/

/-- The codes of the replies that report a status, acknowledge or refuse. -/
def routine : List Code :=
  [Code.ack, Code.nak, Code.lStatR, Code.iStatR, Code.oStatR, Code.rStatR]

/-- A reply that reports a status, acknowledges or refuses is no longer than what it reports. -/
structure Routine (d : Device) (m : Message) : Prop where
  code : m.code ∈ routine
  length : m.data.length ≤ max 2 (max d.inputs.length (max d.outputs.length d.cfg.readers))

/-- An acknowledgement is routine. -/
theorem routine_ack (d : Device) : d.Routine ack :=
  ⟨by decide, Nat.zero_le _⟩

/-- So is a refusal. -/
theorem routine_nak (d : Device) (reason : NAKReason) : d.Routine (nak reason) :=
  ⟨show Code.nak ∈ routine by decide, le_max_of_le_left (show 1 ≤ 2 by decide)⟩

/-- The row of the table that drives the outputs. -/
theorem dispatch_out (d : Device) (data : Octets) (secured : Bool) :
    d.dispatch Code.out data secured = d.applyOutputs data := by
  simp [dispatch, Code.out, Code.poll, Code.id, Code.cap, Code.lStat, Code.iStat, Code.oStat,
    Code.rStat]

/-- **The command table.** A fact about what the table returns is one about each of its rows; those
that answer routinely and change nothing are taken together. -/
theorem dispatch_rows (d : Device) (code : Code) (data : Octets) (secured : Bool)
    {motive : Message × Device → Prop}
    (idle : code = Code.poll → d.pending = [] → motive (ack, d))
    (event : ∀ m rest, code = Code.poll → d.pending = m :: rest →
      motive (m, { d with pending := rest }))
    (identity : code = Code.id →
      motive ({ code := Code.pdID, data := appendDeviceID [] d.cfg.identity }, d))
    (capabilities : code = Code.cap →
      motive ({ code := Code.pdCap, data := CapabilityReport.append d.capabilities [] }, d))
    (answered : ∀ m : Message, code ≠ Code.poll → d.Routine m → motive (m, d))
    (outputs : ∀ entries, code = Code.out →
      motive (ack, { d with outputs := List.foldl applyOutput d.outputs entries }))
    (address : ∀ want : Communication, code = Code.comSet → Address.valid want.address = true →
      want.address ≠ broadcastAddress →
      motive ({ code := Code.com, data := (communicationCommand ⟨want.address, want.baud⟩).data },
        { d with adopting := some want.address }))
    (key : ∀ payload, code = Code.keySet → secured = true → parseKeySet data = some payload →
      ¬ (payload.type ≠ keySCBK ∨ payload.key.length ≠ Secure.blockSize) →
      motive (ack, { d with adoptingKey := some (octetsAt 16 payload.key 0) }))
    (delegated : code ≠ Code.poll → motive (d.delegate code data, d)) :
    motive (d.dispatch code data secured) := by
  unfold dispatch
  refine iteInduction (motive := motive) (fun h => ?_) fun hpoll => ?_
  · unfold pollReply
    split
    · rename_i hp
      exact idle h hp
    · rename_i m rest hp
      exact event m rest h hp
  have hack : motive (ack, d) := answered _ hpoll d.routine_ack
  have hnak : ∀ reason, motive (nak reason, d) := fun reason => answered _ hpoll (d.routine_nak reason)
  refine iteInduction (motive := motive) identity fun _ => ?_
  refine iteInduction (motive := motive) capabilities fun _ => ?_
  refine iteInduction (motive := motive) (fun _ => answered _ hpoll ⟨?_, ?_⟩) fun _ => ?_
  · exact (show Code.lStatR ∈ routine by decide)
  · simp [localStatus]
  refine iteInduction (motive := motive) (fun _ => answered _ hpoll ⟨?_, ?_⟩) fun _ => ?_
  · exact (show Code.iStatR ∈ routine by decide)
  · simp [contactStatus]
  refine iteInduction (motive := motive) (fun _ => answered _ hpoll ⟨?_, ?_⟩) fun _ => ?_
  · exact (show Code.oStatR ∈ routine by decide)
  · simp [contactStatus]
  refine iteInduction (motive := motive) (fun _ => answered _ hpoll ⟨?_, ?_⟩) fun _ => ?_
  · exact (show Code.rStatR ∈ routine by decide)
  · simp [readerStatus]
  refine iteInduction (motive := motive) (fun h => ?_) fun _ => ?_
  · unfold applyOutputs
    split
    · exact hnak _
    · simp only
      split
      · exact hnak _
      · exact outputs _ h
  refine iteInduction (motive := motive) (fun h => ?_) fun _ => ?_
  · unfold applyCommunication
    split
    · exact hnak _
    · rename_i want _
      split
      · exact hnak _
      · rename_i ha
        simp only [not_or, not_not] at ha
        exact address want h ha.1 ha.2
  refine iteInduction (motive := motive) (fun _ => hack) fun _ => ?_
  refine iteInduction (motive := motive) (fun _ => ?_) fun _ => ?_
  · split <;> exact hnak _
  refine iteInduction (motive := motive) (fun h => ?_) fun _ => delegated hpoll
  split
  · rename_i hsecured
    unfold installKey
    split
    · exact hnak _
    · rename_i payload hp
      split
      · exact hnak _
      · rename_i hc
        exact key payload h hsecured hp hc
  · exact hnak _

/-- What the table may change: the queue of events, the outputs, and what is to be adopted with
the reply. -/
theorem dispatch_device (d : Device) (code : Code) (data : Octets) (secured : Bool) :
    ∃ p o a k, (d.dispatch code data secured).2 =
      { d with pending := p, outputs := o, adopting := a, adoptingKey := k } := by
  apply dispatch_rows d code data secured (motive := fun r => ∃ p o a k,
    r.2 = { d with pending := p, outputs := o, adopting := a, adoptingKey := k })
  case idle => exact fun _ _ => ⟨_, _, _, _, rfl⟩
  case event => exact fun _ _ _ _ => ⟨_, _, _, _, rfl⟩
  case identity => exact fun _ => ⟨_, _, _, _, rfl⟩
  case capabilities => exact fun _ => ⟨_, _, _, _, rfl⟩
  case answered => exact fun _ _ _ => ⟨_, _, _, _, rfl⟩
  case outputs => exact fun _ _ => ⟨_, _, _, _, rfl⟩
  case address => exact fun _ _ _ _ => ⟨_, _, _, _, rfl⟩
  case key => exact fun _ _ _ _ _ => ⟨_, _, _, _, rfl⟩
  case delegated => exact fun _ => ⟨_, _, _, _, rfl⟩

/-- The table only ever waits to adopt an address a device may have, and a key only for a command
of an established session. -/
theorem dispatch_adopting (d : Device) (code : Code) (data : Octets) (secured : Bool) :
    ((d.dispatch code data secured).2.adopting = d.adopting ∨
      ∃ a, (d.dispatch code data secured).2.adopting = some a ∧ Address.valid a = true ∧
        a ≠ broadcastAddress) ∧
    (secured = false → (d.dispatch code data secured).2.adoptingKey = d.adoptingKey) := by
  apply dispatch_rows d code data secured (motive := fun r =>
    (r.2.adopting = d.adopting ∨
      ∃ a, r.2.adopting = some a ∧ Address.valid a = true ∧ a ≠ broadcastAddress) ∧
    (secured = false → r.2.adoptingKey = d.adoptingKey))
  case idle => exact fun _ _ => ⟨.inl rfl, fun _ => rfl⟩
  case event => exact fun _ _ _ _ => ⟨.inl rfl, fun _ => rfl⟩
  case identity => exact fun _ => ⟨.inl rfl, fun _ => rfl⟩
  case capabilities => exact fun _ => ⟨.inl rfl, fun _ => rfl⟩
  case answered => exact fun _ _ _ => ⟨.inl rfl, fun _ => rfl⟩
  case outputs => exact fun _ _ => ⟨.inl rfl, fun _ => rfl⟩
  case address => exact fun want _ hvalid hown => ⟨.inr ⟨want.address, rfl, hvalid, hown⟩, fun _ => rfl⟩
  case key =>
    intro payload _ hsecured _ _
    refine ⟨.inl rfl, fun h => ?_⟩
    rw [h] at hsecured
    cases hsecured
  case delegated => exact fun _ => ⟨.inl rfl, fun _ => rfl⟩

/-! ## Building and caching the reply -/

/-- Encoding a reply moves the session at most. -/
theorem encode_device (d : Device) (m : Message) (seq : UInt8) (scheme : Scheme)
    (block : Option SecurityBlock) :
    ∃ s, (d.encode m seq scheme block).2 = { d with session := s } := by
  unfold encode
  split
  · split <;> exact ⟨_, rfl⟩
  · split
    · split <;> exact ⟨_, rfl⟩
    · unfold sealReply
      split
      · exact ⟨_, rfl⟩
      · simp only
        split
        · exact ⟨_, rfl⟩
        · split
          · exact ⟨_, rfl⟩
          · split <;> exact ⟨_, rfl⟩

/-- What every reply of this device to a command carries. -/
structure Replied (d : Device) (m : Message) (seq : UInt8) (block : Option SecurityBlock)
    (f : Frame) : Prop where
  isReply : f.isReply = true
  address : f.address = d.address
  number : seq ≤ 3 → f.control.sequence = seq
  code : f.code = m.code
  security : f.security = block
  plain : block = none → f.data = m.data

/-- **What a reply is built as.** -/
theorem encode_ok {e : Device} {m : Message} {scheme : Scheme} {block : Option SecurityBlock}
    (hm : m.isReply = true) (h : d.encode m seq scheme block = (.ok f, e)) :
    Replied d m seq block f := by
  unfold encode at h
  split at h
  · unfold Message.encode at h
    split at h
    · cases h
    · rename_i hf
      split at hf
      · cases hf
      · cases hf
        cases h
        exact { isReply := hm, address := rfl, number := fun hn => newControl_sequence hn _ _,
                code := rfl, security := rfl, plain := fun _ => rfl }
  · rename_i block
    split at h
    · unfold Message.encodeSecure at h
      split at h
      · cases h
      · rename_i hf
        split at hf
        · cases hf
        · cases hf
          cases h
          exact { isReply := hm, address := rfl, number := fun hn => newControl_sequence hn _ _,
                  code := rfl, security := rfl, plain := by simp }
    · unfold sealReply Message.encodeSecure at h
      split at h
      · cases h
      · simp only at h
        split at h
        · cases h
        · split at h
          · cases h
          · rename_i hf
            split at hf
            · cases hf
            · cases hf
              split at h
              · cases h
              · cases h
                exact { isReply := rfl, address := rfl,
                        number := fun hn => newControl_sequence hn _ _,
                        code := rfl, security := rfl, plain := by simp }

/-- The cache after a reply at this number. -/
def stored (d : Device) (seq : UInt8) (reply : Frame) : Device :=
  if seq = 0 then { d with cachedValid := false }
  else { d with cached := reply, cachedSeq := seq, cachedValid := true }

/-- A reply that cannot be built drops what was to be adopted with it; one that is built is
cached and takes the adoptions with it. -/
theorem emit_cases (d : Device) (command : Frame) (seq : UInt8) (m : Message)
    (block : Option SecurityBlock) :
    (∃ err s, d.emit command seq m block =
      (.error err, { d with session := s, adopting := none, adoptingKey := none })) ∨
    ∃ g s, d.emit command seq m block =
        (.ok g, ({ d with session := s }.stored seq g).adoptAddress.adoptKey) ∧
      d.encode { m with isReply := true } seq command.control.scheme block =
        (.ok g, { d with session := s }) ∧ Replied d m seq block g := by
  obtain ⟨s, hs⟩ :=
    encode_device d { m with isReply := true } seq command.control.scheme block
  cases he : d.encode { m with isReply := true } seq command.control.scheme block with
  | mk r e =>
    rw [he] at hs
    simp only at hs
    subst hs
    cases r with
    | error err => exact .inl ⟨err, s, by simp [emit, he]⟩
    | ok g =>
      obtain ⟨hr, ha, hn, hc, hsec, hp⟩ := encode_ok rfl he
      exact .inr ⟨g, s, by simp [emit, he, stored], rfl, ⟨hr, ha, hn, hc, hsec, hp⟩⟩

/-- Nothing is waiting to be adopted. -/
def Settled (d : Device) : Prop := d.adopting = none ∧ d.adoptingKey = none

/-- Nothing to adopt, nothing done. -/
theorem adoptAddress_of_none (h : d.adopting = none) : d.adoptAddress = d := by
  simp [adoptAddress, h]

/-- Nor with a key. -/
theorem adoptKey_of_none (h : d.adoptingKey = none) : d.adoptKey = d := by
  simp [adoptKey, h]

/-- With nothing to adopt a reply moves the session and the cache at most. -/
theorem emit_of_settled (h : d.Settled) (command : Frame) (seq : UInt8) (m : Message)
    (block : Option SecurityBlock) :
    ∃ s c q v, (d.emit command seq m block).2 =
      { d with session := s, cached := c, cachedSeq := q, cachedValid := v } := by
  obtain ⟨err, s, he⟩ | ⟨g, s, he, -⟩ := emit_cases d command seq m block
  · refine ⟨s, d.cached, d.cachedSeq, d.cachedValid, ?_⟩
    rw [he, ← h.1, ← h.2]
  · have hset : ({ d with session := s }.stored seq g).Settled := by
      unfold stored
      split <;> exact h
    rw [he, adoptAddress_of_none hset.1, adoptKey_of_none hset.2]
    unfold stored
    split <;> exact ⟨_, _, _, _, rfl⟩

/-- What adopting an address and a key may change: the session ends with the key it was made of. -/
theorem adopted_eq (d : Device) :
    ∃ a k c s, d.adoptAddress.adoptKey =
      { d with address := a, adopting := none, key := k, adoptingKey := none, capabilities := c,
               session := s } ∧ (s = none ∨ s = d.session) ∧
        (c = d.capabilities ∨ c.length = 8 ∨ d.cfg.capabilities = some c) := by
  have haddr : ∃ a, d.adoptAddress = { d with address := a, adopting := none } := by
    cases ha : d.adopting with
    | none => exact ⟨d.address, by rw [adoptAddress_of_none ha, ← ha]⟩
    | some a => exact ⟨a, by simp [adoptAddress, ha]⟩
  obtain ⟨a, ha⟩ := haddr
  rw [ha]
  cases d.adoptingKey with
  | none => exact ⟨a, d.key, d.capabilities, d.session, adoptKey_of_none rfl, .inr rfl, .inl rfl⟩
  | some k =>
    simp only [adoptKey, refreshCapabilities]
    split
    · rename_i r hr
      exact ⟨a, k, r, none, rfl, .inl rfl, .inr (.inr hr)⟩
    · exact ⟨a, k, _, none, rfl, .inl rfl, .inr (.inl rfl)⟩

/-- What a reply may change: the address, the keys and what they entail, the session and the cache.
Whatever was waiting is adopted or dropped. -/
theorem emit_device (d : Device) (command : Frame) (seq : UInt8) (m : Message)
    (block : Option SecurityBlock) :
    ∃ a k c s u n v, (d.emit command seq m block).2 =
      { d with address := a, adopting := none, key := k, adoptingKey := none, capabilities := c,
               session := s, cached := u, cachedSeq := n, cachedValid := v } := by
  obtain ⟨err, s, he⟩ | ⟨g, s, he, -⟩ := emit_cases d command seq m block
  · exact ⟨_, _, _, s, _, _, _, by rw [he]⟩
  · obtain ⟨a, k, c, t, hadopted, -⟩ := adopted_eq ({ d with session := s }.stored seq g)
    rw [he, hadopted]
    unfold stored
    split
    · exact ⟨a, k, c, t, _, _, _, rfl⟩
    · exact ⟨a, k, c, t, _, _, _, rfl⟩

/-- A reply leaves the queue alone. -/
theorem emit_pending (d : Device) (command : Frame) (seq : UInt8) (m : Message)
    (block : Option SecurityBlock) : (d.emit command seq m block).2.pending = d.pending := by
  obtain ⟨a, k, c, s, u, n, v, he⟩ := emit_device d command seq m block
  rw [he]

/-! ## `Handle` as a whole -/

/-- The answer to a command that was heard and is not a repeat. -/
def replyTo (d : Device) (now : ℤ) (rndB : Rnd) (f : Frame) : Except Error Frame × Device :=
  let a := (d.opening now f).answerFor f f.control.sequence rndB
  a.2.2.emit f f.control.sequence a.1 a.2.1

/-- **What `Handle` may do with a frame.** Ignore it, say again, or answer. -/
theorem handle_cases (d : Device) (now : ℤ) (rndB : Rnd) (f : Frame) :
    (d.heard f = false ∧ ∃ e, Error.isNoReply e = true ∧ d.handle now rndB f = (.error e, d)) ∨
    (d.heard f = true ∧ d.replays now f = true ∧
      d.handle now rndB f = (.ok (d.observe now).cached, d.observe now)) ∨
    (d.heard f = true ∧ d.replays now f = false ∧
      d.handle now rndB f = d.replyTo now rndB f) := by
  by_cases hr : f.isReply = true
  · exact .inl ⟨by simp [heard, hr], .notCommand, rfl, by simp [handle, screen, hr]⟩
  · by_cases hc : f.checkOK = true
    · by_cases ha : d.addressed f.address = true
      · have hheard : d.heard f = true := by simp [heard, hr, hc, ha]
        have hhandle : d.handle now rndB f = (d.observe now).exchange rndB f := by
          simp [handle, screen, hr, hc, ha]
        by_cases hz : f.control.sequence = 0
        · refine .inr (.inr ⟨hheard, by simp [replays, hz], ?_⟩)
          rw [hhandle]
          simp [exchange, replyTo, opening, hz]
        · by_cases hrep : (d.observe now).cachedValid = true ∧
              f.control.sequence = (d.observe now).cachedSeq
          · refine .inr (.inl ⟨hheard, by simp [replays, hz, hrep.1, ← hrep.2], ?_⟩)
            rw [hhandle]
            simp only [exchange, if_neg hz, if_pos hrep]
          · refine .inr (.inr ⟨hheard, ?_, ?_⟩)
            · simpa [replays, hz] using hrep
            · rw [hhandle]
              simp only [exchange, replyTo, opening, if_neg hz, if_neg hrep]
      · exact .inl ⟨by simp [heard, ha], .notAddressed, rfl, by simp [handle, screen, hr, hc, ha]⟩
    · exact .inl ⟨by simp [heard, hc], .corrupt, rfl, by simp [handle, screen, hr, hc]⟩

/-- A command that is heard and not answered from the cache is answered anew. -/
theorem handle_eq_replyTo (hheard : d.heard f = true) (hreplays : d.replays now f = false)
    (rndB : Rnd) : d.handle now rndB f = d.replyTo now rndB f := by
  obtain ⟨h, -⟩ | ⟨-, h, -⟩ | ⟨-, -, he⟩ := handle_cases d now rndB f
  · rw [hheard] at h
    cases h
  · rw [hreplays] at h
    cases h
  · exact he

/-- Reading the clock touches nothing but the session and the exchange. -/
theorem observe_eq (d : Device) (now : ℤ) :
    ∃ s c q v, d.observe now =
      { d with session := s, cached := c, cachedSeq := q, cachedValid := v, seen := true,
               lastSeen := now } := by
  unfold observe
  simp only
  split <;> exact ⟨_, _, _, _, rfl⟩

/-- The device `Handle` answers from, with nothing but the session and the exchange touched. -/
theorem opening_eq (d : Device) (now : ℤ) (f : Frame) :
    ∃ s c q v n, d.opening now f =
      { d with session := s, cached := c, cachedSeq := q, cachedValid := v, seen := true,
               lastSeen := n } := by
  obtain ⟨s, c, q, v, ho⟩ := observe_eq d now
  unfold opening
  rw [ho]
  split <;> exact ⟨_, _, _, _, _, rfl⟩

/-- A device opens a frame with nothing to adopt. -/
theorem settled_opening (h : d.Settled) (now : ℤ) (f : Frame) : (d.opening now f).Settled := by
  obtain ⟨s, c, q, v, n, ho⟩ := opening_eq d now f
  rw [ho]
  exact h

/-- Beginning an answer leaves the queue. -/
theorem opening_pending (d : Device) (now : ℤ) (f : Frame) :
    (d.opening now f).pending = d.pending := by
  obtain ⟨s, c, q, v, n, h⟩ := opening_eq d now f
  rw [h]

/-- A session the device answers from is the one it had. -/
theorem opening_session (h : (d.opening now f).session = some t) : d.session = some t := by
  unfold opening observe at h
  simp only at h
  split at h
  · cases h
  · split at h
    · cases h
    · exact h

/-- An answer the table is not asked for moves the session at most. -/
theorem answerFor_of_none (h : d.dispatchFor f seq = none) (rndB : Rnd) :
    ∃ s m block, d.answerFor f seq rndB = (m, block, { d with session := s }) ∧
      (∀ b, block = some b → Secure.BlockType.handshake b.type = true) ∧
      (m.code = Code.nak ∨ m.code = Code.cCrypt ∨
        (m.code = Code.rMacI ∧ ∃ t, d.session = some t ∧ t.state = .cryptogram)) := by
  by_cases hstrict : d.cfg.strict = true ∧ d.cachedValid = true ∧ seq ≠ nextSequence d.cachedSeq
  · exact ⟨d.session, nak .sequenceError, none, by rw [answerFor, if_pos hstrict], by simp, .inl rfl⟩
  · simp only [dispatchFor, if_neg hstrict] at h
    simp only [answerFor, if_neg hstrict]
    exact answer_of_none h rndB

/-- An answer the table is asked for. -/
theorem answerFor_of_dispatchFor (h : d.dispatchFor f seq = some (payload, secured)) (rndB : Rnd) :
    ∃ s, d.answerFor f seq rndB = { d with session := s }.tableAnswer f.code payload secured ∧
      ((secured = false ∧ s = d.session ∧ payload = f.data ∧ f.security = none) ∨
       (secured = true ∧ ∃ block t t', f.security = some block ∧ d.session = some t ∧
          openCommand t f block = .ok (payload, t') ∧ s = some t')) := by
  unfold dispatchFor at h
  split at h
  · cases h
  · rename_i hstrict
    simp only [answerFor, if_neg hstrict]
    exact answer_of_dispatchOf h rndB

/-- Only a session that is established opens a command. -/
theorem established_of_dispatchFor {block : SecurityBlock} (hf : f.security = some block)
    (ht : d.session = some t) (h : d.dispatchFor f seq = some (payload, true)) :
    t.established = true := by
  unfold dispatchFor dispatchOf at h
  simp only [hf, ht] at h
  by_contra hest
  simp [hest] at h

/-- An answer of either kind leaves the configuration, the address and the keys alone. -/
theorem answerFor_device (d : Device) (f : Frame) (seq : UInt8) (rndB : Rnd) :
    ∃ s p o a k, (d.answerFor f seq rndB).2.2 =
      { d with session := s, pending := p, outputs := o, adopting := a, adoptingKey := k } := by
  cases h : d.dispatchFor f seq with
  | none =>
    obtain ⟨s, m, block, he, -⟩ := answerFor_of_none h rndB
    exact ⟨s, _, _, _, _, by rw [he]⟩
  | some q =>
    obtain ⟨payload, secured⟩ := q
    obtain ⟨s, he, -⟩ := answerFor_of_dispatchFor h rndB
    obtain ⟨p, o, a, k, hd⟩ := dispatch_device { d with session := s } f.code payload secured
    refine ⟨s, p, o, a, k, ?_⟩
    rw [he]
    exact hd

/-- What answering a command leaves alone: the settings, who the device is and what it senses. -/
structure Alike (d e : Device) : Prop where
  cfg : e.cfg = d.cfg
  address : e.address = d.address
  key : e.key = d.key
  capabilities : e.capabilities = d.capabilities
  inputs : e.inputs = d.inputs
  localStatus : e.localStatus = d.localStatus

/-- **An answer** leaves the device's identity alone. -/
theorem alike_answerFor (d : Device) (now : ℤ) (rndB : Rnd) (f : Frame) :
    d.Alike ((d.opening now f).answerFor f f.control.sequence rndB).2.2 := by
  obtain ⟨s, c, q, v, n, ho⟩ := opening_eq d now f
  obtain ⟨s', p, o, a, k, hans⟩ := answerFor_device (d.opening now f) f f.control.sequence rndB
  rw [hans, ho]
  constructor <;> rfl

/-- `Handle` leaves nothing waiting to be adopted, and the configuration alone. -/
theorem handle_settled (h : d.Settled) (now : ℤ) (rndB : Rnd) (f : Frame) :
    (d.handle now rndB f).2.Settled ∧ (d.handle now rndB f).2.cfg = d.cfg := by
  obtain ⟨-, e, -, he⟩ | ⟨-, -, he⟩ | ⟨-, -, he⟩ := handle_cases d now rndB f
  · rw [he]
    exact ⟨h, rfl⟩
  · obtain ⟨s, c, q, v, ho⟩ := observe_eq d now
    rw [he, ho]
    exact ⟨h, rfl⟩
  · obtain ⟨a, k, c, s, u, n, v, hemit⟩ :=
      emit_device ((d.opening now f).answerFor f f.control.sequence rndB).2.2 f f.control.sequence
        ((d.opening now f).answerFor f f.control.sequence rndB).1
        ((d.opening now f).answerFor f f.control.sequence rndB).2.1
    rw [he, replyTo, hemit]
    exact ⟨⟨rfl, rfl⟩, (alike_answerFor d now rndB f).cfg⟩

end Device

end Pd

end Osdp
