import Osdp.Model.Calls
import Osdp.Analysis.SessionSpec

/-!
# What `Next` does to a device and puts on the line

`Device.takes` is the queued message the next `Next` takes off the outbox, read from the
state alone. With it the choice of a command has two cases: a queued message moves in
flight, or the queue, the sequence number and the keys are left as they were
(`Device.SameQueue`). Composing the frame then changes only the sequence number, the
repeat flag and the session; `transact_ok` says what the frame carries.
-/

set_option autoImplicit false

namespace Osdp

open Osdp.Secure (Session BaseKey Rnd macTagSize)

/-! ## The sequence number in the control octet -/

/-- The control octet takes the low two bits of the number, so a fact about it is one about four
numbers. -/
theorem newControl_induction {motive : UInt8 → Control → Prop} {scheme : Scheme} {security : Bool}
    (h : ∀ n : Fin 4, motive (UInt8.ofNat n) (newControl (UInt8.ofNat n) scheme security))
    (seq : UInt8) : motive (seq &&& 0x03) (newControl seq scheme security) := by
  have hmask : newControl seq scheme security = newControl (seq &&& 0x03) scheme security := by
    simp [newControl, UInt8.and_assoc]
  have hlt : (seq &&& 0x03).toNat < 4 := by
    rw [UInt8.toNat_and]
    exact Nat.and_lt_two_pow (n := 2) _ (by decide)
  have hseq : UInt8.ofNat (⟨(seq &&& 0x03).toNat, hlt⟩ : Fin 4) = seq &&& 0x03 := by simp
  rw [hmask, ← hseq]
  exact h _

/-- The control octet carries a sequence number of two bits as it is. -/
theorem newControl_sequence {seq : UInt8} (h : seq ≤ 3) (scheme : Scheme) (security : Bool) :
    (newControl seq scheme security).sequence = seq := by
  have hlow : seq &&& 0x03 = seq := by
    rw [UInt8.le_iff_toNat_le] at h
    apply UInt8.toNat_inj.mp
    rw [UInt8.toNat_and]
    exact Nat.and_two_pow_sub_one_of_lt_two_pow (n := 2) (Nat.lt_succ_of_le h)
  calc (newControl seq scheme security).sequence = seq &&& 0x03 :=
        newControl_induction (motive := fun low c => c.sequence = low)
          (by cases scheme <;> cases security <;> decide) seq
    _ = seq := hlow

/-- The control octet names the scheme it was built for. -/
theorem newControl_scheme (seq : UInt8) (scheme : Scheme) (security : Bool) :
    (newControl seq scheme security).scheme = scheme :=
  newControl_induction (motive := fun _ c => c.scheme = scheme)
    (by cases scheme <;> cases security <;> decide) seq

/-- It says whether a security block follows. -/
theorem newControl_hasSecurityBlock (seq : UInt8) (scheme : Scheme) (security : Bool) :
    (newControl seq scheme security).hasSecurityBlock = security :=
  newControl_induction (motive := fun _ c => c.hasSecurityBlock = security)
    (by cases scheme <;> cases security <;> decide) seq

/-- A sealed frame passes its own error check. -/
@[simp] theorem Frame.checkOK_sealCheck (f : Frame) : f.sealCheck.checkOK = true := by
  simp [Frame.checkOK, Frame.sealCheck, Frame.computeCheck, Frame.appendBody, Frame.len]

namespace Bus

namespace Device

/-- Numbers have two bits. -/
@[simp] theorem rotate_le (s : UInt8) : rotate s ≤ 3 := by
  unfold rotate
  split
  · decide
  · rename_i h
    simp only [ge_iff_le, UInt8.le_iff_toNat_le, not_le] at h ⊢
    have h3 : (3 : UInt8).toNat = 3 := rfl
    rw [UInt8.toNat_add]
    have h1 : (1 : UInt8).toNat = 1 := rfl
    omega

/-- The next number is not zero. -/
theorem rotate_ne_zero (s : UInt8) : rotate s ≠ 0 := by
  unfold rotate
  split
  · decide
  · rename_i h
    intro h0
    have := congrArg UInt8.toNat h0
    simp only [ge_iff_le, UInt8.le_iff_toNat_le, not_le] at h
    have h3 : (3 : UInt8).toNat = 3 := rfl
    rw [UInt8.toNat_add] at this
    have h1 : (1 : UInt8).toNat = 1 := rfl
    have hz : (0 : UInt8).toNat = 0 := rfl
    omega

/-- The number `Next` is about to send. -/
def number (d : Device) : UInt8 := if d.repeatSequence then d.seq else rotate d.seq

/-- The number a command takes. -/
theorem nextSequence_eq (d : Device) :
    d.nextSequence = (d.number, { d with seq := d.number, repeatSequence := false }) := by
  unfold nextSequence number
  cases h : d.repeatSequence <;> simp

/-! ## The choice of a command -/

/-- The queued message the next `Next` takes, if it takes one. -/
def takes (d : Device) : Option Message :=
  if (d.state = .online ∨ d.state = .secure) ∧ ¬ d.deferCommands ∧ ¬ d.withholdsKeySet then
    d.outbox.head?
  else none

variable {d : Device}

/-- When a command is taken off the outbox. -/
theorem takes_eq_some {m : Message} (h : d.takes = some m) :
    (d.state = .online ∨ d.state = .secure) ∧ d.deferCommands = false ∧
      d.withholdsKeySet = false ∧ ∃ rest, d.outbox = m :: rest := by
  unfold takes at h
  split_ifs at h with hc
  refine ⟨hc.1, by simpa using hc.2.1, by simpa using hc.2.2, ?_⟩
  cases ho : d.outbox with
  | nil => simp [ho] at h
  | cons a rest =>
    simp only [ho, List.head?_cons, Option.some.injEq] at h
    exact ⟨rest, by rw [h]⟩

/-- Two records that agree on the queue, the count of misses, the address and the keys. -/
structure SameQueue (d e : Device) : Prop where
  address : e.address = d.address
  outbox : e.outbox = d.outbox
  inflight : e.inflight = d.inflight
  misses : e.misses = d.misses
  pendingKey : e.pendingKey = d.pendingKey
  installedKey : e.installedKey = d.installedKey

/-- Queues stay the same step by step. -/
theorem SameQueue.trans {e f : Device} (h : d.SameQueue e) (k : e.SameQueue f) :
    d.SameQueue f where
  address := k.address.trans h.address
  outbox := k.outbox.trans h.outbox
  inflight := k.inflight.trans h.inflight
  misses := k.misses.trans h.misses
  pendingKey := k.pendingKey.trans h.pendingKey
  installedKey := k.installedKey.trans h.installedKey

end Device

variable {d e d' : Device} {m m' : Message} {s s' : Session} {f g : Frame} {block : SecurityBlock}
  {b : Bus} {rndA : Rnd}

/-- Taking a queued message moves it in flight and changes nothing else. -/
theorem commandFor_of_takes (h : d.takes = some m) (rndA : Rnd) :
    commandFor d rndA =
      (m, if d.state = .secure then some (blockForCommand m.data.length) else none,
        { d with outbox := d.outbox.tail, inflight := some m }) := by
  obtain ⟨hs, hd, hw, rest, ho⟩ := Device.takes_eq_some h
  rcases hs with hs | hs <;>
    simp [commandFor, hs, Device.deferring, hd, hw, Device.outbound, Device.dequeue, ho]

/-- A step of the handshake leaves the queue. -/
theorem handshakeCommand_sameQueue (d : Device) (rndA : Rnd) :
    d.SameQueue (handshakeCommand d rndA).2.2 := by
  unfold handshakeCommand
  split
  · constructor <;> rfl
  · split
    · constructor <;> rfl
    · split <;> constructor <;> rfl

/-- **What `Next` may ask.** A queued message, or the question its state calls for. -/
theorem commandFor_cases (d : Device) (rndA : Rnd) :
    (∃ m, d.takes = some m ∧ commandFor d rndA =
      (m, if d.state = .secure then some (blockForCommand m.data.length) else none,
        { d with outbox := d.outbox.tail, inflight := some m })) ∨
    (d.takes = none ∧ d.state = .offline ∧
      commandFor d rndA = ({ code := Code.id, data := [0x00] }, none, d)) ∨
    (d.takes = none ∧ d.state = .identifying ∧
      commandFor d rndA = ({ code := Code.cap, data := [0x00] }, none, d)) ∨
    (d.takes = none ∧ d.state = .secureHandshake ∧
      commandFor d rndA = handshakeCommand d rndA) ∨
    (d.takes = none ∧ (d.state = .online ∨ d.state = .secure) ∧ commandFor d rndA =
      (Device.pollMessage, if d.state = .secure then some (blockForCommand 0) else none,
        { d with deferCommands := false })) := by
  cases ht : d.takes with
  | some m => exact .inl ⟨m, rfl, commandFor_of_takes ht rndA⟩
  | none =>
    -- a poll: deferred, in place of a withheld osdp_KEYSET, or for want of a command
    have hpoll : d.state = .online ∨ d.state = .secure → commandFor d rndA =
        (Device.pollMessage, if d.state = .secure then some (blockForCommand 0) else none,
          { d with deferCommands := false }) := by
      intro hs
      have hsame : d.deferCommands = false → { d with deferCommands := false } = d := by
        intro hd
        rw [← hd]
      cases hd : d.deferCommands with
      | true => rcases hs with hs | hs <;> simp [commandFor, hs, Device.deferring, hd]
      | false =>
        rw [hsame hd]
        cases hw : d.withholdsKeySet with
        | true => rcases hs with hs | hs <;> simp [commandFor, hs, Device.deferring, hd, hw]
        | false =>
          have ho : d.outbox = [] := by simpa [Device.takes, hs, hd, hw] using ht
          rcases hs with hs | hs <;>
            simp [commandFor, hs, Device.deferring, hd, hw, Device.outbound, Device.dequeue, ho,
              Device.pollMessage]
    cases hs : d.state with
    | offline => exact .inr (.inl ⟨rfl, rfl, by simp [commandFor, hs]⟩)
    | identifying => exact .inr (.inr (.inl ⟨rfl, rfl, by simp [commandFor, hs]⟩))
    | secureHandshake => exact .inr (.inr (.inr (.inl ⟨rfl, rfl, by simp [commandFor, hs]⟩)))
    | online => exact .inr (.inr (.inr (.inr ⟨rfl, .inl rfl, by simpa [hs] using hpoll (.inl hs)⟩)))
    | secure => exact .inr (.inr (.inr (.inr ⟨rfl, .inr rfl, by simpa [hs] using hpoll (.inr hs)⟩)))

/-- Taking nothing leaves the queue, the number and the keys alone. -/
theorem commandFor_of_takes_none (h : d.takes = none) (rndA : Rnd) :
    d.SameQueue (commandFor d rndA).2.2 := by
  obtain ⟨m, hm, -⟩ | ⟨-, -, he⟩ | ⟨-, -, he⟩ | ⟨-, -, he⟩ | ⟨-, -, he⟩ := commandFor_cases d rndA
  · simp [hm] at h
  · rw [he]; constructor <;> rfl
  · rw [he]; constructor <;> rfl
  · rw [he]; exact handshakeCommand_sameQueue d rndA
  · rw [he]; constructor <;> rfl

/-- And the number. -/
theorem handshakeCommand_number (d : Device) (rndA : Rnd) :
    (handshakeCommand d rndA).2.2.number = d.number := by
  unfold handshakeCommand
  split
  · rfl
  · split
    · rfl
    · split <;> rfl

/-- Choosing a command does not touch the sequence number. -/
theorem commandFor_number (d : Device) (rndA : Rnd) :
    (commandFor d rndA).2.2.number = d.number := by
  obtain ⟨m, -, he⟩ | ⟨-, -, he⟩ | ⟨-, -, he⟩ | ⟨-, -, he⟩ | ⟨-, -, he⟩ := commandFor_cases d rndA
  · rw [he]; rfl
  · rw [he]
  · rw [he]
  · rw [he]; exact handshakeCommand_number d rndA
  · rw [he]; rfl

/-! ## Composing the frame -/

/-- Composing changes the sequence number, the repeat flag and the session at most. -/
theorem compose_device (b : Bus) (d : Device) (m : Message) (block : Option SecurityBlock) :
    ∃ q r s, (compose b d m block).2 = { d with seq := q, repeatSequence := r, session := s } := by
  unfold compose
  simp only [Device.nextSequence_eq]
  split
  · split <;> exact ⟨_, _, _, rfl⟩
  · split
    · exact ⟨_, _, _, rfl⟩
    · split
      · exact ⟨_, _, _, rfl⟩
      · split
        · split
          · exact ⟨_, _, _, rfl⟩
          · split <;> exact ⟨_, _, _, rfl⟩
        · exact ⟨_, _, _, rfl⟩

/-- What a frame composed for `d` carries, and what composing it left of `d`. -/
structure Composed (b : Bus) (d : Device) (m : Message) (block : Option SecurityBlock) (f : Frame)
    (e : Device) : Prop where
  address : f.address = d.address
  valid : Address.valid d.address = true
  number : d.number ≤ 3 → f.control.sequence = d.number
  scheme : d.number ≤ 3 → f.control.scheme = b.scheme
  check : f.checkOK = true
  code : f.code = m.code
  isReply : f.isReply = m.isReply
  security : f.security = block
  plain : block = none → f.data = m.data ∧ e.session = d.session
  seq : e.seq = d.number
  repeatSequence : e.repeatSequence = false

/-- The frame of a plaintext command. -/
def plainFrame (b : Bus) (d : Device) (m : Message) : Frame :=
  Frame.sealCheck {
    isReply := m.isReply
    address := d.address
    control := newControl d.number b.scheme false
    code := m.code
    data := m.data }

/-- A command in the clear. -/
theorem compose_none (b : Bus) (d : Device) (m : Message) (h : Address.valid d.address = true) :
    compose b d m none =
      (.ok (plainFrame b d m), { d with seq := d.number, repeatSequence := false }) := by
  simp [compose, Device.nextSequence_eq, Message.encode, h, plainFrame]

/-- The octets of a frame that its authentication code covers: all of its body but the code. -/
def macCover (f : Frame) : Octets :=
  let body := { f with data := f.data ++ List.replicate macTagSize 0 }.appendBody []
  body.take (body.length - macTagSize)

/-- Authenticating a frame appends the code and moves the chain. -/
theorem authenticate_frame {isCommand : Bool} (h : authenticate s f isCommand = .ok (g, s')) :
    s.established = true ∧ ∃ mac, s.suite.mac s.keys (s.chainFor isCommand) (macCover f) = .ok mac ∧
      g = { f with data := f.data ++ mac.toList.take macTagSize } ∧ s' = s.commit isCommand mac := by
  unfold authenticate at h
  simp only at h
  split at h
  · cases h
  · rename_i tag s'' hauth
    obtain ⟨hest, mac, hmac, rfl, rfl⟩ := Secure.Session.authenticate_ok hauth
    cases h
    exact ⟨hest, mac, hmac, rfl, rfl⟩

/-- Sealing leaves the code. -/
theorem sealCommand_fields (h : sealCommand d m block = .ok m') :
    m'.code = m.code ∧ m'.isReply = m.isReply := by
  unfold sealCommand at h
  split at h
  · split at h
    · cases h
    · split at h
      · cases h
      · cases h
        exact ⟨rfl, rfl⟩
  · cases h
    exact ⟨rfl, rfl⟩

/-- A frame is only ever composed with the device's address and number, and carries the
command's code. -/
theorem compose_ok {block : Option SecurityBlock} (h : compose b d m block = (.ok f, e)) :
    Composed b d m block f e := by
  cases block with
  | none =>
    by_cases hv : Address.valid d.address = true
    · rw [compose_none b d m hv] at h
      cases h
      exact { address := rfl, valid := hv, number := fun hn => newControl_sequence hn _ _,
              scheme := fun _ => newControl_scheme _ _ _, check := by simp [plainFrame],
              code := rfl, isReply := rfl, security := rfl, plain := fun _ => ⟨rfl, rfl⟩, seq := rfl,
              repeatSequence := rfl }
    · simp [compose, Device.nextSequence_eq, Message.encode, hv] at h
  | some block =>
    unfold compose at h
    simp only [Device.nextSequence_eq] at h
    split at h
    · cases h
    · rename_i m' hseal
      obtain ⟨hcode, hreply⟩ := sealCommand_fields hseal
      by_cases hv : Address.valid d.address = true
      · simp only [Message.encodeSecure, hv, not_true_eq_false, if_false] at h
        split at h
        · split at h
          · cases h
          · split at h
            · cases h
            · rename_i g s' hauth
              obtain ⟨-, mac, -, rfl, -⟩ := authenticate_frame hauth
              cases h
              exact { address := rfl, valid := hv, number := fun hn => newControl_sequence hn _ _,
                      scheme := fun _ => newControl_scheme _ _ _, check := by simp,
                      code := hcode, isReply := hreply, security := rfl, plain := by simp,
                      seq := rfl, repeatSequence := rfl }
        · cases h
          exact { address := rfl, valid := hv, number := fun hn => newControl_sequence hn _ _,
                  scheme := fun _ => newControl_scheme _ _ _, check := by simp,
                  code := hcode, isReply := hreply, security := rfl, plain := by simp,
                  seq := rfl, repeatSequence := rfl }
      · simp [Message.encodeSecure, hv] at h

/-- The frame of a secured command before its authentication code is appended. -/
def securedFrame (b : Bus) (d : Device) (m : Message) (block : SecurityBlock) : Frame :=
  { isReply := m.isReply
    address := d.address
    control := newControl d.number b.scheme true
    security := some block
    code := m.code
    data := m.data }

/-- How a command of an established session is composed: sealed, framed, authenticated. -/
theorem compose_established (hblock : Secure.BlockType.established block.type = true)
    (h : compose b d m (some block) = (.ok f, e)) :
    ∃ s s' m' g, d.session = some s ∧ sealCommand d m block = .ok m' ∧
      authenticate s (securedFrame b d m' block) true = .ok (g, s') ∧ f = g.sealCheck ∧
      e = { d with seq := d.number, repeatSequence := false, session := some s' } := by
  have hv := (compose_ok h).valid
  unfold compose at h
  simp only [Device.nextSequence_eq] at h
  split at h
  · cases h
  · rename_i m' hseal
    simp only [Message.encodeSecure, hv, not_true_eq_false, if_false, hblock, if_true] at h
    split at h
    · cases h
    · rename_i s hs
      split at h
      · cases h
      · rename_i g s' hauth
        cases h
        exact ⟨s, s', m', g, hs, hseal, hauth, rfl, rfl⟩

/-- Composing keeps the session or moves its chain. -/
theorem compose_session (b : Bus) (d : Device) (m : Message) (block : Option SecurityBlock) :
    (compose b d m block).2.session = d.session ∨
      ∃ s mac, d.session = some s ∧ (compose b d m block).2.session = some (s.commit true mac) := by
  unfold compose
  simp only [Device.nextSequence_eq]
  split
  · split <;> exact .inl rfl
  · split
    · exact .inl rfl
    · split
      · exact .inl rfl
      · split
        · split
          · exact .inl rfl
          · rename_i s hs
            split
            · exact .inl rfl
            · rename_i g s' hauth
              obtain ⟨-, mac, -, -, rfl⟩ := authenticate_frame hauth
              exact .inr ⟨s, mac, hs, rfl⟩
        · exact .inl rfl

/-- Composing keeps a session established or not, as it was. -/
theorem compose_secureEstablished (b : Bus) (d : Device) (m : Message)
    (block : Option SecurityBlock) :
    (compose b d m block).2.secureEstablished = d.secureEstablished := by
  rcases compose_session b d m block with h | ⟨s, mac, hs, h⟩
  · simp [Device.secureEstablished, h]
  · simp [Device.secureEstablished, h, hs, Secure.Session.established]

/-! ## `Next` as a whole -/

/-- `Next` on a device with a message to take moves it in flight. -/
theorem transact_of_takes (b : Bus) (h : d.takes = some m) (rndA : Rnd) :
    ∃ q r s, (transact b d rndA).2 =
      { d with outbox := d.outbox.tail, inflight := some m, seq := q, repeatSequence := r,
               session := s } := by
  simp only [transact, commandFor_of_takes h]
  exact compose_device b _ _ _

/-- `Next` on a device with nothing to take leaves the queue alone. -/
theorem transact_of_takes_none (b : Bus) (h : d.takes = none) (rndA : Rnd) :
    d.SameQueue (transact b d rndA).2 := by
  refine (commandFor_of_takes_none h rndA).trans ?_
  obtain ⟨q, r, s, he⟩ :=
    compose_device b (commandFor d rndA).2.2 (commandFor d rndA).1 (commandFor d rndA).2.1
  simp only [transact, he]
  constructor <;> rfl

/-- Choosing a command leaves the address. -/
theorem commandFor_address (d : Device) (rndA : Rnd) :
    (commandFor d rndA).2.2.address = d.address := by
  cases ht : d.takes with
  | none => exact (commandFor_of_takes_none ht rndA).address
  | some m => rw [commandFor_of_takes ht]

/-- What a step returned by `Next` carries, in terms of the device before it. -/
theorem transact_ok (h : transact b d rndA = (.ok f, e)) :
    Composed b (commandFor d rndA).2.2 (commandFor d rndA).1 (commandFor d rndA).2.1 f e :=
  compose_ok h

/-! ## Sending again -/

/-- A command of an established session is composed when its payload can be sealed and its frame
authenticated. -/
theorem compose_of_sealed (hblock : Secure.BlockType.established block.type = true)
    (hv : Address.valid d.address = true) (hs : d.session = some s)
    (hseal : sealCommand d m block = .ok m')
    (hauth : authenticate s (securedFrame b d m' block) true = .ok (g, s')) :
    compose b d m (some block) =
      (.ok g.sealCheck, { d with seq := d.number, repeatSequence := false, session := some s' }) := by
  unfold securedFrame at hauth
  simp only [compose, hseal, Device.nextSequence_eq, Message.encodeSecure, hv, not_true_eq_false,
    if_false, hblock, if_true, hs, hauth]

/-- A frame depends on the address and the number of the record it is composed for. -/
theorem securedFrame_congr (b : Bus) (ha : d'.address = d.address) (hn : d'.number = d.number)
    (m : Message) (block : SecurityBlock) :
    securedFrame b d' m block = securedFrame b d m block := by
  simp only [securedFrame, ha, hn]

/-- A plain frame depends on address and number. -/
theorem plainFrame_congr (b : Bus) (ha : d'.address = d.address) (hn : d'.number = d.number)
    (m : Message) : plainFrame b d' m = plainFrame b d m := by
  simp only [plainFrame, ha, hn]

/-- Sealing a command does not depend on the chain its authentication moves. -/
theorem sealCommand_commit {mac : Secure.Block} (hs : d.session = some s)
    (hs' : d'.session = some (s.commit true mac)) (m : Message) (block : SecurityBlock) :
    sealCommand d' m block = sealCommand d m block := by
  have hseal : (s.commit true mac).sealPayload m.data true = s.sealPayload m.data true := rfl
  simp only [sealCommand, hs, hs', hseal]

/-- Nor does its authentication code. -/
theorem authenticate_commit (h : authenticate s f true = .ok (g, s')) :
    authenticate s' f true = .ok (g, s') := by
  obtain ⟨hest, mac, hmac, rfl, rfl⟩ := authenticate_frame h
  have hest' : (s.commit true mac).established = true := hest
  have hmac' : (s.commit true mac).suite.mac (s.commit true mac).keys
      ((s.commit true mac).chainFor true) (macCover f) = .ok mac := hmac
  unfold macCover at hmac'
  simp only [authenticate, Session.authenticate, hest', not_true_eq_false, if_false, hmac']
  rfl

/-- Composing the same command under the same number gives the same frame, with the session as it
was or as the first time left it. -/
theorem compose_again {b : Bus} {d e d' : Device} {m : Message} {block : Option SecurityBlock}
    {f : Frame} (h : compose b d m block = (.ok f, e))
    (hblock : ∀ k, block = some k → Secure.BlockType.established k.type = true)
    (ha : d'.address = d.address) (hn : d'.number = d.number)
    (hs : d'.session = d.session ∨ d'.session = e.session) :
    compose b d' m block =
      (.ok f, { d' with seq := d.number, repeatSequence := false, session := e.session }) := by
  have hv := (compose_ok h).valid
  have hv' : Address.valid d'.address = true := by rw [ha, hv]
  cases block with
  | none =>
    rw [compose_none b d m hv] at h
    cases h
    have hs' : d'.session = d.session := hs.elim id id
    rw [compose_none b d' m hv', plainFrame_congr b ha hn m, hn, ← hs']
  | some block =>
    obtain ⟨s, s', m', g, hsess, hseal, hauth, rfl, rfl⟩ := compose_established (hblock _ rfl) h
    obtain ⟨-, mac, -, -, hcommit⟩ := authenticate_frame hauth
    have hframe := securedFrame_congr b ha hn m' block
    rcases hs with hs | hs
    · have hs' : d'.session = some s := hs.trans hsess
      have hseal' : sealCommand d' m block = .ok m' := by
        rw [← hseal]
        simp only [sealCommand, hs', hsess]
      have hauth' : authenticate s (securedFrame b d' m' block) true = .ok (g, s') := by
        rw [hframe]
        exact hauth
      rw [compose_of_sealed (hblock _ rfl) hv' hs' hseal' hauth', hn]
    · have hs' : d'.session = some s' := hs
      have hseal' : sealCommand d' m block = .ok m' := by
        rw [sealCommand_commit hsess (hs'.trans (by rw [hcommit])) m block, hseal]
      have hauth' : authenticate s' (securedFrame b d' m' block) true = .ok (g, s') := by
        rw [hframe]
        exact authenticate_commit hauth
      rw [compose_of_sealed (hblock _ rfl) hv' hs' hseal' hauth', hn]

/-- **A command that is sent again is the same frame.** The number, the address and the chain a
command is sealed under are those it was first sent with, as long as no reply was let through. -/
theorem transact_again (ht : d.takes = some m) (h : transact b d rndA = (.ok f, e))
    (ht' : d'.takes = some m) (hst : d'.state = d.state) (ha : d'.address = d.address)
    (hn : d'.number = d.number) (hs : d'.session = d.session ∨ d'.session = e.session) (rndA' : Rnd) :
    transact b d' rndA' = (.ok f, { d' with
      outbox := d'.outbox.tail, inflight := some m, seq := d.number, repeatSequence := false,
      session := e.session }) := by
  have hblock : ∀ k, (if d.state = .secure then some (blockForCommand m.data.length) else none) =
      some k → Secure.BlockType.established k.type = true := by
    intro k hk
    split at hk
    · cases hk
      unfold blockForCommand
      split <;> decide
    · cases hk
  simp only [transact, commandFor_of_takes ht] at h
  simp only [transact, commandFor_of_takes ht']
  have hagain := @compose_again b _ _ { d' with outbox := d'.outbox.tail, inflight := some m } _ _ _ h
    hblock ha hn hs
  have hsame : (if d'.state = .secure then some (blockForCommand m.data.length) else none) =
      if d.state = .secure then some (blockForCommand m.data.length) else none := by rw [hst]
  rw [hsame]
  exact hagain

end Bus

end Osdp
