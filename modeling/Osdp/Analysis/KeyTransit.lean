import Osdp.Analysis.BusRun
import Osdp.Analysis.KeyInstall

/-!
# What `Next` makes of an `osdp_KEYSET`

`withholdsKeySet` keeps an `osdp_KEYSET` back until a session is established, so one that is on
the line came off the outbox under a session (`takes_of_keySet`). `commandFor` seals what it sends
by the device's state: enciphered in state `Secure` (`transact_secure`), as it is otherwise
(`transact_unsecured`).
-/

set_option autoImplicit false

namespace Osdp.Bus

open Osdp.Secure (Session BaseKey Rnd)

/-- A handshake step under way is not an `osdp_KEYSET`. -/
def Device.StepOK (d : Device) : Prop := ∀ st, d.pending = some st → st.msg.code ≠ Code.keySet

/-! ## What `Next` emits -/

variable {d e : Device} {b : Bus} {rndA : Rnd} {f : Frame} {m : Message}

/-- A step of the handshake does not carry a key. -/
theorem handshakeCommand_code (h : d.StepOK) (rndA : Rnd) :
    (handshakeCommand d rndA).1.code ≠ Code.keySet := by
  unfold handshakeCommand
  split
  · rename_i st hst
    exact h st hst
  · split
    · simp [Device.pollMessage, Code.poll, Code.keySet]
    · split <;> simp [Device.pollMessage, Code.poll, Code.chlng, Code.keySet]

/-- An `osdp_KEYSET` on the line came off the outbox, under an established session. -/
theorem takes_of_keySet (hst : d.StepOK) (h : transact b d rndA = (.ok f, e))
    (hcode : f.code = Code.keySet) :
    ∃ m, d.takes = some m ∧ m.code = Code.keySet ∧ d.secureEstablished = true := by
  have hc := (transact_ok h).code
  rw [hcode] at hc
  obtain ⟨m, hm, he⟩ | ⟨-, -, he⟩ | ⟨-, -, he⟩ | ⟨-, -, he⟩ | ⟨-, -, he⟩ := commandFor_cases d rndA
  · rw [he] at hc
    obtain ⟨-, -, hw, rest, ho⟩ := Device.takes_eq_some hm
    have hmk : m.code = Code.keySet := hc.symm
    exact ⟨m, hm, hmk, by simpa [Device.withholdsKeySet, ho, hmk] using hw⟩
  · simp [he, Code.id, Code.keySet] at hc
  · simp [he, Code.cap, Code.keySet] at hc
  · rw [he] at hc
    exact absurd hc.symm (handshakeCommand_code hst rndA)
  · simp [he, Device.pollMessage, Code.poll, Code.keySet] at hc

/-- The frame carries the message under `SCS_17`, as the session sealed it, its authentication
code behind. -/
def Enciphered (d : Device) (m : Message) (f : Frame) : Prop :=
  f.security = some { type := Secure.scs17 } ∧
    ∃ s c tag, d.session = some s ∧ s.established = true ∧ s.sealPayload m.data true = .ok c ∧
      tag.length = Secure.macTagSize ∧ f.data = c ++ tag

/-- In state `Secure` a message with a payload is enciphered, and an empty one goes under
`SCS_15`. -/
theorem transact_secure (hm : d.takes = some m) (hs : d.state = .secure)
    (h : transact b d rndA = (.ok f, e)) :
    (m.data ≠ [] → Enciphered d m f) ∧
    (m.data = [] → f.security = some { type := Secure.scs15 }) := by
  simp only [transact, commandFor_of_takes hm, hs, if_true] at h
  have hsec := (compose_ok h).security
  constructor
  · intro hne
    have hblock : blockForCommand m.data.length = { type := Secure.scs17 } := by
      simp [blockForCommand, List.length_pos_iff.mpr hne]
    rw [hblock] at h hsec
    obtain ⟨s, s', m', g, hses, hseal, hauth, rfl, -⟩ := compose_established (by decide) h
    obtain ⟨-, mac, -, rfl, -⟩ := authenticate_frame hauth
    have hses' : d.session = some s := hses
    have hsealed : ∃ c, s.sealPayload m.data true = .ok c ∧ m'.data = c := by
      unfold sealCommand at hseal
      simp only [hses', show Secure.BlockType.encrypted Secure.scs17 = true by decide, if_true] at hseal
      split at hseal
      · cases hseal
      · rename_i c hc
        cases hseal
        exact ⟨c, hc, rfl⟩
    obtain ⟨c, hc, hdata⟩ := hsealed
    have hest : s.established = true := by
      unfold Secure.Session.sealPayload at hc
      split at hc
      · cases hc
      · rename_i hne'
        simpa using hne'
    exact ⟨hsec, s, c, mac.toList.take Secure.macTagSize, hses', hest, hc, by simp [Secure.macTagSize],
      by simp [Frame.sealCheck, securedFrame, hdata]⟩
  · intro hempty
    rw [hsec, hempty]
    simp [blockForCommand]

/-- Outside state `Secure` a queued message goes out as it is. -/
theorem transact_unsecured (hm : d.takes = some m) (hs : d.state ≠ .secure)
    (h : transact b d rndA = (.ok f, e)) : f.security = none ∧ f.data = m.data := by
  simp only [transact, commandFor_of_takes hm, if_neg hs] at h
  have hplain := compose_ok h
  exact ⟨hplain.security, (hplain.plain rfl).1⟩

/-! ## The handshake step over a run -/

/-- Whether the panel takes a device for secured is whether it has an established session. -/
theorem secureEstablished_eq (d : Device) :
    d.secureEstablished = true ↔ ∃ s, d.session = some s ∧ s.state = .established := by
  simp [Device.secureEstablished, Option.any_eq_true, Secure.Session.established]

/-- A step of the handshake is taken from the ones prepared, and one that fails drops the session. -/
theorem handshakeCommand_enrolment (d : Device) (rndA : Rnd) :
    ((handshakeCommand d rndA).2.2.pending = d.pending ∨
      (handshakeCommand d rndA).2.2.pending = none) ∧
    ((handshakeCommand d rndA).2.2.state = d.state ∨
      (handshakeCommand d rndA).2.2.session = none) := by
  unfold handshakeCommand
  split
  · simp
  · split
    · simp
    · split <;> simp [Device.abandonSecure, Device.dropSession]

/-- What `Next` leaves of the handshake and of the state is what the choice of a command left. -/
theorem transact_enrolment (b : Bus) (d : Device) (rndA : Rnd) :
    ((transact b d rndA).2.pending = d.pending ∨ (transact b d rndA).2.pending = none) ∧
    ((transact b d rndA).2.state = d.state ∨ (transact b d rndA).2.secureEstablished = false) := by
  obtain ⟨q, r, s, he⟩ :=
    compose_device b (commandFor d rndA).2.2 (commandFor d rndA).1 (commandFor d rndA).2.1
  have hest := compose_secureEstablished b (commandFor d rndA).2.2 (commandFor d rndA).1
    (commandFor d rndA).2.1
  have hpe : (transact b d rndA).2.pending = (commandFor d rndA).2.2.pending := by
    simp only [transact, he]
  have hst : (transact b d rndA).2.state = (commandFor d rndA).2.2.state := by
    simp only [transact, he]
  have hse : (transact b d rndA).2.secureEstablished = (commandFor d rndA).2.2.secureEstablished :=
    hest
  rw [hpe, hst, hse]
  obtain ⟨m, -, hc⟩ | ⟨-, -, hc⟩ | ⟨-, -, hc⟩ | ⟨-, -, hc⟩ | ⟨-, -, hc⟩ := commandFor_cases d rndA
  case inr.inr.inr.inl =>
    rw [hc]
    obtain ⟨hpending, hstate⟩ := handshakeCommand_enrolment d rndA
    exact ⟨hpending, hstate.imp_right fun hnone => by simp [Device.secureEstablished, hnone]⟩
  all_goals
    rw [hc]
    exact ⟨.inl rfl, .inl rfl⟩

/-- A message prepares no step that carries a key. -/
theorem enrolled_stepOK (h : Enrolled b d m e) (hd : d.StepOK) : e.StepOK := by
  intro st hst
  cases h with
  | same _ _ hpe => exact hd st (hpe ▸ hst)
  | identifying _ _ hpe => exact hd st (hpe ▸ hst)
  | capabilities _ _ _ _ hpe => exact hd st (hpe ▸ hst)
  | dropped _ hpe =>
    rw [hpe] at hst
    cases hst
  | cryptogram _ _ _ _ _ _ _ _ hpe =>
    obtain ⟨st', hst', hcode⟩ := hpe
    rw [hst', Option.some.injEq] at hst
    rw [← hst, hcode]
    decide
  | established _ _ _ _ _ _ _ _ hpe => exact hd st (hpe ▸ hst)

/-- A reply leaves a handshake step that does not carry a key. -/
theorem reply_stepOK (h : d.StepOK) (b : Bus) (f : Frame) : (reply b d f).2.StepOK := by
  obtain ⟨-, e, he⟩ | ⟨-, -, ⟨-, he⟩ | ⟨-, -, he⟩ | ⟨-, data, s, -, he⟩⟩ := reply_cases b d f
  · rw [he]
    exact h
  · rw [he]
    simp [Device.StepOK, Device.resync_eq]
  · rw [he]
    simp [Device.StepOK, Device.resync_eq]
  · rw [he]
    exact enrolled_stepOK (dispatch_enrolled b _ _)
      (by simpa [Device.StepOK, Device.delivered_eq] using h)

/-- Nor does any call. -/
theorem call_stepOK (h : d.StepOK) (b : Bus) (c : Call) : (call b d c).2.StepOK := by
  cases c with
  | send m =>
    simp only [call, send]
    split <;> exact h
  | installKey key =>
    simp only [call, installKey]
    split <;> exact h
  | next rndA =>
    intro st hst
    rcases (transact_enrolment b d rndA).1 with hp | hp
    · exact h st (hp ▸ hst)
    · exact absurd (hp ▸ hst) (by simp)
  | reply f => exact reply_stepOK h b f
  | timeout =>
    obtain ⟨-, he⟩ | ⟨-, -, he⟩ := timeout_cases d
    · simpa [call, he, Device.retransmit_eq, Device.StepOK] using h
    · simp [call, he, Device.resync_eq, Device.StepOK]

/-! ## Over a run of the bus -/

/-- The operation is a `Next` that returns this frame for this device. -/
def Emits (b : Bus) (op : Op) (d : Device) (f : Frame) : Prop :=
  ∃ rndA, op = .next rndA ∧ b.devices[b.current]? = some d ∧ (b.perform op).1 = some (.step f)

/-- What `Next` emits is a transaction. -/
theorem emits_transact {op : Op} (h : Emits b op d f) :
    ∃ rndA e, op = .next rndA ∧ transact b d rndA = (.ok f, e) := by
  obtain ⟨rndA, rfl, hd, hstep⟩ := h
  rw [perform_of_callOf rfl, hd, Option.map_some, Option.some.injEq] at hstep
  simp only [call] at hstep
  cases ht : transact b d rndA with
  | mk r e =>
    cases r with
    | error err => simp [ht, Outcome.ofNext] at hstep
    | ok g =>
      simp only [ht, Outcome.ofNext, Outcome.step.injEq] at hstep
      exact ⟨rndA, e, rfl, by rw [ht, hstep]⟩

/-- And the other way round. -/
theorem emits_of_transact (hd : b.devices[b.current]? = some d) (h : transact b d rndA = (.ok f, e)) :
    Emits b (.next rndA) d f := by
  refine ⟨rndA, rfl, hd, ?_⟩
  rw [perform_of_callOf rfl, hd, Option.map_some]
  simp only [call, h, Outcome.ofNext]

/-- A device starts without a step of the handshake. -/
theorem stepOK_new (addr : Address) : (Device.new addr).StepOK := by
  simp [Device.StepOK, Device.new]

/-- Operations about the first device of the bus. -/
def Call.onFirst : Call → Op
  | .send m => .send 0 m
  | .installKey key => .installKey 0 key
  | .next rndA => .next rndA
  | .reply f => .reply 0 f
  | .timeout => .timeout 0

/-- The code, security block and payload of the frame an outcome returns. -/
def Outcome.wire : Outcome → Option (Code × Option SecurityBlock × Octets)
  | .step f => some (f.code, f.security, f.data)
  | _ => none

end Osdp.Bus
