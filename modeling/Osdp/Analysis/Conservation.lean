import Osdp.Analysis.Queue

/-!
# No command is lost, duplicated or reordered

`Conserved` is the panel's side of the bargain with its caller: what was accepted is what
was answered, then what is in flight, then what waits. The one call that breaks it is a
reply whose payload does not parse: `delivered` has already taken the command out of
flight when the dispatcher returns the error, and the `Timeout` that follows finds
nothing to put back.
-/

set_option autoImplicit false

namespace Osdp

open Osdp.Secure (BaseKey Rnd)

/-- Whether the parser for this reply's code refuses the payload. -/
def Message.malformed (m : Message) : Bool :=
  if m.code = Code.pdID then (parseDeviceID m.data).isNone
  else if m.code = Code.pdCap then (parseCapabilities m.data).isNone
  else if m.code = Code.lStatR then (parseLocalStatus m.data).isNone
  else if m.code = Code.raw then (parseCardRead m.data).isNone
  else if m.code = Code.keypad then (parseKeypadEntry m.data).isNone
  else if m.code = Code.nak then (parseNAK m.data).isNone
  else if m.code = Code.mfgReply then (parseManufacturerMessage m.data).isNone
  else if m.code = Code.com then (parseCommunication m.data).isNone
  else false

namespace Bus

/-- A status report that parses gives an event. -/
theorem onStatus_ok (d : Device) {parse : Octets → Option (List StatusChange)} {data : Octets}
    {reported : List StatusChange} (h : parse data = some reported) :
    ∃ e, (onStatus d parse data).1 = .ok e := by
  unfold onStatus
  simp only [h]
  split
  · exact ⟨_, rfl⟩
  · exact ⟨_, rfl⟩

/-- A reply without a parser of its own is never malformed. -/
theorem not_malformed {m : Message}
    (h : m.code ∉ [Code.pdID, Code.pdCap, Code.lStatR, Code.raw, Code.keypad, Code.nak,
      Code.mfgReply, Code.com]) : m.malformed = false := by
  simp only [List.mem_cons, List.not_mem_nil, or_false, not_or] at h
  simp [Message.malformed, h]

/-- The dispatcher fails exactly on a payload its code's parser refuses. -/
theorem dispatch_error_iff (b : Bus) (d : Device) (m : Message) :
    (∃ e, (dispatch b d m).1 = .error e) ↔ m.malformed = true := by
  let Row : Except Error Event × Device → Prop :=
    fun r => (∃ e, r.1 = .error e) ↔ m.malformed = true
  -- a row whose answer is an event whatever the payload
  have htotal : ∀ {c : Code} {r : Except Error Event × Device}, m.code = c →
      c ∉ [Code.pdID, Code.pdCap, Code.lStatR, Code.raw, Code.keypad, Code.nak, Code.mfgReply,
        Code.com] → (∃ e, r.1 = .ok e) → Row r := by
    rintro c r rfl hc ⟨e, he⟩
    simp [Row, he, not_malformed hc]
  unfold dispatch
  refine iteInduction (motive := Row) (fun h => ?_) fun _ => ?_
  · simp only [Row, Message.malformed, h]
    cases parseDeviceID m.data <;> simp
  refine iteInduction (motive := Row) (fun h => ?_) fun _ => ?_
  · simp only [Row, Message.malformed, h, Code.pdCap, Code.pdID]
    cases parseCapabilities m.data with
    | none => simp
    | some report => simp only; split <;> simp
  iterate 2
    refine iteInduction (motive := Row) (fun h => ?_) fun _ => ?_
    · exact htotal h (by decide) (onStatus_ok d rfl)
  refine iteInduction (motive := Row) (fun h => ?_) fun _ => ?_
  · simp only [Row, Message.malformed, h, Code.lStatR, Code.pdID, Code.pdCap]
    cases hp : parseLocalStatus m.data with
    | none => simp [onStatus, hp]
    | some reported =>
      obtain ⟨e, he⟩ := onStatus_ok d hp
      simp [he]
  refine iteInduction (motive := Row) (fun h => ?_) fun _ => ?_
  · exact htotal h (by decide) (onStatus_ok d rfl)
  iterate 2
    refine iteInduction (motive := Row) (fun h => ?_) fun _ => ?_
    · exact htotal h (by decide) ⟨_, rfl⟩
  refine iteInduction (motive := Row) (fun h => ?_) fun _ => ?_
  · simp only [Row, Message.malformed, h, Code.raw, Code.pdID, Code.pdCap, Code.lStatR]
    cases parseCardRead m.data <;> simp
  refine iteInduction (motive := Row) (fun h => ?_) fun _ => ?_
  · simp only [Row, Message.malformed, h, Code.keypad, Code.pdID, Code.pdCap, Code.lStatR, Code.raw]
    cases parseKeypadEntry m.data <;> simp
  refine iteInduction (motive := Row) (fun h => ?_) fun _ => ?_
  · simp only [Row, Message.malformed, h, Code.nak, Code.pdID, Code.pdCap, Code.lStatR, Code.raw,
      Code.keypad]
    cases parseNAK m.data <;> simp
  refine iteInduction (motive := Row) (fun h => ?_) fun _ => ?_
  · simp only [Row, Message.malformed, h, Code.mfgReply, Code.pdID, Code.pdCap, Code.lStatR,
      Code.raw, Code.keypad, Code.nak]
    cases parseManufacturerMessage m.data <;> simp
  refine iteInduction (motive := Row) (fun h => ?_) fun _ => ?_
  · simp only [Row, Message.malformed, h, Code.com, Code.pdID, Code.pdCap, Code.lStatR, Code.raw,
      Code.keypad, Code.nak, Code.mfgReply, onCommunication]
    cases parseCommunication m.data <;> simp
  refine iteInduction (motive := Row) (fun h => ?_) fun _ => ?_
  · exact htotal h (by decide) ⟨_, rfl⟩
  refine iteInduction (motive := Row) (fun h => ?_) fun _ => ?_
  · refine htotal h (by decide) ?_
    split <;> exact ⟨_, rfl⟩
  · refine htotal rfl ?_ ⟨_, rfl⟩
    simp [*]

/-- `Reply` fails on a frame that is not a reply to this device, and on a malformed payload. -/
theorem reply_error {b : Bus} {d e : Device} {f : Frame} {err : Error}
    (h : reply b d f = (.error err, e)) :
    e = d ∨ (f.isReply = true ∧ f.address = d.address ∧ f.control.sequence ≠ 0 ∧
      ∃ m, d.opened f = some m ∧ m.malformed = true) := by
  obtain ⟨-, e', he⟩ | ⟨hr, ha, ⟨-, he⟩ | ⟨-, -, he⟩ | ⟨hz, data, s, ho, he⟩⟩ := reply_cases b d f
  · left
    rw [he] at h
    cases h
    rfl
  · rw [he] at h
    cases h
  · rw [he] at h
    cases h
  · right
    refine ⟨hr, ha, hz, { code := f.code, isReply := f.isReply, data := data }, ?_, ?_⟩
    · rw [← d.opened_misses f 0]
      simp [Device.opened, ho, Message.decode]
    · rw [he] at h
      exact (dispatch_error_iff b _ _).mp ⟨err, by rw [h]⟩

namespace Track

/-- What was accepted is what was answered, then what is in flight, then what waits. -/
def Conserved (t : Track) : Prop :=
  t.accepted.map Submission.message =
    t.answered ++ t.device.inflight.toList ++ t.device.outbox

instance (t : Track) : Decidable t.Conserved := inferInstanceAs (Decidable (_ = _))

/-- The driver makes this call here. -/
def permitted (t : Track) (i : Bus × Call) : Bool :=
  t.phase.permits i.2 (call i.1 t.device i.2).1

/-- A reply to this device, let through by its session, whose payload does not parse, while a
command is in flight. -/
def garbled (t : Track) (i : Bus × Call) : Bool :=
  match i.2 with
  | .reply f =>
    t.device.inflight.isSome && f.isReply && f.address == t.device.address &&
      f.control.sequence != 0 && (t.device.opened f).any Message.malformed
  | _ => false

variable {t : Track} {i : Bus × Call}

/-- What a garbled answer is. -/
theorem garbled_iff :
    t.garbled i = true ↔ ∃ f, i.2 = .reply f ∧ t.device.inflight ≠ none ∧ f.isReply = true ∧
      f.address = t.device.address ∧ f.control.sequence ≠ 0 ∧
      ∃ m, t.device.opened f = some m ∧ m.malformed = true := by
  obtain ⟨b, c⟩ := i
  cases c <;> simp [garbled, Option.any_eq_true, Option.isSome_iff_ne_none, and_assoc]

/-- Between exchanges nothing is in flight. -/
def Rested (t : Track) : Prop := t.phase = .idle → t.device.inflight = none

/-- What was accepted is answered or outstanding. -/
theorem conserved_iff (t : Track) :
    t.Conserved ↔ t.accepted.map Submission.message = t.answered ++ t.device.outstanding := by
  simp [Conserved, Device.outstanding]

/-- The driver calls `Next` between exchanges only. -/
theorem idle_of_permitted_next {rndA : Rnd} (hp : t.permitted i = true) (hi : i.2 = .next rndA) :
    t.phase = .idle := by
  cases hph : t.phase <;> simp_all [permitted, Phase.permits]

/-- Every call of the driver conserves the queue unless the reply is garbled. -/
theorem conserved_step (hc : t.Conserved) (hr : t.Rested) (hp : t.permitted i = true)
    (hg : t.garbled i = false) : (t.step i).Conserved ∧ (t.step i).Rested := by
  rw [conserved_iff] at hc ⊢
  obtain ⟨b, c⟩ := i
  cases c with
  | send m =>
    constructor
    · simp only [step, call, List.map_append, send_outstanding, hc]
      cases (send b t.device m).1 <;> simp [accepts, answers, Outcome.ofSubmission, Submission.message]
    · have hi : (send b t.device m).2.inflight = t.device.inflight := by
        unfold send; split <;> rfl
      simpa [Rested, step, call, Phase.after, hi] using hr
  | installKey key =>
    constructor
    · simp only [step, call, List.map_append, installKey_outstanding, hc]
      cases (installKey t.device key).1 <;>
        simp [accepts, answers, Outcome.ofSubmission, Submission.message]
    · have hi : (installKey t.device key).2.inflight = t.device.inflight := by
        unfold installKey; split <;> rfl
      simpa [Rested, step, call, Phase.after, hi] using hr
  | next rndA =>
    have hidle := idle_of_permitted_next hp rfl
    have ho := transact_outstanding b t.device rndA
    rw [hr hidle] at ho
    constructor
    · simp only [step, call, accepts, answers, List.append_nil, hc]
      simpa using ho
    · simp [Rested, step, call, Phase.after]
  | reply f =>
    have ho := reply_outstanding b t.device f
    cases hrep : reply b t.device f with
    | mk res e =>
      cases res with
      | ok ev =>
        have hi := reply_inflight b t.device f
        simp only [hrep] at ho hi
        constructor
        · simp only [step, call, hrep, accepts, answers, Outcome.ofReply, List.append_nil, hc]
          simpa using ho
        · simpa [Rested, step, call, hrep, Phase.after, Outcome.ofReply] using hi
      | error err =>
        have hsame : e.outstanding = t.device.outstanding := by
          rcases reply_error hrep with rfl | ⟨hr', ha, hz, hm⟩
          · rfl
          · -- nothing was in flight, so the failed reply had nothing to lose
            have hnone : t.device.inflight = none := by
              by_contra hi
              have hgt : t.garbled (b, .reply f) = true :=
                garbled_iff.mpr ⟨f, rfl, hi, hr', ha, hz, hm⟩
              rw [hg] at hgt
              cases hgt
            have hfreed : t.device.freed e = none := by simp [Device.freed, hnone]
            simpa [hrep, hfreed] using ho.symm
        constructor
        · simp [step, call, hrep, accepts, answers, Outcome.ofReply, hc, hsame]
        · simp [Rested, step, call, hrep, Phase.after, Outcome.ofReply]
  | timeout =>
    constructor
    · simp [step, call, accepts, answers, hc, timeout_outstanding]
    · simp [Rested, step, call, timeout_inflight]

/-- A garbled reply loses the command that was in flight. -/
theorem not_conserved_of_garbled (hc : t.Conserved) (hg : t.garbled i = true) :
    ¬ (t.step i).Conserved := by
  obtain ⟨b, c⟩ := i
  obtain ⟨f, rfl, hi, hr, ha, hz, m, hm, hmal⟩ := garbled_iff.mp hg
  obtain ⟨e, s, rfl, he⟩ := reply_of_opened b hr ha hz hm
  obtain ⟨err, herr⟩ := (dispatch_error_iff b _ m).mpr hmal
  have hfail : (reply b t.device f).1 = .error err := by rw [he, herr]
  have hbusy : m.code ≠ Code.busy := by
    intro hb
    simp [Message.malformed, hb, Code.busy, Code.pdID, Code.pdCap, Code.lStatR, Code.raw,
      Code.keypad, Code.nak, Code.mfgReply, Code.com] at hmal
  have hfreed : t.device.freed (reply b t.device f).2 = t.device.inflight := by
    obtain ⟨hin, hout⟩ := dispatch_queue b { t.device with misses := 0, session := s } m
    rw [if_neg hbusy] at hout
    rw [he]
    exact Device.freed_released hin hout
  have ho := reply_outstanding b t.device f
  rw [hfreed] at ho
  rw [conserved_iff] at hc ⊢
  intro hcons
  simp only [step, call, hfail, Outcome.ofReply, accepts, answers, List.append_nil, hc, ho,
    List.append_cancel_left_eq] at hcons
  cases hfl : t.device.inflight with
  | none => exact hi hfl
  | some k => simp [hfl] at hcons

end Track

/-- An `osdp_OUT` answered with `osdp_BUSY`, sent again and acknowledged. -/
def busyCalls : List Call :=
  enrolCalls ++
    [.send { code := Code.out, data := [0, 2, 0, 0] }, .next Secure.zeroRnd,
     .reply (plainReply 1 3 Code.busy []), .next Secure.zeroRnd,
     .reply (plainReply 1 1 Code.ack []), .next Secure.zeroRnd,
     .reply (plainReply 1 2 Code.ack [])]

/-- An `osdp_OUT` answered with an `osdp_NAK` that carries no reason. -/
def garbledCalls : List Call :=
  enrolCalls ++
    [.send { code := Code.out, data := [0, 2, 0, 0] }, .next Secure.zeroRnd,
     .reply (plainReply 1 3 Code.nak []), .timeout]

end Bus

end Osdp
