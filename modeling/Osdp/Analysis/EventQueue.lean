import Osdp.Analysis.Refusal
import Osdp.Library.Coalescing

/-!
# The queue of events behind a poll

Card reads and keypad entries are queued in order and leave one to a poll. A change of the contacts
or of the local status is put in the place of the one that waits (`coalesce_put`), so of each there
is one at most, and it says how things are. `QueueLog` keeps beside the device what was accepted,
what polls were answered with and what the last call of each kind returned; `Faithful` is what that
record says after any run of calls.
-/

set_option autoImplicit false

namespace Osdp

open Osdp.Secure (Rnd)
open Coalescing (Put Latest ofKind)

/-- A card read or a keypad entry, as opposed to a status report. -/
def Message.isEvent (m : Message) : Bool := m.code = Code.raw || m.code = Code.keypad

namespace Pd

/-- The message of a card read or a keypad entry. -/
def Report.message : Report → Option Message
  | .cardRead c => some { code := Code.raw, data := appendCardRead [] c }
  | .keypad k => some { code := Code.keypad, data := appendKeypad [] k }
  | .input _ _ => none
  | .tamper _ => none
  | .power _ => none

namespace Device

/-! ## Into the queue -/

/-- An event is queued or the queue is full. -/
theorem queue_cases (d : Device) (m : Message) :
    (d.pending.length < d.cfg.queue ∧
      d.queue m = (.ok (), { d with pending := d.pending ++ [m] })) ∨
    d.queue m = (.error .queueFull, d) := by
  unfold queue
  split
  · exact .inr rfl
  · exact .inl ⟨by omega, rfl⟩

variable {m : Message} {ws : List Message}

/-- Nothing of the kind waits. -/
theorem replaceFirst_none (h : replaceFirst m ws = none) : ∀ w ∈ ws, w.code ≠ m.code := by
  induction ws with
  | nil => simp
  | cons w ws ih =>
    simp only [replaceFirst] at h
    split at h
    · cases h
    · rename_i hw
      simpa using ⟨hw, ih (Option.map_eq_none_iff.mp h)⟩

/-- One of the kind is replaced in its place. -/
theorem replaceFirst_some {vs : List Message} (h : replaceFirst m ws = some vs) :
    Put Message.code m ws vs ∧ vs.length = ws.length := by
  have hsplit : ∃ front w back, ws = front ++ w :: back ∧ vs = front ++ m :: back ∧
      w.code = m.code ∧ ∀ v ∈ front, v.code ≠ m.code := by
    induction ws generalizing vs with
    | nil => cases h
    | cons w ws ih =>
      simp only [replaceFirst] at h
      split at h
      · rename_i hw
        cases h
        exact ⟨[], w, ws, rfl, rfl, hw, by simp⟩
      · rename_i hw
        obtain ⟨us, hus, rfl⟩ := Option.map_eq_some_iff.mp h
        obtain ⟨front, u, back, rfl, rfl, hu, hfront⟩ := ih hus
        exact ⟨w :: front, u, back, rfl, rfl, hu, by simpa using ⟨hw, hfront⟩⟩
  obtain ⟨front, w, back, rfl, rfl, hw, hfront⟩ := hsplit
  exact ⟨.replaced front w back hw hfront, by simp⟩

/-- A status report is put into the queue, or there is no room and none of its kind waits. -/
theorem coalesce_put (d : Device) (m : Message) (hd : d.pending.length ≤ d.cfg.queue) :
    (∃ p, d.coalesce m = (.ok (), { d with pending := p }) ∧ p.length ≤ d.cfg.queue ∧
      Put Message.code m d.pending p) ∨
    (d.coalesce m = (.error .queueFull, d) ∧ ∀ w ∈ d.pending, w.code ≠ m.code) := by
  unfold coalesce
  split
  · rename_i p hp
    obtain ⟨hput, hlen⟩ := replaceFirst_some hp
    exact .inl ⟨p, rfl, hlen ▸ hd, hput⟩
  · rename_i hp
    have hnone := replaceFirst_none hp
    obtain ⟨hroom, hq⟩ | hq := queue_cases d m
    · refine .inl ⟨_, hq, ?_, .appended _ hnone⟩
      simp only [List.length_append, List.length_singleton]
      omega
    · exact .inr ⟨hq, hnone⟩

/-- **A status report is the current one of its kind from then on, and nothing else moves.** -/
theorem coalesce_latest {d : Device} {current : Message} {left : List Message} {told : Prop}
    (hd : d.pending.length ≤ d.cfg.queue)
    (h : Latest Message.code m.code current left d.pending told) :
    ∃ p, (d.coalesce m).2 = { d with pending := p } ∧ p.length ≤ d.cfg.queue ∧
      Latest Message.code m.code m left p ((d.coalesce m).1.isOk = true) ∧
      ∀ q : Message → Bool, (∀ w, w.code = m.code → q w = false) →
        p.filter q = d.pending.filter q := by
  obtain ⟨p, hp, hlen, hput⟩ | ⟨hp, hnone⟩ := coalesce_put d m hd
  · rw [hp]
    exact ⟨p, rfl, hlen, h.put_self hput _, fun q hq => hput.filter_eq hq⟩
  · rw [hp]
    exact ⟨_, rfl, hd, .refused left hnone (by simp [Except.isOk, Except.toBool]), fun _ _ => rfl⟩

/-! ## Out of the queue -/

/-- Whether the command is a poll that is carried out. -/
def polls (d : Device) (now : ℤ) (f : Frame) : Bool :=
  (d.dispatched now f).isSome && f.code == Code.poll

/-- The event a poll that is carried out is answered with, if any waits. -/
def takes (d : Device) (now : ℤ) (rndB : Rnd) (f : Frame) : List Message :=
  if d.polls now f && !d.pending.isEmpty then
    [((d.opening now f).answerFor f f.control.sequence rndB).1]
  else []

/-- The table takes one event off the queue for a poll, and none otherwise. -/
theorem dispatch_queue (d : Device) (code : Code) (data : Octets) (secured : Bool) :
    (if code == Code.poll && !d.pending.isEmpty then [(d.dispatch code data secured).1] else []) ++
      (d.dispatch code data secured).2.pending = d.pending := by
  apply dispatch_rows d code data secured (motive := fun r =>
    (if code == Code.poll && !d.pending.isEmpty then [r.1] else []) ++ r.2.pending = d.pending)
  case idle => exact fun _ hp => by simp [hp]
  case event => exact fun m rest hc hp => by simp [hc, hp]
  case identity => exact fun hc => by simp [hc, Code.id, Code.poll]
  case capabilities => exact fun hc => by simp [hc, Code.cap, Code.poll]
  case answered => exact fun m hc _ => by simp [hc]
  case outputs => exact fun _ hc => by simp [hc, Code.out, Code.poll]
  case address => exact fun _ hc _ _ => by simp [hc, Code.comSet, Code.poll]
  case key => exact fun _ hc _ _ _ => by simp [hc, Code.keySet, Code.poll]
  case delegated => exact fun hc => by simp [hc]

/-- **What waits after a command and what it took are what waited before.** -/
theorem handle_takes (d : Device) (now : ℤ) (rndB : Rnd) (f : Frame) :
    d.takes now rndB f ++ (d.handle now rndB f).2.pending = d.pending := by
  obtain ⟨hheard, e, -, he⟩ | ⟨-, hrep, he⟩ | ⟨hheard, hrep, he⟩ := handle_cases d now rndB f
  · rw [he]
    simp [takes, polls, dispatched, hheard]
  · obtain ⟨s, c, q, v, ho⟩ := observe_eq d now
    rw [he, ho]
    simp [takes, polls, dispatched, hrep]
  · have hfor : d.dispatched now f = (d.opening now f).dispatchFor f f.control.sequence := by
      simp [dispatched, hheard, hrep]
    rw [he, replyTo, emit_pending, takes, polls, hfor, ← opening_pending d now f]
    cases hd : (d.opening now f).dispatchFor f f.control.sequence with
    | none =>
      obtain ⟨s, m, block, hans, -⟩ := answerFor_of_none hd rndB
      rw [hans]
      rfl
    | some q =>
      obtain ⟨payload, secured⟩ := q
      obtain ⟨s, hans, -⟩ := answerFor_of_dispatchFor hd rndB
      rw [hans]
      exact dispatch_queue { d.opening now f with session := s } f.code payload secured

/-- A command changes neither the contacts nor the local status. -/
theorem handle_contacts (d : Device) (now : ℤ) (rndB : Rnd) (f : Frame) :
    (d.handle now rndB f).2.cfg = d.cfg ∧ (d.handle now rndB f).2.inputs = d.inputs ∧
      (d.handle now rndB f).2.localStatus = d.localStatus := by
  obtain ⟨-, e, -, he⟩ | ⟨-, -, he⟩ | ⟨-, -, he⟩ := handle_cases d now rndB f
  · rw [he]
    exact ⟨rfl, rfl, rfl⟩
  · obtain ⟨s, c, q, v, ho⟩ := observe_eq d now
    rw [he, ho]
    exact ⟨rfl, rfl, rfl⟩
  · have halike := alike_answerFor d now rndB f
    obtain ⟨a, k, c, s, u, n, v, hemit⟩ :=
      emit_device ((d.opening now f).answerFor f f.control.sequence rndB).2.2 f f.control.sequence
        ((d.opening now f).answerFor f f.control.sequence rndB).1
        ((d.opening now f).answerFor f f.control.sequence rndB).2.1
    rw [he, replyTo, hemit]
    exact ⟨halike.cfg, halike.inputs, halike.localStatus⟩

/-- No call touches the configuration. -/
theorem step_cfg (d : Device) (op : Op) : (d.step op).cfg = d.cfg := by
  cases op with
  | handle now rndB f => exact (d.handle_contacts now rndB f).1
  | report r =>
    obtain ⟨i, t, w, p, he⟩ := report_device d r
    rw [step, he]

end Device

/-! ## Runs -/

/-- A device and what its calls did to the queue. -/
structure QueueLog where
  device : Device
  /-- The card reads and keypad entries accepted. -/
  accepted : List Message := []
  /-- The events polls were answered with. -/
  left : List Message := []
  /-- Whether there was a `SetInput` and the last one returned nil. -/
  inputTold : Bool := false
  /-- Whether there was a `SetTamper` or `SetPower` and the last one returned nil. -/
  localTold : Bool := false

namespace QueueLog

def step (l : QueueLog) : Op → QueueLog
  | .handle now rndB f =>
    { l with device := (l.device.handle now rndB f).2
             left := l.left ++ l.device.takes now rndB f }
  | .report r =>
    let ok := (l.device.report r).1.isOk
    { device := (l.device.report r).2
      accepted := l.accepted ++ if ok then r.message.toList else []
      left := l.left
      inputTold := match r with
        | .input _ _ => ok
        | _ => l.inputTold
      localTold := match r with
        | .tamper _ => ok
        | .power _ => ok
        | _ => l.localTold }

/-- What a record says of the queue. -/
structure Faithful (l : QueueLog) : Prop where
  bound : l.device.pending.length ≤ l.device.cfg.queue
  order : (l.left ++ l.device.pending).filter Message.isEvent = l.accepted
  inputs : Latest Message.code Code.iStatR (contactStatus Code.iStatR l.device.inputs) l.left
    l.device.pending (l.inputTold = true)
  status : Latest Message.code Code.lStatR l.device.localStatus l.left l.device.pending
    (l.localTold = true)

variable {l : QueueLog} {m : Message}

/-- A command takes the oldest event off the queue at most. -/
theorem faithful_handle (h : l.Faithful) (now : ℤ) (rndB : Rnd) (f : Frame) :
    (l.step (.handle now rndB f)).Faithful := by
  obtain ⟨hcfg, hinputs, hstatus⟩ := l.device.handle_contacts now rndB f
  have htakes := l.device.handle_takes now rndB f
  obtain ⟨hbound, horder, hin, hst⟩ := h
  rw [← htakes] at hbound horder hin hst
  rw [← hcfg] at hbound
  rw [← hinputs] at hin
  rw [← hstatus] at hst
  rw [← List.append_assoc] at horder
  rw [List.length_append] at hbound
  have hbound' : (l.device.handle now rndB f).2.pending.length ≤
      (l.device.handle now rndB f).2.cfg.queue := by omega
  have htaken : l.device.takes now rndB f = [] ∨ ∃ m, l.device.takes now rndB f = [m] := by
    unfold Device.takes
    split
    · exact .inr ⟨_, rfl⟩
    · exact .inl rfl
  obtain hnone | ⟨m, hm⟩ := htaken
  · rw [hnone] at hin hst
    rw [hnone] at horder
    rw [step, hnone]
    exact ⟨hbound', horder, by simpa using hin, by simpa using hst⟩
  · rw [hm] at hin hst
    refine ⟨hbound', horder, ?_, ?_⟩
    · rw [step, hm]
      exact Latest.leave hin
    · rw [step, hm]
      exact Latest.leave hst

/-- A card read or a keypad entry waits behind everything else, or there is no room for it. -/
theorem faithful_queue (h : l.Faithful) (hm : m.isEvent = true) :
    Faithful { l with device := (l.device.queue m).2
                      accepted := l.accepted ++ if (l.device.queue m).1.isOk then [m] else [] } := by
  obtain ⟨hroom, hq⟩ | hq := l.device.queue_cases m
  · have hother : ∀ c, c ≠ Code.raw → c ≠ Code.keypad →
        ofKind Message.code c (l.device.pending ++ [m]) = ofKind Message.code c l.device.pending := by
      intro c hraw hkeypad
      have hc : m.code ≠ c := by
        rintro rfl
        simp [Message.isEvent, hraw, hkeypad] at hm
      rw [Coalescing.ofKind_append, Coalescing.ofKind_cons_ne hc]
      simp [ofKind]
    rw [hq]
    refine { bound := ?_, order := ?_, inputs := ?_, status := ?_ }
    · simp only [List.length_append, List.length_singleton]
      omega
    · rw [← List.append_assoc, List.filter_append, h.order, List.filter_cons_of_pos hm]
      simp [Except.isOk, Except.toBool]
    · exact h.inputs.congr (hother Code.iStatR (by decide) (by decide))
    · exact h.status.congr (hother Code.lStatR (by decide) (by decide))
  · rw [hq]
    simpa [Except.isOk, Except.toBool] using h

/-- A status report that is made leaves the events and the reports of the other kind alone. -/
theorem faithful_coalesce (h : l.Faithful) {e : Device} {current : Message} {told : Prop}
    (hpending : e.pending = l.device.pending) (hcfg : e.cfg = l.device.cfg)
    (hlatest : Latest Message.code m.code current l.left l.device.pending told)
    (hraw : m.code ≠ Code.raw) (hkeypad : m.code ≠ Code.keypad) :
    ∃ p, (e.coalesce m).2 = { e with pending := p } ∧ p.length ≤ e.cfg.queue ∧
      (l.left ++ p).filter Message.isEvent = l.accepted ∧
      Latest Message.code m.code m l.left p ((e.coalesce m).1.isOk = true) ∧
      ∀ c ≠ m.code, ofKind Message.code c p = ofKind Message.code c l.device.pending := by
  have hbound := h.bound
  rw [← hpending] at hlatest hbound
  rw [← hcfg] at hbound
  obtain ⟨p, hp, hlen, hput, hrest⟩ := Device.coalesce_latest hbound hlatest
  rw [hpending] at hrest
  refine ⟨p, hp, hlen, ?_, hput, ?_⟩
  · have hevents : ∀ w : Message, w.code = m.code → w.isEvent = false := by
      intro w hw
      simp [Message.isEvent, hw, hraw, hkeypad]
    rw [List.filter_append, hrest _ hevents, ← List.filter_append]
    exact h.order
  · intro c hc
    exact hrest _ fun w hw => by simpa [hw] using hc.symm

/-- The contacts change and the report of them with them. -/
theorem faithful_input (h : l.Faithful) (i : List Bool) :
    Faithful { l with device := ({ l.device with inputs := i }.coalesce
                        (contactStatus Code.iStatR i)).2
                      inputTold := ({ l.device with inputs := i }.coalesce
                        (contactStatus Code.iStatR i)).1.isOk } := by
  obtain ⟨p, hp, hlen, horder, hlatest, hother⟩ :=
    faithful_coalesce h (e := { l.device with inputs := i }) (m := contactStatus Code.iStatR i)
      rfl rfl h.inputs (show Code.iStatR ≠ Code.raw by decide)
      (show Code.iStatR ≠ Code.keypad by decide)
  rw [hp]
  exact { bound := hlen, order := horder, inputs := hlatest
          status := h.status.congr (hother Code.lStatR (show Code.lStatR ≠ Code.iStatR by decide)) }

/-- The tamper switch or the power changes and the report of the two with it. -/
theorem faithful_local (h : l.Faithful) (t w : Bool) :
    Faithful { l with device := ({ l.device with tamper := t, powerFailure := w }.coalesce
                        { l.device with tamper := t, powerFailure := w }.localStatus).2
                      localTold := ({ l.device with tamper := t, powerFailure := w }.coalesce
                        { l.device with tamper := t, powerFailure := w }.localStatus).1.isOk } := by
  obtain ⟨p, hp, hlen, horder, hlatest, hother⟩ :=
    faithful_coalesce h (e := { l.device with tamper := t, powerFailure := w })
      (m := { l.device with tamper := t, powerFailure := w }.localStatus)
      rfl rfl h.status (show Code.lStatR ≠ Code.raw by decide)
      (show Code.lStatR ≠ Code.keypad by decide)
  rw [hp]
  exact { bound := hlen, order := horder, status := hlatest
          inputs := h.inputs.congr (hother Code.iStatR (show Code.iStatR ≠ Code.lStatR by decide)) }

/-- A status report is no event to be accepted. -/
theorem accepted_of_message {r : Report} (hr : r.message = none) (l : QueueLog) :
    (l.step (.report r)).accepted = l.accepted := by
  simp [step, hr]

/-- **Every call** keeps the ledger faithful. -/
theorem faithful_step (h : l.Faithful) (op : Op) : (l.step op).Faithful := by
  cases op with
  | handle now rndB f => exact faithful_handle h now rndB f
  | report r =>
    cases r with
    | cardRead c =>
      simp only [step, Device.report, Device.reportCardRead]
      split
      · simpa [Except.isOk, Except.toBool] using h
      · exact faithful_queue h (m := { code := Code.raw, data := appendCardRead [] c }) rfl
    | keypad k =>
      exact faithful_queue h (m := { code := Code.keypad, data := appendKeypad [] k }) rfl
    | input index active =>
      simp only [step, Device.report, Device.setInput, Report.message, Option.toList_none, ite_self,
        List.append_nil]
      split
      · exact { bound := h.bound, order := h.order, status := h.status
                inputs := ⟨h.inputs.once, by simp [Except.isOk, Except.toBool]⟩ }
      · exact faithful_input h (l.device.inputs.set index.toNat active)
    | tamper active =>
      have hlocal := faithful_local h active l.device.powerFailure
      have haccepted := accepted_of_message (r := .tamper active) rfl l
      exact { bound := hlocal.bound, order := hlocal.order.trans haccepted.symm
              inputs := hlocal.inputs, status := hlocal.status }
    | power failure =>
      have hlocal := faithful_local h l.device.tamper failure
      have haccepted := accepted_of_message (r := .power failure) rfl l
      exact { bound := hlocal.bound, order := hlocal.order.trans haccepted.symm
              inputs := hlocal.inputs, status := hlocal.status }

/-- A new device has a faithful one. -/
theorem faithful_new {addr : Address} {cfg : Settings} {d : Device} (h : new addr cfg = .ok d) :
    Faithful { device := d } := by
  obtain ⟨-, -, -, c, rfl, -⟩ := new_ok h
  refine { bound := ?_, order := ?_, inputs := ?_, status := ?_ }
  · simp
  · simp
  · exact .refused [] (by simp) (by simp)
  · exact .refused [] (by simp) (by simp)

/-- The record is of the device's own run. -/
theorem device_foldl (l : QueueLog) (ops : List Op) :
    (ops.foldl step l).device = ops.foldl Device.step l.device := by
  induction ops generalizing l with
  | nil => rfl
  | cons op ops ih =>
    rw [List.foldl_cons, List.foldl_cons, ih]
    cases op <;> rfl

end QueueLog

/-- A card is read between two changes of an input, and everything is polled out. -/
def chatterOps : List Op :=
  [.report (.input 0 true),
   .report (.cardRead { reader := 0, format := 1, bitCount := 8, data := [0x5A] }),
   .report (.input 0 false),
   .handle 0 Secure.zeroRnd (plainCommand 1 Code.poll []),
   .handle 0 Secure.zeroRnd (plainCommand 2 Code.poll [])]

end Pd

end Osdp
