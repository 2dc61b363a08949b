import Osdp.Analysis.Queue

/-!
# A run of the bus, device by device

An operation on the bus is at most one call about one of its devices (`Bus.callOf`,
`step_devices`). So the run of a bus, seen from one device, is a run of calls about that
device (`track_of_run`), and what holds of every `Track` holds of every device of every bus.
-/

set_option autoImplicit false

namespace Osdp.Bus

open Osdp.Secure (Session BaseKey Rnd)

/-- The call an operation makes, and the index of the device it makes it about. -/
def callOf (b : Bus) : Op → Option (ℕ × Call)
  | .send i m => some (i, .send m)
  | .installKey i key => some (i, .installKey key)
  | .setCommunication i want =>
    if want.address ≥ broadcastAddress ∨ b.addressInUse i want.address then none
    else some (i, .send (communicationCommand want))
  | .next rndA => some (b.current, .next rndA)
  | .reply i f => some (i, .reply f)
  | .timeout i => some (i, .timeout)
  | .keys _ => none

/-- Where the cycle stands does not matter to a call. -/
theorem call_current (b : Bus) (n : ℕ) (d : Device) (c : Call) :
    call { b with current := n } d c = call b d c := by
  cases c <;> rfl

/-- A call touches the device it is about. -/
theorem onDevice_devices (b : Bus) (i : ℕ) (c : Call) :
    (b.onDevice i c).2.devices = match b.devices[i]? with
      | none => b.devices
      | some d => b.devices.set i (call b d c).2 := by
  unfold onDevice
  split <;> simp_all

/-- An operation changes at most the device its call is about. -/
theorem step_devices (b : Bus) (op : Op) :
    (b.step op).devices = match b.callOf op with
      | none => b.devices
      | some (i, c) => match b.devices[i]? with
        | none => b.devices
        | some d => b.devices.set i (call b d c).2 := by
  cases op with
  | send i m => exact onDevice_devices b i _
  | installKey i key => exact onDevice_devices b i _
  | setCommunication i want =>
    by_cases ha : want.address ≥ broadcastAddress
    · simp [step, perform, setCommunication, callOf, ha]
    · by_cases hu : b.addressInUse i want.address = true
      · simp [step, perform, setCommunication, callOf, ha, hu]
      · simp only [step, perform, setCommunication, callOf, ha, hu, if_false]
        exact onDevice_devices b i _
  | next rndA =>
    simp only [step, perform, next, callOf]
    by_cases hl : b.devices.length = 0
    · simp [List.length_eq_zero_iff.mp hl]
    · simp only [if_neg hl, onDevice_devices, call_current]
  | reply i f => exact onDevice_devices b i _
  | timeout i => exact onDevice_devices b i _
  | keys keys => rfl

/-- What an operation returns is what its call returns. -/
theorem perform_of_callOf {b : Bus} {op : Op} {i : ℕ} {c : Call} (h : b.callOf op = some (i, c)) :
    (b.perform op).1 = b.devices[i]?.map fun d => (call b d c).1 := by
  have hon : ∀ (b : Bus) (i : ℕ) (c : Call),
      (b.onDevice i c).1 = b.devices[i]?.map fun d => (call b d c).1 := by
    intro b i c
    unfold onDevice
    split <;> simp_all
  cases op with
  | setCommunication j want =>
    simp only [callOf] at h
    split at h
    · cases h
    · rename_i hfree
      cases h
      simp only [not_or] at hfree
      simp only [perform, setCommunication, hfree, if_false]
      exact hon b i _
  | next rndA =>
    cases h
    simp only [perform, next]
    split
    · rename_i hl
      simp [List.length_eq_zero_iff.mp hl]
    · rw [hon]
      simp only [call_current]
  | keys keys => cases h
  | _ =>
    cases h
    exact hon b i _

/-- A device after an operation is one from before, or what the operation's call left of it. -/
theorem mem_step_devices {b : Bus} {op : Op} {e : Device} (h : e ∈ (b.step op).devices) :
    e ∈ b.devices ∨ ∃ i c d, b.callOf op = some (i, c) ∧ b.devices[i]? = some d ∧
      e = (call b d c).2 := by
  rw [step_devices] at h
  split at h
  · exact .inl h
  · rename_i i c hcall
    split at h
    · exact .inl h
    · rename_i d hd
      rcases List.mem_or_eq_of_mem_set h with h | h
      · exact .inl h
      · exact .inr ⟨i, c, d, hcall, hd, h⟩

/-- The calls a run of the bus makes about the device at index `i`. -/
def callsOn (i : ℕ) : Bus → List Op → List (Bus × Call)
  | _, [] => []
  | b, op :: ops =>
    match b.callOf op with
    | some (j, c) => if j = i then (b, c) :: callsOn i (b.step op) ops else callsOn i (b.step op) ops
    | none => callsOn i (b.step op) ops

/-- The run seen from one device, from any start. -/
theorem track_of_run_aux (i : ℕ) (ops : List Op) (b : Bus) (t : Track)
    (h : b.devices[i]? = some t.device) :
    (ops.foldl step b).devices[i]? = some ((callsOn i b ops).foldl Track.step t).device := by
  induction ops generalizing b t with
  | nil => exact h
  | cons op ops ih =>
    have hdev := step_devices b op
    simp only [List.foldl_cons, callsOn]
    cases hc : b.callOf op with
    | none =>
      rw [hc] at hdev
      exact ih _ t (by rw [hdev]; exact h)
    | some jc =>
      obtain ⟨j, c⟩ := jc
      simp only [hc] at hdev
      by_cases hj : j = i
      · subst hj
        simp only [h] at hdev
        simp only [if_true, List.foldl_cons]
        refine ih _ (t.step (b, c)) ?_
        rw [hdev, List.getElem?_set_self (List.getElem?_eq_some_iff.mp h).1]
        rfl
      · simp only [if_neg hj]
        refine ih _ t ?_
        rw [hdev]
        split
        · exact h
        · rw [List.getElem?_set_ne hj]
          exact h

/-- **One device of a bus.** After any run of a bus, the device at index `i` is what the calls
the run made about it leave of a new device. -/
theorem track_of_run (addrs : List Address) (scheme : Scheme) (secure : Option SecureChannel)
    (ops : List Op) {i : ℕ} {addr : Address} (h : addrs[i]? = some addr) :
    (ops.foldl step (new addrs scheme secure)).devices[i]? =
      some ((callsOn i (new addrs scheme secure) ops).foldl Track.step (Track.new addr)).device :=
  track_of_run_aux i ops _ _ (by simp [new, h, Track.new])

/-! ## What has passed between the bus and each device -/

/-- The bus, with a record of each device's past at its index. -/
structure Shadowed (γ : Type*) where
  bus : Bus
  shadow : ℕ → γ

namespace Shadowed

variable {γ : Type*} (after : γ → Bus → Device → Call → γ)

/-- One operation; `after` is what a call adds to the record of the device it is about. -/
def step (t : Shadowed γ) (op : Op) : Shadowed γ :=
  { bus := t.bus.step op
    shadow :=
      match t.bus.callOf op with
      | none => t.shadow
      | some (i, c) =>
        match t.bus.devices[i]? with
        | none => t.shadow
        | some d => Function.update t.shadow i (after (t.shadow i) t.bus d c) }

/-- A new bus, with the same record for every device. -/
def new (g : γ) (addrs : List Address) (scheme : Scheme) (secure : Option SecureChannel) :
    Shadowed γ :=
  { bus := Bus.new addrs scheme secure, shadow := fun _ => g }

/-- The records do not touch the bus. -/
theorem foldl_bus (ops : List Op) (t : Shadowed γ) :
    (ops.foldl (step after) t).bus = ops.foldl Bus.step t.bus := by
  induction ops generalizing t with
  | nil => rfl
  | cons op ops ih => exact ih (step after t op)

/-- Every device stands to its record as `I` says. -/
def Each (I : Device → γ → Prop) (t : Shadowed γ) : Prop :=
  ∀ i d, t.bus.devices[i]? = some d → I d (t.shadow i)

/-- A new bus stands to new records. -/
theorem each_new {I : Device → γ → Prop} {g : γ} (h : ∀ addr, I (Device.new addr) g)
    (addrs : List Address) (scheme : Scheme) (secure : Option SecureChannel) :
    (new g addrs scheme secure).Each I := by
  intro i d hd
  simp only [new, Bus.new, List.getElem?_map, Option.map_eq_some_iff] at hd
  obtain ⟨addr, -, rfl⟩ := hd
  exact h addr

variable {after}

/-- **The rule of one device.** What every call about a device keeps between it and its record,
every operation keeps for all of them. -/
theorem each_step {I : Device → γ → Prop}
    (hcall : ∀ b d c g, I d g → I (call b d c).2 (after g b d c)) {t : Shadowed γ} (h : t.Each I)
    (op : Op) : (t.step after op).Each I := by
  intro i e he
  simp only [step, step_devices] at he ⊢
  cases hc : t.bus.callOf op with
  | none =>
    rw [hc] at he
    exact h i e he
  | some jc =>
    obtain ⟨j, c⟩ := jc
    simp only [hc] at he
    cases hd : t.bus.devices[j]? with
    | none =>
      simp only [hd] at he ⊢
      exact h i e he
    | some d =>
      simp only [hd] at he ⊢
      by_cases hj : j = i
      · subst hj
        rw [List.getElem?_set_self (List.getElem?_eq_some_iff.mp hd).1, Option.some.injEq] at he
        subst he
        rw [Function.update_self]
        exact hcall t.bus d c _ (h j d hd)
      · rw [List.getElem?_set_ne hj] at he
        rw [Function.update_of_ne (Ne.symm hj)]
        exact h i e he

end Shadowed

end Osdp.Bus
