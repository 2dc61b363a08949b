import Mathlib.Data.List.Basic
import Mathlib.Data.List.Nodup
import Mathlib.Logic.Function.Basic

/-!
# Changes and what they add up to

A change sets the value at one key. `apply` carries out a list of them in order, on a map from keys
to values. A report sets each of its keys once; leaving out of it what the map says already leaves
what it does the same (`apply_filter`). So whoever is told the changes alone knows the map.
-/

set_option autoImplicit false

namespace Delta

variable {ι κ β : Type*} [DecidableEq κ] (key : ι → κ) (val : ι → β)

/-- The map after these changes, the last one to a key standing. -/
def apply (v : κ → β) (changes : List ι) : κ → β :=
  changes.foldl (fun v c => Function.update v (key c) (val c)) v

/-- No changes. -/
@[simp] theorem apply_nil (v : κ → β) : apply key val v [] = v := rfl

/-- Changes apply in order. -/
@[simp] theorem apply_cons (v : κ → β) (c : ι) (cs : List ι) :
    apply key val v (c :: cs) = apply key val (Function.update v (key c) (val c)) cs := rfl

/-- One after the other. -/
theorem apply_append (v : κ → β) (cs ds : List ι) :
    apply key val v (cs ++ ds) = apply key val (apply key val v cs) ds := List.foldl_append

/-- A key that no change names keeps its value. -/
theorem apply_of_notMem {v : κ → β} {cs : List ι} {k : κ} (h : k ∉ cs.map key) :
    apply key val v cs k = v k := by
  induction cs generalizing v with
  | nil => rfl
  | cons c cs ih =>
    rw [List.map_cons, List.mem_cons, not_or] at h
    rw [apply_cons, ih h.2, Function.update_of_ne h.1]

/-- **A report may leave out what is so already.** -/
theorem apply_filter {v : κ → β} {cs : List ι} (hkeys : (cs.map key).Nodup) {p : ι → Bool}
    (hp : ∀ c ∈ cs, p c = false → v (key c) = val c) :
    apply key val v (cs.filter p) = apply key val v cs := by
  induction cs generalizing v with
  | nil => rfl
  | cons c cs ih =>
    rw [List.map_cons, List.nodup_cons] at hkeys
    -- the rest of the report does not speak of this key
    have hother : ∀ e ∈ cs, p e = false → Function.update v (key c) (val c) (key e) = val e := by
      intro e he hpe
      have hne : key e ≠ key c := fun heq => hkeys.1 (heq ▸ List.mem_map_of_mem he)
      rw [Function.update_of_ne hne]
      exact hp e (List.mem_cons_of_mem _ he) hpe
    cases hc : p c with
    | true =>
      rw [List.filter_cons_of_pos hc, apply_cons, apply_cons]
      exact ih hkeys.2 hother
    | false =>
      have hsame : Function.update v (key c) (val c) = v := by
        rw [← hp c List.mem_cons_self hc, Function.update_eq_self]
      rw [List.filter_cons_of_neg (by simp [hc]), apply_cons, hsame]
      exact ih hkeys.2 fun e he => hp e (List.mem_cons_of_mem _ he)

end Delta
