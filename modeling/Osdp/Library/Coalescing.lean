import Mathlib.Data.List.Basic

/-!
# A queue whose items are replaced by the latest of their kind

Items have a key. An item may be put in the place of the first one waiting that has its key, and at
the back when there is none (`Put`); nothing else in the queue moves. A kind that is only ever put
so waits at most once, as what was put last, and what was put last is either still waiting or the
last of its kind to have left (`Latest`).
-/

set_option autoImplicit false

namespace Coalescing

variable {α κ : Type*} (key : α → κ)

/-- What putting an item makes of a queue. -/
inductive Put (m : α) : List α → List α → Prop
  | replaced (front : List α) (w : α) (back : List α) (hw : key w = key m)
      (hfront : ∀ v ∈ front, key v ≠ key m) : Put m (front ++ w :: back) (front ++ m :: back)
  | appended (ws : List α) (h : ∀ v ∈ ws, key v ≠ key m) : Put m ws (ws ++ [m])

variable {m w : α} {ws vs : List α} {c : κ}

/-- **Putting an item leaves those of other kinds as they are, and in their order.** -/
theorem Put.filter_eq {key : α → κ} (h : Put key m ws vs) {p : α → Bool}
    (hp : ∀ w, key w = key m → p w = false) : vs.filter p = ws.filter p := by
  cases h with
  | replaced front w back hw hfront => simp [hp w hw, hp m rfl]
  | appended ws h => simp [hp m rfl]

variable [DecidableEq κ]

/-- The items of one kind. -/
def ofKind (c : κ) (ws : List α) : List α := ws.filter fun w => key w = c

variable {key}

/-- Nothing of the kind waits. -/
theorem ofKind_eq_nil : ofKind key c ws = [] ↔ ∀ w ∈ ws, key w ≠ c := by
  simp [ofKind, List.filter_eq_nil_iff]

/-- Kinds are picked part by part. -/
@[simp] theorem ofKind_append (c : κ) (us vs : List α) :
    ofKind key c (us ++ vs) = ofKind key c us ++ ofKind key c vs := List.filter_append _ _

/-- One of the kind is picked. -/
@[simp] theorem ofKind_cons_self (h : key w = c) (ws : List α) :
    ofKind key c (w :: ws) = w :: ofKind key c ws := List.filter_cons_of_pos (by simpa using h)

/-- Another is not. -/
@[simp] theorem ofKind_cons_ne (h : key w ≠ c) (ws : List α) :
    ofKind key c (w :: ws) = ofKind key c ws := List.filter_cons_of_neg (by simpa using h)

/-- Of its own kind the item is then the only one, if there was one at most. -/
theorem Put.ofKind_self (h : Put key m ws vs) (hone : (ofKind key (key m) ws).length ≤ 1) :
    ofKind key (key m) vs = [m] := by
  cases h with
  | replaced front w back hw hfront =>
    have hnone := ofKind_eq_nil.mpr hfront
    rw [ofKind_append, hnone, ofKind_cons_self hw] at hone
    have hback : ofKind key (key m) back = [] := by simpa using hone
    rw [ofKind_append, hnone, ofKind_cons_self rfl, hback, List.nil_append]
  | appended ws h =>
    rw [ofKind_append, ofKind_eq_nil.mpr h, ofKind_cons_self rfl, List.nil_append]
    rfl

/-- One kind in a queue and in what left it: the current item waits once at most, and if it was
`told` it waits or was the last to leave. -/
structure Latest (key : α → κ) (c : κ) (current : α) (left waiting : List α) (told : Prop) :
    Prop where
  once : ofKind key c waiting = [] ∨ ofKind key c waiting = [current]
  kept : told → ofKind key c waiting = [current] ∨ (ofKind key c left).getLast? = some current

namespace Latest

variable {c : κ} {current m : α} {left waiting after : List α} {told : Prop}

/-- At most one of a kind waits. -/
theorem length_le (h : Latest key c current left waiting told) :
    (ofKind key c waiting).length ≤ 1 := by
  obtain h | h := h.once <;> simp [h]

/-- Every item of the kind that waits is the current one. -/
theorem eq_current (h : Latest key c current left waiting told) (hm : m ∈ waiting)
    (hc : key m = c) : m = current := by
  have hmem : m ∈ ofKind key c waiting := List.mem_filter.mpr ⟨hm, by simpa using hc⟩
  obtain h | h := h.once
  · simp [h] at hmem
  · simpa [h] using hmem

/-- What happens to the other kinds does not matter. -/
theorem congr (h : Latest key c current left waiting told)
    (hkind : ofKind key c after = ofKind key c waiting) :
    Latest key c current left after told := by
  obtain ⟨honce, hkept⟩ := h
  rw [← hkind] at honce hkept
  exact ⟨honce, hkept⟩

/-- An item that is put is the current one from then on. -/
theorem put_self (h : Latest key (key m) current left waiting told) (hput : Put key m waiting after)
    (told' : Prop) : Latest key (key m) m left after told' := by
  have hself := hput.ofKind_self h.length_le
  exact ⟨.inr hself, fun _ => .inl hself⟩

/-- An item that could not be put had none of its kind waiting. -/
theorem refused (left : List α) (hnone : ∀ w ∈ waiting, key w ≠ c) (htold : ¬ told) :
    Latest key c m left waiting told :=
  ⟨.inl (ofKind_eq_nil.mpr hnone), fun h => absurd h htold⟩

/-- The item at the head leaves. -/
theorem leave (h : Latest key c current left (m :: waiting) told) :
    Latest key c current (left ++ [m]) waiting told := by
  by_cases hm : key m = c
  · have hcur : m = current := h.eq_current List.mem_cons_self hm
    have hrest : ofKind key c waiting = [] := by
      have hlen := h.length_le
      rw [ofKind_cons_self hm] at hlen
      simpa using hlen
    refine ⟨.inl hrest, fun _ => .inr ?_⟩
    rw [ofKind_append, ofKind_cons_self hm, hcur]
    exact List.getLast?_concat
  · obtain ⟨honce, hkept⟩ := h
    rw [ofKind_cons_ne hm] at honce hkept
    refine ⟨honce, ?_⟩
    rw [ofKind_append, ofKind_cons_ne hm]
    simpa [ofKind] using hkept

end Latest

end Coalescing
