import Mathlib.Data.List.Basic

/-!
# Entries of a log kept apart by a separator

A log is a list that grows at its end. `Since sep x` says that the entry `x` stands in it
behind the last separator, `Spaced sep x` that a separator stands between any two
occurrences of `x`. Both are decided one appended entry at a time: an entry keeps the log
spaced unless it was already there since the last separator (`spaced_append_singleton`).
-/

set_option autoImplicit false

namespace Spacing

variable {α : Type*} {sep x y : α} {l : List α}

/-- The entry occurs behind the last separator. -/
def Since (sep x : α) (l : List α) : Prop := ∃ a c, l = a ++ x :: c ∧ sep ∉ c

/-- Any two occurrences of the entry have a separator between them. -/
def Spaced (sep x : α) (l : List α) : Prop :=
  ∀ a mid c, l = a ++ x :: (mid ++ x :: c) → sep ∈ mid

/-- Nothing has happened yet. -/
theorem not_since_nil : ¬ Since sep x [] := by
  rintro ⟨a, c, h, -⟩
  simp at h

/-- Nothing is too close. -/
theorem spaced_nil : Spaced sep x [] := by
  intro a mid c h
  simp at h

/-- An entry other than the separator is there since the last one when it is the last entry or
was there before. -/
theorem since_append_singleton (hy : y ≠ sep) : Since sep x (l ++ [y]) ↔ y = x ∨ Since sep x l := by
  constructor
  · rintro ⟨a, c, h, hc⟩
    rcases List.eq_nil_or_concat c with rfl | ⟨c', z, rfl⟩
    · have hlast := List.append_inj' h rfl
      exact .inl (List.singleton_injective hlast.2)
    · right
      have hsplit : l ++ [y] = (a ++ x :: c') ++ [z] := by simpa using h
      have hinit := (List.append_inj' hsplit rfl).1
      exact ⟨a, c', hinit, fun hmem => hc (by simp [hmem])⟩
  · rintro (rfl | ⟨a, c, rfl, hc⟩)
    · exact ⟨l, [], rfl, by simp⟩
    · refine ⟨a, c ++ [y], by simp, ?_⟩
      simp only [List.mem_append, List.mem_singleton, not_or]
      exact ⟨hc, fun h => hy h.symm⟩

/-- Nothing is there since a separator that has just been appended. -/
theorem not_since_append_sep (hx : x ≠ sep) : ¬ Since sep x (l ++ [sep]) := by
  rintro ⟨a, c, h, hc⟩
  rcases List.eq_nil_or_concat c with rfl | ⟨c', z, rfl⟩
  · exact hx (List.singleton_injective (List.append_inj' h rfl).2).symm
  · have hsplit : l ++ [sep] = (a ++ x :: c') ++ [z] := by simpa using h
    have hz := List.singleton_injective (List.append_inj' hsplit rfl).2
    exact hc (by simp [hz])

/-- **Appending to a spaced log.** -/
theorem spaced_append_singleton :
    Spaced sep x (l ++ [y]) ↔ Spaced sep x l ∧ (y = x → ¬ Since sep x l) := by
  constructor
  · intro h
    refine ⟨fun a mid c hl => h a mid (c ++ [y]) (by simp [hl]), ?_⟩
    rintro rfl ⟨a, mid, hl, hmid⟩
    exact hmid (h a mid [] (by simp [hl]))
  · rintro ⟨h, hlast⟩ a mid c hl
    rcases List.eq_nil_or_concat c with rfl | ⟨c', z, rfl⟩
    · have hsplit : l ++ [y] = (a ++ x :: mid) ++ [x] := by simpa using hl
      obtain ⟨hinit, hy⟩ := List.append_inj' hsplit rfl
      by_contra hmid
      exact hlast (List.singleton_injective hy) ⟨a, mid, hinit, hmid⟩
    · have hsplit : l ++ [y] = (a ++ x :: (mid ++ x :: c')) ++ [z] := by simpa using hl
      exact h a mid c' (List.append_inj' hsplit rfl).1

end Spacing
