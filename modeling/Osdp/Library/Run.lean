import Mathlib.Data.List.Basic

/-!
# Runs of a deterministic machine

A machine is a step function `step : σ → ι → σ` and a run is a fold over a list of
inputs. `trace` records every state together with the input it was given, so a property
of a run is a property of the members of its trace.

The rules here are the inductions every safety proof needs: an invariant kept by each
step that meets a condition (`invariant_of_trace`), and, for a condition that is exact,
the equivalence of "every step has the property" with "every step meets the condition"
(`trace_forall_iff`).
-/

set_option autoImplicit false

namespace Run

variable {σ ι : Type*} (step : σ → ι → σ)

/-- Every state of a run with the input it was given, the final state left out. -/
def trace : σ → List ι → List (σ × ι)
  | _, [] => []
  | s, i :: is => (s, i) :: trace (step s i) is

/-- Nothing happens in an empty run. -/
@[simp] theorem trace_nil (s : σ) : trace step s [] = [] := rfl

/-- A run, step by step. -/
@[simp] theorem trace_cons (s : σ) (i : ι) (is : List ι) :
    trace step s (i :: is) = (s, i) :: trace step (step s i) is := rfl

variable {s : σ} {I : σ → Prop} {C : σ → ι → Prop}

/-- A member of a trace splits the inputs at the step it records. -/
theorem mem_trace {t : σ} {i : ι} {is : List ι} :
    (t, i) ∈ trace step s is ↔
      ∃ before after, is = before ++ i :: after ∧ t = before.foldl step s := by
  induction is generalizing s with
  | nil => simp
  | cons j is ih =>
    simp only [trace_cons, List.mem_cons, Prod.mk.injEq]
    constructor
    · rintro (⟨rfl, rfl⟩ | h)
      · exact ⟨[], is, rfl, rfl⟩
      · obtain ⟨before, after, rfl, rfl⟩ := ih.mp h
        exact ⟨j :: before, after, rfl, rfl⟩
    · rintro ⟨before, after, hsplit, rfl⟩
      cases before with
      | nil =>
        simp only [List.nil_append, List.cons.injEq] at hsplit
        exact .inl ⟨rfl, hsplit.1.symm⟩
      | cons k before =>
        simp only [List.cons_append, List.cons.injEq] at hsplit
        obtain ⟨rfl, rfl⟩ := hsplit
        exact .inr (ih.mpr ⟨before, after, rfl, rfl⟩)

variable {step}

/-- **The invariant rule.** An invariant kept by every step that meets `C` holds before
every step of a run whose steps all meet `C`, and at its end. -/
theorem invariant_of_trace (hstep : ∀ s i, I s → C s i → I (step s i)) (hs : I s) (is : List ι)
    (hC : ∀ p ∈ trace step s is, C p.1 p.2) :
    (∀ p ∈ trace step s is, I p.1) ∧ I (is.foldl step s) := by
  induction is generalizing s with
  | nil => exact ⟨by simp, hs⟩
  | cons i is ih =>
    simp only [trace_cons, List.forall_mem_cons] at hC ⊢
    have hnext := ih (hstep s i hs hC.1) hC.2
    exact ⟨⟨hs, hnext.1⟩, hnext.2⟩

/-- The invariant rule, for a condition on the inputs alone. -/
theorem invariant_of_inputs {C : ι → Prop} (hstep : ∀ s i, I s → C i → I (step s i)) (hs : I s)
    (is : List ι) (hC : ∀ i ∈ is, C i) : (∀ p ∈ trace step s is, I p.1) ∧ I (is.foldl step s) := by
  refine invariant_of_trace (C := fun _ i => C i) hstep hs is ?_
  rintro ⟨t, i⟩ hp
  obtain ⟨before, after, rfl, -⟩ := (mem_trace step).mp hp
  exact hC i (by simp)

/-- An invariant kept by every step holds at the end of every run. -/
theorem invariant (hstep : ∀ s i, I s → I (step s i)) (hs : I s) (is : List ι) :
    I (is.foldl step s) :=
  (invariant_of_trace (C := fun _ _ => True) (fun s i h _ => hstep s i h) hs is
    (fun _ _ => trivial)).2

/-- An invariant kept by every step holds before every step of a run. -/
theorem invariant_trace (hstep : ∀ s i, I s → I (step s i)) (hs : I s) (is : List ι) :
    ∀ p ∈ trace step s is, I p.1 :=
  (invariant_of_trace (C := fun _ _ => True) (fun s i h _ => hstep s i h) hs is
    (fun _ _ => trivial)).1

/-- **The exactness rule.** Let the steps of a run be admissible. If an admissible step from an
invariant state has the property `P` and keeps the invariant when it meets `C`, and lacks `P`
when it does not, then the steps all have `P` exactly when they all meet `C`. -/
theorem trace_forall_iff {A P : σ → ι → Prop}
    (hgood : ∀ s i, I s → A s i → C s i → P s i ∧ I (step s i))
    (hbad : ∀ s i, I s → A s i → ¬ C s i → ¬ P s i) (hs : I s) (is : List ι)
    (hA : ∀ p ∈ trace step s is, A p.1 p.2) :
    (∀ p ∈ trace step s is, P p.1 p.2) ↔ ∀ p ∈ trace step s is, C p.1 p.2 := by
  induction is generalizing s with
  | nil => simp
  | cons i is ih =>
    simp only [trace_cons, List.forall_mem_cons] at hA ⊢
    constructor
    · rintro ⟨hP, hrest⟩
      have hC : C s i := by
        by_contra hC
        exact hbad s i hs hA.1 hC hP
      exact ⟨hC, (ih (hgood s i hs hA.1 hC).2 hA.2).mp hrest⟩
    · rintro ⟨hC, hrest⟩
      obtain ⟨hP, hnext⟩ := hgood s i hs hA.1 hC
      exact ⟨hP, (ih hnext hA.2).mpr hrest⟩

/-- A property of every state a run reaches is one of its start and of what each step leaves. -/
theorem forall_prefix_iff {Q : σ → Prop} (is : List ι) :
    (∀ js, js <+: is → Q (js.foldl step s)) ↔
      Q s ∧ ∀ p ∈ trace step s is, Q (step p.1 p.2) := by
  constructor
  · intro h
    refine ⟨h [] (List.nil_prefix), ?_⟩
    rintro ⟨t, i⟩ hp
    obtain ⟨before, after, rfl, rfl⟩ := (mem_trace step).mp hp
    simpa using h (before ++ [i]) ⟨after, by simp⟩
  · rintro ⟨hs, h⟩ js ⟨rest, rfl⟩
    rcases List.eq_nil_or_concat js with rfl | ⟨before, i, rfl⟩
    · exact hs
    · simpa using h (before.foldl step s, i)
        ((mem_trace step).mpr ⟨before, rest, by simp, rfl⟩)

end Run
