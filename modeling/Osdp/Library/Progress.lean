import Osdp.Library.Run

/-!
# Steps that count

A run meets a goal in time when some of its steps take a measure down and none of the others
raises it. Which steps count is a property of the inputs, so that the bound is one on the inputs
alone and whatever else happens between them does not matter.
-/

set_option autoImplicit false

namespace Run

variable {σ ι : Type*} {step : σ → ι → σ}

/-- **The countdown rule.** Outside the goal the measure is positive. A step that counts meets the
goal or takes the measure down, and any other step does not raise it. Then the goal is met before
more steps have counted than the measure said at the start. -/
theorem reaches_goal {I G : σ → Prop} {A : ι → Prop} {counts : ι → Bool} {m : σ → ℕ}
    (hpos : ∀ s, I s → 0 < m s)
    (hcount : ∀ s i, I s → A i → counts i = true →
      G (step s i) ∨ (I (step s i) ∧ m (step s i) < m s))
    (hother : ∀ s i, I s → A i → counts i = false →
      I (step s i) ∧ m (step s i) ≤ m s)
    {s : σ} (hs : I s) (is : List ι) (hA : ∀ i ∈ is, A i) (henough : m s ≤ is.countP counts) :
    ∃ before after, is = before ++ after ∧ before.countP counts ≤ m s ∧
      G (before.foldl step s) := by
  induction is generalizing s with
  | nil =>
    have := hpos s hs
    simp at henough
    omega
  | cons i is ih =>
    simp only [List.forall_mem_cons] at hA
    cases hi : counts i with
    | true =>
      rw [List.countP_cons_of_pos hi] at henough
      obtain hgoal | ⟨hnext, hless⟩ := hcount s i hs hA.1 hi
      · refine ⟨[i], is, rfl, ?_, hgoal⟩
        rw [List.countP_cons_of_pos hi, List.countP_nil]
        exact hpos s hs
      · obtain ⟨before, after, rfl, hle, hgoal⟩ := ih hnext hA.2 (by omega)
        refine ⟨i :: before, after, rfl, ?_, hgoal⟩
        rw [List.countP_cons_of_pos hi]
        omega
    | false =>
      rw [List.countP_cons_of_neg (by simp [hi])] at henough
      obtain ⟨hnext, hle⟩ := hother s i hs hA.1 hi
      obtain ⟨before, after, rfl, hle', hgoal⟩ := ih hnext hA.2 (by omega)
      refine ⟨i :: before, after, rfl, ?_, hgoal⟩
      rw [List.countP_cons_of_neg (by simp [hi])]
      omega

/-- **The graded rule.** What is still owed is a grade of the invariant, and every step that meets `C`
takes it down by one. Then a run of that many such steps leaves nothing owed. -/
theorem grade_foldl {I : ℕ → σ → Prop} {C : σ → ι → Prop}
    (hstep : ∀ n s i, I n s → C s i → I (n - 1) (step s i)) {n : ℕ} {s : σ} (hs : I n s) (is : List ι)
    (hC : ∀ p ∈ trace step s is, C p.1 p.2) : I (n - is.length) (is.foldl step s) := by
  induction is generalizing n s with
  | nil => exact hs
  | cons i is ih =>
    simp only [trace_cons, List.forall_mem_cons] at hC
    have hnext := ih (hstep n s i hs hC.1) hC.2
    rwa [Nat.sub_sub, Nat.add_comm 1] at hnext

end Run
