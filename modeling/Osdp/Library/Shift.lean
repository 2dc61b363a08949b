import Mathlib.Data.BitVec
import Mathlib.Data.List.GetD

/-!
# Shift registers with feedback

A register of any width takes in one bit at a time: it moves up one place, and the feedback is added
when the bit that falls out differs from the one taken in. The register is linear in exclusive or
(`run_xor`). If the lowest bit of the feedback is set, the only register that a burst of bits no
longer than the register brings to zero is the one that holds the burst (`run_eq_zero_iff`), so a
burst alone never does (`run_burst_ne_zero`).
-/

set_option autoImplicit false

namespace ShiftRegister

variable {w : ℕ} (g : BitVec w)

/-- The register after one bit. -/
def step (r : BitVec w) (b : Bool) : BitVec w := (r <<< 1) ^^^ (if r.msb ^^ b then g else 0#w)

/-- The register after some bits. -/
def run (r : BitVec w) (bs : List Bool) : BitVec w := bs.foldl (step g) r

/-- No bits. -/
@[simp] theorem run_nil (r : BitVec w) : run g r [] = r := rfl

/-- Bit by bit. -/
@[simp] theorem run_cons (r : BitVec w) (b : Bool) (bs : List Bool) :
    run g r (b :: bs) = run g (step g r b) bs := rfl

/-- One after the other. -/
theorem run_append (r : BitVec w) (bs cs : List Bool) :
    run g r (bs ++ cs) = run g (run g r bs) cs := List.foldl_append

/-- **A step is linear.** -/
theorem step_xor (r s : BitVec w) (b c : Bool) :
    step g (r ^^^ s) (b ^^ c) = step g r b ^^^ step g s c := by
  have hfeed : (if (r ^^^ s).msb ^^ (b ^^ c) then g else 0#w) =
      (if r.msb ^^ b then g else 0#w) ^^^ (if s.msb ^^ c then g else 0#w) := by
    rw [BitVec.msb_xor]
    cases r.msb <;> cases s.msb <;> cases b <;> cases c <;> simp
  rw [step, hfeed, BitVec.shiftLeft_xor_distrib, step, step]
  ac_rfl

/-- **The register is linear.** -/
theorem run_xor {bs cs : List Bool} (h : bs.length = cs.length) (r s : BitVec w) :
    run g (r ^^^ s) (List.zipWith xor bs cs) = run g r bs ^^^ run g s cs := by
  induction bs generalizing cs r s with
  | nil =>
    cases cs with
    | nil => rfl
    | cons c cs => cases h
  | cons b bs ih =>
    cases cs with
    | nil => cases h
    | cons c cs =>
      rw [List.zipWith_cons_cons, run_cons, run_cons, run_cons, step_xor]
      exact ih (Nat.succ.inj h) _ _

/-- What a register does to two inputs differs by what it does, from zero, to the difference. -/
theorem run_xor_run {bs cs : List Bool} (h : bs.length = cs.length) (r : BitVec w) :
    run g r bs ^^^ run g r cs = run g 0#w (List.zipWith xor bs cs) := by
  rw [← run_xor g h, BitVec.xor_self]

/-- A step from zero. -/
theorem step_zero (b : Bool) : step g 0#w b = if b then g else 0#w := by
  simp [step]

/-- Zeros change no bits. -/
theorem zipWith_xor_false (bs : List Bool) :
    List.zipWith xor bs (List.replicate bs.length false) = bs := by
  induction bs with
  | nil => rfl
  | cons b bs ih => simp [List.replicate_succ, ih]

/-- A register and its input: what stands in the register only moves, and its highest bits are added
to the input. -/
theorem run_eq_shiftLeft_xor (r : BitVec w) (bs : List Bool) :
    run g r bs = (r <<< bs.length) ^^^
      run g 0#w (List.zipWith xor bs ((List.range bs.length).map r.getMsbD)) := by
  induction bs generalizing r with
  | nil => simp
  | cons b bs ih =>
    have hstep : step g r b = (r <<< 1) ^^^ step g 0#w (b ^^ r.getMsbD 0) := by
      rw [step_zero, step, BitVec.msb_eq_getMsbD_zero, Bool.xor_comm]
    have hidle : ∀ (s t : BitVec w) (cs : List Bool), run g (s ^^^ t) cs =
        run g s cs ^^^ run g t (List.replicate cs.length false) := by
      intro s t cs
      rw [← run_xor g (by simp), zipWith_xor_false]
    have htop : (List.range (bs.length + 1)).map r.getMsbD =
        r.getMsbD 0 :: (List.range bs.length).map (r <<< 1).getMsbD := by
      rw [List.range_succ_eq_map, List.map_cons, List.map_map]
      congr 1
      apply List.map_congr_left
      intro i hi
      simp [BitVec.getMsbD_shiftLeft]
    have hlater : run g (step g 0#w (b ^^ r.getMsbD 0))
        (List.zipWith xor bs ((List.range bs.length).map (r <<< 1).getMsbD)) =
          run g 0#w (List.zipWith xor bs ((List.range bs.length).map (r <<< 1).getMsbD)) ^^^
            run g (step g 0#w (b ^^ r.getMsbD 0)) (List.replicate bs.length false) := by
      have h := hidle 0#w (step g 0#w (b ^^ r.getMsbD 0))
        (List.zipWith xor bs ((List.range bs.length).map (r <<< 1).getMsbD))
      rw [BitVec.zero_xor] at h
      simpa using h
    rw [run_cons, hstep, hidle, ih (r <<< 1), List.length_cons, htop, List.zipWith_cons_cons, run_cons,
      hlater, Nat.add_comm bs.length, BitVec.shiftLeft_add, BitVec.xor_assoc]

variable {g}

/-- The lowest bit tells whether the feedback was added. -/
theorem getLsbD_step_zero (hg : g.getLsbD 0 = true) (r : BitVec w) (b : Bool) :
    (step g r b).getLsbD 0 = (r.msb ^^ b) := by
  have hw : 0 < w := BitVec.lt_of_getLsbD hg
  unfold step
  cases r.msb ^^ b <;> simp [hg, hw]

/-- **Which register the bits bring to zero**: the one that holds them, highest bit first. -/
theorem run_eq_zero_iff (hg : g.getLsbD 0 = true) {es : List Bool}
    (hes : ∀ i, w ≤ i → es.getD i false = false) (r : BitVec w) :
    run g r es = 0#w ↔ ∀ i < w, r.getMsbD i = es.getD i false := by
  have hw : 0 < w := BitVec.lt_of_getLsbD hg
  induction es generalizing r with
  | nil =>
    rw [run_nil]
    constructor
    · rintro rfl i -
      simp
    · intro h
      apply BitVec.eq_of_getMsbD_eq
      intro i hi
      simpa using h i hi
  | cons e es ih =>
    have hrest : ∀ i, w ≤ i + 1 → es.getD i false = false := fun i hi => by
      simpa using hes (i + 1) hi
    have hafter := ih (fun i hi => hrest i (Nat.le_succ_of_le hi)) (step g r e)
    refine hafter.trans ?_
    -- the lowest bit must be clear, so the bit that falls out is the one taken in
    have hlow : (∀ i < w, (step g r e).getMsbD i = es.getD i false) → r.msb = e := by
      intro h
      have hlast := h (w - 1) (by omega)
      rw [hrest (w - 1) (by omega), BitVec.getMsbD_eq_getLsbD] at hlast
      simp only [show w - 1 - (w - 1) = 0 by omega, getLsbD_step_zero hg] at hlast
      have hlt : w - 1 < w := by omega
      simpa [hlt] using hlast
    have hmove : r.msb = e → ∀ i, (step g r e).getMsbD i = r.getMsbD (i + 1) := by
      rintro rfl i
      simp [step, BitVec.getMsbD_shiftLeft]
    constructor
    · intro h i hi
      have hfirst := hlow h
      cases i with
      | zero => rw [← BitVec.msb_eq_getMsbD_zero, hfirst, List.getD_cons_zero]
      | succ i => rw [← hmove hfirst i, h i (by omega), List.getD_cons_succ]
    · intro h i hi
      have hfirst : r.msb = e := by
        rw [BitVec.msb_eq_getMsbD_zero, h 0 hw, List.getD_cons_zero]
      rw [hmove hfirst i]
      by_cases hlast : i + 1 < w
      · rw [h (i + 1) hlast, List.getD_cons_succ]
      · rw [hrest i (by omega), BitVec.getMsbD_of_ge _ _ (by omega)]

/-- **A burst no longer than the register leaves a trace**, whatever zeros come before and after. -/
theorem run_burst_ne_zero (hg : g.getLsbD 0 = true) {es : List Bool} {k : ℕ}
    (hwindow : ∀ i, es.getD i false = true → k ≤ i ∧ i < k + w)
    (hburst : ∃ i, es.getD i false = true) : run g 0#w es ≠ 0#w := by
  induction k generalizing es with
  | zero =>
    intro hzero
    have hes : ∀ i, w ≤ i → es.getD i false = false := by
      intro i hi
      by_contra hne
      have := hwindow i (by simpa using hne)
      omega
    obtain ⟨i, hi⟩ := hburst
    have hbit := (run_eq_zero_iff hg hes 0#w).mp hzero i (by have := hwindow i hi; omega)
    rw [hi] at hbit
    simp at hbit
  | succ k ih =>
    cases es with
    | nil =>
      obtain ⟨i, hi⟩ := hburst
      simp at hi
    | cons e es =>
      have he : e = false := by
        by_contra hne
        have := hwindow 0 (by simpa using hne)
        omega
      have hstep : step g 0#w e = 0#w := by simp [step_zero, he]
      rw [run_cons, hstep]
      refine ih ?_ ?_
      · intro i hi
        have := hwindow (i + 1) (by simpa using hi)
        omega
      · obtain ⟨i, hi⟩ := hburst
        cases i with
        | zero =>
          rw [List.getD_cons_zero, he] at hi
          cases hi
        | succ i => exact ⟨i, by simpa using hi⟩

end ShiftRegister
