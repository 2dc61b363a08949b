import Mathlib.Data.List.DropRight

/-!
# A count of misses that raises an alarm

A watchdog counts the misses since it last heard that all is well and raises its alarm once when
they reach a bound. A miss may also start the count over, at one. The alarm is never raised before
that many misses in a row (`le_length_of_alarms`), and that many misses in a row raise it unless one
after the first starts the count over (`raises_of_missed`); if all was well before, they raise it in
no other case (`raises_iff`).
-/

set_option autoImplicit false

namespace Watchdog

/-- What the watchdog is told. -/
inductive Report where
  /-- All is well, or the alarm stands although there was an answer. -/
  | fine (down : Bool)
  | missed
  /-- A miss that starts the count over. -/
  | restarted
  deriving DecidableEq

/-- Whether a report is of a miss. -/
def Report.isMiss : Report → Bool
  | .fine _ => false
  | .missed => true
  | .restarted => true

structure State where
  count : ℕ := 0
  /-- The alarm was raised and stands. -/
  down : Bool := false

/-- The misses counted after a report. -/
def State.counted (s : State) : Report → ℕ
  | .fine _ => 0
  | .missed => s.count + 1
  | .restarted => 1

variable (bound : ℕ)

/-- Whether a report raises the alarm. -/
def alarms (s : State) (r : Report) : Bool :=
  r.isMiss && !s.down && decide (bound ≤ s.counted r)

def after (s : State) (r : Report) : State :=
  { count := s.counted r
    down := match r with
      | .fine down => down
      | _ => s.down || alarms bound s r }

/-- Whether one of the reports raises the alarm. -/
def raises : State → List Report → Bool
  | _, [] => false
  | s, r :: rs => alarms bound s r || raises (after bound s r) rs

variable {bound} {s : State} {r : Report} {rs : List Report}

/-- A report counts at most one. -/
theorem counted_le (s : State) (r : Report) : s.counted r ≤ s.count + 1 := by
  cases r <;> simp [State.counted]

/-- A miss counts. -/
theorem counted_pos (hr : r.isMiss = true) : 1 ≤ s.counted r := by
  cases r with
  | fine down => cases hr
  | missed => simp [State.counted]
  | restarted => simp [State.counted]

/-- The count afterwards. -/
@[simp] theorem count_after : (after bound s r).count = s.counted r := rfl

/-- An alarm is raised now or later. -/
theorem raises_cons :
    raises bound s (r :: rs) = true ↔
      alarms bound s r = true ∨ raises bound (after bound s r) rs = true :=
  Bool.or_eq_true_iff

/-- An alarm needs the bound. -/
theorem bound_le_of_alarms (h : alarms bound s r = true) : bound ≤ s.counted r := by
  simp only [alarms, Bool.and_eq_true, decide_eq_true_eq] at h
  exact h.2

/-- A miss that raises no alarm leaves the count below the bound, and the alarm as it was. -/
theorem not_alarms (hr : r.isMiss = true) (hdown : s.down = false) (h : alarms bound s r = false) :
    s.counted r < bound ∧ (after bound s r).down = false := by
  constructor
  · simpa [alarms, hr, hdown] using h
  · cases r with
    | fine down => cases hr
    | missed => simp [after, hdown, h]
    | restarted => simp [after, hdown, h]

/-! ## No alarm too early -/

/-- The count is at most the misses in a row. -/
theorem count_foldl_le (hs : s.count = 0) (rs : List Report) :
    (rs.foldl (after bound) s).count ≤ (rs.rtakeWhile Report.isMiss).length := by
  induction rs using List.reverseRecOn with
  | nil => simp [hs]
  | append_singleton rs r ih =>
    rw [List.foldl_append]
    cases hr : r.isMiss with
    | false =>
      have hfine : ∀ t : State, t.counted r = 0 := by
        intro t
        cases r with
        | fine down => rfl
        | missed => cases hr
        | restarted => cases hr
      exact (hfine _).le.trans (Nat.zero_le _)
    | true =>
      rw [List.rtakeWhile_concat_pos _ _ _ hr, List.length_append, List.length_singleton]
      exact (counted_le _ r).trans (Nat.add_le_add_right ih 1)

/-- **An alarm has its misses, one after another.** -/
theorem le_length_of_alarms (hs : s.count = 0) (h : alarms bound (rs.foldl (after bound) s) r = true) :
    bound ≤ ((rs ++ [r]).rtakeWhile Report.isMiss).length := by
  have hmiss : r.isMiss = true := by
    simp only [alarms, Bool.and_eq_true] at h
    exact h.1.1
  have hcount : (rs.foldl (after bound) s).count ≤ (rs.rtakeWhile Report.isMiss).length :=
    count_foldl_le hs rs
  have hle := counted_le (rs.foldl (after bound) s) r
  have hbound := bound_le_of_alarms h
  rw [List.rtakeWhile_concat_pos _ _ _ hmiss, List.length_append, List.length_singleton]
  omega

/-! ## Enough misses -/

/-- Enough misses raise it. -/
theorem raises_of_all_missed (hdown : s.down = false) (hcount : s.count < bound)
    (hrs : ∀ r ∈ rs, r = .missed) (hlen : bound ≤ s.count + rs.length) :
    raises bound s rs = true := by
  induction rs generalizing s with
  | nil =>
    simp only [List.length_nil] at hlen
    omega
  | cons r rs ih =>
    obtain rfl : r = .missed := hrs r List.mem_cons_self
    rw [raises_cons]
    by_cases hnow : alarms bound s .missed = true
    · exact .inl hnow
    · obtain ⟨hlt, hup⟩ := not_alarms rfl hdown (by simpa using hnow)
      simp only [List.length_cons] at hlen
      refine .inr (ih hup hlt (fun r hr => hrs r (List.mem_cons_of_mem _ hr)) ?_)
      rw [count_after, State.counted]
      omega

/-- **Enough misses in a row raise the alarm**, if none but the first starts the count over. -/
theorem raises_of_missed (hdown : s.down = false) (hlen : rs.length = bound) (hpos : 0 < bound)
    (hmiss : ∀ r ∈ rs, r.isMiss = true) (hrestart : ∀ r ∈ rs.tail, r ≠ .restarted) :
    raises bound s rs = true := by
  cases rs with
  | nil =>
    simp only [List.length_nil] at hlen
    omega
  | cons r rs =>
    have hfirst := hmiss r List.mem_cons_self
    rw [raises_cons]
    by_cases hnow : alarms bound s r = true
    · exact .inl hnow
    · obtain ⟨hlt, hup⟩ := not_alarms hfirst hdown (by simpa using hnow)
      have hone : 1 ≤ s.counted r := counted_pos hfirst
      have hrest : ∀ r' ∈ rs, r' = .missed := by
        intro r' hr'
        have hm := hmiss r' (List.mem_cons_of_mem _ hr')
        have hn := hrestart r' hr'
        cases r' with
        | fine down => cases hm
        | missed => rfl
        | restarted => exact absurd rfl hn
      simp only [List.length_cons] at hlen
      exact .inr (raises_of_all_missed hup hlt hrest (by rw [count_after]; omega))

/-! ## Not enough -/

/-- Fewer reports do not. -/
theorem bound_le_of_raises (h : raises bound s rs = true) : bound ≤ s.count + rs.length := by
  induction rs generalizing s with
  | nil => cases h
  | cons r rs ih =>
    have hle := counted_le s r
    rw [List.length_cons]
    obtain hnow | hlater := raises_cons.mp h
    · have hbound := bound_le_of_alarms hnow
      omega
    · have hbound := ih hlater
      rw [count_after] at hbound
      omega

/-- A count that is started over on the way takes one miss more. -/
theorem bound_lt_of_restarted (hpos : 1 ≤ s.count) (hrs : Report.restarted ∈ rs)
    (h : raises bound s rs = true) : bound < s.count + rs.length := by
  induction rs generalizing s with
  | nil => cases h
  | cons r rs ih =>
    have hle := counted_le s r
    rw [List.length_cons]
    by_cases hr : r = .restarted
    · have hone : s.counted r = 1 := by rw [hr]; rfl
      obtain hnow | hlater := raises_cons.mp h
      · have hbound := bound_le_of_alarms hnow
        omega
      · have hbound := bound_le_of_raises hlater
        rw [count_after] at hbound
        omega
    · have hlaterRestart : Report.restarted ∈ rs := (List.mem_cons.mp hrs).resolve_left (Ne.symm hr)
      have hsome : 0 < rs.length := List.length_pos_of_mem hlaterRestart
      obtain hnow | hlater := raises_cons.mp h
      · have hbound := bound_le_of_alarms hnow
        omega
      · -- an answer in between sets the count to zero, which is no better
        by_cases hzero : s.counted r = 0
        · have hbound := bound_le_of_raises hlater
          rw [count_after] at hbound
          omega
        · have hbound := ih (by rw [count_after]; omega) hlaterRestart hlater
          rw [count_after] at hbound
          omega

/-- **After an answer the misses raise the alarm exactly if none but the first starts over.** -/
theorem raises_iff (hzero : s.count = 0) (hdown : s.down = false) (hlen : rs.length = bound)
    (hpos : 0 < bound) (hmiss : ∀ r ∈ rs, r.isMiss = true) :
    raises bound s rs = true ↔ ∀ r ∈ rs.tail, r ≠ .restarted := by
  refine ⟨fun h => ?_, raises_of_missed hdown hlen hpos hmiss⟩
  cases rs with
  | nil => simp
  | cons r rs =>
    rintro r' hr' rfl
    rw [List.tail_cons] at hr'
    have hsome : 0 < rs.length := List.length_pos_of_mem hr'
    have hle := counted_le s r
    have hone : 1 ≤ s.counted r := counted_pos (hmiss r List.mem_cons_self)
    rw [List.length_cons] at hlen
    obtain hnow | hlater := raises_cons.mp h
    · have hbound := bound_le_of_alarms hnow
      omega
    · have hbound := bound_lt_of_restarted (by rw [count_after]; omega) hr' hlater
      rw [count_after] at hbound
      omega

end Watchdog
