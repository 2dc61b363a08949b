import Mathlib.Data.List.Basic
import Mathlib.Data.List.Induction
import Mathlib.Tactic.Common

/-!
# Moving the live part of a buffer to its front

A buffer of fixed size whose first `n` items are live. `slide k n buf` is what
`copy(buf, buf[k:n])` leaves in it: the live items after the first `k` at the front, and
behind them what was there before. A `Slice` is a range of the buffer, so what it denotes
changes when the buffer does; `slice_slide_iff` says exactly when a slide leaves it alone.

`overlay buf items` is the buffer after a read put `items` at its front. Of several reads in a
row, the last one long enough decides what stands at an index (`getElem?_overlays`).
-/

set_option autoImplicit false

namespace Window

variable {α : Type*}

/-- A range of a buffer. -/
structure Slice where
  start : ℕ
  length : ℕ
  deriving DecidableEq, Repr

/-- The indices of a range. -/
def Slice.Has (r : Slice) (i : ℕ) : Prop := r.start ≤ i ∧ i < r.start + r.length

instance (r : Slice) : DecidablePred r.Has := fun _ => inferInstanceAs (Decidable (_ ∧ _))

/-- What a range denotes in a buffer. -/
def Slice.of (r : Slice) (buf : List α) : List α := (buf.drop r.start).take r.length

/-- The buffer after its items `k` to `n` were copied to its front. -/
def slide (k n : ℕ) (buf : List α) : List α := (buf.take n).drop k ++ buf.drop (n - k)

variable {k n : ℕ} {buf : List α}

/-- Sliding keeps the size. -/
theorem length_slide (hn : n ≤ buf.length) (hk : k ≤ n) : (slide k n buf).length = buf.length := by
  simp only [slide, List.length_append, List.length_drop, List.length_take]
  omega

/-- The live items after a slide are those that were not dropped. -/
theorem take_slide (hn : n ≤ buf.length) (hk : k ≤ n) :
    (slide k n buf).take (n - k) = (buf.take n).drop k := by
  have hlen : ((buf.take n).drop k).length = n - k := by
    simp only [List.length_drop, List.length_take]
    omega
  rw [slide, List.take_left' hlen]

/-- An item of a slid buffer comes from `k` items further on if it is live, and is the one that
was there before if it is not. -/
theorem getElem?_slide (hn : n ≤ buf.length) (hk : k ≤ n) (i : ℕ) :
    (slide k n buf)[i]? = if i < n - k then buf[k + i]? else buf[i]? := by
  have hlen : ((buf.take n).drop k).length = n - k := by
    simp only [List.length_drop, List.length_take]
    omega
  unfold slide
  split
  · rename_i hi
    rw [List.getElem?_append_left (by omega), List.getElem?_drop,
      List.getElem?_take_of_lt (by omega)]
  · rename_i hi
    rw [List.getElem?_append_right (by omega), hlen, List.getElem?_drop,
      Nat.add_sub_cancel' (by omega)]

/-- Two buffers denote the same under a range exactly when they agree at its indices. -/
theorem Slice.of_eq_iff (r : Slice) (xs ys : List α) :
    r.of xs = r.of ys ↔ ∀ i, r.Has i → xs[i]? = ys[i]? := by
  constructor
  · rintro h i ⟨hlo, hhi⟩
    have hget := congrArg (·[i - r.start]?) h
    simpa [Slice.of, List.getElem?_take_of_lt (show i - r.start < r.length by omega),
      Nat.add_sub_cancel' hlo] using hget
  · intro h
    apply List.ext_getElem?
    intro i
    by_cases hi : i < r.length
    · simpa [Slice.of, List.getElem?_take_of_lt hi] using h (r.start + i) ⟨by omega, by omega⟩
    · rw [Slice.of, Slice.of, List.getElem?_take_eq_none (by omega),
        List.getElem?_take_eq_none (by omega)]

/-- What a range denotes depends on the items up to its end only. -/
theorem Slice.of_take (r : Slice) (h : r.start + r.length ≤ n) (xs : List α) :
    r.of (xs.take n) = r.of xs :=
  (r.of_eq_iff _ _).mpr fun _ hi => List.getElem?_take_of_lt (Nat.lt_of_lt_of_le hi.2 h)

/-- A range behind the first item. -/
theorem Slice.of_cons (k n : ℕ) (x : α) (xs : List α) :
    (Slice.mk (1 + k) n).of (x :: xs) = (Slice.mk k n).of xs := by
  simp only [Slice.of, Nat.add_comm 1 k, List.drop_succ_cons]

/-- A range of a window is a range of the buffer the window was cut from. -/
theorem Slice.of_window (r : Slice) {j : ℕ} (h : r.start + r.length ≤ n) (xs : List α) :
    r.of ((xs.drop j).take n) = (Slice.mk (j + r.start) r.length).of xs := by
  rw [r.of_take h]
  simp only [Slice.of, List.drop_drop]

/-- **A slide leaves a range among the dropped items alone exactly when every live item that
lands in it equals the item it lands on.** -/
theorem slice_slide_iff (hn : n ≤ buf.length) (hk : k ≤ n) (r : Slice) :
    r.of (slide k n buf) = r.of buf ↔
      ∀ i, r.Has i → i < n - k → buf[k + i]? = buf[i]? := by
  rw [r.of_eq_iff]
  constructor
  · intro h i hr hi
    have hget := h i hr
    rwa [getElem?_slide hn hk, if_pos hi] at hget
  · intro h i hr
    rw [getElem?_slide hn hk]
    split
    · rename_i hi
      exact h i hr hi
    · rfl

/-! ## Reads to the front -/

/-- The buffer after a read put `items` at its front. -/
def overlay (buf items : List α) : List α := items ++ buf.drop items.length

/-- Nothing is overlaid. -/
@[simp] theorem overlay_nil (buf : List α) : overlay buf [] = buf := rfl

/-- What is read after an overlay. -/
theorem getElem?_overlay (buf items : List α) (i : ℕ) :
    (overlay buf items)[i]? = if i < items.length then items[i]? else buf[i]? := by
  unfold overlay
  split
  · rename_i hi
    exact List.getElem?_append_left hi
  · rename_i hi
    rw [List.getElem?_append_right (by omega), List.getElem?_drop,
      Nat.add_sub_cancel' (by omega)]

/-- A range inside what was read denotes what was read. -/
theorem Slice.of_overlay (r : Slice) (buf : List α) {items : List α}
    (h : r.start + r.length ≤ items.length) : r.of (overlay buf items) = r.of items := by
  rw [r.of_eq_iff]
  rintro i ⟨-, hi⟩
  rw [getElem?_overlay, if_pos (by omega)]

/-- The last of several reads that was long enough to reach an index. -/
def reaching (reads : List (List α)) (i : ℕ) : Option (List α) :=
  reads.reverse.find? fun items => i < items.length

/-- The last read that reached a position. -/
theorem reaching_concat (reads : List (List α)) (items : List α) (i : ℕ) :
    reaching (reads ++ [items]) i = if i < items.length then some items else reaching reads i := by
  rw [reaching, List.reverse_concat]
  split
  · rename_i hi
    exact List.find?_cons_of_pos (decide_eq_true hi)
  · rename_i hi
    exact List.find?_cons_of_neg (by simpa using hi)

/-- After several reads, an index holds what the last read that reached it put there. -/
theorem getElem?_overlays (reads : List (List α)) (buf : List α) (i : ℕ) :
    (reads.foldl overlay buf)[i]? = ((reaching reads i).getD buf)[i]? := by
  induction reads using List.reverseRecOn with
  | nil => rfl
  | append_singleton reads items ih =>
    rw [List.foldl_concat, getElem?_overlay, reaching_concat, ih]
    split <;> rfl

/-- **Reads leave a range alone exactly when, at each of its indices, the last read to reach it
put there what was there before.** -/
theorem slice_overlays_iff (reads : List (List α)) (buf : List α) (r : Slice) :
    r.of (reads.foldl overlay buf) = r.of buf ↔
      ∀ k < r.length, ∀ items ∈ reaching reads (r.start + k),
        items[r.start + k]? = buf[r.start + k]? := by
  rw [r.of_eq_iff]
  constructor
  · intro h k hk items hitems
    have hget := h (r.start + k) ⟨by omega, by omega⟩
    rwa [getElem?_overlays, Option.mem_def.mp hitems] at hget
  · rintro h i ⟨hlo, hhi⟩
    have hget := h (i - r.start) (by omega)
    rw [Nat.add_sub_cancel' hlo] at hget
    rw [getElem?_overlays]
    cases hreach : reaching reads i with
    | none => rfl
    | some items => exact hget items hreach

end Window
