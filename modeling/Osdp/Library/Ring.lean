import Mathlib.Data.List.Basic
import Mathlib.Data.List.DropRight
import Mathlib.Tactic.Common

/-!
# A ring of slots

A buffer of fixed length that keeps the last items pushed: the next item goes into the slot
`next`, and the items it holds are the `count` slots before that one, around the end.
`Buffer.Holds r xs` says that these are the items `xs`, the oldest first; `Holds.push` is the only
fact about indices that wrap.

`search` is the binary search for the first index at which a predicate holds, and `Indexes` says
that a map finds the items of a list by a key.
-/

set_option autoImplicit false

namespace Ring

variable {α : Type*}

structure Buffer (α : Type*) where
  slots : List (Option α)
  next : ℕ
  count : ℕ

namespace Buffer

/-- A buffer of `n` slots with nothing in it. -/
def empty (n : ℕ) : Buffer α := { slots := List.replicate n none, next := 0, count := 0 }

/-- The slot of the item at position `i`, 0 being the oldest. -/
def slot (r : Buffer α) (i : ℕ) : ℕ := (r.next + (r.slots.length - r.count) + i) % r.slots.length

def get (r : Buffer α) (i : ℕ) : Option α := r.slots[r.slot i]?.join

/-- An item in the next slot; a buffer that is full loses its oldest. -/
def push (r : Buffer α) (x : α) : Buffer α :=
  { slots := r.slots.set r.next (some x)
    next := (r.next + 1) % r.slots.length
    count := if r.count = r.slots.length then r.count else r.count + 1 }

/-- The buffer holds these items, the oldest first. -/
structure Holds (r : Buffer α) (xs : List α) : Prop where
  next_lt : r.next < r.slots.length
  count_eq : r.count = xs.length
  length_le : xs.length ≤ r.slots.length
  get_eq : ∀ i, i < xs.length → r.get i = xs[i]?

variable {n : ℕ} {r : Buffer α}

/-- An empty ring holds nothing. -/
theorem holds_empty (hn : 0 < n) : (empty n : Buffer α).Holds [] :=
  ⟨by simpa [empty] using hn, rfl, Nat.zero_le _, by simp⟩

/-- Pushing keeps the size. -/
@[simp] theorem length_push (r : Buffer α) (x : α) : (r.push x).slots.length = r.slots.length := by
  simp [push]

/-- Less than a whole turn away from a slot is another slot. -/
theorem mod_add_ne {p d : ℕ} (hp : p < n) (hd : 0 < d) (hdn : d < n) : (p + d) % n ≠ p := by
  by_cases h : p + d < n
  · rw [Nat.mod_eq_of_lt h]
    omega
  · rw [Nat.mod_eq_sub_mod (by omega), Nat.mod_eq_of_lt (by omega)]
    omega

/-- The remainder that keeps the sign of the dividend, taken twice, is the one that is never
negative. -/
theorem tmod_add_tmod {n : ℤ} (hn : 0 < n) (x : ℤ) : Int.tmod (Int.tmod x n + n) n = x % n := by
  have hlow : -n < Int.tmod x n := Int.lt_tmod_of_pos x hn
  rw [Int.tmod_eq_emod_of_nonneg (by omega), Int.tmod_def, Int.add_emod_right,
    Int.sub_mul_emod_self_left]

/-- Where the items are after a push: where they were, one position earlier if one was lost. -/
theorem slot_push {x : α} (hc : r.count ≤ r.slots.length) (i : ℕ) :
    (r.push x).slot i = r.slot (if r.count = r.slots.length then i + 1 else i) := by
  unfold slot push
  simp only [List.length_set]
  split
  · rename_i hfull
    rw [hfull, Nat.sub_self, Nat.add_zero, Nat.add_zero, Nat.mod_add_mod]
    congr 1
    omega
  · rename_i hroom
    rw [Nat.add_assoc, Nat.mod_add_mod]
    congr 1
    omega

/-- **A push keeps the last items.** -/
theorem Holds.push {xs : List α} (h : r.Holds xs) (x : α) :
    (r.push x).Holds ((xs ++ [x]).rtake r.slots.length) := by
  have hp := h.next_lt
  have hlen : ((xs ++ [x]).rtake r.slots.length).length = min (xs.length + 1) r.slots.length := by
    simp only [List.rtake, List.length_drop, List.length_append, List.length_singleton]
    omega
  refine ⟨?_, ?_, ?_, ?_⟩
  · rw [length_push]
    exact Nat.mod_lt _ (by omega)
  · rw [hlen]
    simp only [Buffer.push, h.count_eq]
    have hle := h.length_le
    split <;> omega
  · rw [hlen, length_push]
    exact Nat.min_le_right _ _
  · intro i hi
    rw [hlen] at hi
    have hle := h.length_le
    -- position `j` of the old items, with the new one behind them
    obtain ⟨j, hj, hjle, hpos, hget⟩ : ∃ j, (r.push x).slot i = r.slot j ∧ j ≤ xs.length ∧
        0 < r.slots.length - xs.length + j ∧
        ((xs ++ [x]).rtake r.slots.length)[i]? = (xs ++ [x])[j]? := by
      refine ⟨if r.count = r.slots.length then i + 1 else i,
        slot_push (by rw [h.count_eq]; exact hle) i, ?_, ?_, ?_⟩
      · rw [h.count_eq]
        split <;> omega
      · rw [h.count_eq]
        split <;> omega
      · rw [List.rtake, List.getElem?_drop, h.count_eq]
        congr 1
        simp only [List.length_append, List.length_singleton]
        split <;> omega
    have hslot : r.slot j = (r.next + (r.slots.length - xs.length + j)) % r.slots.length := by
      rw [slot, h.count_eq, Nat.add_assoc]
    rw [get, hj, hget]
    simp only [Buffer.push]
    by_cases hnew : j = xs.length
    · -- the new item is in the slot that was next
      have hat : r.slot j = r.next := by
        rw [hslot, hnew, Nat.sub_add_cancel hle, Nat.add_mod_right, Nat.mod_eq_of_lt hp]
      rw [hat, List.getElem?_set_self hp, hnew]
      simp
    · have hother : r.slot j ≠ r.next := by
        rw [hslot]
        exact mod_add_ne hp hpos (by omega)
      rw [List.getElem?_set_ne (Ne.symm hother), List.getElem?_append_left (by omega)]
      exact h.get_eq j (by omega)

end Buffer

/-! ## Searching for the first index -/

/-- The loop of the binary search between `i` and `j`. -/
def searchLoop (f : ℕ → Bool) : ℕ → ℕ → ℕ → ℕ
  | 0, i, _ => i
  | fuel + 1, i, j =>
    if i < j then
      let h := (i + j) / 2
      if f h then searchLoop f fuel i h else searchLoop f fuel (h + 1) j
    else i

/-- The first index below `n` at which `f` holds, or `n`. -/
def search (n : ℕ) (f : ℕ → Bool) : ℕ := searchLoop f n 0 n

variable {f : ℕ → Bool} {k n i : ℕ} {xs : List α}

/-- **Binary search** finds where the test turns. -/
theorem searchLoop_eq (hbelow : ∀ i, i < k → f i = false) (habove : ∀ i, k ≤ i → i < n → f i = true)
    (fuel i j : ℕ) (hi : i ≤ k) (hj : k ≤ j) (hn : j ≤ n) (hfuel : j - i ≤ fuel) :
    searchLoop f fuel i j = k := by
  induction fuel generalizing i j with
  | zero =>
    rw [searchLoop]
    omega
  | succ fuel ih =>
    rw [searchLoop]
    split
    · rename_i hlt
      simp only
      split
      · rename_i hf
        have hk : k ≤ (i + j) / 2 := by
          by_contra hlow
          rw [hbelow _ (by omega)] at hf
          cases hf
        exact ih i _ hi hk (by omega) (by omega)
      · rename_i hf
        have hk : (i + j) / 2 + 1 ≤ k := by
          by_contra hhigh
          exact hf (habove _ (by omega) (by omega))
        exact ih _ j hk hj hn (by omega)
    · omega

/-- The search finds where a predicate turns true. -/
theorem search_eq (hk : k ≤ n) (hbelow : ∀ i, i < k → f i = false)
    (habove : ∀ i, k ≤ i → i < n → f i = true) : search n f = k :=
  searchLoop_eq hbelow habove n 0 n (Nat.zero_le k) hk le_rfl (by omega)

/-- It stays in its range. -/
theorem searchLoop_le (f : ℕ → Bool) {fuel j : ℕ} (hij : i ≤ j) : searchLoop f fuel i j ≤ j := by
  induction fuel generalizing i j with
  | zero => exact hij
  | succ fuel ih =>
    rw [searchLoop]
    split
    · simp only
      split
      · exact (ih (by omega)).trans (by omega)
      · exact ih (by omega)
    · exact hij

/-- It stays in the list. -/
theorem search_le (n : ℕ) (f : ℕ → Bool) : search n f ≤ n := searchLoop_le f (Nat.zero_le n)

/-- In a list where `p` never comes back, the search cuts off the items with `p`. -/
theorem take_search {p : α → Bool} (hp : xs.Pairwise fun a b => p b = true → p a = true)
    (hf : ∀ (i : ℕ) (x : α), xs[i]? = some x → f i = !p x) :
    xs.take (search xs.length f) = xs.filter p := by
  obtain ⟨k, hk, htake, hbelow, habove⟩ : ∃ k ≤ xs.length, xs.take k = xs.filter p ∧
      (∀ i < k, ∀ x, xs[i]? = some x → p x = true) ∧
      ∀ i, k ≤ i → ∀ x, xs[i]? = some x → p x = false := by
    clear hf
    induction xs with
    | nil => exact ⟨0, le_rfl, rfl, by simp, by simp⟩
    | cons a xs ih =>
      rw [List.pairwise_cons] at hp
      cases ha : p a with
      | true =>
        obtain ⟨k, hk, htake, hbelow, habove⟩ := ih hp.2
        refine ⟨k + 1, Nat.succ_le_succ hk, ?_, ?_, ?_⟩
        · rw [List.take_succ_cons, List.filter_cons_of_pos ha, htake]
        · rintro (_ | i) hi x hx
          · cases hx
            exact ha
          · exact hbelow i (by omega) x hx
        · rintro (_ | i) hi x hx
          · omega
          · exact habove i (by omega) x hx
      | false =>
        have hnone : ∀ x ∈ a :: xs, p x = false := by
          rintro x (_ | ⟨_, hx⟩)
          · exact ha
          · rw [← Bool.not_eq_true]
            intro hpx
            rw [hp.1 x hx hpx] at ha
            cases ha
        refine ⟨0, Nat.zero_le _, ?_, by omega, fun i _ x hx => hnone x (List.mem_of_getElem? hx)⟩
        rw [List.take_zero, eq_comm, List.filter_eq_nil_iff]
        intro x hx
        simp [hnone x hx]
  rw [search_eq hk, htake]
  · intro i hi
    have hx := List.getElem?_eq_getElem (show i < xs.length by omega)
    rw [hf i _ hx, hbelow i hi _ hx]
    rfl
  · intro i hki hi
    have hx := List.getElem?_eq_getElem hi
    rw [hf i _ hx, habove i hki _ hx]
    rfl

/-! ## An index by key -/

section Index

variable {κ : Type*} [DecidableEq κ]

/-- The map finds exactly the items of the list, each under its key. -/
def Indexes (f : κ → Option α) (key : α → κ) (xs : List α) : Prop :=
  ∀ k x, f k = some x ↔ x ∈ xs ∧ key x = k

variable {f : κ → Option α} {key : α → κ} {xs : List α} {x : α}

/-- Deleting the key of the first item, which no other item has. -/
theorem Indexes.tail (h : Indexes f key (x :: xs)) (hnew : key x ∉ xs.map key) :
    Indexes (Function.update f (key x) none) key xs := by
  intro k y
  by_cases hk : k = key x
  · rw [hk, Function.update_self]
    constructor
    · intro hy
      cases hy
    · rintro ⟨hy, hkey⟩
      exact absurd (hkey ▸ List.mem_map_of_mem hy) hnew
  · rw [Function.update_of_ne hk, h k y]
    constructor
    · rintro ⟨hy, hkey⟩
      rcases List.mem_cons.1 hy with rfl | hy
      · exact absurd hkey.symm hk
      · exact ⟨hy, hkey⟩
    · rintro ⟨hy, hkey⟩
      exact ⟨List.mem_cons_of_mem x hy, hkey⟩

/-- Entering an item under a key that no item has. -/
theorem Indexes.concat (h : Indexes f key xs) (hnew : key x ∉ xs.map key) :
    Indexes (Function.update f (key x) (some x)) key (xs ++ [x]) := by
  intro k y
  rw [List.mem_append, List.mem_singleton]
  by_cases hk : k = key x
  · rw [hk, Function.update_self, Option.some.injEq]
    constructor
    · rintro rfl
      exact ⟨.inr rfl, rfl⟩
    · rintro ⟨hy | rfl, hkey⟩
      · exact absurd (hkey ▸ List.mem_map_of_mem hy) hnew
      · rfl
  · rw [Function.update_of_ne hk, h k y]
    constructor
    · rintro ⟨hy, hkey⟩
      exact ⟨.inl hy, hkey⟩
    · rintro ⟨hy | rfl, hkey⟩
      · exact ⟨hy, hkey⟩
      · exact absurd hkey.symm hk

end Index

/-! ## The last items of a history -/

/-- The last items, after one more. -/
theorem rtake_concat (hn : 0 < n) (xs : List α) (x : α) :
    (xs.rtake n ++ [x]).rtake n = (xs ++ [x]).rtake n := by
  obtain ⟨m, rfl⟩ := Nat.exists_eq_add_of_lt hn
  rw [Nat.zero_add, List.rtake_concat_succ, List.rtake_concat_succ]
  congr 1
  simp only [List.rtake, List.length_drop, List.drop_drop]
  congr 1
  omega

/-- In a list ordered by `p`, what follows an item is what comes after it in the order. -/
theorem drop_eq_filter {p : α → α → Bool} (hasymm : ∀ a b, p a b = true → p b a = false)
    (hxs : xs.Pairwise fun a b => p a b = true) {x : α} (hx : xs[i]? = some x) :
    xs.drop (i + 1) = xs.filter (p x) := by
  induction xs generalizing i with
  | nil => cases hx
  | cons a xs ih =>
    rw [List.pairwise_cons] at hxs
    cases i with
    | zero =>
      cases hx
      have hself : p x x = false := by
        rw [← Bool.not_eq_true]
        intro hxx
        rw [hasymm x x hxx] at hxx
        cases hxx
      rw [List.filter_cons_of_neg (by simp [hself]), List.filter_eq_self.2 hxs.1]
      rfl
    | succ i =>
      have hbefore : p x a = false := hasymm a x (hxs.1 x (List.mem_of_getElem? hx))
      rw [List.filter_cons_of_neg (by simp [hbefore]), ← ih hxs.2 hx]
      rfl

/-- How many they are. -/
theorem length_rtake (n : ℕ) (xs : List α) : (xs.rtake n).length = min xs.length n := by
  rw [List.rtake, List.length_drop]
  omega

/-- The item at position `i` of what is left is the one so many positions on in the history. -/
theorem getElem?_rtake (n i : ℕ) (xs : List α) : (xs.rtake n)[i]? = xs[xs.length - n + i]? := by
  rw [List.rtake, List.getElem?_drop]

end Ring
