import Mathlib.Data.List.GetD
import Mathlib.Data.Vector.Basic

/-!
# Lists in blocks, and chaining over them

A list is cut into vectors of `n` items and put together again (`split_join`, `join_split`). Over
blocks of any kind, with an operation `mix` that undoes itself on the right, a chaining mode feeds
each result into the next block: `encrypt` and `decrypt` invert each other when the block functions
do, and `chain` keeps the last result alone. A list is filled up to whole blocks behind a marker
that tells the filling from the contents (`marked_inj`).
-/

set_option autoImplicit false

namespace BlockMode

section Split

variable {α : Type*} (n : ℕ) (z : α)

/-- The first `n` items, filled up with `z` if there are fewer. -/
def block (xs : List α) : List.Vector α n := List.Vector.ofFn fun k => xs.getD k z

/-- The first blocks of a list, this many. -/
def blocks : ℕ → List α → List (List.Vector α n)
  | 0, _ => []
  | k + 1, xs => block n z xs :: blocks k (xs.drop n)

/-- All whole blocks of a list. -/
def split (xs : List α) : List (List.Vector α n) := blocks n z (xs.length / n) xs

variable {n}

/-- The list the blocks are of. -/
def join (bs : List (List.Vector α n)) : List α := bs.flatMap List.Vector.toList

/-- No blocks join to nothing. -/
@[simp] theorem join_nil : join ([] : List (List.Vector α n)) = [] := rfl

/-- Blocks are joined in order. -/
@[simp] theorem join_cons (b : List.Vector α n) (bs : List (List.Vector α n)) :
    join (b :: bs) = b.toList ++ join bs := rfl

/-- The length of joined blocks. -/
@[simp] theorem length_join (bs : List (List.Vector α n)) : (join bs).length = n * bs.length := by
  induction bs with
  | nil => rfl
  | cons b bs ih =>
    rw [join_cons, List.length_append, List.Vector.toList_length, ih, List.length_cons, Nat.mul_succ,
      Nat.add_comm]

variable {z}

/-- A block is the front of a list that is long enough. -/
theorem toList_block {xs : List α} (h : n ≤ xs.length) : (block n z xs).toList = xs.take n := by
  apply List.ext_getElem
  · simp [h]
  · intro i hi hi'
    have hin : i < n := by simpa using hi
    simp [block, List.Vector.toList_ofFn, List.getElem?_eq_getElem (show i < xs.length by omega)]

/-- A block is cut off where it was joined. -/
theorem block_append (b : List.Vector α n) (xs : List α) : block n z (b.toList ++ xs) = b := by
  apply List.Vector.toList_injective
  rw [toList_block (by simp), List.take_append_of_le_length (by simp), List.take_of_length_le (by simp)]

/-- Only the first `n` items matter, and filling that is there already does not. -/
theorem block_take {xs : List α} (h : n ≤ xs.length) : block n z (xs.take n) = block n z xs := by
  apply List.Vector.toList_injective
  rw [toList_block (by rw [List.length_take]; omega), toList_block h, List.take_take, Nat.min_self]

/-- Filling is what a block is padded with. -/
theorem block_fill (xs : List α) (k : ℕ) : block n z (xs ++ List.replicate k z) = block n z xs := by
  unfold block
  congr 1
  funext i
  by_cases hi : (i : ℕ) < xs.length
  · rw [List.getD_append _ _ _ _ hi]
  · rw [List.getD_append_right _ _ _ _ (by omega), List.getD_eq_default xs _ (by omega)]
    by_cases hk : (i : ℕ) - xs.length < k
    · exact List.getD_replicate _ hk
    · exact List.getD_eq_default _ _ (by simp only [List.length_replicate]; omega)

/-- As many blocks as were asked for. -/
@[simp] theorem length_blocks (k : ℕ) (xs : List α) : (blocks n z k xs).length = k := by
  induction k generalizing xs with
  | zero => rfl
  | succ k ih => rw [blocks, List.length_cons, ih]

/-- The last of the blocks. -/
theorem blocks_succ (k : ℕ) (xs : List α) :
    blocks n z (k + 1) xs = blocks n z k xs ++ [block n z (xs.drop (n * k))] := by
  induction k generalizing xs with
  | zero => simp [blocks]
  | succ k ih =>
    rw [blocks, ih (xs.drop n), List.drop_drop, Nat.mul_succ, Nat.add_comm n, blocks, List.cons_append]

/-- What comes behind the blocks does not matter to them. -/
theorem blocks_append {k : ℕ} {xs : List α} (h : n * k ≤ xs.length) (ys : List α) :
    blocks n z k (xs ++ ys) = blocks n z k xs := by
  induction k generalizing xs with
  | zero => rfl
  | succ k ih =>
    rw [Nat.mul_succ] at h
    have hdrop : n * k ≤ (xs.drop n).length := by
      rw [List.length_drop]
      omega
    rw [blocks, blocks, ← block_take (by rw [List.length_append]; omega),
      List.take_append_of_le_length (by omega), block_take (by omega),
      List.drop_append_of_le_length (by omega), ih hdrop]

/-- Joined blocks are cut apart again. -/
theorem blocks_join (bs : List (List.Vector α n)) : blocks n z bs.length (join bs) = bs := by
  induction bs with
  | nil => rfl
  | cons b bs ih =>
    rw [List.length_cons, blocks, join_cons, block_append, List.drop_left' (by simp), ih]

/-- Blocks cut off join to the front. -/
theorem join_blocks {k : ℕ} {xs : List α} (h : n * k ≤ xs.length) :
    join (blocks n z k xs) = xs.take (n * k) := by
  induction k generalizing xs with
  | zero => simp [blocks]
  | succ k ih =>
    rw [Nat.mul_succ] at h
    have hdrop : n * k ≤ (xs.drop n).length := by
      rw [List.length_drop]
      omega
    rw [blocks, join_cons, toList_block (by omega), ih hdrop, Nat.mul_succ, Nat.add_comm,
      List.take_add]

/-- Joined blocks are split again. -/
theorem split_join (hn : 0 < n) (bs : List (List.Vector α n)) : split n z (join bs) = bs := by
  rw [split, length_join, Nat.mul_div_cancel_left _ hn, blocks_join]

/-- **A list of whole blocks is the blocks it is split into.** -/
theorem join_split {xs : List α} (h : n ∣ xs.length) : join (split n z xs) = xs := by
  rw [split, join_blocks (by rw [Nat.mul_div_cancel' h]), Nat.mul_div_cancel' h, List.take_length]

end Split

section Chaining

variable {β : Type*} (mix : β → β → β)

/-- Each block is mixed with the result before it. -/
def encrypt (e : β → β) : β → List β → List β
  | _, [] => []
  | iv, p :: ps => e (mix p iv) :: encrypt e (e (mix p iv)) ps

def decrypt (d : β → β) : β → List β → List β
  | _, [] => []
  | iv, c :: cs => mix (d c) iv :: decrypt d c cs

/-- The last result of the chain. -/
def chain (e : β → β) (iv : β) (ps : List β) : β := ps.foldl (fun iv p => e (mix p iv)) iv

variable {mix} {e d : β → β}

/-- Enciphering keeps the number of blocks. -/
@[simp] theorem length_encrypt (iv : β) (ps : List β) : (encrypt mix e iv ps).length = ps.length := by
  induction ps generalizing iv with
  | nil => rfl
  | cons p ps ih => rw [encrypt, List.length_cons, ih, List.length_cons]

/-- So does deciphering. -/
@[simp] theorem length_decrypt (iv : β) (cs : List β) : (decrypt mix d iv cs).length = cs.length := by
  induction cs generalizing iv with
  | nil => rfl
  | cons c cs ih => rw [decrypt, List.length_cons, ih, List.length_cons]

variable (hmix : ∀ a b, mix (mix a b) b = a)
include hmix

/-- Deciphering undoes enciphering. -/
theorem decrypt_encrypt (hed : ∀ b, d (e b) = b) (iv : β) (ps : List β) :
    decrypt mix d iv (encrypt mix e iv ps) = ps := by
  induction ps generalizing iv with
  | nil => rfl
  | cons p ps ih => rw [encrypt, decrypt, hed, hmix, ih]

/-- And the other way round. -/
theorem encrypt_decrypt (hde : ∀ b, e (d b) = b) (iv : β) (cs : List β) :
    encrypt mix e iv (decrypt mix d iv cs) = cs := by
  induction cs generalizing iv with
  | nil => rfl
  | cons c cs ih => rw [decrypt, encrypt, hmix, hde, ih]

end Chaining

section Marker

variable {α : Type*} {z m : α}

/-- A run of filling ends at the first marker. -/
theorem run_inj (hm : m ≠ z) {us vs : List α} {k l : ℕ}
    (h : List.replicate k z ++ m :: us = List.replicate l z ++ m :: vs) : us = vs ∧ k = l := by
  induction k generalizing l with
  | zero =>
    cases l with
    | zero => exact ⟨(List.cons.inj h).2, rfl⟩
    | succ l => exact absurd (List.cons.inj h).1 hm
  | succ k ih =>
    cases l with
    | zero => exact absurd (List.cons.inj h).1.symm hm
    | succ l =>
      obtain ⟨hus, hkl⟩ := ih (List.cons.inj h).2
      exact ⟨hus, congrArg Nat.succ hkl⟩

/-- **Contents, a marker, then filling: which is which can be told.** -/
theorem marked_inj (hm : m ≠ z) {xs ys : List α} {k l : ℕ}
    (h : xs ++ m :: List.replicate k z = ys ++ m :: List.replicate l z) : xs = ys ∧ k = l := by
  have hrev := congrArg List.reverse h
  simp only [List.reverse_append, List.reverse_cons, List.reverse_replicate, List.append_assoc,
    List.singleton_append] at hrev
  obtain ⟨hxs, hkl⟩ := run_inj hm hrev
  exact ⟨List.reverse_injective hxs, hkl⟩

end Marker

end BlockMode
