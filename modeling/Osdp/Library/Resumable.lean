import Mathlib.Data.List.Basic
import Mathlib.Tactic.Common

/-!
# Scanning a stream that arrives in pieces

A scanner looks at the front of what it has: it drops some items, with a result if they make
one, or waits for more. When what it decides does not change as more arrives (`Stable`), a
stream scanned piece by piece gives the results of the stream scanned at once
(`scan_append`), so they do not depend on where it was cut.
-/

set_option autoImplicit false

namespace Resumable

variable {α β : Type*}

/-- A decision about the front of a stream drops an item at least, and stands whatever follows.
`none` is the decision to wait. -/
structure Stable (front : List α → Option (Option β × ℕ)) : Prop where
  drops : ∀ {l : List α} {o : Option β} {k : ℕ}, front l = some (o, k) → 0 < k ∧ k ≤ l.length
  stands : ∀ {l : List α} {r : Option β × ℕ}, front l = some r → ∀ m, front (l ++ m) = some r

variable (front : List α → Option (Option β × ℕ))

def scanLoop : ℕ → List α → List β × List α
  | 0, l => ([], l)
  | fuel + 1, l =>
    match front l with
    | none => ([], l)
    | some (o, k) => (o.toList ++ (scanLoop fuel (l.drop k)).1, (scanLoop fuel (l.drop k)).2)

/-- Every result of a stream, and the items the scanner waits at. Each decision drops an item, so
the fuel does not run out. -/
def scan (l : List α) : List β × List α := scanLoop front (l.length + 1) l

variable {front}

/-- Fuel beyond the length does not matter. -/
theorem scanLoop_fuel (h : Stable front) {fuel fuel' : ℕ} {l : List α} (hf : l.length < fuel)
    (hf' : l.length < fuel') : scanLoop front fuel l = scanLoop front fuel' l := by
  induction fuel generalizing fuel' l with
  | zero => omega
  | succ fuel ih =>
    cases fuel' with
    | zero => omega
    | succ fuel' =>
      unfold scanLoop
      split
      · rfl
      · rename_i o k hk
        obtain ⟨hpos, hle⟩ := h.drops hk
        have hless : (l.drop k).length < l.length := by
          rw [List.length_drop]
          omega
        rw [@ih fuel' (l.drop k) (by omega) (by omega)]

/-- Where the front waits nothing is taken. -/
theorem scan_of_waits {l : List α} (h : front l = none) : scan front l = ([], l) := by
  simp only [scan, scanLoop, h]

/-- One decision, and the scan of what it leaves. -/
theorem scan_of_drops (h : Stable front) {l : List α} {o : Option β} {k : ℕ}
    (hk : front l = some (o, k)) :
    scan front l = (o.toList ++ (scan front (l.drop k)).1, (scan front (l.drop k)).2) := by
  obtain ⟨hpos, hle⟩ := h.drops hk
  have hfuel : scanLoop front l.length (l.drop k) = scan front (l.drop k) :=
    scanLoop_fuel h (by rw [List.length_drop]; omega) (Nat.lt_succ_self _)
  rw [scan, scanLoop, hk]
  simp only [hfuel]

/-- Induction along a scan. -/
theorem scan_induction (h : Stable front) {motive : List α → Prop}
    (waits : ∀ l, front l = none → motive l)
    (drops : ∀ l o k, front l = some (o, k) → motive (l.drop k) → motive l) (l : List α) :
    motive l := by
  induction hn : l.length using Nat.strongRecOn generalizing l with
  | ind n ih =>
    cases hf : front l with
    | none => exact waits l hf
    | some r =>
      obtain ⟨o, k⟩ := r
      obtain ⟨hpos, hle⟩ := h.drops hf
      exact drops l o k hf (ih (l.drop k).length (by rw [List.length_drop]; omega) _ rfl)

/-- **A stream scanned in two pieces**: what is left of the first is scanned with the second. -/
theorem scan_append (h : Stable front) (a b : List α) :
    scan front (a ++ b) =
      ((scan front a).1 ++ (scan front ((scan front a).2 ++ b)).1,
        (scan front ((scan front a).2 ++ b)).2) := by
  induction a using scan_induction h with
  | waits a hw => simp only [scan_of_waits hw, List.nil_append]
  | drops a o k hk ih =>
    rw [scan_of_drops h (h.stands hk b), scan_of_drops h hk,
      List.drop_append_of_le_length (h.drops hk).2, ih]
    simp only [List.append_assoc]

/-- A piece that gave nothing may be replaced by what is left of it. -/
theorem scan_append_of_quiet (h : Stable front) {a a' : List α} (ha : scan front a = ([], a'))
    (b : List α) : scan front (a ++ b) = scan front (a' ++ b) := by
  rw [scan_append h, ha]
  rfl

/-- What has been scanned of a stream is the front of what the stream gives. -/
theorem scan_prefix (h : Stable front) (a b : List α) :
    (scan front a).1 <+: (scan front (a ++ b)).1 := by
  rw [scan_append h]
  exact List.prefix_append _ _

end Resumable
