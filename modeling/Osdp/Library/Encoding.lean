import Mathlib.Data.Nat.Digits.Lemmas
import Mathlib.Data.List.Basic
import Mathlib.Tactic.Common

/-!
# Texts as octets

The encodings a name or a cursor is written in: hexadecimal of a fixed width, decimal, and base64
with the URL alphabet and no padding. Each comes with the one fact its users need: a hexadecimal
of fixed width determines its number, a decimal and a base64 text read back as what was written.
-/

set_option autoImplicit false

namespace Encoding

/-! ## Cutting at a separator -/

section Cut

variable {α : Type*} [DecidableEq α]

/-- Before and after the last separator. -/
def cutLast (sep : α) (s : List α) : Option (List α × List α) :=
  if sep ∈ s then
    some ((s.reverse.dropWhile (· ≠ sep)).tail.reverse, (s.reverse.takeWhile (· ≠ sep)).reverse)
  else none

/-- A list is cut at the last separator. -/
theorem cutLast_append {sep : α} (a : List α) {b : List α} (hb : sep ∉ b) :
    cutLast sep (a ++ sep :: b) = some (a, b) := by
  have hrev : (a ++ sep :: b).reverse = b.reverse ++ sep :: a.reverse := by simp
  have hall : ∀ x ∈ b.reverse, (decide (x ≠ sep)) = true := by
    intro x hx
    rw [decide_eq_true_iff]
    rintro rfl
    exact hb (List.mem_reverse.1 hx)
  rw [cutLast, if_pos (by simp), hrev, List.dropWhile_append_of_pos hall,
    List.takeWhile_append_of_pos hall]
  simp

/-- What was cut has the separator between the two parts and none in the second. -/
theorem cutLast_eq_some {sep : α} {s a b : List α} (h : cutLast sep s = some (a, b)) :
    s = a ++ sep :: b ∧ sep ∉ b := by
  have hmem : sep ∈ s := by
    by_contra hout
    rw [cutLast, if_neg hout] at h
    cases h
  -- the last separator is the first one of the reversed text
  obtain ⟨after, before, hrev, hafter⟩ :=
    List.eq_append_cons_of_mem (List.mem_reverse.2 hmem)
  have hs : s = before.reverse ++ sep :: after.reverse := by
    rw [← List.reverse_reverse s, hrev]
    simp
  have hb : sep ∉ after.reverse := fun hin => hafter (List.mem_reverse.1 hin)
  rw [hs, cutLast_append _ hb] at h
  cases h
  exact ⟨hs, hb⟩

/-- No part of a split text has the separator in it. -/
theorem notMem_of_mem_splitOn {sep : α} {s part : List α} (h : part ∈ s.splitOn sep) :
    sep ∉ part := by
  induction s generalizing part with
  | nil =>
    rw [List.splitOn, List.splitOnP_nil, List.mem_singleton] at h
    rw [h]
    exact List.not_mem_nil
  | cons c s ih =>
    rw [List.splitOn, List.splitOnP_cons_eq_if_modifyHead] at h
    split at h
    · rcases List.mem_cons.1 h with rfl | hmem
      · exact List.not_mem_nil
      · exact ih hmem
    · rename_i hc
      cases hs : s.splitOnP (· == sep) with
      | nil => simp [hs] at h
      | cons first rest =>
        rw [hs, List.modifyHead_cons] at h
        rcases List.mem_cons.1 h with rfl | hmem
        · have hfirst : sep ∉ first := ih (by rw [List.splitOn, hs]; exact List.mem_cons_self)
          intro hmem
          rcases List.mem_cons.1 hmem with rfl | hmem
          · exact hc (beq_self_eq_true _)
          · exact hfirst hmem
        · exact ih (by rw [List.splitOn, hs]; exact List.mem_cons_of_mem _ hmem)

end Cut

/-! ## Hexadecimal of a fixed width -/

/-- A digit, in lower case. -/
def hexDigit (n : ℕ) : UInt8 := if n < 10 then UInt8.ofNat (48 + n) else UInt8.ofNat (87 + n)

/-- The last `w` hexadecimal digits of a number, zeros included. -/
def hex : ℕ → ℕ → List UInt8
  | 0, _ => []
  | w + 1, n => hex w (n / 16) ++ [hexDigit (n % 16)]

/-- The width of a number in hexadecimal. -/
@[simp] theorem length_hex (w n : ℕ) : (hex w n).length = w := by
  induction w generalizing n with
  | zero => rfl
  | succ w ih => rw [hex, List.length_append, ih, List.length_singleton]

/-- Digits tell numbers apart. -/
theorem hexDigit_inj {a b : ℕ} (ha : a < 16) (hb : b < 16) (h : hexDigit a = hexDigit b) :
    a = b := by
  have hall : ∀ a b : Fin 16, hexDigit a = hexDigit b → a = b := by decide
  exact congrArg Fin.val (hall ⟨a, ha⟩ ⟨b, hb⟩ h)

/-- So do numbers of one width. -/
theorem hex_inj {w a b : ℕ} (ha : a < 16 ^ w) (hb : b < 16 ^ w) (h : hex w a = hex w b) :
    a = b := by
  induction w generalizing a b with
  | zero => omega
  | succ w ih =>
    rw [pow_succ] at ha hb
    obtain ⟨hhigh, hlow⟩ := List.append_inj h (by simp)
    have hdiv : a / 16 = b / 16 := ih (by omega) (by omega) hhigh
    have hmod : a % 16 = b % 16 := by
      refine hexDigit_inj (Nat.mod_lt _ (by decide)) (Nat.mod_lt _ (by decide)) ?_
      simpa using hlow
    omega

/-- Every octet of a hexadecimal text is a digit's. -/
theorem mem_hex {w n : ℕ} {c : UInt8} (h : c ∈ hex w n) : ∃ d < 16, c = hexDigit d := by
  induction w generalizing n with
  | zero => cases h
  | succ w ih =>
    rcases List.mem_append.1 h with h | h
    · exact ih h
    · exact ⟨n % 16, Nat.mod_lt _ (by decide), List.mem_singleton.1 h⟩

/-! ## Decimal -/

/-- A number in decimal. -/
def formatUint (n : ℕ) : List UInt8 :=
  if n = 0 then [48] else (Nat.digits 10 n).reverse.map fun d => UInt8.ofNat (48 + d)

def isDigit (c : UInt8) : Bool := decide (48 ≤ c ∧ c ≤ 57)

/-- The number a decimal text of at most 64 bits names. -/
def parseUint (s : List UInt8) : Option UInt64 :=
  if s.isEmpty || !s.all isDigit then none
  else
    let n := s.foldl (fun acc c => acc * 10 + (c.toNat - 48)) 0
    if n < 2 ^ 64 then some (UInt64.ofNat n) else none

/-- The number a decimal text names, however long. -/
def decimalValue (s : List UInt8) : ℕ := s.foldl (fun acc c => acc * 10 + (c.toNat - 48)) 0

/-- **What is read is a numeral below 2^64**, leading zeros allowed. -/
theorem parseUint_eq_some_iff {s : List UInt8} {n : UInt64} :
    parseUint s = some n ↔
      s ≠ [] ∧ (∀ c ∈ s, isDigit c = true) ∧ decimalValue s = n.toNat := by
  have htest : (s.isEmpty || !s.all isDigit) = false ↔ s ≠ [] ∧ ∀ c ∈ s, isDigit c = true := by
    rw [Bool.or_eq_false_iff, List.isEmpty_eq_false_iff, Bool.not_eq_false', List.all_eq_true]
  constructor
  · intro h
    rw [parseUint] at h
    split at h
    · cases h
    · rename_i hshape
      obtain ⟨hne, hdigits⟩ := htest.1 (Bool.eq_false_iff.2 hshape)
      dsimp only at h
      split at h
      · rename_i hlt
        refine ⟨hne, hdigits, ?_⟩
        rw [← Option.some.inj h, UInt64.toNat_ofNat', Nat.mod_eq_of_lt hlt]
        rfl
      · cases h
  · rintro ⟨hne, hdigits, hvalue⟩
    have hvalue' : s.foldl (fun acc c => acc * 10 + (c.toNat - 48)) 0 = n.toNat := hvalue
    rw [parseUint, htest.2 ⟨hne, hdigits⟩]
    simp only [Bool.false_eq_true, if_false, hvalue']
    rw [if_pos n.toNat_lt, UInt64.ofNat_toNat]

/-- A decimal digit is read back. -/
theorem digit_roundtrip {d : ℕ} (hd : d < 10) :
    isDigit (UInt8.ofNat (48 + d)) = true ∧ (UInt8.ofNat (48 + d)).toNat - 48 = d := by
  have hall : ∀ d : Fin 10, isDigit (UInt8.ofNat (48 + d.val)) = true ∧
      (UInt8.ofNat (48 + d.val)).toNat - 48 = d.val := by
    decide
  exact hall ⟨d, hd⟩

/-- Digits are read as the number they are of. -/
theorem foldl_digits (ds : List ℕ) (hds : ∀ d ∈ ds, d < 10) :
    (ds.reverse.map fun d => UInt8.ofNat (48 + d)).foldl
      (fun acc c => acc * 10 + (c.toNat - 48)) 0 = Nat.ofDigits 10 ds := by
  induction ds with
  | nil => rfl
  | cons d ds ih =>
    rw [List.reverse_cons, List.map_append, List.foldl_append,
      ih fun x hx => hds x (List.mem_cons_of_mem _ hx), Nat.ofDigits_cons]
    have hd := (digit_roundtrip (hds d List.mem_cons_self)).2
    simp only [List.map_cons, List.map_nil, List.foldl_cons, List.foldl_nil, hd]
    rw [Nat.mul_comm, Nat.add_comm]

/-- A number is written in digits. -/
theorem digits_isDigit (n : ℕ) : ∀ c ∈ formatUint n, isDigit c = true := by
  intro c hc
  rw [formatUint] at hc
  split at hc
  · rw [List.mem_singleton.1 hc]
    decide
  · obtain ⟨d, hd, rfl⟩ := List.mem_map.1 hc
    exact (digit_roundtrip (Nat.digits_lt_base (by decide) (List.mem_reverse.1 hd))).1

/-- And in at least one. -/
theorem formatUint_ne_nil (n : ℕ) : formatUint n ≠ [] := by
  rw [formatUint]
  split
  · exact List.cons_ne_nil _ _
  · rename_i hn
    simpa [Nat.digits_eq_nil_iff_eq_zero] using hn

/-- It is read back. -/
theorem decimalValue_formatUint (n : ℕ) : decimalValue (formatUint n) = n := by
  rw [decimalValue, formatUint]
  split
  · rename_i hn
    rw [hn]
    rfl
  · rw [foldl_digits _ fun d hd => Nat.digits_lt_base (by decide) hd, Nat.ofDigits_digits]

/-! ## Base64, URL alphabet, no padding -/

/-- The octet of a six-bit value: letters, digits, `-` and `_`. -/
def char64 (n : ℕ) : UInt8 :=
  if n < 26 then UInt8.ofNat (65 + n)
  else if n < 52 then UInt8.ofNat (71 + n)
  else if n < 62 then UInt8.ofNat (n - 4)
  else if n = 62 then 45 else 95

def value64 (c : UInt8) : Option ℕ :=
  if 65 ≤ c ∧ c ≤ 90 then some (c.toNat - 65)
  else if 97 ≤ c ∧ c ≤ 122 then some (c.toNat - 71)
  else if 48 ≤ c ∧ c ≤ 57 then some (c.toNat + 4)
  else if c = 45 then some 62
  else if c = 95 then some 63
  else none

def encodeToString : List UInt8 → List UInt8
  | [] => []
  | [a] => [char64 (a.toNat / 4), char64 (a.toNat % 4 * 16)]
  | [a, b] =>
    [char64 (a.toNat / 4), char64 (a.toNat % 4 * 16 + b.toNat / 16), char64 (b.toNat % 16 * 4)]
  | a :: b :: c :: rest =>
    char64 (a.toNat / 4) :: char64 (a.toNat % 4 * 16 + b.toNat / 16) ::
      char64 (b.toNat % 16 * 4 + c.toNat / 64) :: char64 (c.toNat % 64) :: encodeToString rest

/-- Four characters to three octets. The bits of a short last group that fill no octet are not
looked at. -/
def decodeQuantum : List UInt8 → Option (List UInt8)
  | [] => some []
  | [_] => none
  | [a, b] => do
    let v ← value64 a
    let w ← value64 b
    some [UInt8.ofNat (v * 4 + w / 16)]
  | [a, b, c] => do
    let v ← value64 a
    let w ← value64 b
    let x ← value64 c
    some [UInt8.ofNat (v * 4 + w / 16), UInt8.ofNat (w % 16 * 16 + x / 4)]
  | a :: b :: c :: d :: rest => do
    let v ← value64 a
    let w ← value64 b
    let x ← value64 c
    let y ← value64 d
    let tail ← decodeQuantum rest
    some (UInt8.ofNat (v * 4 + w / 16) :: UInt8.ofNat (w % 16 * 16 + x / 4) ::
      UInt8.ofNat (x % 4 * 64 + y) :: tail)

/-- Line ends inside the text are skipped. -/
def decodeString (s : List UInt8) : Option (List UInt8) :=
  decodeQuantum (s.filter fun c => c ≠ 10 ∧ c ≠ 13)

/-- A base64 character is read back and ends no line. -/
theorem value64_char64 {n : ℕ} (hn : n < 64) :
    value64 (char64 n) = some n ∧ char64 n ≠ 10 ∧ char64 n ≠ 13 := by
  have hall : ∀ n : Fin 64, value64 (char64 n) = some n.val ∧ char64 n ≠ 10 ∧ char64 n ≠ 13 := by
    decide
  exact hall ⟨n, hn⟩

/-- No line is ended by an encoding. -/
theorem encodeToString_chars (s : List UInt8) :
    ∀ c ∈ encodeToString s, c ≠ 10 ∧ c ≠ 13 := by
  fun_induction encodeToString s with
  | case1 => simp
  | case2 a =>
    have ha := a.toNat_lt
    simp only [List.mem_cons, List.not_mem_nil, or_false, forall_eq_or_imp, forall_eq]
    exact ⟨(value64_char64 (by omega)).2, (value64_char64 (by omega)).2⟩
  | case3 a b =>
    have ha := a.toNat_lt
    have hb := b.toNat_lt
    simp only [List.mem_cons, List.not_mem_nil, or_false, forall_eq_or_imp, forall_eq]
    exact ⟨(value64_char64 (by omega)).2, (value64_char64 (by omega)).2,
      (value64_char64 (by omega)).2⟩
  | case4 a b c rest ih =>
    have ha := a.toNat_lt
    have hb := b.toNat_lt
    have hc := c.toNat_lt
    simp only [List.mem_cons, forall_eq_or_imp]
    exact ⟨(value64_char64 (by omega)).2, (value64_char64 (by omega)).2,
      (value64_char64 (by omega)).2, (value64_char64 (by omega)).2, ih⟩

/-- An octet from its value. -/
theorem ofNat_eq {a : UInt8} {n : ℕ} (h : n = a.toNat) : UInt8.ofNat n = a := by
  rw [h, UInt8.ofNat_toNat]

/-- An encoding is decoded. -/
theorem decodeQuantum_encodeToString (s : List UInt8) :
    decodeQuantum (encodeToString s) = some s := by
  fun_induction encodeToString s with
  | case1 => rfl
  | case2 a =>
    have ha := a.toNat_lt
    simp only [decodeQuantum, (value64_char64 (show a.toNat / 4 < 64 by omega)).1,
      (value64_char64 (show a.toNat % 4 * 16 < 64 by omega)).1, Option.bind_eq_bind,
      Option.bind_some]
    rw [ofNat_eq (show _ = a.toNat by omega)]
  | case3 a b =>
    have ha := a.toNat_lt
    have hb := b.toNat_lt
    simp only [decodeQuantum, (value64_char64 (show a.toNat / 4 < 64 by omega)).1,
      (value64_char64 (show a.toNat % 4 * 16 + b.toNat / 16 < 64 by omega)).1,
      (value64_char64 (show b.toNat % 16 * 4 < 64 by omega)).1, Option.bind_eq_bind,
      Option.bind_some]
    rw [ofNat_eq (show _ = a.toNat by omega), ofNat_eq (show _ = b.toNat by omega)]
  | case4 a b c rest ih =>
    have ha := a.toNat_lt
    have hb := b.toNat_lt
    have hc := c.toNat_lt
    simp only [decodeQuantum, (value64_char64 (show a.toNat / 4 < 64 by omega)).1,
      (value64_char64 (show a.toNat % 4 * 16 + b.toNat / 16 < 64 by omega)).1,
      (value64_char64 (show b.toNat % 16 * 4 + c.toNat / 64 < 64 by omega)).1,
      (value64_char64 (show c.toNat % 64 < 64 by omega)).1, ih, Option.bind_eq_bind,
      Option.bind_some]
    rw [ofNat_eq (show _ = a.toNat by omega), ofNat_eq (show _ = b.toNat by omega),
      ofNat_eq (show _ = c.toNat by omega)]

/-- **What was encoded is read back.** -/
theorem decodeString_encodeToString (s : List UInt8) :
    decodeString (encodeToString s) = some s := by
  rw [decodeString, List.filter_eq_self.2 fun c hc => decide_eq_true (encodeToString_chars s c hc)]
  exact decodeQuantum_encodeToString s

/-- Something is encoded as something. -/
theorem encodeToString_ne_nil {s : List UInt8} (hs : s ≠ []) : encodeToString s ≠ [] := by
  intro h
  have hdec := decodeQuantum_encodeToString s
  rw [h] at hdec
  exact hs (Option.some.inj hdec).symm

end Encoding
