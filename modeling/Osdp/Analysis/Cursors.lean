import Osdp.Model.Store

/-!
# Page tokens

A token is the base64 text of a query's parent, a separator and a sequence number in decimal. The
digits have no separator among them, so the last one is the one that was written, whatever the parent
holds; `decodeCursor` accepts a token exactly when it is spelled so for the query it is given
(`decodeCursor_ok_iff`), and refuses every other one with the same error (`decodeCursor_total`).
-/

set_option autoImplicit false

namespace Osdp

namespace Service

open Encoding

/-- There is no separator in a numeral. -/
theorem cursorSeparator_notMem {numeral : Octets} (h : ∀ c ∈ numeral, isDigit c = true) :
    cursorSeparator ∉ numeral := by
  intro hmem
  exact absurd (h _ hmem) (by decide)

/-- **What a token says under a query.** -/
theorem decodeCursor_ok_iff {token parent : Octets} {seq : UInt64} :
    decodeCursor token parent = .ok seq ↔
      ∃ numeral, decodeString token = some (parent ++ cursorSeparator :: numeral) ∧
        numeral ≠ [] ∧ (∀ c ∈ numeral, isDigit c = true) ∧ decimalValue numeral = seq.toNat := by
  constructor
  · intro h
    rw [decodeCursor] at h
    split at h
    · cases h
    rename_i raw hraw
    split at h
    · cases h
    rename_i before after hcut
    split at h
    · cases h
    rename_i hparent
    split at h
    · cases h
    rename_i n hn
    cases h
    obtain ⟨hsplit, -⟩ := cutLast_eq_some hcut
    refine ⟨after, ?_, parseUint_eq_some_iff.1 hn⟩
    rw [hraw, hsplit, not_not.1 hparent]
  · rintro ⟨numeral, hraw, hnumeral⟩
    have hcut := cutLast_append parent (cursorSeparator_notMem hnumeral.2.1)
    rw [decodeCursor, hraw]
    simp only [hcut, parseUint_eq_some_iff.2 hnumeral, ne_eq, not_true_eq_false, if_false]

/-- A token is read or refused, and no more is said. -/
theorem decodeCursor_total (token parent : Octets) :
    (∃ seq, decodeCursor token parent = .ok seq) ∨
      decodeCursor token parent = .error .invalidPageToken := by
  rw [decodeCursor]
  split
  · exact .inr rfl
  split
  · exact .inr rfl
  split
  · exact .inr rfl
  split
  · exact .inr rfl
  · exact .inl ⟨_, rfl⟩

/-- A cursor is read back. -/
theorem decodeCursor_encodeCursor (parent : Octets) (seq : UInt64) :
    decodeCursor (encodeCursor parent seq) parent = .ok seq :=
  decodeCursor_ok_iff.2 ⟨formatUint seq.toNat, decodeString_encodeToString _, formatUint_ne_nil _,
    digits_isDigit _, decimalValue_formatUint _⟩

/-- A token accepted under a query was issued for it. -/
theorem parent_eq_of_decodeCursor {p q : Octets} {s n : UInt64}
    (h : decodeCursor (encodeCursor p s) q = .ok n) : p = q := by
  obtain ⟨numeral, hraw, -, hdigits, -⟩ := decodeCursor_ok_iff.1 h
  have hp := cutLast_append p (cursorSeparator_notMem (digits_isDigit s.toNat))
  have hq := cutLast_append q (cursorSeparator_notMem hdigits)
  rw [encodeCursor, decodeString_encodeToString] at hraw
  rw [Option.some.inj hraw, hq] at hp
  exact (Prod.ext_iff.1 (Option.some.inj hp)).1.symm

/-- A cursor is not the empty token. -/
theorem encodeCursor_ne_nil (parent : Octets) (seq : UInt64) : encodeCursor parent seq ≠ [] :=
  encodeToString_ne_nil (by simp)

/-- **Page tokens bind to their query.** A token issued for one query gives its number back under
that query and is refused under any other; and a token is accepted under a query only if its payload
is the query's parent, one separator and a numeral below 2^64, whose value is the number returned. -/
theorem page_tokens_bind :
    (∀ (p q : Octets) (s : UInt64),
      decodeCursor (encodeCursor p s) q = if p = q then .ok s else .error .invalidPageToken) ∧
    ∀ (token q : Octets) (s : UInt64), decodeCursor token q = .ok s →
      ∃ numeral, decodeString token = some (q ++ cursorSeparator :: numeral) ∧
        numeral ≠ [] ∧ (∀ c ∈ numeral, isDigit c = true) ∧
        decimalValue numeral < 2 ^ 64 ∧ s.toNat = decimalValue numeral := by
  constructor
  · intro p q s
    split
    · rename_i heq
      rw [heq, decodeCursor_encodeCursor]
    · rename_i hne
      rcases decodeCursor_total (encodeCursor p s) q with ⟨n, hok⟩ | herror
      · exact absurd (parent_eq_of_decodeCursor hok) hne
      · exact herror
  · intro token q s h
    obtain ⟨numeral, hraw, hne, hdigits, hvalue⟩ := decodeCursor_ok_iff.1 h
    exact ⟨numeral, hraw, hne, hdigits, hvalue ▸ s.toNat_lt, hvalue.symm⟩

/-- A parent with a separator in it, and a token whose numeral has leading zeros. -/
theorem page_tokens_bind_device :
    decodeCursor (encodeCursor [0x61, 0, 0x31] 7) [0x61, 0, 0x31] = .ok 7 ∧
      decodeCursor (encodeCursor [0x61, 0, 0x31] 7) [0x61] = .error .invalidPageToken ∧
      decodeCursor (encodeToString [0x61, 0, 0x30, 0x37]) [0x61] = .ok 7 ∧
      ∃ numeral, decodeString (encodeToString [0x61, 0, 0x30, 0x37]) =
          some ([0x61] ++ cursorSeparator :: numeral) ∧
        numeral ≠ [] ∧ (∀ c ∈ numeral, isDigit c = true) ∧
        decimalValue numeral < 2 ^ 64 ∧ (7 : UInt64).toNat = decimalValue numeral := by
  have hzeros : decodeCursor (encodeToString [0x61, 0, 0x30, 0x37]) [0x61] = .ok 7 := by
    decide +kernel
  refine ⟨?_, ?_, hzeros, page_tokens_bind.2 _ _ _ hzeros⟩
  · rw [page_tokens_bind.1, if_pos rfl]
  · rw [page_tokens_bind.1, if_neg (by decide)]

end Service

end Osdp
