import Osdp.Model.Aes128
import Mathlib.Data.List.GetD

/-!
# What the padding of a payload says

`Seal` pads a payload to whole blocks behind a marker and `Open` scans back over zeros to it. The
scan finds every payload that was sealed (`openPayload_sealPayload`). It does not stop at the last
block, so zeros after a sealed payload's last block are stripped as well: `Open` accepts more than
what `Seal` returns, and it is exactly a last block of zeros that makes the difference
(`padding_canonical_iff`).
-/

set_option autoImplicit false

namespace Osdp.Secure

/-- Adding twice cancels. -/
theorem xorInto_xorInto (a b : Block) : xorInto (xorInto a b) b = a := by
  apply List.Vector.ext
  intro i
  simp only [xorInto, List.Vector.zipWith_get, UInt8.xor_assoc, UInt8.xor_self, UInt8.xor_zero]

/-! ## The scan -/

/-- Where the loop stops: everything above is zero, and this octet is not unless it is the first. -/
theorem lastNonzero_spec (b : Octets) (n : ℕ) :
    lastNonzero b n ≤ n ∧ (∀ j, lastNonzero b n < j → j ≤ n → b.getD j 0 = 0) ∧
      (lastNonzero b n = 0 ∨ b.getD (lastNonzero b n) 0 ≠ 0) := by
  induction n with
  | zero => exact ⟨le_rfl, by intro j; simp only [lastNonzero]; omega, .inl rfl⟩
  | succ n ih =>
    rw [lastNonzero]
    split
    · rename_i hzero
      obtain ⟨hle, habove, hstop⟩ := ih
      refine ⟨by omega, ?_, hstop⟩
      intro j hj hjn
      by_cases hlast : j = n + 1
      · rw [hlast]
        exact hzero
      · exact habove j hj (by omega)
    · rename_i hne
      exact ⟨le_rfl, fun j hj hjn => by omega, .inr hne⟩

/-- **`unpad` finds the marker before the zeros at the end, however many they are.** -/
theorem unpad_ok_iff {b : Octets} (hb : b ≠ []) {n : ℕ} :
    unpad b = .ok n ↔ ∃ p k, b = p ++ eom :: List.replicate k 0 ∧ p.length = n := by
  have hpos : 0 < b.length := List.length_pos_iff.mpr hb
  obtain ⟨hle, habove, hstop⟩ := lastNonzero_spec b (b.length - 1)
  simp only [unpad]
  generalize lastNonzero b (b.length - 1) = i at hle habove hstop ⊢
  constructor
  · intro h
    split at h
    · cases h
    · rename_i hmark
      obtain rfl := Except.ok.inj h
      have hlt : i < b.length := by omega
      rw [not_not, List.getD_eq_getElem _ _ hlt] at hmark
      have hzeros : b.drop (i + 1) = List.replicate (b.length - (i + 1)) 0 := by
        rw [List.eq_replicate_iff]
        refine ⟨List.length_drop, fun x hx => ?_⟩
        obtain ⟨j, hj, rfl⟩ := List.getElem_of_mem hx
        rw [List.length_drop] at hj
        have hz := habove (i + 1 + j) (by omega) (by omega)
        rwa [List.getD_eq_getElem _ _ (by omega), ← List.getElem_drop] at hz
      refine ⟨b.take i, b.length - (i + 1), ?_, by rw [List.length_take]; omega⟩
      rw [← hzeros, ← hmark, ← List.drop_eq_getElem_cons hlt, List.take_append_drop]
  · rintro ⟨p, k, rfl, rfl⟩
    have hmark : (p ++ eom :: List.replicate k 0).getD p.length 0 = eom := by simp
    have hend : p.length ≤ (p ++ eom :: List.replicate k 0).length - 1 := by simp
    have hzero : ∀ j, p.length < j → (p ++ eom :: List.replicate k 0).getD j 0 = 0 := by
      intro j hj
      rw [List.getD_append_right _ _ _ _ hj.le]
      obtain ⟨i, hi⟩ : ∃ i, j - p.length = i + 1 := ⟨j - p.length - 1, by omega⟩
      rw [hi, List.getD_cons_succ]
      by_cases hik : i < k
      · exact List.getD_replicate _ hik
      · exact List.getD_eq_default _ _ (by simp only [List.length_replicate]; omega)
    -- the loop passes nothing but zeros, so it ends at the marker
    have hat : i = p.length := by
      rcases Nat.lt_trichotomy i p.length with hlt | heq | hgt
      · have hcontra := habove p.length hlt hend
        rw [hmark] at hcontra
        exact absurd hcontra (by decide)
      · exact heq
      · obtain hfirst | hne := hstop
        · omega
        · exact absurd (hzero _ hgt) hne
    rw [hat, hmark, if_neg (not_not.mpr rfl)]

/-! ## Whole blocks -/

/-- The padded length. -/
theorem paddedLen_eq (n : ℕ) : paddedLen n = 16 * (n / 16 + 1) := by
  simp only [paddedLen, blockSize]
  omega

/-- A padded text has it. -/
theorem length_padded (p : Octets) : (padded p).length = 16 * (p.length / 16 + 1) := by
  simp only [padded, List.length_append, List.length_cons, List.length_replicate, paddedLen_eq]
  omega

/-- A payload with a marker and zeros behind it is padded as `Seal` pads it exactly when it ends in
the first whole block. -/
theorem padded_eq_iff {p : Octets} {k : ℕ} (h : 16 ∣ (p ++ eom :: List.replicate k 0).length) :
    p ++ eom :: List.replicate k 0 = padded p ↔ k < 16 := by
  simp only [List.length_append, List.length_cons, List.length_replicate] at h
  have hfill : paddedLen p.length - (p.length + 1) = k ↔ k < 16 := by
    rw [paddedLen_eq]
    omega
  rw [← hfill, padded]
  constructor
  · intro heq
    exact (BlockMode.marked_inj (by decide) heq).2.symm
  · intro heq
    rw [heq]

namespace Aes128

variable (aes : BlockCipher) (k : SessionKeys) (key iv chain : Block)

variable {x c p : Octets} {n : ℕ}

/-- Enciphering keeps the length. -/
theorem length_encipher (h : 16 ∣ x.length) : (encipher aes key iv x).length = x.length := by
  rw [encipher, BlockMode.length_join, BlockMode.length_encrypt, BlockMode.split,
    BlockMode.length_blocks, Nat.mul_div_cancel' h]

/-- So does deciphering. -/
theorem length_decipher (h : 16 ∣ x.length) : (decipher aes key iv x).length = x.length := by
  rw [decipher, BlockMode.length_join, BlockMode.length_decrypt, BlockMode.split,
    BlockMode.length_blocks, Nat.mul_div_cancel' h]

/-- Deciphering undoes enciphering. -/
theorem decipher_encipher (h : 16 ∣ x.length) :
    decipher aes key iv (encipher aes key iv x) = x := by
  rw [decipher, encipher, BlockMode.split_join (by decide),
    BlockMode.decrypt_encrypt xorInto_xorInto (aes.decrypt_encrypt key), BlockMode.join_split h]

/-- And the other way round. -/
theorem encipher_decipher (h : 16 ∣ x.length) :
    encipher aes key iv (decipher aes key iv x) = x := by
  rw [decipher, encipher, BlockMode.split_join (by decide),
    BlockMode.encrypt_decrypt xorInto_xorInto (aes.encrypt_decrypt key), BlockMode.join_split h]

/-- A sealed payload has the padded length. -/
theorem length_sealPayload (p : Octets) :
    (sealPayload aes k chain p).length = 16 * (p.length / 16 + 1) := by
  rw [sealPayload, length_encipher _ _ _ ⟨_, length_padded p⟩, length_padded]

/-- **What `Open` accepts**: whole blocks that decipher to a payload, the marker and zeros. -/
theorem openPayload_ok_iff :
    openPayload aes k chain c = .ok p ↔ c ≠ [] ∧ 16 ∣ c.length ∧
      ∃ n, decipher aes k.enc (chainIV chain) c = p ++ eom :: List.replicate n 0 := by
  unfold openPayload
  by_cases hshape : c.length = 0 ∨ c.length % blockSize ≠ 0
  · rw [if_pos hshape]
    simp only [reduceCtorEq, false_iff]
    rintro ⟨hne, hdvd, -⟩
    have hpos := List.length_pos_iff.mpr hne
    rw [blockSize] at hshape
    omega
  · rw [if_neg hshape]
    rw [not_or, not_not] at hshape
    have hne : c ≠ [] := fun h => hshape.1 (by rw [h]; rfl)
    have hdvd : 16 ∣ c.length := Nat.dvd_of_mod_eq_zero hshape.2
    have hout : decipher aes k.enc (chainIV chain) c ≠ [] := by
      rw [← List.length_pos_iff, length_decipher _ _ _ hdvd]
      exact List.length_pos_iff.mpr hne
    simp only [hne, hdvd, ne_eq, not_false_eq_true, true_and]
    constructor
    · intro h
      split at h
      · cases h
      · rename_i n hn
        obtain ⟨q, m, hq, rfl⟩ := (unpad_ok_iff hout).mp hn
        rw [hq, List.take_left' rfl] at h
        obtain rfl := Except.ok.inj h
        exact ⟨m, hq⟩
    · rintro ⟨n, hn⟩
      rw [(unpad_ok_iff hout).mpr ⟨p, n, hn, rfl⟩]
      simp only
      rw [hn, List.take_left' rfl]

/-- Whether the last block deciphers to zeros. -/
def endsInFill (c : Octets) : Bool :=
  (decipher aes k.enc (chainIV chain) c).drop (c.length - blockSize) == List.replicate blockSize 0

/-- A whole last block of zeros is one the scan ran over. -/
theorem endsInFill_iff (hne : c ≠ []) (hdvd : 16 ∣ c.length)
    (hc : decipher aes k.enc (chainIV chain) c = p ++ eom :: List.replicate n 0) :
    endsInFill aes k chain c = true ↔ 16 ≤ n := by
  have hlen := length_decipher aes k.enc (chainIV chain) hdvd
  rw [hc] at hlen
  simp only [List.length_append, List.length_cons, List.length_replicate] at hlen
  have hpos := List.length_pos_iff.mpr hne
  rw [endsInFill, beq_iff_eq, hc, blockSize]
  constructor
  · -- the marker stands in the last block, and is not zero
    contrapose!
    intro hn heq
    rw [List.drop_append_of_le_length (by omega)] at heq
    have hmem : eom ∈ List.replicate 16 (0 : UInt8) := by
      rw [← heq]
      simp
    exact absurd (List.eq_of_mem_replicate hmem) (by decide)
  · intro hn
    have hsplit : p ++ eom :: List.replicate n 0 = (p ++ [eom]) ++ List.replicate n 0 := by simp
    have hat : c.length - 16 = (p ++ [eom]).length + (n - 16) := by
      simp only [List.length_append, List.length_singleton]
      omega
    rw [hsplit, hat, List.drop_length_add_append, List.drop_replicate, Nat.sub_sub_self hn]

/-- **`Open` inverts `Seal`.** -/
theorem openPayload_sealPayload (p : Octets) :
    openPayload aes k chain (sealPayload aes k chain p) = .ok p := by
  rw [openPayload_ok_iff]
  refine ⟨?_, ⟨_, length_sealPayload aes k chain p⟩,
    paddedLen p.length - (p.length + 1), ?_⟩
  · rw [← List.length_pos_iff, length_sealPayload]
    omega
  · rw [sealPayload, decipher_encipher _ _ _ ⟨_, length_padded p⟩]
    rfl

/-- What is accepted is what was sealed exactly when no whole block of zeros was stripped. -/
theorem sealPayload_eq_iff (hdvd : 16 ∣ c.length)
    (hc : decipher aes k.enc (chainIV chain) c = p ++ eom :: List.replicate n 0) :
    sealPayload aes k chain p = c ↔ n < 16 := by
  rw [← padded_eq_iff (p := p) (by rw [← hc, length_decipher _ _ _ hdvd]; exact hdvd), ← hc]
  constructor
  · rintro rfl
    rw [sealPayload, decipher_encipher _ _ _ ⟨_, length_padded p⟩]
  · intro h
    rw [sealPayload, ← h, encipher_decipher _ _ _ hdvd]

end Aes128

/-- **Padding.** Under any block cipher `Open` returns every payload that `Seal` was given. What it
accepts is what `Seal` returns for the payload it gives, with one block of padding at most, unless
the last block deciphers to zeros. -/
theorem padding_canonical_iff (aes : BlockCipher) (k : SessionKeys) (chain : Block) :
    (∀ p, ∃ c, (aes128 aes).sealPayload k chain p = .ok c ∧
      (aes128 aes).openPayload k chain c = .ok p) ∧
    ∀ c p, (aes128 aes).openPayload k chain c = .ok p →
      ((aes128 aes).sealPayload k chain p = .ok c ∧ c.length - p.length ≤ blockSize ↔
        Aes128.endsInFill aes k chain c = false) := by
  constructor
  · intro p
    exact ⟨_, rfl, Aes128.openPayload_sealPayload aes k chain p⟩
  · intro c p hopen
    obtain ⟨hne, hdvd, n, hn⟩ := (Aes128.openPayload_ok_iff aes k chain).mp hopen
    have hlen := Aes128.length_decipher aes k.enc (chainIV chain) hdvd
    rw [hn] at hlen
    simp only [List.length_append, List.length_cons, List.length_replicate] at hlen
    have hfill : Aes128.endsInFill aes k chain c = false ↔ n < 16 := by
      rw [← Bool.not_eq_true, Aes128.endsInFill_iff aes k chain hne hdvd hn, Nat.not_le]
    have hseal : (aes128 aes).sealPayload k chain p = .ok c ↔ n < 16 := by
      rw [← Aes128.sealPayload_eq_iff aes k chain hdvd hn]
      exact ⟨fun h => Except.ok.inj h, fun h => congrArg Except.ok h⟩
    rw [hfill, hseal, blockSize]
    omega

/-- The cipher that leaves every block as it is. -/
def plainCipher : BlockCipher :=
  { encrypt := fun _ b => b, decrypt := fun _ b => b
    decrypt_encrypt := fun _ _ => rfl, encrypt_decrypt := fun _ _ => rfl }

/-- Two blocks that decipher to the marker and thirty-one zeros are accepted as the empty payload,
which `Seal` makes one block of. Whatever the cipher and the payload, a block of zeros may be
appended before enciphering and `Open` does not notice. -/
theorem overlong_padding_accepted :
    (let k : SessionKeys := ⟨zeroBlock, zeroBlock, zeroBlock⟩
     let c : Octets := 0x7F :: List.replicate 15 0xFF ++ 0x7F :: List.replicate 15 0xFF
     (aes128 plainCipher).openPayload k zeroBlock c = .ok [] ∧
     (aes128 plainCipher).sealPayload k zeroBlock [] = .ok (0x7F :: List.replicate 15 0xFF) ∧
     Aes128.endsInFill plainCipher k zeroBlock c = true) ∧
    ∀ (aes : BlockCipher) (k : SessionKeys) (chain : Block) (p : Octets),
      (aes128 aes).openPayload k chain (Aes128.encipher aes k.enc (chainIV chain)
        (padded p ++ List.replicate blockSize 0)) = .ok p := by
  refine ⟨by decide +kernel, fun aes k chain p => ?_⟩
  have hlen : (padded p ++ List.replicate blockSize 0).length = 16 * (p.length / 16 + 2) := by
    rw [List.length_append, length_padded, List.length_replicate, blockSize]
    omega
  refine (Aes128.openPayload_ok_iff aes k chain).mpr ⟨?_, ?_,
    paddedLen p.length - (p.length + 1) + blockSize, ?_⟩
  · rw [← List.length_pos_iff, Aes128.length_encipher _ _ _ ⟨_, hlen⟩, hlen]
    omega
  · rw [Aes128.length_encipher _ _ _ ⟨_, hlen⟩]
    exact ⟨_, hlen⟩
  · rw [Aes128.decipher_encipher _ _ _ ⟨_, hlen⟩, padded, List.append_assoc, List.cons_append,
      List.replicate_append_replicate]

end Osdp.Secure
