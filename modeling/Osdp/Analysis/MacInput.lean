import Osdp.Analysis.Padding
import Osdp.Analysis.SealedFrame
import Osdp.Analysis.WireFormat

/-!
# What a message authentication code is computed over

`MAC` works on whole blocks and pads what is not aligned, so a message that ends in the marker and
the shorter one it looks like are the same to it (`macBlocks`). Frames are not confused that way:
their length and their check scheme stand in the first block, and say how long the input is
(`covered_length`). The loop of `MAC` is the chain over those blocks, and none of its slices is out
of range (`mac_eq`).
-/

set_option autoImplicit false

namespace Osdp

namespace Secure

/-- The octets the cipher is fed: padded only when they are not whole blocks. -/
def macText (data : Octets) : Octets :=
  if data.length % blockSize = 0 ∧ data.length / blockSize > 0 then data else padded data

/-- The blocks the cipher is fed. -/
def macBlocks (data : Octets) : List Block := BlockMode.split 16 0 (macText data)

/-- The padded text is a multiple of 16. -/
theorem dvd_length_macText (data : Octets) : 16 ∣ (macText data).length := by
  unfold macText
  split
  · rename_i h
    exact Nat.dvd_of_mod_eq_zero h.1
  · exact ⟨_, length_padded data⟩

/-- Its blocks join to it. -/
theorem join_macBlocks (data : Octets) : BlockMode.join (macBlocks data) = macText data :=
  BlockMode.join_split (dvd_length_macText data)

/-- It begins with the data. -/
theorem take_macText {data : Octets} {n : ℕ} (h : n ≤ data.length) :
    (macText data).take n = data.take n := by
  unfold macText
  split
  · rfl
  · rw [padded, List.take_append_of_le_length h]

/-- Inputs of one length are padded alike, so their blocks tell them apart. -/
theorem macBlocks_inj {x y : Octets} (hlen : x.length = y.length) (h : macBlocks x = macBlocks y) :
    x = y := by
  have htext : macText x = macText y := by
    rw [← join_macBlocks, ← join_macBlocks, h]
  have hread : ∀ z, (macText z).take z.length = z := by
    intro z
    rw [take_macText le_rfl, List.take_length]
  rw [← hread x, htext, hlen, hread y]

namespace Aes128

variable (aes : BlockCipher) (k : SessionKeys)

/-- The loop over whole blocks. -/
theorem macChain_eq {n : ℕ} {iv : Block} {rest : Octets} (h : 16 * n ≤ rest.length) :
    macChain aes k n iv rest =
      some (BlockMode.chain xorInto (aes.encrypt k.mac1) iv (BlockMode.blocks 16 0 n rest),
        rest.drop (16 * n)) := by
  induction n generalizing iv rest with
  | zero => rfl
  | succ n ih =>
    have hhead : 16 ≤ rest.length := by omega
    have hrest : 16 * n ≤ (rest.drop 16).length := by
      rw [List.length_drop]
      omega
    have hto : sliceTo rest blockSize = some (rest.take 16) := if_pos hhead
    have hfrom : sliceFrom rest blockSize = some (rest.drop 16) := if_pos hhead
    have hblock : blockOf (rest.take 16) = BlockMode.block 16 0 rest := BlockMode.block_take hhead
    rw [macChain, hto, hfrom]
    simp only [Option.bind_eq_bind, Option.bind_some]
    rw [ih hrest, hblock, List.drop_drop, Nat.mul_succ, Nat.add_comm 16]
    rfl

/-- **The code is the chain over the blocks**, the last one under the second key. -/
theorem mac_eq (chain : Block) (data : Octets) :
    ∃ init last, macBlocks data = init ++ [last] ∧
      mac aes k chain data = some (aes.encrypt k.mac2
        (xorInto last (BlockMode.chain xorInto (aes.encrypt k.mac1) chain init))) := by
  by_cases haligned : data.length % blockSize = 0 ∧ data.length / blockSize > 0
  · -- whole blocks: the loop leaves the last one, which is taken as it stands
    obtain ⟨hrem, hfull⟩ := haligned
    obtain ⟨m, hm⟩ : ∃ m, data.length / blockSize = m + 1 := ⟨_, (Nat.succ_pred_eq_of_pos hfull).symm⟩
    have hlen : data.length = 16 * (m + 1) := by
      rw [blockSize] at hrem hm
      omega
    have hlast : sliceTo (data.drop (16 * m)) blockSize = some (data.drop (16 * m)) := by
      have hsixteen : (data.drop (16 * m)).length = blockSize := by
        rw [List.length_drop, hlen, blockSize]
        omega
      rw [sliceTo, if_pos hsixteen.ge, List.take_of_length_le hsixteen.le]
    refine ⟨BlockMode.blocks 16 0 m data, blockOf (data.drop (16 * m)), ?_, ?_⟩
    · rw [macBlocks, macText, if_pos ⟨hrem, hfull⟩, BlockMode.split, hlen,
        Nat.mul_div_cancel_left _ (by decide), BlockMode.blocks_succ]
      rfl
    · simp only [mac, hrem, hm, ne_eq, not_true_eq_false, if_false, Nat.succ_ne_zero,
        Nat.add_sub_cancel, macChain_eq aes k (show 16 * m ≤ data.length by omega),
        Option.bind_eq_bind, Option.bind_some, gt_iff_lt, Nat.succ_pos, and_self, if_true, hlast]
  · -- the loop takes all whole blocks, and what is left is padded into one more
    have hpadded : macText data = padded data := if_neg haligned
    obtain ⟨m, hm⟩ : ∃ m, data.length / blockSize = m := ⟨_, rfl⟩
    have hwhole : 16 * m ≤ data.length := by
      rw [blockSize] at hm
      omega
    have hblocks : (if (if data.length % blockSize ≠ 0 then m + 1 else m) = 0 then 1
        else if data.length % blockSize ≠ 0 then m + 1 else m) - 1 = m := by
      rw [hm] at haligned
      by_cases hrem : data.length % blockSize = 0
      · have hzero : m = 0 := by
          by_contra hne
          exact haligned ⟨hrem, Nat.pos_of_ne_zero hne⟩
        simp [hrem, hzero]
      · simp [hrem]
    have hrest : sliceTo (data.drop (16 * m)) (data.length % blockSize) =
        some (data.drop (16 * m)) := by
      have hlen : (data.drop (16 * m)).length = data.length % blockSize := by
        rw [List.length_drop, ← hm, blockSize]
        omega
      rw [sliceTo, if_pos hlen.ge, List.take_of_length_le hlen.le]
    refine ⟨BlockMode.blocks 16 0 m data, blockOf (data.drop (16 * m) ++ [eom]), ?_, ?_⟩
    · have hcount : (padded data).length / 16 = m + 1 := by
        rw [length_padded, Nat.mul_div_cancel_left _ (by decide), ← hm, blockSize]
      have hlast : (padded data).drop (16 * m) =
          data.drop (16 * m) ++ [eom] ++
            List.replicate (paddedLen data.length - (data.length + 1)) 0 := by
        rw [padded, List.drop_append_of_le_length hwhole, List.append_assoc, List.singleton_append]
      rw [macBlocks, hpadded, BlockMode.split, hcount, BlockMode.blocks_succ, hlast,
        BlockMode.block_fill, padded, BlockMode.blocks_append hwhole]
      rfl
    · rw [hm] at haligned
      simp only [mac, hm, hblocks, macChain_eq aes k hwhole, Option.bind_eq_bind, Option.bind_some,
        gt_iff_lt, if_neg haligned, hrest]

end Aes128

end Secure

/-! ## Frames -/

namespace Frame

open Osdp.Secure (macTagSize macBlocks macText)

/-- The length of what a check covers. -/
theorem length_appendBody (f : Frame) :
    (f.appendBody []).length = headerSize + SecurityBlock.wireLen f.security + 1 + f.data.length := by
  simp only [appendBody_eq, List.length_append, length_securityOctets, List.length_cons, header,
    List.length_nil, headerSize]
  omega

/-- What a code covers begins with the header. -/
theorem take_covered {f : Frame} (hdata : macTagSize ≤ f.data.length) :
    f.covered.take headerSize = f.header := by
  have hlong : headerSize ≤ (f.appendBody []).length - macTagSize := by
    rw [length_appendBody]
    omega
  rw [covered, List.take_take, Nat.min_eq_left hlong, appendBody_eq, List.append_assoc]
  exact List.take_left' rfl

/-- The length of the input, from what the header says. -/
theorem length_covered {f : Frame} (hdata : macTagSize ≤ f.data.length) :
    f.covered.length + macTagSize + f.control.scheme.size = f.len := by
  rw [covered, List.length_take, length_appendBody, len]
  omega

/-- **The header says how long the input is.** -/
theorem covered_length {f g : Frame} (hf : f.len ≤ maxFrameSize) (hg : g.len ≤ maxFrameSize)
    (hfd : macTagSize ≤ f.data.length) (hgd : macTagSize ≤ g.data.length)
    (h : f.header = g.header) : f.covered.length = g.covered.length := by
  simp only [header, List.cons.injEq, true_and, and_true] at h
  obtain ⟨-, hlow, hhigh, hcontrol⟩ := h
  have hlen : f.len = g.len := by
    rw [maxFrameSize] at hf hg
    rw [← ofNat_or_shiftLeft (show f.len < 65536 by omega), hlow, hhigh,
      ofNat_or_shiftLeft (show g.len < 65536 by omega)]
  have hscheme : f.control.scheme = g.control.scheme := by
    unfold Control.scheme
    rw [hcontrol]
  have hfl := length_covered hfd
  have hgl := length_covered hgd
  rw [hscheme] at hfl
  omega

/-- Frames whose inputs give the same blocks have the same input. -/
theorem covered_eq_of_macBlocks {f g : Frame} (hf : f.len ≤ maxFrameSize)
    (hg : g.len ≤ maxFrameSize) (hfd : macTagSize ≤ f.data.length)
    (hgd : macTagSize ≤ g.data.length) (h : macBlocks f.covered = macBlocks g.covered) :
    f.covered = g.covered := by
  have hlong : ∀ {e : Frame}, macTagSize ≤ e.data.length → headerSize ≤ e.covered.length := by
    intro e he
    rw [covered, List.length_take, length_appendBody]
    omega
  have hheader : f.header = g.header := by
    have htext : macText f.covered = macText g.covered := by
      rw [← Secure.join_macBlocks, ← Secure.join_macBlocks, h]
    rw [← take_covered hfd, ← take_covered hgd, ← Secure.take_macText (hlong hfd),
      ← Secure.take_macText (hlong hgd), htext]
  exact Secure.macBlocks_inj (covered_length hf hg hfd hgd hheader) h

/-- A representable frame is no longer than one can be. -/
theorem len_le_of_representable {f : Frame} (h : f.representable = .ok ()) :
    f.len ≤ maxFrameSize := by
  unfold representable at h
  split at h
  · cases h
  · split at h
    · cases h
    · split at h
      · cases h
      · omega

end Frame

/-- A poll under `SCS_15`, with room for the code. -/
def sealedPoll (seq : UInt8) : Frame :=
  { isReply := false, address := 1, control := newControl seq .crc16 true
    security := some { type := Secure.scs15 }, code := 0x60, data := [0, 0, 0, 0] }

end Osdp
