import Osdp.Analysis.RoundTrip
import Osdp.Library.Shift
import Mathlib.Tactic.IntervalCases

/-!
# What the CRC detects

The loop of `CRC16` works on whole octets with a shortcut. It is a shift register that takes in the
bits one by one (`crcStep_run`), as the bit-serial definition of CRC-16/AUG-CCITT does
(`crcStep_serial`). Two strings therefore have the same CRC only if the register, started from zero, is
brought back to zero by the bits in which they differ; a burst no longer than the register never does
that (`crc16_ne_of_burst`). A frame whose code and data were hit by such a burst is
therefore returned with a bad check.
-/

set_option autoImplicit false

namespace Osdp

open ShiftRegister (run)

/-- The bits of an octet, the most significant first. -/
def octetBits (c : UInt8) : List Bool := (List.range 8).map c.toBitVec.getMsbD

/-- The bits of a string in the order of the line. -/
def bits (b : Octets) : List Bool := b.flatMap octetBits

/-- The bits of the first octet come first. -/
@[simp] theorem bits_cons (c : UInt8) (b : Octets) : bits (c :: b) = octetBits c ++ bits b := rfl

/-- The bits in which two strings differ lie in a window of this many. -/
def BurstApart (n : ℕ) (x y : Octets) : Prop :=
  ∃ k, ∀ i, (bits x).getD i false ≠ (bits y).getD i false → k ≤ i ∧ i < k + n

/-! ## The loop and the register -/

/-- The polynomial of the CRC, without its highest term. -/
def crcFeedback : BitVec 16 := 0x1021#16

/-- The octet that leaves the register. -/
def highOctet (crc : UInt16) : UInt8 := ⟨crc.toBitVec.extractLsb' 8 8⟩

/-- What the loop does to an octet depends on that octet and the one that leaves. -/
theorem crcStep_eq (crc : UInt16) (c : UInt8) :
    crcStep crc c = (crc <<< 8) ^^^ crcStep 0 (highOctet crc ^^^ c) := by
  have hhigh : ∀ j (h : j < 8), (highOctet crc).toBitVec[j] = crc.toBitVec[8 + j] := by
    intro j h
    simp [highOctet, BitVec.getLsbD_eq_getElem (show 8 + j < 16 by omega)]
  apply UInt16.toBitVec_inj.mp
  apply BitVec.eq_of_getLsbD_eq
  intro i hi
  simp only [crcStep]
  interval_cases i <;> simp [hhigh]

/-- The table's row for an octet is its eight bits shifted in. -/
theorem crcStep_zero (x : UInt8) :
    (crcStep 0 x).toBitVec = run crcFeedback 0#16 (octetBits x) := by
  have hall : ∀ n : Fin 256, (crcStep 0 (UInt8.ofNat n)).toBitVec =
      run crcFeedback 0#16 (octetBits (UInt8.ofNat n)) := by
    decide +kernel
  have hx : x = UInt8.ofNat (⟨x.toNat, x.toNat_lt⟩ : Fin 256) := by simp
  rw [hx]
  exact hall _

/-- **One octet of the loop is eight bits of the register.** -/
theorem crcStep_run (crc : UInt16) (c : UInt8) :
    (crcStep crc c).toBitVec = run crcFeedback crc.toBitVec (octetBits c) := by
  have hbits : List.zipWith xor (octetBits c) ((List.range 8).map crc.toBitVec.getMsbD) =
      octetBits (highOctet crc ^^^ c) := by
    rw [octetBits, octetBits, List.zipWith_map, List.zipWith_self]
    apply List.map_congr_left
    intro i hi
    have hi8 : i < 8 := List.mem_range.mp hi
    have hplace : 16 - 1 - i = 8 + (8 - 1 - i) := by omega
    have hin : 8 - 1 - i < 8 := by omega
    rw [UInt8.toBitVec_xor, BitVec.getMsbD_xor, Bool.xor_comm]
    congr 1
    simp only [BitVec.getMsbD_eq_getLsbD, highOctet, BitVec.getLsbD_extractLsb', hplace, hin, hi8,
      show i < 16 by omega, decide_true, Bool.true_and]
  have hlen : (octetBits c).length = 8 := by simp [octetBits]
  have hrun := ShiftRegister.run_eq_shiftLeft_xor crcFeedback crc.toBitVec (octetBits c)
  rw [hlen, hbits] at hrun
  rw [crcStep_eq, UInt16.toBitVec_xor, crcStep_zero, hrun]
  rfl

/-- The CRC is the register run over all bits. -/
theorem crc16_run (b : Octets) :
    (crc16 b).toBitVec = run crcFeedback crcInit.toBitVec (bits b) := by
  have hfold : ∀ crc : UInt16, (b.foldl crcStep crc).toBitVec = run crcFeedback crc.toBitVec (bits b) := by
    induction b with
    | nil => exact fun _ => rfl
    | cons c b ih =>
      intro crc
      rw [List.foldl_cons, ih, crcStep_run, bits_cons, ShiftRegister.run_append]
  exact hfold crcInit

/-! ## The bit-serial definition -/

/-- The register of CRC-16/AUG-CCITT after one bit: it moves up one place, and the polynomial is added
when the bit shifted out is not the bit taken in. -/
def crcSerialBit (register : ℕ) (bit : Bool) : ℕ :=
  let shifted := register * 2 % 2 ^ 16
  if register.testBit 15 ≠ bit then shifted ^^^ 0x1021 else shifted

/-- CRC-16/AUG-CCITT as it is catalogued: polynomial 0x1021, initial value 0x1D0F, each octet taken in
from its most significant bit, nothing reflected and nothing added at the end. -/
def crcSerial (b : Octets) : ℕ :=
  b.foldl (fun register c =>
    (List.range 8).foldl (fun r i => crcSerialBit r (c.toNat.testBit (7 - i))) register) 0x1D0F

/-- A step of the register, in numbers. -/
theorem step_crcFeedback (r : BitVec 16) (bit : Bool) :
    (ShiftRegister.step crcFeedback r bit).toNat = crcSerialBit r.toNat bit := by
  have hmsb : r.msb = r.toNat.testBit 15 := by rw [BitVec.msb_eq_getLsbD_last]; rfl
  have hshift : (r <<< 1).toNat = r.toNat * 2 % 2 ^ 16 := by
    rw [BitVec.toNat_shiftLeft, Nat.shiftLeft_eq, pow_one]
  rw [ShiftRegister.step, BitVec.toNat_xor, hshift, hmsb, crcSerialBit]
  by_cases hbit : r.toNat.testBit 15 = bit
  · simp [hbit]
  · have hout : (r.toNat.testBit 15 ^^ bit) = true := bne_iff_ne.mpr hbit
    rw [if_pos hout, if_pos hbit]
    rfl

/-- A run of it, in numbers. -/
theorem run_crcFeedback (r : BitVec 16) (bs : List Bool) :
    (run crcFeedback r bs).toNat = bs.foldl crcSerialBit r.toNat := by
  induction bs generalizing r with
  | nil => rfl
  | cons bit bs ih => rw [ShiftRegister.run_cons, ih, step_crcFeedback, List.foldl_cons]

/-- Bits are sent from the highest. -/
theorem octetBits_eq (c : UInt8) :
    octetBits c = (List.range 8).map fun i => c.toNat.testBit (7 - i) := by
  apply List.map_congr_left
  intro i hi
  have hi8 : i < 8 := List.mem_range.mp hi
  rw [BitVec.getMsbD_eq_getLsbD, decide_eq_true hi8, Bool.true_and]
  rfl

/-- One octet of the loop is eight bits of the definition. -/
theorem crcStep_serial (crc : UInt16) (c : UInt8) :
    (crcStep crc c).toNat =
      (List.range 8).foldl (fun r i => crcSerialBit r (c.toNat.testBit (7 - i))) crc.toNat := by
  have hrun := congrArg BitVec.toNat (crcStep_run crc c)
  rw [run_crcFeedback, octetBits_eq, List.foldl_map] at hrun
  exact hrun

/-- **The loop computes CRC-16/AUG-CCITT.** -/
theorem crc16_toNat (b : Octets) : (crc16 b).toNat = crcSerial b := by
  have hfold : ∀ crc : UInt16, (b.foldl crcStep crc).toNat =
      b.foldl (fun register c =>
        (List.range 8).foldl (fun r i => crcSerialBit r (c.toNat.testBit (7 - i))) register)
        crc.toNat := by
    induction b with
    | nil => exact fun _ => rfl
    | cons c b ih =>
      intro crc
      rw [List.foldl_cons, ih, crcStep_serial, List.foldl_cons]
  exact hfold crcInit

/-- The published check value. -/
example : crcSerial [0x31, 0x32, 0x33, 0x34, 0x35, 0x36, 0x37, 0x38, 0x39] = 0xE5CC := by
  decide +kernel

/-! ## Bursts -/

/-- An octet has eight bits. -/
@[simp] theorem length_octetBits (c : UInt8) : (octetBits c).length = 8 := by simp [octetBits]

/-- The bits of an octet tell it. -/
theorem octetBits_inj {c d : UInt8} (h : octetBits c = octetBits d) : c = d := by
  apply UInt8.toBitVec_inj.mp
  apply BitVec.eq_of_getMsbD_eq
  intro i hi
  have hget := congrArg (fun l => l.getD i false) h
  simpa [octetBits, hi] using hget

/-- The number of bits. -/
@[simp] theorem length_bits (b : Octets) : (bits b).length = 8 * b.length := by
  induction b with
  | nil => rfl
  | cons c b ih =>
    rw [bits_cons, List.length_append, length_octetBits, ih, List.length_cons]
    omega

/-- Bits follow the octets. -/
theorem bits_append (x y : Octets) : bits (x ++ y) = bits x ++ bits y := List.flatMap_append

/-- The bits of as many octets tell them. -/
theorem bits_inj {x y : Octets} (hlen : x.length = y.length) (h : bits x = bits y) : x = y := by
  induction x generalizing y with
  | nil =>
    cases y with
    | nil => rfl
    | cons d y => cases hlen
  | cons c x ih =>
    cases y with
    | nil => cases hlen
    | cons d y =>
      have hoctet : (octetBits c).length = (octetBits d).length := by simp
      obtain ⟨hhead, htail⟩ := List.append_inj h hoctet
      rw [octetBits_inj hhead, ih (Nat.succ.inj hlen) htail]

/-- **Strings a short burst apart have different CRCs.** -/
theorem crc16_ne_of_burst {x y : Octets} (hlen : x.length = y.length) (hne : x ≠ y)
    (hburst : BurstApart 16 x y) : crc16 x ≠ crc16 y := by
  obtain ⟨k, hk⟩ := hburst
  have hbits : (bits x).length = (bits y).length := by rw [length_bits, length_bits, hlen]
  have hdiff : ∀ i, (List.zipWith xor (bits x) (bits y)).getD i false = true ↔
      (bits x).getD i false ≠ (bits y).getD i false := by
    intro i
    by_cases hi : i < (bits x).length
    · have hi' : i < (bits y).length := hbits ▸ hi
      rw [List.getD_eq_getElem _ _ (by simp only [List.length_zipWith]; omega), List.getElem_zipWith,
        List.getD_eq_getElem _ _ hi, List.getD_eq_getElem _ _ hi']
      simp
    · rw [List.getD_eq_default _ _ (by simp only [List.length_zipWith]; omega),
        List.getD_eq_default _ _ (by omega), List.getD_eq_default _ _ (by omega)]
      simp
  have hsome : ∃ i, (List.zipWith xor (bits x) (bits y)).getD i false = true := by
    by_contra hnone
    rw [not_exists] at hnone
    refine hne (bits_inj hlen (List.ext_getElem hbits fun i hi hi' => ?_))
    have hsame := mt (hdiff i).mpr (hnone i)
    rw [not_not, List.getD_eq_getElem _ _ hi, List.getD_eq_getElem _ _ hi'] at hsame
    exact hsame
  intro heq
  have hzero := ShiftRegister.run_xor_run crcFeedback hbits crcInit.toBitVec
  rw [← crc16_run, ← crc16_run, heq, BitVec.xor_self] at hzero
  exact ShiftRegister.run_burst_ne_zero (by decide) (fun i hi => hk i ((hdiff i).mp hi)) hsome
    hzero.symm

/-- A window of the whole is a window of a part. -/
theorem BurstApart.part {n : ℕ} {u x y v : Octets} (hlen : x.length = y.length)
    (h : BurstApart n (u ++ x ++ v) (u ++ y ++ v)) : BurstApart n x y := by
  obtain ⟨k, hk⟩ := h
  refine ⟨k - (bits u).length, fun i hi => ?_⟩
  have hin : i < (bits x).length := by
    by_contra hout
    rw [length_bits] at hout
    rw [List.getD_eq_default _ _ (by rw [length_bits]; omega),
      List.getD_eq_default _ _ (by rw [length_bits]; omega)] at hi
    exact hi rfl
  have hin' : i < (bits y).length := by
    rw [length_bits] at hin ⊢
    omega
  have hget : ∀ z : Octets, i < (bits z).length →
      (bits (u ++ z ++ v)).getD ((bits u).length + i) false = (bits z).getD i false := by
    intro z hz
    rw [bits_append, bits_append, List.append_assoc, List.getD_append_right _ _ _ _ (by omega),
      Nat.add_sub_cancel_left, List.getD_append _ _ _ _ hz]
  have hwin := hk ((bits u).length + i) (by rwa [hget x hin, hget y hin'])
  omega

/-! ## Frames -/

/-- A string that differs from another in one part of it only. -/
theorem exists_part {u x v hit : Octets} (hlen : hit.length = (u ++ x ++ v).length)
    (h : ∀ i, hit[i]? ≠ (u ++ x ++ v)[i]? → u.length ≤ i ∧ i < u.length + x.length) :
    ∃ y, y.length = x.length ∧ hit = u ++ y ++ v := by
  simp only [List.length_append] at hlen
  have hsame : ∀ i, i < u.length ∨ u.length + x.length ≤ i → hit[i]? = (u ++ x ++ v)[i]? := by
    intro i hi
    by_contra hne
    have := h i hne
    omega
  have hfront : hit.take u.length = u := by
    apply List.ext_getElem?
    intro i
    by_cases hi : i < u.length
    · rw [List.getElem?_take_of_lt hi, hsame i (.inl hi), List.append_assoc,
        List.getElem?_append_left hi]
    · rw [List.getElem?_eq_none (by rw [List.length_take]; omega), List.getElem?_eq_none (by omega)]
  have hback : hit.drop (u.length + x.length) = v := by
    apply List.ext_getElem?
    intro i
    rw [List.getElem?_drop, hsame _ (.inr (by omega)),
      List.getElem?_append_right (by rw [List.length_append]; omega), List.length_append,
      Nat.add_sub_cancel_left]
  refine ⟨(hit.drop u.length).take x.length, by rw [List.length_take, List.length_drop]; omega, ?_⟩
  rw [List.append_assoc]
  conv_lhs => rw [← List.take_append_drop u.length hit, hfront]
  congr 1
  rw [← hback, ← List.drop_drop, List.take_append_drop]

namespace Frame

/-- The mark octet, if there is one. -/
def leader (f : Frame) : Octets := if f.hasMark then [mark] else []

/-- A frame on the line: leader, body, check. -/
theorem wire_eq (f : Frame) : f.wire = f.leader ++ f.appendBody [] ++ f.checkOctets := by
  rw [wire, body, leader, List.append_assoc]

/-- Another code and other data of the same length in the place of a frame's own. -/
theorem rewritten {f : Frame} (code : UInt8) {data : Octets} (hlen : data.length = f.data.length) :
    { f with code := code, data := data }.wire =
      f.leader ++ (f.header ++ securityOctets f.security ++ code :: data) ++ f.checkOctets ∧
    { f with code := code, data := data }.len = f.len := by
  have hlen' : { f with code := code, data := data }.len = f.len := by simp only [len, hlen]
  have hheader : { f with code := code, data := data }.header = f.header := by
    simp only [header, hlen']
  refine ⟨?_, hlen'⟩
  rw [wire_eq, appendBody_eq, hheader]
  rfl

end Frame

/-- A frame with a CRC whose code and data are hit by a short burst has a bad check. -/
theorem decode_hit {buf hit : Octets} {f : Frame} (hdecode : decode buf = .ok f)
    (hscheme : f.control.scheme = .crc16) (hlen : hit.length = buf.length) (hne : hit ≠ buf)
    (hburst : BurstApart 16 buf hit)
    (hwhere : ∀ i, hit[i]? ≠ buf[i]? →
      f.dataSlice.start - 1 ≤ i ∧ i < f.dataSlice.start + f.dataSlice.length) :
    ∃ code data, decode hit = .badCheck { f with code := code, data := data } := by
  have hframe : (decode buf).frame? = some f := by rw [hdecode]; rfl
  obtain ⟨hspelled, hwire, hmax⟩ := decode_sound hframe
  have hbuf : buf = f.leader ++ (f.header ++ Frame.securityOctets f.security) ++ f.code :: f.data ++
      (f.checkOctets ++ buf.drop f.wireLen) := by
    conv_lhs => rw [← List.take_append_drop f.wireLen buf, hwire, f.wire_eq, f.appendBody_eq]
    simp only [List.append_assoc]
  generalize buf.drop f.wireLen = rest at hbuf
  have hstart : (f.leader ++ (f.header ++ Frame.securityOctets f.security)).length + 1 =
      f.dataSlice.start := by
    simp only [List.length_append, Frame.length_securityOctets, Frame.header, List.length_cons,
      List.length_nil, Frame.leader, Frame.dataSlice, headerSize]
    split <;> simp only [List.length_cons, List.length_nil] <;> omega
  obtain ⟨y, hy, hhit⟩ := exists_part (hbuf ▸ hlen) (fun i hi => by
    have hin := hwhere i (by rwa [← hbuf] at hi)
    have hdata : f.dataSlice.length = f.data.length := rfl
    rw [List.length_cons]
    omega)
  obtain ⟨code, data, rfl⟩ : ∃ code data, y = code :: data :=
    List.exists_cons_of_ne_nil (by rintro rfl; simp at hy)
  have hdata : data.length = f.data.length := by simpa using hy
  obtain ⟨hgwire, hglen⟩ := Frame.rewritten code hdata
  refine ⟨code, data, ?_⟩
  have hlegible : { f with code := code, data := data }.Legible :=
    { address := hspelled.address, blockLen := hspelled.blockLen, len := hglen ▸ hmax
      check := by simp [hscheme], declared := hspelled.declared }
  have hbody : { f with code := code, data := data }.appendBody [] =
      f.header ++ Frame.securityOctets f.security ++ code :: data := by
    rw [Frame.appendBody_eq]
    simp only [Frame.header, hglen]
  -- the octets the check is computed over are a part of what the burst hit
  have hcrc : crc16 (f.appendBody []) ≠ crc16 ({ f with code := code, data := data }.appendBody []) := by
    rw [hbody, f.appendBody_eq]
    refine crc16_ne_of_burst (by simp [hdata]) ?_ ?_
    · intro heq
      refine hne ?_
      rw [hhit, hbuf, List.append_cancel_left heq]
    · refine BurstApart.part (u := f.leader) (v := f.checkOctets ++ rest) (by simp [hdata]) ?_
      rw [hbuf, hhit] at hburst
      simpa only [List.append_assoc] using hburst
  have hbad : { f with code := code, data := data }.checkOK = false := by
    have hgood := decode_checkOK hdecode
    simp only [Frame.checkOK, Frame.computeCheck, hscheme, beq_iff_eq] at hgood
    simp only [Frame.checkOK, Frame.computeCheck, hscheme, hgood]
    exact beq_false_of_ne hcrc
  have hshape : hit = { f with code := code, data := data }.wire ++ rest := by
    rw [hhit, hgwire]
    simp only [List.append_assoc]
  rw [hshape, Frame.decode_legible hlegible, hbad]
  rfl

/-- **The CRC detects every burst up to its width.** Strings of one length that differ within sixteen
consecutive bits have different CRCs; and octets that decode into a frame with a CRC decode into one
with a bad check after any such corruption of the frame's code and data. -/
theorem bursts_detected :
    (∀ x y : Octets, x.length = y.length → x ≠ y → BurstApart 16 x y → crc16 x ≠ crc16 y) ∧
    ∀ (buf hit : Octets) (f : Frame), decode buf = .ok f → f.control.scheme = .crc16 →
      hit.length = buf.length → hit ≠ buf → BurstApart 16 buf hit →
      (∀ i, hit[i]? ≠ buf[i]? →
        f.dataSlice.start - 1 ≤ i ∧ i < f.dataSlice.start + f.dataSlice.length) →
      ∃ code data, decode hit = .badCheck { f with code := code, data := data } :=
  ⟨fun _ _ => crc16_ne_of_burst, fun _ _ _ => decode_hit⟩

/-- A poll with a CRC. -/
def crcPoll : Frame :=
  Frame.sealCheck {
    isReply := false, address := 1, control := newControl 1 .crc16 false, code := 0x60, data := [] }

/-- The octets of the poll with the high half of its code inverted. -/
def crcPollHit : Octets := [0x53, 0x01, 0x08, 0x00, 0x05, 0x90, 0x8B, 0x33]

/-- A poll hit by a burst in its code and data. -/
theorem bursts_detected_poll :
    decode crcPoll.wire = .ok crcPoll ∧
      ∃ code data, decode crcPollHit = .badCheck { crcPoll with code := code, data := data } := by
  have hdecode : decode crcPoll.wire = .ok crcPoll := by decide +kernel
  refine ⟨hdecode, bursts_detected.2 crcPoll.wire crcPollHit crcPoll hdecode (by decide) (by decide)
    (by decide) ⟨40, fun i hi => ?_⟩ fun i hi => ?_⟩
  · have hbits : ∀ i < 64, (bits crcPoll.wire).getD i false ≠ (bits crcPollHit).getD i false →
        40 ≤ i ∧ i < 40 + 16 := by decide +kernel
    refine hbits i ?_ hi
    by_contra hout
    have hlen : (bits crcPoll.wire).length = 64 ∧ (bits crcPollHit).length = 64 := by decide +kernel
    refine hi ?_
    rw [List.getD_eq_default _ _ (by omega), List.getD_eq_default _ _ (by omega)]
  · have hoctets : ∀ i < 8, crcPollHit[i]? ≠ crcPoll.wire[i]? →
        crcPoll.dataSlice.start - 1 ≤ i ∧
          i < crcPoll.dataSlice.start + crcPoll.dataSlice.length := by decide +kernel
    refine hoctets i ?_ hi
    by_contra hout
    have hlen : crcPollHit.length = 8 ∧ crcPoll.wire.length = 8 := by decide +kernel
    refine hi ?_
    rw [List.getElem?_eq_none (by omega), List.getElem?_eq_none (by omega)]

end Osdp
