import Osdp.Analysis.WireFormat

/-!
# Both directions of the codec

What `decode` accepted, with or without its error check, `append` writes back octet for octet:
no field is normalised on the way. In the other direction a sealed frame comes back as it was
sent exactly when it carries a security block if and only if its control octet says so, which
`representable` does not look at.
-/

set_option autoImplicit false

namespace Osdp

/-! ## Numbers and flags -/

/-- Two octets as one number. -/
theorem octet_or_shiftLeft (low high : UInt8) :
    low.toNat ||| (high.toNat <<< 8) = low.toNat + 256 * high.toNat := by
  have hlow := low.toNat_lt
  rw [Nat.or_comm, ← Nat.shiftLeft_add_eq_or_of_lt (by omega), Nat.shiftLeft_eq]
  omega

/-- The octets a length field was spelled with are those its value is written with. -/
theorem ofNat_octets (low high : UInt8) :
    UInt8.ofNat (low.toNat + 256 * high.toNat) = low ∧
      UInt8.ofNat ((low.toNat + 256 * high.toNat) >>> 8) = high := by
  have hlow := low.toNat_lt
  have hhigh := high.toNat_lt
  constructor
  · apply UInt8.toNat_inj.mp
    rw [UInt8.toNat_ofNat']
    omega
  · apply UInt8.toNat_inj.mp
    rw [UInt8.toNat_ofNat', Nat.shiftRight_eq_div_pow]
    omega

/-- And apart again. -/
theorem toUInt8_octets (low high : UInt8) :
    (low.toUInt16 ||| (high.toUInt16 <<< 8)).toUInt8 = low ∧
      ((low.toUInt16 ||| (high.toUInt16 <<< 8)) >>> 8).toUInt8 = high := by
  have hlow := low.toNat_lt
  have hhigh := high.toNat_lt
  have hvalue : (low.toUInt16 ||| (high.toUInt16 <<< 8)).toNat = low.toNat + 256 * high.toNat := by
    rw [← octet_or_shiftLeft]
    simp only [UInt16.toNat_or, UInt8.toNat_toUInt16, UInt16.toNat_shiftLeft, UInt16.reduceToNat,
      Nat.reduceMod]
    rw [Nat.mod_eq_of_lt (by rw [Nat.shiftLeft_eq]; omega)]
  constructor
  · apply UInt8.toNat_inj.mp
    rw [UInt16.toNat_toUInt8, hvalue]
    omega
  · apply UInt8.toNat_inj.mp
    simp only [UInt16.toNat_toUInt8, UInt16.toNat_shiftRight, hvalue, UInt16.reduceToNat,
      Nat.reduceMod, Nat.shiftRight_eq_div_pow]
    omega

/-- The address and the direction read from an octet spell that octet. -/
theorem address_octet (a : UInt8) :
    Address.valid (a &&& ~~~replyFlag) = true ∧
      (if decide (a &&& replyFlag ≠ 0) then (a &&& ~~~replyFlag) ||| replyFlag
        else a &&& ~~~replyFlag) = a := by
  have hall : ∀ n : Fin 256,
      Address.valid (UInt8.ofNat n &&& ~~~replyFlag) = true ∧
        (if decide (UInt8.ofNat n &&& replyFlag ≠ 0) then
          (UInt8.ofNat n &&& ~~~replyFlag) ||| replyFlag
        else UInt8.ofNat n &&& ~~~replyFlag) = UInt8.ofNat n := by
    decide +kernel
  have ha : a = UInt8.ofNat (⟨a.toNat, a.toNat_lt⟩ : Fin 256) := by simp
  rw [ha]
  exact hall _

/-! ## What the decoder consumed -/

variable {rest buf : Octets} {f : Frame}

/-- The decoded block is spelled by the octets it was read from. -/
theorem decodeSecurityBlock_sound {remainder : Octets} {sb : SecurityBlock}
    (h : decodeSecurityBlock rest = .ok (sb, remainder)) :
    rest = Frame.securityOctets (some sb) ++ remainder ∧
      SecurityBlock.wireLen (some sb) ≤ maxSecurityBlockSize := by
  obtain ⟨l, t, tail, rfl, hl2, -, rfl, rfl, hlen⟩ := decodeSecurityBlock_eq h
  have hl := l.toNat_lt
  obtain ⟨n, hn⟩ : ∃ n, l.toNat = n + 2 := ⟨l.toNat - 2, by omega⟩
  refine ⟨?_, by rw [hlen]; unfold maxSecurityBlockSize; omega⟩
  rw [Frame.securityOctets, hlen, UInt8.ofNat_toNat, hn]
  simp

/-- What the error check holds spells the octets it was read from. -/
theorem checkOctets_sound {check : Octets} (hlen : check.length = f.control.scheme.size)
    (hf : f.check = match f.control.scheme with
      | .crc16 => (check.getD 0 0).toUInt16 ||| ((check.getD 1 0).toUInt16 <<< 8)
      | .checksum => (check.getD 0 0).toUInt16) : f.checkOctets = check := by
  unfold Frame.checkOctets
  cases hs : f.control.scheme with
  | crc16 =>
    simp only [hs] at hf hlen ⊢
    obtain ⟨low, high, rfl⟩ := List.length_eq_two.mp hlen
    obtain ⟨hlow, hhigh⟩ := toUInt8_octets low high
    simp only [List.getD_cons_zero, List.getD_cons_succ] at hf
    rw [hf, hlow, hhigh]
  | checksum =>
    simp only [hs] at hf hlen ⊢
    obtain ⟨low, rfl⟩ := List.length_eq_one_iff.mp hlen
    rw [hf]
    simp

/-- The tail of a decoded frame is spelled by the octets it was read from, and the frame is
refused exactly when its check is not the one computed for it. -/
theorem decodeTail_sound {g : Frame} (h : (decodeTail g rest).frame? = some f) :
    rest = f.code :: f.data ++ f.checkOctets ∧
      f = { g with code := f.code, data := f.data, check := f.check } ∧
      (decodeTail g rest = .ok f ↔ f.checkOK = true) := by
  unfold decodeTail at h ⊢
  simp only at h ⊢
  split at h
  · cases h
  · rename_i hlen
    rw [if_neg hlen]
    rw [frame?_checked, Option.some.injEq] at h
    rw [h]
    have hcontrol : f.control = g.control := by rw [← h]
    have hcode : f.code = rest.headD 0 := by rw [← h]
    have hdata : f.data = (rest.take (rest.length - g.control.scheme.size)).drop 1 := by rw [← h]
    have hcheck : f.checkOctets = rest.drop (rest.length - g.control.scheme.size) := by
      apply checkOctets_sound
      · rw [hcontrol, List.length_drop]
        omega
      · subst h
        rfl
    refine ⟨?_, by rw [← h], ?_⟩
    · rw [hcode, hdata, hcheck]
      obtain ⟨b, tail, rfl⟩ : ∃ b tail, rest = b :: tail :=
        List.exists_cons_of_ne_nil (by rintro rfl; simp at hlen)
      obtain ⟨n, hn⟩ : ∃ n, (b :: tail).length - g.control.scheme.size = n + 1 :=
        ⟨(b :: tail).length - g.control.scheme.size - 1, by omega⟩
      rw [hn]
      simp
    · cases f.checkOK <;> simp

/-- What decoding a frame's octets says of them and of the frame. -/
structure Spelled (body : Octets) (f : Frame) : Prop where
  octets : body.take f.len = f.body
  address : Address.valid f.address = true
  blockLen : SecurityBlock.wireLen f.security ≤ maxSecurityBlockSize
  declared : f.security.isSome = f.control.hasSecurityBlock

/-- The five octets of the header as the encoder writes them. -/
theorem Frame.body_eq (f : Frame) :
    f.body = [som, if f.isReply then f.address ||| replyFlag else f.address, UInt8.ofNat f.len,
      UInt8.ofNat (f.len >>> 8), f.control.octet] ++
        (Frame.securityOctets f.security ++ (f.code :: f.data ++ f.checkOctets)) := by
  simp only [Frame.body, Frame.appendBody_eq, Frame.header, List.append_assoc]

/-- A header and what follows it make the frame their parts were read into. -/
theorem spelled_of_parts {a low high c : UInt8} {tail : Octets}
    (hreply : f.isReply = decide (a &&& replyFlag ≠ 0)) (haddr : f.address = a &&& ~~~replyFlag)
    (hcontrol : f.control = ⟨c⟩) (hlen : f.len = low.toNat + 256 * high.toNat)
    (hblock : SecurityBlock.wireLen f.security ≤ maxSecurityBlockSize)
    (hdecl : f.security.isSome = f.control.hasSecurityBlock)
    (htail : tail.take (f.len - headerSize) =
      Frame.securityOctets f.security ++ (f.code :: f.data ++ f.checkOctets)) :
    Spelled (som :: a :: low :: high :: c :: tail) f := by
  obtain ⟨hvalid, hoctet⟩ := address_octet a
  obtain ⟨hlow, hhigh⟩ := ofNat_octets low high
  refine ⟨?_, by rw [haddr]; exact hvalid, hblock, hdecl⟩
  obtain ⟨n, hn⟩ : ∃ n, f.len = n + headerSize := ⟨f.len - headerSize, by unfold Frame.len; omega⟩
  rw [hn, Nat.add_sub_cancel] at htail
  rw [f.body_eq, ← htail, hreply, haddr, hoctet, hlen, hlow, hhigh, hcontrol, ← hlen, hn]
  rfl

/-- **What was decoded after the mark is what the encoder writes after it.** -/
theorem decodeBody_sound {hasMark : Bool} {body : Octets}
    (h : (decodeBody hasMark body).frame? = some f) :
    Spelled body f ∧ (decodeBody hasMark body = .ok f ↔ f.checkOK = true) := by
  obtain ⟨-, hlen, -⟩ := decodeBody_frame h
  unfold decodeBody at h ⊢
  simp only at h ⊢
  split at h
  · cases h
  · split at h
    · cases h
    · split at h
      · cases h
      · rename_i h0 hsom h5
        rw [if_neg h0, if_neg hsom, if_neg h5]
        split at h
        · cases h
        · split at h
          · cases h
          · rename_i hmin hall
            rw [if_neg hmin, if_neg hall]
            obtain ⟨a, low, high, c, tail, rfl⟩ :
                ∃ a low high c tail, body = som :: a :: low :: high :: c :: tail := by
              rcases body with _ | ⟨s, _ | ⟨a, _ | ⟨low, _ | ⟨high, _ | ⟨c, tail⟩⟩⟩⟩⟩ <;>
                simp_all [headerSize]
            have hlen : f.len = low.toNat + 256 * high.toNat := by
              rw [hlen, ← octet_or_shiftLeft]
              rfl
            have hrest : ((som :: a :: low :: high :: c :: tail).take f.len).drop headerSize =
                tail.take (f.len - headerSize) := by
              rw [List.drop_take]
              rfl
            have htotal : ((som :: a :: low :: high :: c :: tail).getD 2 0).toNat |||
                (((som :: a :: low :: high :: c :: tail).getD 3 0).toNat <<< 8) = f.len := by
              rw [hlen, ← octet_or_shiftLeft]
              rfl
            rw [htotal, hrest] at h ⊢
            split at h
            · rename_i hsec
              rw [if_pos hsec]
              split at h
              · cases h
              · rename_i sb remainder hsb
                obtain ⟨hspell, hblock⟩ := decodeSecurityBlock_sound hsb
                obtain ⟨htail, hf, hok⟩ := decodeTail_sound h
                refine ⟨?_, hok⟩
                rw [htail] at hspell
                have hs : f.security = some sb := by rw [hf]
                refine spelled_of_parts (by rw [hf]; rfl) (by rw [hf]; rfl) (by rw [hf]; rfl) hlen
                  (hs ▸ hblock) ?_ (hs ▸ hspell)
                rw [hf]
                exact hsec.symm
            · rename_i hsec
              rw [if_neg hsec]
              obtain ⟨htail, hf, hok⟩ := decodeTail_sound h
              refine ⟨?_, hok⟩
              have hs : f.security = none := by rw [hf]
              refine spelled_of_parts (by rw [hf]; rfl) (by rw [hf]; rfl) (by rw [hf]; rfl) hlen ?_ ?_
                ?_
              · rw [hs]
                exact Nat.zero_le _
              · rw [hf]
                exact (Bool.not_eq_true _ ▸ hsec).symm
              · rw [hs]
                exact htail

/-! ## Octets to frame and back -/

/-- The frame proper: what is left of the octets without a mark in front. -/
def afterMark (buf : Octets) : Octets := if buf.head? = some mark then buf.drop 1 else buf

/-- Decoding, after the mark. -/
theorem decode_eq (buf : Octets) :
    decode buf = decodeBody (decide (buf.head? = some mark)) (afterMark buf) := by
  cases buf with
  | nil => rfl
  | cons b body => by_cases hb : b = mark <;> simp [decode, afterMark, hb]

/-- A decoded frame's octets are the front of the buffer. -/
theorem decode_sound (h : (decode buf).frame? = some f) :
    Spelled (afterMark buf) f ∧ buf.take f.wireLen = f.wire ∧ f.len ≤ maxFrameSize := by
  rw [decode_eq] at h
  obtain ⟨hmark, hlen, -⟩ := decodeBody_frame h
  obtain ⟨hspelled, -⟩ := decodeBody_sound h
  refine ⟨hspelled, ?_, ?_⟩
  · have hoctets := hspelled.octets
    unfold afterMark at hoctets
    rw [Frame.wireLen, Frame.wire, hmark]
    by_cases hb : buf.head? = some mark
    · obtain ⟨b, body, rfl⟩ : ∃ b body, buf = b :: body :=
        List.exists_cons_of_ne_nil (by rintro rfl; simp at hb)
      obtain rfl : b = mark := by simpa using hb
      simpa using hoctets
    · simpa [hb] using hoctets
  · have hlow := ((afterMark buf).getD 2 0).toNat_lt
    have hhigh := ((afterMark buf).getD 3 0).toNat_lt
    rw [hlen, bodyLength, octet_or_shiftLeft]
    unfold maxFrameSize
    omega

/-- The encoder takes every frame the decoder gives out. -/
theorem append_of_decode (h : (decode buf).frame? = some f) :
    f.append [] = .ok (buf.take f.wireLen) := by
  obtain ⟨hspelled, hwire, hlen⟩ := decode_sound h
  rw [hwire]
  exact Frame.append_eq_wire hspelled.address hspelled.blockLen hlen

/-- The octets a sender puts behind `covered`.
GOLINE: internal/frame/encode.go:33-38, 95-101 -/
def checkOctetsOf (scheme : Scheme) (covered : Octets) : Octets :=
  match scheme with
  | .crc16 => [(crc16 covered).toUInt8, (crc16 covered >>> 8).toUInt8]
  | .checksum => [checksum covered]

/-- A sealed frame has the check of its body. -/
theorem Frame.checkOctets_sealCheck (f : Frame) :
    f.sealCheck.checkOctets = checkOctetsOf f.control.scheme (f.appendBody []) := by
  unfold Frame.checkOctets checkOctetsOf
  cases hs : f.control.scheme <;> simp [Frame.sealCheck, Frame.computeCheck, hs]

/-- Where the octets before the check end. -/
theorem Frame.take_body (f : Frame) :
    f.body.take (f.len - f.control.scheme.size) = f.appendBody [] ∧
      f.body.drop (f.len - f.control.scheme.size) = f.checkOctets := by
  have hcut : f.len - f.control.scheme.size = (f.appendBody []).length := by
    have := f.length_body
    rw [Frame.body, List.length_append, f.length_checkOctets] at this
    omega
  rw [hcut, Frame.body, List.take_left, List.drop_left]
  exact ⟨rfl, rfl⟩

/-- A decoded frame passes when the check on the wire is the one a sender would have written:
the sealed frame then spells the same octets, and they decode into one frame only. -/
theorem decode_ok_iff_checkOctets (h : (decode buf).frame? = some f) :
    decode buf = .ok f ↔ f.checkOctets = f.sealCheck.checkOctets := by
  obtain ⟨hspelled, hwire, hlen⟩ := decode_sound h
  constructor
  · intro hok
    have hsealed : f.sealCheck = f := by
      have hcheck := decode_checkOK hok
      simp only [Frame.checkOK, beq_iff_eq] at hcheck
      rw [Frame.sealCheck, ← hcheck]
    rw [hsealed]
  · intro hcheck
    have hsend : f.sealCheck.Sendable :=
      ⟨hspelled.address, hspelled.blockLen, hlen, beq_self_eq_true _, hspelled.declared⟩
    have hsame : f.sealCheck.wire = buf.take f.wireLen := by
      rw [hwire]
      simp only [Frame.wire, Frame.body, ← hcheck]
      rfl
    have hdec := Frame.decode_wire hsend (buf.drop f.wireLen)
    rw [hsame, List.take_append_drop] at hdec
    rw [hdec] at h ⊢
    rw [Option.some.inj h]

/-- **Whatever the decoder accepts the encoder reproduces.** The frame is as long as its length
field says, and it comes without error exactly when the check on the wire is that of the
octets from the start of message to the end of the data. -/
theorem decoded_octets_reproduced {buf : Octets} {f : Frame} (h : (decode buf).frame? = some f) :
    f.wireLen ≤ buf.length ∧ f.append [] = .ok (buf.take f.wireLen) ∧
      f.len = ((afterMark buf).getD 2 0).toNat + 256 * ((afterMark buf).getD 3 0).toNat ∧
      f.control = ⟨(afterMark buf).getD 4 0⟩ ∧ (afterMark buf).head? = some som ∧
      (decode buf = .ok f ↔
        ((afterMark buf).take f.len).drop (f.len - f.control.scheme.size) =
          checkOctetsOf f.control.scheme ((afterMark buf).take (f.len - f.control.scheme.size))) := by
  obtain ⟨hspelled, -, -⟩ := decode_sound h
  obtain ⟨htake, hdrop⟩ := f.take_body
  have hbody := h
  rw [decode_eq] at hbody
  obtain ⟨-, hlen, -⟩ := decodeBody_frame hbody
  have hget : ∀ i, i < f.len → (afterMark buf)[i]? = f.body[i]? := by
    intro i hi
    rw [← hspelled.octets, List.getElem?_take_of_lt hi]
  have hhead : 4 < f.len := by
    unfold Frame.len headerSize
    omega
  refine ⟨(decode_frame h).wireLen_le, append_of_decode h, ?_, ?_, ?_, ?_⟩
  · rw [hlen, bodyLength, octet_or_shiftLeft]
  · rw [List.getD_eq_getElem?_getD, hget 4 hhead, f.body_eq]
    rfl
  · rw [List.head?_eq_getElem?, hget 0 (by omega), f.body_eq]
    rfl
  · have hcovered : (afterMark buf).take (f.len - f.control.scheme.size) = f.appendBody [] := by
      rw [← htake, ← hspelled.octets, List.take_take, Nat.min_eq_left (Nat.sub_le _ _)]
    rw [decode_ok_iff_checkOctets h, hspelled.octets, hdrop, hcovered, f.checkOctets_sealCheck]

/-- A poll with the reserved bits of its control octet set, a mark in front, a wrong check and
octets behind it is written back as it was. -/
theorem decoded_octets_reproduced_bad_check :
    ∃ f, decode [0xFF, 0x53, 0x05, 0x08, 0x00, 0xF4, 0x60, 0x12, 0x34, 0x53] = .badCheck f ∧
      f.append [] = .ok [0xFF, 0x53, 0x05, 0x08, 0x00, 0xF4, 0x60, 0x12, 0x34] := by
  have h : decode [0xFF, 0x53, 0x05, 0x08, 0x00, 0xF4, 0x60, 0x12, 0x34, 0x53] = .badCheck
      { hasMark := true, isReply := false, address := 0x05, control := ⟨0xF4⟩, code := 0x60,
        data := [], check := 0x3412 } := by
    decide +kernel
  refine ⟨_, h, ?_⟩
  exact (decoded_octets_reproduced (f := _) (by rw [h]; rfl)).2.1

/-! ## Frame to octets and back -/

/-- **A sealed frame comes back as it was sent exactly when its control octet tells the truth about
its security block**; what `append` refuses no octets decode into. -/
theorem written_frame_read_back_iff {f : Frame} (hseal : f.check = f.computeCheck) :
    ((∀ w, f.append [] = .ok w → w.length = f.wireLen ∧ ∀ t, decode (w ++ t) = .ok f) ↔
        ∀ w, f.append [] = .ok w → f.security.isSome = f.control.hasSecurityBlock) ∧
      ∀ e, f.append [] = .error e → ∀ b, (decode b).frame? ≠ some f := by
  refine ⟨⟨?_, ?_⟩, ?_⟩
  · intro h w hw
    have hdec := (h w hw).2 []
    exact (decode_sound (by rw [hdec]; rfl)).1.declared
  · intro h w hw
    have hdecl := h w hw
    obtain ⟨rfl, ha, hs, hl⟩ := Frame.append_eq_ok hw
    have hsend : f.Sendable := ⟨ha, hs, hl, by rw [Frame.checkOK, hseal]; exact beq_self_eq_true _,
      hdecl⟩
    exact ⟨f.length_wire, Frame.decode_wire hsend⟩
  · intro e he b hb
    rw [append_of_decode hb] at he
    cases he

/-- A marked reply with a security block and the reserved bits of its control octet set. -/
def markedReply : Frame :=
  Frame.sealCheck ⟨true, true, 0x7F, ⟨0xFC⟩, some ⟨0x18, [7]⟩, 0x40, [1, 2, 3], 0⟩

/-- A reply with a mark before it. -/
theorem written_frame_read_back_declared :
    ∃ w, markedReply.append [] = .ok w ∧ ∀ t, decode (w ++ t) = .ok markedReply := by
  have h := written_frame_read_back_iff (f := markedReply) (by decide +kernel)
  have hw : markedReply.append [] = .ok markedReply.wire := by decide +kernel
  exact ⟨_, hw, (h.1.mpr (fun _ _ => by decide +kernel) _ hw).2⟩

/-- A poll with a block its control octet does not declare. -/
def undeclaredPoll : Frame :=
  Frame.sealCheck ⟨false, false, 0x01, ⟨0x04⟩, some ⟨0x15, []⟩, 0x60, [], 0⟩

/-- It is written, and decodes without error into another command. -/
theorem undeclared_block_read_as_code :
    undeclaredPoll.check = undeclaredPoll.computeCheck ∧
      undeclaredPoll.append [] = .ok undeclaredPoll.wire ∧
      decode undeclaredPoll.wire =
        .ok (Frame.sealCheck ⟨false, false, 0x01, ⟨0x04⟩, none, 0x02, [0x15, 0x60], 0⟩) ∧
      undeclaredPoll.code = 0x60 := by
  decide +kernel

end Osdp
