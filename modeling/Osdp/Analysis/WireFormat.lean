import Osdp.Analysis.Codec

/-!
# The encoder and the decoder

`decode` gives back every frame `append` writes, whatever follows it on the line, as long as
the frame is sealed and carries a security block exactly when its control octet says so.
Everything else the decoder could stumble over the encoder has refused.
-/

set_option autoImplicit false

namespace Osdp

/-! ## Numbers and flags -/

/-- Two octets, the lower first, spell the number they were taken from. -/
theorem ofNat_or_shiftLeft {n : ℕ} (h : n < 65536) :
    (UInt8.ofNat n).toNat ||| ((UInt8.ofNat (n >>> 8)).toNat <<< 8) = n := by
  have hlow : (UInt8.ofNat n).toNat = n % 256 := by simp
  have hhigh : (UInt8.ofNat (n >>> 8)).toNat = n / 256 := by
    rw [Nat.shiftRight_eq_div_pow]
    simp
    omega
  rw [hlow, hhigh, Nat.or_comm, ← Nat.shiftLeft_add_eq_or_of_lt (by omega), Nat.shiftLeft_eq]
  omega

/-- Two octets make the check. -/
theorem toUInt16_or_shiftLeft (c : UInt16) :
    c.toUInt8.toUInt16 ||| ((c >>> 8).toUInt8.toUInt16 <<< 8) = c := by
  apply UInt16.toNat_inj.mp
  have h := ofNat_or_shiftLeft c.toNat_lt
  simp only [UInt8.toNat_ofNat', Nat.reducePow] at h
  simp only [UInt16.toNat_or, UInt8.toNat_toUInt16, UInt16.toNat_toUInt8, Nat.reducePow,
    UInt16.toNat_shiftLeft, UInt16.toNat_shiftRight, UInt16.reduceToNat, Nat.reduceMod]
  have hlt : (c.toNat >>> 8 % 256) <<< 8 < 65536 := by
    rw [Nat.shiftLeft_eq]
    omega
  rw [Nat.mod_eq_of_lt hlt]
  exact h

/-- The address octet keeps a valid address and the direction apart. -/
theorem address_flag {a : Address} (h : Address.valid a = true) (isReply : Bool) :
    decide ((if isReply then a ||| replyFlag else a) &&& replyFlag ≠ 0) = isReply ∧
      (if isReply then a ||| replyFlag else a) &&& ~~~replyFlag = a := by
  have hall : ∀ n : Fin 128, ∀ r : Bool,
      decide ((if r then UInt8.ofNat n ||| replyFlag else UInt8.ofNat n) &&& replyFlag ≠ 0) = r ∧
        (if r then UInt8.ofNat n ||| replyFlag else UInt8.ofNat n) &&& ~~~replyFlag =
          UInt8.ofNat n := by
    decide +kernel
  have hlt : a.toNat < 128 := by
    simp only [Address.valid, decide_eq_true_eq, UInt8.le_iff_toNat_le] at h
    exact Nat.lt_succ_of_le h
  have ha : a = UInt8.ofNat (⟨a.toNat, hlt⟩ : Fin 128) := by simp
  rw [ha]
  exact hall _ isReply

namespace Frame

/-! ## What the encoder writes -/

/-- The octets of the error check. -/
def checkOctets (f : Frame) : Octets :=
  match f.control.scheme with
  | .crc16 => [f.check.toUInt8, (f.check >>> 8).toUInt8]
  | .checksum => [f.check.toUInt8]

/-- A check is as long as its scheme says. -/
theorem length_checkOctets (f : Frame) : f.checkOctets.length = f.control.scheme.size := by
  unfold checkOctets
  cases f.control.scheme <;> rfl

/-- The octets before the security block. -/
def header (f : Frame) : Octets :=
  [som, if f.isReply then f.address ||| replyFlag else f.address, UInt8.ofNat f.len,
    UInt8.ofNat (f.len >>> 8), f.control.octet]

/-- The body, part by part. -/
theorem appendBody_eq (f : Frame) :
    f.appendBody [] = f.header ++ securityOctets f.security ++ f.code :: f.data := by
  simp [appendBody, header]

/-- The octets of a frame after the mark. -/
def body (f : Frame) : Octets := f.appendBody [] ++ f.checkOctets

/-- The octets of a frame. -/
def wire (f : Frame) : Octets := (if f.hasMark then [mark] else []) ++ f.body

/-- The length of a block. -/
theorem length_securityOctets (s : Option SecurityBlock) :
    (securityOctets s).length = SecurityBlock.wireLen s := by
  cases s with
  | none => rfl
  | some s =>
    simp only [securityOctets, SecurityBlock.wireLen, List.length_cons]
    omega

/-- The length of a body. -/
theorem length_body (f : Frame) : f.body.length = f.len := by
  simp only [body, appendBody, List.length_append, length_checkOctets, length_securityOctets, len,
    List.length_cons, List.length_nil, headerSize]

/-- The length on the line. -/
theorem length_wire (f : Frame) : f.wire.length = f.wireLen := by
  rw [wire, wireLen_eq, List.length_append, length_body]
  split <;> rfl

variable {f : Frame}

/-- What `append` writes. -/
theorem append_eq_wire (ha : Address.valid f.address = true)
    (hs : SecurityBlock.wireLen f.security ≤ maxSecurityBlockSize) (hl : f.len ≤ maxFrameSize) :
    f.append [] = .ok f.wire := by
  unfold append representable wire body checkOctets
  simp only [ha, Nat.not_lt.mpr hs, Nat.not_lt.mpr hl, not_true_eq_false, if_false, bind,
    Except.bind]
  cases f.control.scheme <;> cases f.hasMark <;> simp [appendBody, pure, Except.pure]

/-- What `append` returns when it returns. -/
theorem append_eq_ok {octets : Octets} (h : f.append [] = .ok octets) :
    octets = f.wire ∧ Address.valid f.address = true ∧
      SecurityBlock.wireLen f.security ≤ maxSecurityBlockSize ∧ f.len ≤ maxFrameSize := by
  by_cases ha : Address.valid f.address = true
  · by_cases hs : SecurityBlock.wireLen f.security ≤ maxSecurityBlockSize
    · by_cases hl : f.len ≤ maxFrameSize
      · rw [append_eq_wire ha hs hl] at h
        cases h
        exact ⟨rfl, ha, hs, hl⟩
      · simp [append, representable, ha, Nat.not_lt.mpr hs, Nat.lt_of_not_le hl, bind,
          Except.bind] at h
    · simp [append, representable, ha, Nat.lt_of_not_le hs, bind, Except.bind] at h
  · simp [append, representable, ha, bind, Except.bind] at h

/-- A frame the line can carry and the decoder can tell from any other: `append` takes it, its
check holds, and its control octet says whether it has a security block. -/
structure Sendable (f : Frame) : Prop where
  address : Address.valid f.address = true
  blockLen : SecurityBlock.wireLen f.security ≤ maxSecurityBlockSize
  len : f.len ≤ maxFrameSize
  check : f.checkOK = true
  declared : f.security.isSome = f.control.hasSecurityBlock

/-- The same but for the check, which need not hold: the frame only has to have one that the scheme
can write. -/
structure Legible (f : Frame) : Prop where
  address : Address.valid f.address = true
  blockLen : SecurityBlock.wireLen f.security ≤ maxSecurityBlockSize
  len : f.len ≤ maxFrameSize
  check : f.control.scheme = .checksum → f.check.toUInt8.toUInt16 = f.check
  declared : f.security.isSome = f.control.hasSecurityBlock

/-- What can be sent can be read. -/
theorem Sendable.legible (h : f.Sendable) : f.Legible := by
  refine ⟨h.address, h.blockLen, h.len, fun hs => ?_, h.declared⟩
  have hcheck := h.check
  simp only [checkOK, beq_iff_eq, computeCheck, hs] at hcheck
  simp [hcheck]

/-! ## The way back -/

/-- A block is read back. -/
theorem decodeSecurityBlock_securityOctets (s : SecurityBlock) (rest : Octets)
    (h : SecurityBlock.wireLen (some s) ≤ maxSecurityBlockSize) :
    decodeSecurityBlock (securityOctets (some s) ++ rest) = .ok (s, rest) := by
  have hn : (UInt8.ofNat (SecurityBlock.wireLen (some s))).toNat = 2 + s.data.length := by
    simp only [SecurityBlock.wireLen, maxSecurityBlockSize] at h ⊢
    simp
    omega
  simp only [securityOctets, List.cons_append, decodeSecurityBlock, hn]
  have hfits : ¬ (2 + s.data.length < 2 ∨ 2 + s.data.length >
      (UInt8.ofNat (SecurityBlock.wireLen (some s)) :: s.type :: (s.data ++ rest)).length) := by
    simp only [List.length_cons, List.length_append]
    omega
  rw [if_neg hfits]
  have htake : (UInt8.ofNat (SecurityBlock.wireLen (some s)) :: s.type :: (s.data ++ rest)).take
      (2 + s.data.length) = UInt8.ofNat (SecurityBlock.wireLen (some s)) :: s.type :: s.data := by
    rw [Nat.add_comm, List.take_succ_cons, List.take_succ_cons, List.take_left]
  have hdrop : (UInt8.ofNat (SecurityBlock.wireLen (some s)) :: s.type :: (s.data ++ rest)).drop
      (2 + s.data.length) = rest := by
    rw [Nat.add_comm, List.drop_succ_cons, List.drop_succ_cons, List.drop_left]
  rw [htake, hdrop]
  rfl

/-- The check octets spell the check. -/
theorem check_of_checkOctets (h : f.control.scheme = .checksum → f.check.toUInt8.toUInt16 = f.check) :
    (match f.control.scheme with
      | .crc16 => (f.checkOctets.getD 0 0).toUInt16 ||| ((f.checkOctets.getD 1 0).toUInt16 <<< 8)
      | .checksum => (f.checkOctets.getD 0 0).toUInt16) = f.check := by
  unfold checkOctets
  cases hs : f.control.scheme with
  | crc16 => exact toUInt16_or_shiftLeft f.check
  | checksum => exact h hs

/-- The tail of a frame is read back, and its check is found good or bad. -/
theorem decodeTail_wire {g : Frame}
    (hcheck : f.control.scheme = .checksum → f.check.toUInt8.toUInt16 = f.check)
    (hg : { g with code := f.code, data := f.data, check := f.check } = f) :
    decodeTail g (f.code :: f.data ++ f.checkOctets) =
      if f.checkOK then .ok f else .badCheck f := by
  have hc : g.control = f.control := by
    rw [← hg]
  have hlen : (f.code :: f.data ++ f.checkOctets).length =
      1 + f.data.length + f.control.scheme.size := by
    simp only [List.length_append, List.length_cons, length_checkOctets]
    omega
  have hend : (f.code :: f.data ++ f.checkOctets).length - f.control.scheme.size =
      (f.code :: f.data).length := by
    rw [hlen, List.length_cons]
    omega
  have hbuilt : ∀ c, c = f.check →
      (if { g with control := f.control, code := f.code, data := f.data, check := c }.checkOK then
        Decoded.ok { g with control := f.control, code := f.code, data := f.data, check := c }
      else .badCheck { g with control := f.control, code := f.code, data := f.data, check := c }) =
        if f.checkOK then .ok f else .badCheck f := by
    rintro c rfl
    rw [← hc, hg]
  unfold decodeTail
  simp only [hc, hend, List.take_left, List.drop_left]
  rw [if_neg (by rw [hlen]; omega)]
  exact hbuilt _ (check_of_checkOctets hcheck)

/-- **A body is read back.** -/
theorem decodeBody_body (h : f.Legible) (rest : Octets) :
    decodeBody f.hasMark (f.body ++ rest) = if f.checkOK then .ok f else .badCheck f := by
  obtain ⟨hreply, haddr⟩ := address_flag h.address f.isReply
  have htotal := ofNat_or_shiftLeft (n := f.len)
    (by have := h.len; unfold maxFrameSize at this; omega)
  have hshape : f.body ++ rest = som :: (if f.isReply then f.address ||| replyFlag else f.address) ::
      UInt8.ofNat f.len :: UInt8.ofNat (f.len >>> 8) :: f.control.octet ::
      (securityOctets f.security ++ (f.code :: f.data ++ f.checkOctets) ++ rest) := by
    simp [body, appendBody]
  have hlen : (f.body ++ rest).length = f.len + rest.length := by
    rw [List.length_append, length_body]
  have hmin : headerSize + 1 + f.control.scheme.size ≤ f.len := by
    unfold len
    omega
  have hrest : ((f.body ++ rest).take f.len).drop headerSize =
      securityOctets f.security ++ (f.code :: f.data ++ f.checkOctets) := by
    rw [← length_body f, List.take_left]
    simp [body, appendBody, headerSize]
  unfold decodeBody
  rw [if_neg (by omega), if_neg (by simp [hshape]), if_neg (by omega)]
  simp only
  have hget : (f.body ++ rest).getD 1 0 = (if f.isReply then f.address ||| replyFlag else f.address) ∧
      (f.body ++ rest).getD 2 0 = UInt8.ofNat f.len ∧
      (f.body ++ rest).getD 3 0 = UInt8.ofNat (f.len >>> 8) ∧
      (f.body ++ rest).getD 4 0 = f.control.octet := by
    rw [hshape]
    exact ⟨rfl, rfl, rfl, rfl⟩
  obtain ⟨h1, h2, h3, h4⟩ := hget
  have hcontrol : (⟨f.control.octet⟩ : Control) = f.control := rfl
  rw [h1, h2, h3, h4, htotal, hreply, haddr, hrest, hcontrol]
  rw [if_neg (by omega), if_neg (by omega)]
  cases hs : f.security with
  | none =>
    have hno : f.control.hasSecurityBlock = false := by
      rw [← h.declared, hs]
      rfl
    rw [if_neg (by simp [hno])]
    refine decodeTail_wire h.check ?_
    rw [← hs]
  | some s =>
    have hyes : f.control.hasSecurityBlock = true := by
      rw [← h.declared, hs]
      rfl
    rw [if_pos hyes]
    rw [decodeSecurityBlock_securityOctets s _ (by rw [← hs]; exact h.blockLen)]
    refine decodeTail_wire h.check ?_
    rw [← hs]

/-- The decoder reads back what was written, and says whether its check holds. -/
theorem decode_legible (h : f.Legible) (rest : Octets) :
    decode (f.wire ++ rest) = if f.checkOK then .ok f else .badCheck f := by
  have hbody := decodeBody_body h rest
  cases hm : f.hasMark with
  | true =>
    rw [hm] at hbody
    simpa [wire, hm, decode] using hbody
  | false =>
    have htail : f.body ++ rest = som :: (f.body ++ rest).tail := by simp [body, appendBody]
    rw [hm] at hbody
    simp only [wire, hm, Bool.false_eq_true, if_false, List.nil_append]
    generalize (f.body ++ rest).tail = tail at htail
    rw [htail] at hbody ⊢
    simpa [decode, som, mark] using hbody

/-- **The decoder reads back what the encoder wrote**, whatever follows it. -/
theorem decode_wire (h : f.Sendable) (rest : Octets) : decode (f.wire ++ rest) = .ok f := by
  rw [decode_legible h.legible, if_pos h.check]

end Frame

end Osdp
