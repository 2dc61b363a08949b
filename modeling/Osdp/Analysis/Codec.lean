import Osdp.Model.Scan

/-!
# What the decoder reads

A decoded frame is as long as its length field says, its `Data` and `Security.Data` are
the ranges `dataSlice` and `securitySlice` of the buffer it came from, and nothing behind it
is looked at. A refusal stands as well, whatever arrives next; only a short buffer waits.
-/

set_option autoImplicit false

namespace Osdp

open Window (Slice)

variable {rest remainder body buf : Octets} {sb : SecurityBlock} {g f : Frame} {hasMark : Bool}

/-- A security block begins with its length and its type. -/
theorem decodeSecurityBlock_eq (h : decodeSecurityBlock rest = .ok (sb, remainder)) :
    ∃ l t tail, rest = l :: t :: tail ∧ 2 ≤ l.toNat ∧ l.toNat ≤ rest.length ∧
      sb = ⟨t, (rest.take l.toNat).drop 2⟩ ∧ remainder = rest.drop l.toNat ∧
      SecurityBlock.wireLen (some sb) = l.toNat := by
  unfold decodeSecurityBlock at h
  split at h
  · rename_i l t tail
    simp only at h
    split at h
    · cases h
    · rename_i hn
      simp only [not_or, not_lt, gt_iff_lt] at hn
      cases h
      refine ⟨l, t, tail, rfl, hn.1, hn.2, rfl, rfl, ?_⟩
      simp only [SecurityBlock.wireLen, List.length_drop, List.length_take]
      omega
  · cases h

/-- The security block is the front of what it was split from. -/
theorem decodeSecurityBlock_ok (h : decodeSecurityBlock rest = .ok (sb, remainder)) :
    SecurityBlock.wireLen (some sb) ≤ rest.length ∧
      sb.data = (rest.take (SecurityBlock.wireLen (some sb))).drop 2 ∧
      remainder = rest.drop (SecurityBlock.wireLen (some sb)) := by
  obtain ⟨l, t, tail, -, -, hle, hsb, hrem, hlen⟩ := decodeSecurityBlock_eq h
  rw [hlen]
  refine ⟨hle, ?_, hrem⟩
  rw [hsb]

/-- A frame is found whether its check fits or not. -/
@[simp] theorem frame?_checked (f : Frame) :
    (if f.checkOK then Decoded.ok f else .badCheck f).frame? = some f := by
  split <;> rfl

/-- The tail of a frame is its code, its payload and its check, and fills what it was read
from. -/
theorem decodeTail_frame (h : (decodeTail g rest).frame? = some f) :
    f.hasMark = g.hasMark ∧ f.control = g.control ∧ f.security = g.security ∧
      rest.length = 1 + f.data.length + f.control.scheme.size ∧
      f.data = (rest.drop 1).take f.data.length := by
  unfold decodeTail at h
  simp only at h
  split at h
  · cases h
  · rename_i hlen
    have hdata : ∀ e : Frame, e.control = g.control →
        e.data = (rest.take (rest.length - g.control.scheme.size)).drop 1 →
        rest.length = 1 + e.data.length + e.control.scheme.size ∧
          e.data = (rest.drop 1).take e.data.length := by
      intro e hc he
      have hl : e.data.length = rest.length - g.control.scheme.size - 1 := by
        rw [he, List.length_drop, List.length_take]
        omega
      refine ⟨by rw [hl, hc]; omega, ?_⟩
      rw [hl, he, List.drop_take]
    rw [frame?_checked, Option.some.injEq] at h
    subst h
    exact ⟨rfl, rfl, rfl, hdata _ rfl rfl⟩

/-- What a decoded frame has to do with the octets after the mark. -/
structure Parsed (body : Octets) (f : Frame) : Prop where
  len_le : f.len ≤ body.length
  data : (Slice.mk (headerSize + SecurityBlock.wireLen f.security + 1) f.data.length).of body = f.data
  security : ∀ s, f.security = some s → (Slice.mk (headerSize + 2) s.data.length).of body = s.data

/-- What the header says of the frame's length. -/
def bodyLength (body : Octets) : ℕ :=
  (body.getD 2 0).toNat ||| ((body.getD 3 0).toNat <<< 8)

/-- A tail that follows the security block and runs to the frame's end makes a frame as long as
its header says. -/
theorem parsed_of_tail {total : ℕ} (hle : total ≤ body.length) (hmin : headerSize ≤ total)
    (hrest : rest = (body.drop headerSize).take (total - headerSize))
    (hk : SecurityBlock.wireLen g.security ≤ rest.length) (hsec : ∀ s, g.security = some s →
      s.data = (rest.take (SecurityBlock.wireLen (some s))).drop 2)
    (h : (decodeTail g (rest.drop (SecurityBlock.wireLen g.security))).frame? = some f) :
    f.hasMark = g.hasMark ∧ f.len = total ∧ Parsed body f := by
  obtain ⟨hm, hc, hs, hlen, hdata⟩ := decodeTail_frame h
  have hrestlen : rest.length = total - headerSize := by
    rw [hrest, List.length_take, List.length_drop]
    omega
  have hlen' : f.len = total := by
    rw [List.length_drop, hrestlen] at hlen
    rw [Frame.len, hs]
    omega
  refine ⟨hm, hlen', by omega, ?_, ?_⟩
  · have hwin := Slice.of_window (Slice.mk (SecurityBlock.wireLen g.security + 1) f.data.length)
      (j := headerSize) (n := total - headerSize) (by
        rw [List.length_drop, hrestlen] at hlen
        simp only
        omega) body
    rw [hs, Nat.add_assoc, ← hwin, ← hrest, Slice.of, ← List.drop_drop, ← hdata]
  · intro s hfs
    have hgs : g.security = some s := hs ▸ hfs
    have hslen : SecurityBlock.wireLen (some s) = 2 + s.data.length := rfl
    rw [hgs, hslen, hrestlen] at hk
    have hwin := Slice.of_window (Slice.mk 2 s.data.length) (j := headerSize)
      (n := total - headerSize) hk body
    rw [← hwin, ← hrest, Slice.of]
    conv_rhs => rw [hsec s hgs, hslen, List.drop_take, Nat.add_sub_cancel_left]

/-- A frame is only decoded when all of it is there, and is as long as its header says. -/
theorem decodeBody_frame {hasMark : Bool} {body : Octets} {f : Frame}
    (h : (decodeBody hasMark body).frame? = some f) :
    f.hasMark = hasMark ∧ f.len = bodyLength body ∧ Parsed body f := by
  unfold decodeBody at h
  simp only at h
  split at h
  · cases h
  · split at h
    · cases h
    · split at h
      · cases h
      · split at h
        · cases h
        · rename_i hmin
          split at h
          · cases h
          · rename_i hall
            have hle : bodyLength body ≤ body.length := Nat.le_of_not_lt hall
            have hmin : headerSize ≤ bodyLength body :=
              (Nat.le_add_right _ _).trans ((Nat.le_add_right _ _).trans (Nat.le_of_not_lt hmin))
            have hrest : (body.take (bodyLength body)).drop headerSize =
                (body.drop headerSize).take (bodyLength body - headerSize) := List.drop_take ..
            split at h
            · split at h
              · cases h
              · rename_i sb remainder hsb
                obtain ⟨hk, hdata, rfl⟩ := decodeSecurityBlock_ok hsb
                refine parsed_of_tail hle hmin hrest ?_ ?_ h
                · exact hk
                · rintro s ⟨⟩
                  exact hdata
            · refine parsed_of_tail hle hmin hrest ?_ ?_ h
              · exact Nat.zero_le _
              · rintro s ⟨⟩

/-- The decoder looks at nothing behind the frame. -/
theorem decodeBody_take (h : (decodeBody hasMark body).frame? = some f) :
    decodeBody hasMark (body.take f.len) = decodeBody hasMark body := by
  obtain ⟨-, hlen, hparsed⟩ := decodeBody_frame h
  have hle := hparsed.len_le
  have hbig : headerSize ≤ f.len := by
    unfold Frame.len
    omega
  have hget : ∀ i, i < headerSize → (body.take f.len).getD i 0 = body.getD i 0 := by
    intro i hi
    simp only [List.getD_eq_getElem?_getD, List.getElem?_take_of_lt (hi.trans_le hbig)]
  have hhead : (body.take f.len).headD 0 = body.headD 0 := by
    simp only [List.headD_eq_head?_getD, List.head?_take]
    rw [if_neg (by unfold headerSize at hbig; omega)]
  have htotal : ((body.getD 2 0).toNat ||| ((body.getD 3 0).toNat <<< 8)) = f.len := hlen.symm
  have hlength : (body.take f.len).length = f.len := by
    rw [List.length_take, Nat.min_eq_left hle]
  unfold decodeBody
  rw [hget 1 (by decide), hget 2 (by decide), hget 3 (by decide), hget 4 (by decide), hhead, hlength,
    htotal]
  simp only [List.take_take, Nat.min_self]
  have h0 : ¬ f.len = 0 := by unfold headerSize at hbig; omega
  have h1 : ¬ body.length = 0 := by omega
  have h2 : ¬ f.len < headerSize := by omega
  have h3 : ¬ body.length < headerSize := by omega
  have h4 : ¬ f.len < f.len := by omega
  have h5 : ¬ body.length < f.len := by omega
  simp only [if_neg h0, if_neg h1, if_neg h2, if_neg h3, if_neg h4, if_neg h5]

/-- **What the decoder says stands whatever follows**, unless it asks for more. -/
theorem decodeBody_extend (h : decodeBody hasMark body ≠ .error .shortBuffer) (more : Octets) :
    decodeBody hasMark (body ++ more) = decodeBody hasMark body := by
  by_cases h0 : body.length = 0
  · simp [decodeBody, h0] at h
  have hhead : (body ++ more).headD 0 = body.headD 0 := by
    cases body with
    | nil => simp at h0
    | cons b body => rfl
  have hlen : (body ++ more).length = body.length + more.length := List.length_append
  by_cases hs : body.headD 0 = som
  · have hsom : ¬ body.headD 0 ≠ som := not_not_intro hs
    by_cases hshort : body.length < headerSize
    · rw [decodeBody, if_neg h0, if_neg hsom, if_pos hshort] at h
      exact absurd rfl h
    have hget : ∀ i, i < headerSize → (body ++ more).getD i 0 = body.getD i 0 := by
      intro i hi
      simp only [List.getD_eq_getElem?_getD,
        List.getElem?_append_left (show i < body.length by omega)]
    have hlong : ¬ (body ++ more).length = 0 ∧ ¬ (body ++ more).length < headerSize := by omega
    unfold decodeBody at h ⊢
    rw [hhead, hget 1 (by decide), hget 2 (by decide), hget 3 (by decide), hget 4 (by decide)]
    simp only [if_neg h0, if_neg hsom, if_neg hshort, if_neg hlong.1, if_neg hlong.2] at h ⊢
    generalize ((body.getD 2 0).toNat ||| ((body.getD 3 0).toNat <<< 8)) = total at h ⊢
    -- a length field that is too small is refused by what it says alone
    split
    · rfl
    · rename_i hmin
      have hall : ¬ body.length < total := by
        intro hall
        rw [if_neg hmin, if_pos hall] at h
        exact h rfl
      rw [if_neg hall, if_neg (by omega), List.take_append_of_le_length (by omega)]
  · rw [decodeBody, decodeBody, hhead, if_neg h0, if_neg (by omega), if_pos hs, if_pos hs]

namespace Frame

/-- A frame has a length. -/
theorem len_pos (f : Frame) : 0 < f.len := by
  unfold len headerSize
  omega

/-- On the line a mark may come before it. -/
theorem wireLen_eq (f : Frame) : f.wireLen = (if f.hasMark then 1 else 0) + f.len := by
  unfold wireLen
  split <;> omega

/-- The payload lies inside the frame. -/
theorem dataSlice_le (f : Frame) : f.dataSlice.start + f.dataSlice.length ≤ f.wireLen := by
  rw [wireLen_eq]
  simp only [dataSlice, len]
  omega

/-- So do the octets of the security block. -/
theorem securitySlice_le {f : Frame} {s : SecurityBlock} (h : f.security = some s) :
    (f.securitySlice s).start + (f.securitySlice s).length ≤ f.wireLen := by
  rw [wireLen_eq]
  simp only [securitySlice, len, h, SecurityBlock.wireLen]
  omega

/-- A frame reads as it was decoded exactly when its ranges still denote what they did. -/
theorem readBack_eq_iff (f : Frame) (buf : Octets) :
    f.readBack buf = f ↔ f.dataSlice.of buf = f.data ∧
      ∀ s, f.security = some s → (f.securitySlice s).of buf = s.data := by
  obtain ⟨hasMark, isReply, address, control, security, code, data, check⟩ := f
  cases security with
  | none => simp [readBack]
  | some s =>
    simp only [readBack, Option.map_some, Frame.mk.injEq, true_and, and_true, Option.some.injEq]
    constructor
    · rintro ⟨hs, hd⟩
      refine ⟨hd, ?_⟩
      rintro _ rfl
      exact (SecurityBlock.mk.injEq .. ▸ hs).2
    · rintro ⟨hd, hs⟩
      exact ⟨by rw [hs s rfl], hd⟩

end Frame

/-- What a decoded frame has to do with the buffer it was decoded from. -/
structure Read (buf : Octets) (f : Frame) : Prop where
  wireLen_le : f.wireLen ≤ buf.length
  readBack : f.readBack buf = f
  take : decode (buf.take f.wireLen) = decode buf

/-- **The decoder reads the front of the buffer and no more.** -/
theorem decode_frame (h : (decode buf).frame? = some f) : Read buf f := by
  cases buf with
  | nil =>
    obtain ⟨-, -, hparsed⟩ := @decodeBody_frame false _ _ h
    have := hparsed.len_le
    have := f.len_pos
    simp only [List.length_nil] at *
    omega
  | cons b body =>
    by_cases hb : b = mark
    · have hdec : decode (b :: body) = decodeBody true body := by simp [decode, hb]
      rw [hdec] at h
      obtain ⟨hm, -, hparsed⟩ := decodeBody_frame h
      have hw : f.wireLen = f.len + 1 := by rw [f.wireLen_eq, hm]; simp [Nat.add_comm]
      refine ⟨by simpa [hw] using hparsed.len_le, (f.readBack_eq_iff _).mpr ⟨?_, ?_⟩, ?_⟩
      · rw [Frame.dataSlice, hm, if_pos rfl, Nat.add_assoc, Nat.add_assoc, Slice.of_cons,
          ← Nat.add_assoc]
        exact hparsed.data
      · intro s hs
        rw [Frame.securitySlice, hm, if_pos rfl, Nat.add_assoc, Slice.of_cons]
        exact hparsed.security s hs
      · rw [hw, List.take_succ_cons, hdec]
        simp only [decode, hb, if_true]
        exact decodeBody_take h
    · have hdec : decode (b :: body) = decodeBody false (b :: body) := by simp [decode, hb]
      rw [hdec] at h
      obtain ⟨hm, -, hparsed⟩ := decodeBody_frame h
      have hw : f.wireLen = f.len := by rw [f.wireLen_eq, hm]; simp
      refine ⟨by rw [hw]; exact hparsed.len_le, (f.readBack_eq_iff _).mpr ⟨?_, ?_⟩, ?_⟩
      · simpa [Frame.dataSlice, hm] using hparsed.data
      · intro s hs
        simpa [Frame.securitySlice, hm] using hparsed.security s hs
      · have htake := decodeBody_take h
        rw [hw, hdec]
        obtain ⟨n, hn⟩ := Nat.exists_eq_succ_of_ne_zero f.len_pos.ne'
        rw [hn, List.take_succ_cons] at htake ⊢
        simpa [decode, hb] using htake

/-- A decision of the decoder is not changed by what follows. -/
theorem decode_extend (h : decode buf ≠ .error .shortBuffer) (more : Octets) :
    decode (buf ++ more) = decode buf := by
  cases buf with
  | nil => exact absurd rfl h
  | cons b body =>
    rw [List.cons_append]
    by_cases hb : b = mark
    · simp only [decode, hb, if_true] at h ⊢
      exact decodeBody_extend h more
    · simp only [decode, hb, if_false] at h ⊢
      exact decodeBody_extend h more

/-- A frame decoded without error passes its error check. -/
theorem decode_checkOK (h : decode buf = .ok f) : f.checkOK = true := by
  have htail : ∀ (g : Frame) (rest : Octets), decodeTail g rest = .ok f → f.checkOK = true := by
    intro g rest h
    unfold decodeTail at h
    simp only at h
    split at h
    · cases h
    · generalize hg : Frame.mk _ _ _ _ _ _ _ _ = e at h
      split at h
      · rename_i hc
        cases h
        exact hc
      · cases h
  have hbody : ∀ (hasMark : Bool) (body : Octets), decodeBody hasMark body = .ok f →
      f.checkOK = true := by
    intro hasMark body h
    unfold decodeBody at h
    simp only at h
    iterate 5
      split at h
      · cases h
    split at h
    · split at h
      · cases h
      · exact htail _ _ h
    · exact htail _ _ h
  unfold decode at h
  split at h
  · split at h
    · exact hbody _ _ h
    · exact hbody _ _ h
  · exact hbody _ _ h

end Osdp
