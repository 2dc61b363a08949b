import Osdp.Analysis.Assembly
import Osdp.Analysis.RoundTrip

/-!
# Frames delimit themselves

The decoder asks for more octets as long as the frame has not all arrived, and only then: its
length field is in the first five octets, and nothing before the last octet of the frame makes it
decide (`decode_take_short`). What it decides stands whatever follows (`decode_extend`). The
length field alone tells two frames of one beginning apart, so no frame's octets begin another's
(`append_prefix_eq`).

A reader decides on the octets in its buffer. What `settle` takes out of them it would take out
of any buffer that had more (`settle_stands`).
-/

set_option autoImplicit false

namespace Osdp

/-! ## The decoder on part of a frame -/

variable {f g : Frame} {k : ℕ}

/-- The octets after the mark, cut before the frame's end, are too few. -/
theorem decodeBody_take_short {hasMark : Bool} {body : Octets}
    (h : (decodeBody hasMark body).frame? = some f) (hk : k < f.len) :
    decodeBody hasMark (body.take k) = .error .shortBuffer := by
  obtain ⟨-, hlen, hparsed⟩ := decodeBody_frame h
  have hle := hparsed.len_le
  have hcut : (body.take k).length = k := by
    rw [List.length_take]
    omega
  by_cases h0 : k = 0
  · rw [decodeBody, if_pos (by rw [hcut, h0])]
  have hhead : (body.take k).headD 0 = body.headD 0 := by
    simp only [List.headD_eq_head?_getD, List.head?_take, if_neg h0]
  -- the tests the frame passed on its way
  unfold decodeBody at h
  simp only at h
  split at h
  · cases h
  split at h
  · cases h
  rename_i hsom
  split at h
  · cases h
  split at h
  · cases h
  rename_i hmin
  by_cases hshort : k < headerSize
  · rw [decodeBody, if_neg (by rw [hcut]; exact h0), hhead, if_neg hsom,
      if_pos (by rw [hcut]; exact hshort)]
  · have hget : ∀ i, i < headerSize → (body.take k).getD i 0 = body.getD i 0 := by
      intro i hi
      simp only [List.getD_eq_getElem?_getD, List.getElem?_take_of_lt (show i < k by omega)]
    have htotal : ((body.getD 2 0).toNat ||| ((body.getD 3 0).toNat <<< 8)) = f.len := hlen.symm
    unfold decodeBody
    rw [hhead, hget 1 (by decide), hget 2 (by decide), hget 3 (by decide), hget 4 (by decide), hcut]
    simp only [if_neg h0, if_neg hsom, if_neg hshort, if_neg hmin]
    rw [htotal, if_pos hk]

/-- **Short of its last octet a frame has not arrived.** -/
theorem decode_take_short {buf : Octets} (h : (decode buf).frame? = some f) (hk : k < f.wireLen) :
    decode (buf.take k) = .error .shortBuffer := by
  cases k with
  | zero => rfl
  | succ k =>
    cases buf with
    | nil => rfl
    | cons b body =>
      rw [List.take_succ_cons]
      by_cases hb : b = mark
      · simp only [decode, hb, if_true] at h ⊢
        obtain ⟨hm, -, -⟩ := decodeBody_frame h
        rw [f.wireLen_eq, hm] at hk
        exact decodeBody_take_short h (by simp only [if_true] at hk; omega)
      · simp only [decode, hb, if_false] at h ⊢
        obtain ⟨hm, -, -⟩ := decodeBody_frame h
        rw [f.wireLen_eq, hm] at hk
        rw [← List.take_succ_cons]
        exact decodeBody_take_short h (by simpa using hk)

/-! ## The octets of two frames -/

/-- A frame's length can be read off the first octets of what the encoder writes. -/
theorem Frame.bodyLength_body (h : f.len ≤ maxFrameSize) (t : Octets) :
    bodyLength (f.body ++ t) = f.len := by
  rw [f.body_eq]
  exact ofNat_or_shiftLeft (Nat.lt_succ_of_le h)

/-- No frame's body is the beginning of another's. -/
theorem Frame.body_prefix_eq (hf : f.len ≤ maxFrameSize) (hg : g.len ≤ maxFrameSize)
    (h : f.body <+: g.body) : f.body = g.body := by
  obtain ⟨t, ht⟩ := h
  have hlen : f.len = g.len := by
    rw [← Frame.bodyLength_body hf t, ht, ← Frame.bodyLength_body hg [], List.append_nil]
  exact List.IsPrefix.eq_of_length ⟨t, ht⟩ (by rw [f.length_body, g.length_body, hlen])

/-- **No frame's octets are the beginning of another's.** -/
theorem Frame.append_prefix_eq {v w : Octets} (hv : f.append [] = .ok v) (hw : g.append [] = .ok w)
    (h : v <+: w) : v = w := by
  obtain ⟨rfl, -, -, hf⟩ := Frame.append_eq_ok hv
  obtain ⟨rfl, -, -, hg⟩ := Frame.append_eq_ok hw
  have hne : mark ≠ som := by decide
  unfold Frame.wire at h ⊢
  cases hmf : f.hasMark <;> cases hmg : g.hasMark <;> simp only [hmf, hmg] at h ⊢
  · exact congrArg _ (Frame.body_prefix_eq hf hg h)
  · obtain ⟨t, ht⟩ := h
    rw [f.body_eq] at ht
    exact absurd (List.head_eq_of_cons_eq ht).symm hne
  · obtain ⟨t, ht⟩ := h
    rw [g.body_eq] at ht
    exact absurd (List.head_eq_of_cons_eq ht) hne
  · exact congrArg _ (Frame.body_prefix_eq hf hg (List.prefix_cons_inj _ |>.mp h))

/-! ## Readers -/

namespace Scan

variable {s s' : Scanner} {t : Octets}

/-- A later start of a frame is found whatever else has arrived. -/
theorem Scanner.resync_extend (ht : s'.live = s.live ++ t) (hpos : 0 < s.n) (h : s.resync.1 = true) :
    s'.resync.1 = true ∧ s'.resync.2.live = s.resync.2.live ++ t := by
  have hn' : s'.n = s.n + t.length := by
    rw [← s'.length_live, ht, List.length_append, s.length_live]
  have hdrop : s'.live.drop 1 = s.live.drop 1 ++ t := by
    rw [ht, List.drop_append_of_le_length (by rw [s.length_live]; exact hpos)]
  unfold resync at h ⊢
  rw [hdrop, List.findIdx?_append]
  cases hi : (s.live.drop 1).findIdx? fun b => b == som || b == mark with
  | none =>
    rw [hi] at h
    cases h
  | some i =>
    have hlt : i < (s.live.drop 1).length := (List.findIdx?_eq_some_iff_findIdx_eq.mp hi).1
    rw [List.length_drop, s.length_live] at hlt
    refine ⟨rfl, ?_⟩
    change (s'.consume (i + 1)).live = (s.consume (i + 1)).live ++ t
    rw [(live_consume (by omega) (by omega)).1, (live_consume (by omega) (by omega)).1, ht,
      List.drop_append_of_le_length (by rw [s.length_live]; omega)]

/-- What a verdict on the live octets is worth when `t` arrives as well: a frame is the same
frame and `t` is left behind it, and a reader that waits has dropped nothing that `t` would have
saved. -/
def Stands (t : Octets) (s : Scanner) : Verdict × Scanner → Prop
  | (.frame f, e) => ∀ s' : Scanner, s'.live = s.live ++ t →
      ∃ e', settle s' = (.frame f, e') ∧ e'.live = e.live ++ t
  | (.badCheck f, e) => ∀ s' : Scanner, s'.live = s.live ++ t →
      ∃ e', settle s' = (.badCheck f, e') ∧ e'.live = e.live ++ t
  | (.short, e) => decode e.live = .error .shortBuffer ∧ ∀ s' : Scanner, s'.live = s.live ++ t →
      ∃ e' : Scanner, e'.live = e.live ++ t ∧ settle s' = settle e'
  | (.rubbish _, _) => True

/-- A reader goes on from what a resynchronisation leaves. -/
theorem settle_resync {e : DecodeError} (hpos : 0 < s.n) (he : decode s.live = .error e)
    (hne : e ≠ .shortBuffer) (h : s.resync.1 = true) : settle s = settle s.resync.2 := by
  rw [settle_eq, if_neg hpos.ne', he]
  cases e <;> first | exact absurd rfl hne | simp only [h, if_true]

/-- The octets behind a decoded frame stay, with what has arrived since. -/
theorem consume_extend {f : Frame} (ht : s'.live = s.live ++ t)
    (hf : (decode s.live).frame? = some f) :
    0 < s'.n ∧ (s'.consume f.wireLen).live = (s.consume f.wireLen).live ++ t := by
  have hlen := (decode_frame hf).wireLen_le
  have hpos : 0 < f.wireLen := by
    rw [f.wireLen_eq]
    exact Nat.add_pos_right _ f.len_pos
  have hn' : s'.n = s.n + t.length := by
    rw [← s'.length_live, ht, List.length_append, s.length_live]
  rw [s.length_live] at hlen
  refine ⟨by omega, ?_⟩
  rw [(Scanner.live_consume hpos (by omega)).1, (Scanner.live_consume hpos hlen).1, ht,
    List.drop_append_of_le_length (by rw [s.length_live]; exact hlen)]

/-- **A reader commits to nothing that has not arrived.** -/
theorem settle_stands (t : Octets) (s : Scanner) : Stands t s (settle s) := by
  apply settle_induction (motive := Stands t)
  · intro s h0
    have hempty : s.live = [] := List.eq_nil_of_length_eq_zero (by rw [s.length_live, h0])
    exact ⟨by rw [hempty]; rfl, fun s' ht => ⟨s', ht, rfl⟩⟩
  · intro s f hf s' ht
    obtain ⟨hpos, hlive⟩ := consume_extend ht (by rw [hf]; rfl)
    have hdec : decode s'.live = .ok f := by
      rw [ht, decode_extend (by rw [hf]; simp), hf]
    exact ⟨_, by rw [settle_eq, if_neg hpos.ne', hdec], hlive⟩
  · intro s f hf s' ht
    obtain ⟨hpos, hlive⟩ := consume_extend ht (by rw [hf]; rfl)
    have hdec : decode s'.live = .badCheck f := by
      rw [ht, decode_extend (by rw [hf]; simp), hf]
    exact ⟨_, by rw [settle_eq, if_neg hpos.ne', hdec], hlive⟩
  · exact fun s hf => ⟨hf, fun s' ht => ⟨s', ht, rfl⟩⟩
  · exact fun s e _ _ _ _ => trivial
  · intro s e hpos he hne hfound hrest
    -- the longer buffer drops the same rubbish
    have hskip : ∀ s' : Scanner, s'.live = s.live ++ t →
        settle s' = settle s'.resync.2 ∧ s'.resync.2.live = s.resync.2.live ++ t := by
      intro s' ht
      obtain ⟨hfound', hlive⟩ := Scanner.resync_extend ht hpos hfound
      have hpos' : 0 < s'.n := by
        rw [← s'.length_live, ht, List.length_append, s.length_live]
        omega
      have hdec : decode s'.live = .error e := by
        rw [ht, decode_extend (by rw [he]; simpa using hne), he]
      exact ⟨settle_resync hpos' hdec hne hfound', hlive⟩
    revert hrest
    generalize settle s.resync.2 = r
    obtain ⟨v, e⟩ := r
    cases v with
    | frame f =>
      intro h s' ht
      rw [(hskip s' ht).1]
      exact h _ (hskip s' ht).2
    | badCheck f =>
      intro h s' ht
      rw [(hskip s' ht).1]
      exact h _ (hskip s' ht).2
    | rubbish e => exact fun _ => trivial
    | short =>
      refine fun h => ⟨h.1, fun s' ht => ?_⟩
      rw [(hskip s' ht).1]
      exact h.2 _ (hskip s' ht).2

end Scan

/-- **The decoder delimits frames by itself.** What it answers, other than that the buffer is
short, stands whatever follows; a proper beginning of a frame's octets is short; no frame's octets
are a proper beginning of another's; and a reader that waits on a short buffer takes out of it only
what it would have taken had more arrived. -/
theorem decode_self_delimiting :
    (∀ b, decode b ≠ .error .shortBuffer → ∀ t, decode (b ++ t) = decode b) ∧
    (∀ b f, (decode b).frame? = some f → f.wireLen ≤ b.length ∧
      ∀ a, a <+: b.take f.wireLen → a ≠ b.take f.wireLen → decode a = .error .shortBuffer) ∧
    (∀ (f g : Frame) v w, f.append [] = .ok v → g.append [] = .ok w → v <+: w → v = w) ∧
    ∀ t s, Scan.Stands t s (Scan.settle s) := by
  refine ⟨fun b h t => decode_extend h t, ?_, fun f g v w => Frame.append_prefix_eq,
    Scan.settle_stands⟩
  intro b f h
  have hle := (decode_frame h).wireLen_le
  refine ⟨hle, ?_⟩
  intro a ha hne
  have hlen : a.length < f.wireLen := by
    have hall := ha.length_le
    rw [List.length_take, Nat.min_eq_left hle] at hall
    refine lt_of_le_of_ne hall fun heq => hne (ha.eq_of_length ?_)
    rw [heq, List.length_take, Nat.min_eq_left hle]
  have hcut : a = b.take a.length := by
    rw [List.prefix_iff_eq_take.mp (ha.trans (List.take_prefix _ _)), List.length_take]
    simp only [Nat.min_eq_left (hlen.le.trans hle)]
  rw [hcut]
  exact decode_take_short h hlen

/-- A poll, cut by one octet and followed by noise. -/
theorem decode_self_delimiting_poll :
    let b : Octets := [0x53, 0x01, 0x07, 0x00, 0x01, 0x60, 0x44]
    (decode b).frame?.isSome = true ∧ decode (b.take 6) = .error .shortBuffer ∧
      decode (b ++ [0x53, 0x00]) = decode b := by
  intro b
  obtain ⟨hextend, hcut, -, -⟩ := decode_self_delimiting
  have hdec : decode b = .ok
      { isReply := false, address := 1, control := ⟨1⟩, code := 0x60, data := [], check := 0x44 } := by
    decide +kernel
  refine ⟨by rw [hdec]; rfl, ?_, hextend b (by rw [hdec]; simp) _⟩
  exact (hcut b _ (by rw [hdec]; rfl)).2 (b.take 6) ⟨[0x44], rfl⟩ (by decide)

end Osdp
