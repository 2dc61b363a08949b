import Osdp.Analysis.Codec

/-!
# Frames assembled from a port

The live octets of a reader are always the octets the port delivered last, less what was
consumed or dropped from their front. So when `next` returns a frame, the octets it was
decoded from (`wire`) stand contiguously on the line, and what stays live are the octets
delivered after it (`following`).

`consume` moves the latter to the front of the buffer before the frame is handed over, so
the frame survives exactly when none of them changes an octet of its payload or of its
security block.
-/

set_option autoImplicit false

namespace Osdp

namespace Scan

namespace Scanner

/-- The live octets are as many as the count says. -/
theorem length_live (s : Scanner) : s.live.length = s.n := by
  rw [live, List.length_take, s.size, Nat.min_eq_left s.fits]

/-- A cleared buffer has none. -/
@[simp] theorem live_clear (s : Scanner) : s.clear.live = [] := by
  simp [live, clear]

/-- Consuming drops octets from the front of the live ones. -/
theorem live_consume {s : Scanner} {k : ℕ} (h0 : 0 < k) (hk : k ≤ s.n) :
    (s.consume k).live = s.live.drop k ∧ (s.consume k).buf = Window.slide k s.n s.buf := by
  have hcond : ¬ (k = 0 ∨ k > s.n) := by omega
  have hsize : s.n ≤ s.buf.length := by
    rw [s.size]
    exact s.fits
  unfold consume live
  rw [dif_neg hcond]
  exact ⟨Window.take_slide hsize hk, rfl⟩

/-- Consuming leaves the rest. -/
theorem live_consume_suffix (s : Scanner) (k : ℕ) : (s.consume k).live <:+ s.live := by
  by_cases h : k = 0 ∨ k > s.n
  · simp [consume, h]
  · rw [(live_consume (by omega) (by omega)).1]
    exact List.drop_suffix _ _

/-- A read adds to them. -/
theorem live_fill (s : Scanner) (octets : Octets) (h : s.n + octets.length ≤ maxFrame) :
    (s.fill octets h).live = s.live ++ octets := by
  rw [live]
  simp only [fill]
  exact List.take_left' (by rw [List.length_append, s.length_live])

/-- Resynchronising drops octets from the front of the live ones, one at least. -/
theorem live_resync (s : Scanner) :
    s.resync.2.live <:+ s.live ∧ (0 < s.n → s.resync.2.n < s.n) := by
  unfold resync
  split
  · rename_i i hi
    refine ⟨live_consume_suffix s _, fun hn => ?_⟩
    unfold consume
    split
    · exact hn
    · simp only
      omega
  · exact ⟨by simp, fun hn => hn⟩

end Scanner

/-- Any fuel above the number of live octets gives the same verdict. -/
theorem settleLoop_fuel {fuel fuel' : ℕ} {s : Scanner} (h : s.n < fuel) (h' : s.n < fuel') :
    settleLoop fuel s = settleLoop fuel' s := by
  induction fuel generalizing fuel' s with
  | zero => omega
  | succ fuel ih =>
    cases fuel' with
    | zero => omega
    | succ fuel' =>
      by_cases hn : s.n = 0
      · simp [settleLoop, hn]
      · simp only [settleLoop, if_neg hn]
        split
        · rfl
        · rfl
        · rfl
        · have hlt := s.live_resync.2 (Nat.pos_of_ne_zero hn)
          split
          · rename_i t ht
            rw [ht] at hlt
            simp only at hlt
            exact ih (by omega) (by omega)
          · rfl

/-- The loop as the source writes it. -/
theorem settle_eq (s : Scanner) :
    settle s =
      if s.n = 0 then (.short, s)
      else
        match decode s.live with
        | .ok f => (.frame f, s.consume f.wireLen)
        | .badCheck f => (.badCheck f, s.consume f.wireLen)
        | .error .shortBuffer => (.short, s)
        | .error e => if s.resync.1 then settle s.resync.2 else (.rubbish e, s.resync.2) := by
  by_cases hn : s.n = 0
  · simp [settle, settleLoop, hn]
  · have hlt := s.live_resync.2 (Nat.pos_of_ne_zero hn)
    -- the fuel left is still above the number of octets a resynchronisation leaves
    have hagain : settleLoop s.n s.resync.2 = settle s.resync.2 :=
      settleLoop_fuel hlt (Nat.lt_succ_self _)
    rw [settle, settleLoop, if_neg hn, if_neg hn]
    generalize s.resync = r at hagain
    obtain ⟨found, t⟩ := r
    cases decode s.live with
    | ok f => rfl
    | badCheck f => rfl
    | error e => cases e <;> cases found <;> first | rfl | exact hagain

/-- Induction along the part of the loop that reads nothing: the buffer is empty, a frame is
decoded and consumed, the frame has not all arrived, or rubbish is dropped and either something
that may start a frame is left or nothing is. -/
theorem settle_induction {motive : Scanner → Verdict × Scanner → Prop}
    (empty : ∀ s : Scanner, s.n = 0 → motive s (.short, s))
    (frame : ∀ (s : Scanner) f, decode s.live = .ok f → motive s (.frame f, s.consume f.wireLen))
    (badCheck : ∀ (s : Scanner) f, decode s.live = .badCheck f →
      motive s (.badCheck f, s.consume f.wireLen))
    (short : ∀ s : Scanner, decode s.live = .error .shortBuffer → motive s (.short, s))
    (rubbish : ∀ (s : Scanner) e, 0 < s.n → decode s.live = .error e → e ≠ .shortBuffer →
      s.resync.1 = false → motive s (.rubbish e, s.resync.2))
    (drops : ∀ (s : Scanner) e, 0 < s.n → decode s.live = .error e → e ≠ .shortBuffer →
      s.resync.1 = true → motive s.resync.2 (settle s.resync.2) → motive s (settle s.resync.2))
    (s : Scanner) : motive s (settle s) := by
  -- each resynchronisation leaves fewer live octets
  induction hn : s.n using Nat.strong_induction_on generalizing s with
  | _ n ih =>
    rw [settle_eq]
    by_cases h0 : s.n = 0
    · rw [if_pos h0]
      exact empty s h0
    · have hpos := Nat.pos_of_ne_zero h0
      rw [if_neg h0]
      split
      · rename_i f hf
        exact frame s f hf
      · rename_i f hf
        exact badCheck s f hf
      · rename_i hf
        exact short s hf
      · rename_i e hshort he
        have hne : e ≠ .shortBuffer := fun h => hshort (h ▸ rfl)
        split
        · rename_i hfound
          have hlt := s.live_resync.2 hpos
          exact drops s e hpos he hne hfound (ih s.resync.2.n (by omega) s.resync.2 rfl)
        · rename_i hfound
          exact rubbish s e hpos he hne (Bool.eq_false_iff.mpr hfound)

/-- What a verdict says of the live octets: a frame was decoded from a tail of them and consumed,
and otherwise a tail of them is left. -/
def Settles (s : Scanner) : Verdict × Scanner → Prop
  | (.frame f, e) => ∃ t : Scanner, t.live <:+ s.live ∧ decode t.live = .ok f ∧
      e = t.consume f.wireLen
  | (_, e) => e.live <:+ s.live

/-- **What settling does to the buffer.** -/
theorem settle_spec (s : Scanner) : Settles s (settle s) := by
  apply settle_induction (motive := Settles)
  · exact fun s _ => List.suffix_rfl
  · exact fun s f hf => ⟨s, List.suffix_rfl, hf, rfl⟩
  · exact fun s f _ => s.live_consume_suffix _
  · exact fun s _ => List.suffix_rfl
  · exact fun s e _ _ _ _ => s.live_resync.1
  · intro s e _ _ _ _ hrest
    have hsuffix := s.live_resync.1
    revert hrest
    generalize settle s.resync.2 = r
    obtain ⟨v, e⟩ := r
    cases v with
    | frame f =>
      rintro ⟨t, ht, hf, he⟩
      exact ⟨t, ht.trans hsuffix, hf, he⟩
    | badCheck f => exact fun h => h.trans hsuffix
    | rubbish e => exact fun h => h.trans hsuffix
    | short => exact fun h => h.trans hsuffix

/-- A turn that returns a frame decoded it from a tail of the live octets; a turn that goes on to
read has a tail of them left. -/
theorem turn_spec (stops : Bool) (s : Scanner) :
    (∀ f e, turn stops s = .returns (.frame f) e →
      ∃ t : Scanner, t.live <:+ s.live ∧ decode t.live = .ok f ∧ e = t.consume f.wireLen) ∧
    (∀ e, turn stops s = .reads e → e.live <:+ s.live) := by
  have hspec := settle_spec s
  unfold turn
  revert hspec
  generalize settle s = r
  obtain ⟨v, e⟩ := r
  intro hspec
  cases v with
  | frame f =>
    refine ⟨?_, by simp⟩
    rintro f' e' h
    cases h
    exact hspec
  | badCheck f => simp
  | rubbish err =>
    cases stops with
    | true => simp
    | false =>
      refine ⟨by simp, ?_⟩
      rintro e' h
      cases h
      exact hspec
  | short =>
    refine ⟨fun f e' h => ?_, fun e' h => ?_⟩
    · simp only at h
      split at h
      · split at h <;> cases h
      · cases h
    · simp only at h
      split at h
      · split at h
        · cases h
        · cases h
          simp
      · cases h
        exact hspec

/-- Induction along a call: a turn returns, or it goes on to a read, which fails, delivers nothing,
or is followed by the rest of the call. -/
theorem nextWith_induction {stops : Bool}
    {motive : Scanner → Octets → List ℕ → Result × Scanner × Port → Prop}
    (returns : ∀ s stream reads r e, turn stops s = .returns r e →
      motive s stream reads (r, e, ⟨stream, reads⟩))
    (failed : ∀ s stream t, turn stops s = .reads t →
      motive s stream [] (.portFailed, t, ⟨stream, []⟩))
    (timeout : ∀ s stream k reads t, turn stops s = .reads t →
      stream.take (min k (maxFrame - t.n)) = [] →
      motive s stream (k :: reads) (.timeout, t, ⟨stream, reads⟩))
    (more : ∀ s stream k j reads t u res, turn stops s = .reads t → j = min k (maxFrame - t.n) →
      stream.take j ≠ [] → u.live = t.live ++ stream.take j → motive u (stream.drop j) reads res →
      motive s stream (k :: reads) res)
    (s : Scanner) (stream : Octets) (reads : List ℕ) :
    motive s stream reads (nextWith stops s stream reads) := by
  induction reads generalizing s stream with
  | nil =>
    unfold nextWith
    split
    · rename_i r e hturn
      exact returns s stream [] r e hturn
    · rename_i t hturn
      exact failed s stream t hturn
  | cons k reads ih =>
    unfold nextWith
    split
    · rename_i r e hturn
      exact returns s stream _ r e hturn
    · rename_i t hturn
      simp only
      split
      · rename_i hnothing
        have hrest : stream.drop (min k (maxFrame - t.n)) = stream := by
          conv_rhs => rw [← List.take_append_drop (min k (maxFrame - t.n)) stream, hnothing]
          rfl
        rw [hrest]
        exact timeout s stream k reads t hturn hnothing
      · rename_i hsome
        exact more s stream k _ reads t _ _ hturn rfl hsome (t.live_fill _ _) (ih _ _)

/-- Where the frame of a call stood on the line, if the call returned one. -/
def Stood (s : Scanner) (stream : Octets) (_ : List ℕ) (res : Result × Scanner × Port) : Prop :=
  ∀ f, res.1 = .frame f → ∃ (t : Scanner) (dropped : Octets),
    s.live ++ stream = dropped ++ t.live ++ res.2.2.stream ∧ decode t.live = .ok f ∧
      res.2.1 = t.consume f.wireLen

/-- **What `next` returns stood on the line.** A frame was decoded from the live octets of some
state of the buffer, those are what the port delivered last, and the frame was then consumed. -/
theorem nextWith_frame {stops : Bool} {s e : Scanner} {stream : Octets} {reads : List ℕ} {f : Frame}
    {port : Port} (h : nextWith stops s stream reads = (.frame f, e, port)) :
    ∃ (t : Scanner) (dropped : Octets), s.live ++ stream = dropped ++ t.live ++ port.stream ∧
      decode t.live = .ok f ∧ e = t.consume f.wireLen := by
  have hstood : Stood s stream reads (nextWith stops s stream reads) := by
    refine nextWith_induction (motive := Stood) ?_ ?_ ?_ ?_ s stream reads
    · rintro s stream reads r e hturn f rfl
      obtain ⟨t, ⟨dropped, hd⟩, hf, rfl⟩ := (turn_spec stops s).1 f e hturn
      exact ⟨t, dropped, by rw [← hd], hf, rfl⟩
    · rintro s stream t - f ⟨⟩
    · rintro s stream k reads t - - f ⟨⟩
    · rintro s stream k j reads t u res hturn - - hlive ih f hf
      obtain ⟨gone, hgone⟩ := (turn_spec stops s).2 t hturn
      obtain ⟨v, dropped, hline, hdec, he⟩ := ih f hf
      rw [hlive, List.append_assoc, List.take_append_drop] at hline
      exact ⟨v, gone ++ dropped, by rw [← hgone, List.append_assoc, hline]; simp, hdec, he⟩
  rw [h] at hstood
  exact hstood f rfl

end Scan

/-- The positions of a frame's octets that its ranges denote. -/
def Frame.Holds (f : Frame) (i : ℕ) : Prop :=
  f.dataSlice.Has i ∨ ∃ s, f.security = some s ∧ (f.securitySlice s).Has i

/-- Whether the octets behind a frame, moved to its front, leave the octets it holds as they
are. -/
def Frame.Spared (f : Frame) (wire following : Octets) : Prop :=
  ∀ i, f.Holds i → i < following.length → following[i]? = wire[i]?

namespace Scan

/-- Consuming a frame leaves it readable exactly when it is spared by what follows it. -/
theorem readBack_consume {t : Scanner} {f : Frame} (h : (decode t.live).frame? = some f) :
    f.readBack (t.consume f.wireLen).buf = f ↔
      f.Spared (t.live.take f.wireLen) (t.live.drop f.wireLen) := by
  have hread : Read t.live f := decode_frame h
  have hw : f.wireLen ≤ t.n := by
    rw [← t.length_live]
    exact hread.wireLen_le
  have hpos : 0 < f.wireLen := by
    rw [f.wireLen_eq]
    have := f.len_pos
    omega
  have hn : t.n ≤ t.buf.length := by
    rw [t.size]
    exact t.fits
  have hfollow : (t.live.drop f.wireLen).length = t.n - f.wireLen := by
    rw [List.length_drop, t.length_live]
  -- a range inside the frame denotes the same in the buffer as in its live part
  have hslice : ∀ r : Window.Slice, r.start + r.length ≤ f.wireLen →
      (r.of (Window.slide f.wireLen t.n t.buf) = r.of t.live ↔
        ∀ i, r.Has i → i < (t.live.drop f.wireLen).length →
          (t.live.drop f.wireLen)[i]? = (t.live.take f.wireLen)[i]?) := by
    intro r hr
    rw [Scanner.live, r.of_take (hr.trans hw), Window.slice_slide_iff hn hw, ← Scanner.live, hfollow]
    refine forall_congr' fun i => imp_congr_right fun hi => imp_congr_right fun hlt => ?_
    have hi' : i < f.wireLen := Nat.lt_of_lt_of_le hi.2 hr
    rw [List.getElem?_drop, List.getElem?_take_of_lt hi', Scanner.live,
      List.getElem?_take_of_lt (by omega), List.getElem?_take_of_lt (by omega)]
  obtain ⟨hdata, hsec⟩ := (f.readBack_eq_iff t.live).mp hread.readBack
  rw [(Scanner.live_consume hpos hw).2, f.readBack_eq_iff]
  constructor
  · rintro ⟨hd, hs⟩ i (hi | ⟨s, hfs, hi⟩) hlt
    · exact (hslice _ f.dataSlice_le).mp (hd.trans hdata.symm) i hi hlt
    · exact (hslice _ (Frame.securitySlice_le hfs)).mp ((hs s hfs).trans (hsec s hfs).symm) i hi hlt
  · intro hspared
    refine ⟨?_, fun s hfs => ?_⟩
    · rw [← hdata]
      exact (hslice _ f.dataSlice_le).mpr fun i hi => hspared i (.inl hi)
    · rw [← hsec s hfs]
      exact (hslice _ (Frame.securitySlice_le hfs)).mpr fun i hi => hspared i (.inr ⟨s, hfs, hi⟩)

end Scan

/-- **Assembled frames survive, exactly when what follows them spares them.** Whatever is in the
buffer, whatever the port delivers and however it splits it: the octets of a frame that `next`
returns without error stood on the line, between octets that were dropped and octets that the
same read delivered after it, and the frame reads back as those octets, its error check
included, if and only if none of the latter changes an octet of its payload or security block
when they are moved to the front of the buffer. -/
theorem assembled_frame_survives_iff (s e : Scan.Scanner) (port port' : Scan.Port) (f : Frame)
    (h : Panel.next s port = (.frame f, e, port') ∨ Pd.next s port = (.frame f, e, port')) :
    ∃ dropped wire following,
      s.live ++ port.stream = dropped ++ wire ++ following ++ port'.stream ∧
      decode wire = .ok f ∧ wire.length = f.wireLen ∧ e.live = following ∧
      (f.readBack e.buf = f ↔ f.Spared wire following) ∧
      (f.Spared wire following → (f.readBack e.buf).checkOK = true) := by
  obtain ⟨stops, hnext⟩ : ∃ stops, Scan.nextWith stops s port.stream port.reads =
      (.frame f, e, port') := by
    rcases h with h | h
    · exact ⟨true, h⟩
    · exact ⟨false, h⟩
  obtain ⟨t, dropped, hline, hf, rfl⟩ := Scan.nextWith_frame hnext
  have hread : Read t.live f := decode_frame (by rw [hf]; rfl)
  have hpos : 0 < f.wireLen := by
    rw [f.wireLen_eq]
    have := f.len_pos
    omega
  have hw : f.wireLen ≤ t.n := by
    rw [← t.length_live]
    exact hread.wireLen_le
  have hsurvives := Scan.readBack_consume (t := t) (f := f) (by rw [hf]; rfl)
  refine ⟨dropped, t.live.take f.wireLen, t.live.drop f.wireLen, ?_, ?_, ?_, ?_, hsurvives, ?_⟩
  · rw [hline, List.append_assoc dropped (List.take _ _), List.take_append_drop]
  · rw [hread.take, hf]
  · rw [List.length_take, Nat.min_eq_left hread.wireLen_le]
  · exact (Scan.Scanner.live_consume hpos hw).1
  · intro hspared
    rw [hsurvives.mpr hspared]
    exact decode_checkOK hf

/-! ## Sample traffic -/

/-- The reply to a poll that reports a card. -/
def cardReply : Frame :=
  { isReply := true, address := 1, control := ⟨1⟩, code := 0x50
    data := [0x00, 0x01, 0x20, 0x00, 0xDE, 0xAD, 0xBE, 0xEF], check := 0x73 }

/-- That reply as it stands on the line, and an acknowledgement behind it. -/
def twoReplies : Octets :=
  [0x53, 0x81, 0x0F, 0x00, 0x01, 0x50, 0x00, 0x01, 0x20, 0x00, 0xDE, 0xAD, 0xBE, 0xEF, 0x73] ++
    [0x53, 0x81, 0x07, 0x00, 0x02, 0x40, 0xE3]

/-- The first read brings the card and five octets of what follows it. They land before its payload,
and the card reads as it was sent. -/
theorem assembled_frame_survives_followed :
    (Panel.next Scan.new ⟨twoReplies, [20, 2]⟩).1 = .frame cardReply ∧
      (Panel.next Scan.new ⟨twoReplies, [20, 2]⟩).2.1.live = [0x53, 0x81, 0x07, 0x00, 0x02] ∧
      cardReply.readBack (Panel.next Scan.new ⟨twoReplies, [20, 2]⟩).2.1.buf = cardReply := by
  have hnext : (Panel.next Scan.new ⟨twoReplies, [20, 2]⟩).1 = .frame cardReply := by
    decide +kernel
  have hbehind : (Panel.next Scan.new ⟨twoReplies, [20, 2]⟩).2.1.live =
      [0x53, 0x81, 0x07, 0x00, 0x02] := by decide +kernel
  obtain ⟨dropped, wire, following, -, -, -, hlive, hiff, -⟩ :=
    assembled_frame_survives_iff Scan.new (Panel.next Scan.new ⟨twoReplies, [20, 2]⟩).2.1
      ⟨twoReplies, [20, 2]⟩ (Panel.next Scan.new ⟨twoReplies, [20, 2]⟩).2.2 cardReply
      (.inl (Prod.ext hnext rfl))
  rw [hbehind] at hlive
  subst hlive
  refine ⟨hnext, hbehind, hiff.mpr fun i hholds hi => ?_⟩
  have hpayload : 6 ≤ i := by
    obtain h | ⟨block, hsec, -⟩ := hholds
    · exact h.1
    · cases hsec
  simp only [List.length_cons, List.length_nil] at hi
  omega

/-- The card was returned, and its payload starts with the error check of what follows it. -/
def CardOverwritten (r : Scan.Result × Scan.Scanner × Scan.Port) : Prop :=
  r.1 = .frame cardReply ∧
    (cardReply.readBack r.2.1.buf).data = [0xE3, 0x01, 0x20, 0x00, 0xDE, 0xAD, 0xBE, 0xEF] ∧
    (cardReply.readBack r.2.1.buf).checkOK = false

instance : DecidablePred CardOverwritten := fun _ => inferInstanceAs (Decidable (_ ∧ _))

/-- Both replies arrive in one read. The reader and the scanner return the first, and by then
its payload starts with the error check of the second. -/
theorem following_reply_overwrites_payload :
    CardOverwritten (Panel.next Scan.new ⟨twoReplies, [22]⟩) ∧
      CardOverwritten (Pd.next Scan.new ⟨twoReplies, [22]⟩) := by
  decide +kernel

end Osdp
