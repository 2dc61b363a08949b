import Osdp.Analysis.Assembly
import Osdp.Analysis.WireFormat
import Osdp.Library.Resumable

/-!
# Frames do not depend on how the line was read

`front` is what both loops do with the octets that have arrived, said of a stream rather than of
a buffer: take a frame, drop an octet that starts none, drop a buffer's worth that a length field
asks to be exceeded, or wait. A loop skips from one possible start to the next, which is the same
as dropping octet by octet. Since the decoder's answer stands whatever follows, the front is
`Resumable.Stable`, and the frames a loop returns are those of the stream scanned at once
(`assembled`), wherever the reads fell.
-/

set_option autoImplicit false

namespace Osdp

open Resumable (scan scan_of_waits scan_of_drops scan_append scan_append_of_quiet)

namespace Scan

/-- Whether a call returned a frame, good or with `ErrBadCheck`. -/
def Result.hasFrame : Result → Bool
  | .frame _ | .badCheck _ => true
  | .failed _ | .timeout | .portFailed => false

/-- What the front of a stream amounts to, and how many octets go with it. -/
def front (l : Octets) : Option (Option Result × ℕ) :=
  match decode (l.take maxFrame) with
  | .ok f => some (some (.frame f), f.wireLen)
  | .badCheck f => some (some (.badCheck f), f.wireLen)
  | .error .shortBuffer => if l.length < maxFrame then none else some (none, maxFrame)
  | .error _ => some (none, 1)

/-- The frames of a stream. -/
def assembled (stream : Octets) : List Result := (scan front stream).1

/-! ## The front of a stream -/

variable {l : Octets} {f : Frame} {r : Result} {s : Scanner} {port : Port}
  {next : Scanner → Port → Result × Scanner × Port}

/-- A frame that was found lies in the buffer. -/
theorem wireLen_bounds (h : (decode (l.take maxFrame)).frame? = some f) :
    0 < f.wireLen ∧ f.wireLen ≤ l.length := by
  have hle := (decode_frame h).wireLen_le
  rw [List.length_take] at hle
  refine ⟨?_, by omega⟩
  rw [f.wireLen_eq]
  have := f.len_pos
  omega

/-- What is taken from the front lies in it. -/
theorem front_drops {o : Option Result} {k : ℕ} (h : front l = some (o, k)) :
    0 < k ∧ k ≤ l.length := by
  unfold front at h
  split at h
  · rename_i f hf
    cases h
    exact wireLen_bounds (by rw [hf]; rfl)
  · rename_i f hf
    cases h
    exact wireLen_bounds (by rw [hf]; rfl)
  · split at h
    · cases h
    · cases h
      exact ⟨by decide, by omega⟩
  · rename_i e hshort he
    cases h
    refine ⟨Nat.one_pos, List.length_pos_iff.mpr ?_⟩
    rintro rfl
    rw [List.take_nil] at he
    cases he
    exact hshort rfl

/-- A decision about the first buffer's worth of a stream stands whatever follows. -/
theorem decode_take_extend (m : Octets)
    (h : decode (l.take maxFrame) ≠ .error .shortBuffer ∨ maxFrame ≤ l.length) :
    decode ((l ++ m).take maxFrame) = decode (l.take maxFrame) := by
  rw [List.take_append]
  by_cases hl : maxFrame ≤ l.length
  · rw [Nat.sub_eq_zero_of_le hl, List.take_zero, List.append_nil]
  · exact decode_extend (h.resolve_right hl) _

/-- More octets do not change what the front is. -/
theorem front_stands {r : Option Result × ℕ} (h : front l = some r) (m : Octets) :
    front (l ++ m) = some r := by
  by_cases hs : decode (l.take maxFrame) = .error .shortBuffer
  · have hl : maxFrame ≤ l.length := by
      by_contra hno
      simp only [front, hs, if_pos (Nat.lt_of_not_le hno)] at h
      cases h
    rw [← h, front, front, decode_take_extend m (.inr hl), hs]
    simp only [List.length_append, Nat.not_lt.mpr hl,
      Nat.not_lt.mpr (hl.trans (Nat.le_add_right _ _)), if_false]
  · rw [← h, front, front, decode_take_extend m (.inl hs)]
    -- only a short buffer looks at the length
    generalize decode (l.take maxFrame) = r at hs ⊢
    cases r with
    | ok f => rfl
    | badCheck f => rfl
    | error e => cases e <;> first | rfl | exact absurd rfl hs

/-- The front is stable. -/
theorem front_stable : Resumable.Stable front where
  drops := front_drops
  stands h m := front_stands h m

/-- An octet that starts no frame is dropped. -/
theorem scan_noise {p : Octets} (hp : ∀ b ∈ p, (b == som || b == mark) = false) (q : Octets) :
    scan front (p ++ q) = scan front q := by
  induction p with
  | nil => rfl
  | cons b p ih =>
    have hb := hp b List.mem_cons_self
    simp only [Bool.or_eq_false_iff, beq_eq_false_iff_ne, ne_eq] at hb
    have hfront : front (b :: (p ++ q)) = some (none, 1) := by
      have hdec : decode ((b :: (p ++ q)).take maxFrame) = .error .noStartOfMessage := by
        simp [maxFrame, decode, decodeBody, hb]
      simp only [front, hdec]
    rw [List.cons_append, scan_of_drops front_stable hfront]
    exact ih fun c hc => hp c (List.mem_cons_of_mem _ hc)

/-! ## One turn of the loop -/

namespace Scanner

/-- The live octets fit the buffer. -/
theorem take_live (s : Scanner) : s.live.take maxFrame = s.live :=
  List.take_of_length_le (by rw [s.length_live]; exact s.fits)

/-- A cleared buffer is empty. -/
@[simp] theorem n_clear (s : Scanner) : s.clear.n = 0 := rfl

/-- Skipping to the next possible start is dropping octet by octet. -/
theorem scan_resync {s : Scanner} {e : DecodeError} (h : decode s.live = .error e)
    (he : e ≠ .shortBuffer) : scan front s.live = scan front s.resync.2.live ∧
      (s.resync.1 = false → s.resync.2.live = []) := by
  have hfront : front s.live = some (none, 1) := by
    unfold front
    rw [s.take_live, h]
    cases e <;> first | rfl | exact absurd rfl he
  have hdrop : scan front s.live = scan front (s.live.drop 1) := by
    rw [scan_of_drops front_stable hfront]
    rfl
  have hlen := s.length_live
  rw [hdrop]
  unfold resync
  split
  · rename_i i hi
    obtain ⟨hlt, -, hbefore⟩ := List.findIdx?_eq_some_iff_getElem.mp hi
    rw [List.length_drop] at hlt
    refine ⟨?_, by simp⟩
    simp only
    rw [(live_consume (s := s) (k := i + 1) (by omega) (by omega)).1, Nat.add_comm i 1,
      ← List.drop_drop]
    conv_lhs => rw [← List.take_append_drop i (s.live.drop 1)]
    refine scan_noise (fun b hb => ?_) _
    obtain ⟨j, hj, rfl⟩ := List.mem_take_iff_getElem.mp hb
    exact Bool.eq_false_iff.mpr (hbefore j (by omega))
  · rename_i hnone
    refine ⟨?_, by simp⟩
    have hquiet := scan_noise (List.findIdx?_eq_none_iff.mp hnone) []
    rw [List.append_nil] at hquiet
    rw [hquiet, live_clear]

end Scanner

/-- A frame that was taken from the live octets is what the scan of them gives first. -/
theorem scan_consume (hf : (decode s.live).frame? = some f)
    (hfront : front s.live = some (some r, f.wireLen)) :
    scan front s.live =
      (r :: (scan front (s.consume f.wireLen).live).1, (scan front (s.consume f.wireLen).live).2) ∧
    (s.consume f.wireLen).n < s.n := by
  obtain ⟨hpos, hle⟩ := wireLen_bounds (by rw [s.take_live]; exact hf)
  rw [s.length_live] at hle
  have hlive := (Scanner.live_consume hpos hle).1
  refine ⟨?_, ?_⟩
  · rw [hlive, scan_of_drops front_stable hfront]
    rfl
  · rw [← Scanner.length_live, hlive, List.length_drop, s.length_live]
    omega

/-- What a verdict says of the scan of the live octets. -/
def Advances (s : Scanner) : Verdict × Scanner → Prop
  | (.frame f, e) => scan front s.live = (.frame f :: (scan front e.live).1, (scan front e.live).2) ∧
      e.n < s.n
  | (.badCheck f, e) =>
      scan front s.live = (.badCheck f :: (scan front e.live).1, (scan front e.live).2) ∧ e.n < s.n
  | (.rubbish _, e) => scan front s.live = ([], []) ∧ e.live = [] ∧ 0 < s.n
  | (.short, e) => scan front s.live = scan front e.live ∧ e.n ≤ s.n ∧
      decode e.live = .error .shortBuffer

/-- Settling takes what the front decides. -/
theorem settle_advances (s : Scanner) : Advances s (settle s) := by
  apply settle_induction (motive := Advances)
  · intro s h0
    have hempty : s.live = [] := List.eq_nil_of_length_eq_zero (by rw [s.length_live, h0])
    exact ⟨rfl, Nat.le_refl _, by rw [hempty]; rfl⟩
  · exact fun s f hf => scan_consume (by rw [hf]; rfl) (by rw [front, s.take_live, hf])
  · exact fun s f hf => scan_consume (by rw [hf]; rfl) (by rw [front, s.take_live, hf])
  · exact fun s hf => ⟨rfl, Nat.le_refl _, hf⟩
  · intro s e hpos he hshort hfound
    obtain ⟨hscan, hnone⟩ := Scanner.scan_resync he hshort
    have hempty := hnone hfound
    exact ⟨by rw [hscan, hempty]; rfl, hempty, hpos⟩
  · intro s e hpos he hshort _ hrest
    have hscan := (Scanner.scan_resync he hshort).1
    have hlt := s.live_resync.2 hpos
    revert hrest
    generalize settle s.resync.2 = r
    obtain ⟨v, t⟩ := r
    cases v with
    | frame f => exact fun h => ⟨hscan.trans h.1, h.2.trans hlt⟩
    | badCheck f => exact fun h => ⟨hscan.trans h.1, h.2.trans hlt⟩
    | rubbish e => exact fun h => ⟨hscan.trans h.1, h.2.1, hpos⟩
    | short => exact fun h => ⟨hscan.trans h.1, h.2.1.trans hlt.le, h.2.2⟩

/-- A buffer that waits has room, or is dropped as a whole. -/
theorem scan_short (h : decode s.live = .error .shortBuffer) :
    scan front s.live = if s.n = maxFrame then ([], []) else ([], s.live) := by
  have hfits := s.fits
  split
  · rename_i hfull
    have hfront : front s.live = some (none, maxFrame) := by
      simp only [front, s.take_live, h, s.length_live, hfull, Nat.lt_irrefl, if_false]
    rw [scan_of_drops front_stable hfront,
      List.drop_eq_nil_of_le (by rw [s.length_live, hfull])]
    rfl
  · rename_i hroom
    apply scan_of_waits
    simp only [front, s.take_live, h, s.length_live]
    rw [if_pos (by omega)]

/-- What a turn of the loop says of the scan of the live octets. A turn that goes on to read
leaves octets that wait, and room to read into. -/
def Turns (s : Scanner) : Turn → Prop
  | .returns r e => scan front s.live =
        ([r].filter Result.hasFrame ++ (scan front e.live).1, (scan front e.live).2) ∧
      (r.hasFrame = false → e.live = []) ∧ e.n < s.n ∧ r ≠ .portFailed
  | .reads e => scan front s.live = ([], e.live) ∧ scan front e.live = ([], e.live) ∧
      e.n ≤ s.n ∧ e.n < maxFrame

/-- **What a turn of the loop does.** -/
theorem turn_turns (stops : Bool) (s : Scanner) : Turns s (turn stops s) := by
  have hadv := settle_advances s
  unfold turn
  revert hadv
  generalize settle s = r
  obtain ⟨v, e⟩ := r
  cases v with
  | frame f => exact fun h => ⟨h.1, by simp [Result.hasFrame], h.2, by simp⟩
  | badCheck f => exact fun h => ⟨h.1, by simp [Result.hasFrame], h.2, by simp⟩
  | rubbish err =>
    rintro ⟨hscan, hempty, hpos⟩
    have hn : e.n = 0 := by rw [← e.length_live, hempty]; rfl
    cases stops with
    | true => exact ⟨by rw [hscan, hempty]; rfl, fun _ => hempty, by omega, by simp⟩
    | false =>
      refine ⟨by rw [hscan, hempty], by rw [hempty]; rfl, by omega, ?_⟩
      rw [hn]
      decide
  | short =>
    rintro ⟨hscan, hle, hshort⟩
    have hwait := scan_short hshort
    simp only
    split
    · rename_i hfull
      rw [if_pos hfull] at hwait
      have hpos : 0 < e.n := by rw [hfull]; decide
      cases stops with
      | true =>
        exact ⟨by rw [hscan, hwait, Scanner.live_clear]; rfl, fun _ => Scanner.live_clear e,
          by simp only [Scanner.n_clear]; omega, by simp⟩
      | false =>
        refine ⟨by rw [hscan, hwait, Scanner.live_clear], by rw [Scanner.live_clear]; rfl,
          Nat.zero_le _, ?_⟩
        rw [Scanner.n_clear]
        decide
    · rename_i hroom
      rw [if_neg hroom] at hwait
      exact ⟨hscan.trans hwait, hwait, hle, Nat.lt_of_le_of_ne e.fits hroom⟩

/-! ## One call -/

/-- What a call says of the scan of the octets it took in: it returns the first frame of them, and
leaves nothing when it returns none. -/
def Returned (s : Scanner) (stream : Octets) (_ : List ℕ) (res : Result × Scanner × Port) : Prop :=
  ∃ d, stream = d ++ res.2.2.stream ∧
    scan front (s.live ++ d) =
      ([res.1].filter Result.hasFrame ++ (scan front res.2.1.live).1,
        (scan front res.2.1.live).2) ∧
    (res.1.hasFrame = false → (scan front res.2.1.live).1 = [])

/-- A call without a frame leaves what it found. -/
theorem returned_quiet {t : Scanner} {stream : Octets} {reads : List ℕ} (hr : r.hasFrame = false)
    (hport : port.stream = stream) (hscan : scan front s.live = ([], t.live))
    (hquiet : scan front t.live = ([], t.live)) : Returned s stream reads (r, t, port) := by
  refine ⟨[], hport.symm, ?_, fun _ => by rw [hquiet]⟩
  rw [List.append_nil, hscan, hquiet]
  simp [hr]

/-- **A call returns what the scan of the octets it took in gives first.** -/
theorem nextWith_returned (stops : Bool) (s : Scanner) (stream : Octets) (reads : List ℕ) :
    Returned s stream reads (nextWith stops s stream reads) := by
  refine nextWith_induction (motive := Returned) ?_ ?_ ?_ ?_ s stream reads
  · intro s stream reads r e hturn
    have hspec := turn_turns stops s
    rw [hturn] at hspec
    refine ⟨[], rfl, ?_, fun hno => ?_⟩
    · rw [List.append_nil]
      exact hspec.1
    · simp only [hspec.2.1 hno]
      rfl
  · intro s stream t hturn
    have hspec := turn_turns stops s
    rw [hturn] at hspec
    exact returned_quiet rfl rfl hspec.1 hspec.2.1
  · intro s stream k reads t hturn _
    have hspec := turn_turns stops s
    rw [hturn] at hspec
    exact returned_quiet rfl rfl hspec.1 hspec.2.1
  · rintro s stream k j reads t u res hturn - - hlive ⟨d, hd, hscan, hlast⟩
    have hspec := turn_turns stops s
    rw [hturn] at hspec
    refine ⟨stream.take j ++ d, ?_, ?_, hlast⟩
    · rw [List.append_assoc, ← hd, List.take_append_drop]
    · rw [scan_append_of_quiet front_stable hspec.1, ← List.append_assoc, ← hlive, hscan]

/-- What is left for a loop to work on. -/
def pending (s : Scanner) (port : Port) : ℕ := s.n + port.stream.length + port.reads.length

/-- A port error comes when the port has no read left, and any other return leaves less to work on.
Reads that all ask for something are enough for a stream when there are as many of them as it
has octets. -/
def Progresses (s : Scanner) (stream : Octets) (reads : List ℕ)
    (res : Result × Scanner × Port) : Prop :=
  (res.1 = .portFailed → res.2.2.reads = []) ∧
  (res.1 ≠ .portFailed → pending res.2.1 res.2.2 < pending s ⟨stream, reads⟩) ∧
  ((∀ k ∈ reads, 0 < k) → (∀ k ∈ res.2.2.reads, 0 < k) ∧
    (stream.length ≤ reads.length → res.2.2.stream.length ≤ res.2.2.reads.length))

/-- **What a call of `next` does**, whatever the reads. -/
theorem nextWith_progresses (stops : Bool) (s : Scanner) (stream : Octets) (reads : List ℕ) :
    Progresses s stream reads (nextWith stops s stream reads) := by
  refine nextWith_induction (motive := Progresses) ?_ ?_ ?_ ?_ s stream reads
  · intro s stream reads r e hturn
    have hspec := turn_turns stops s
    rw [hturn] at hspec
    obtain ⟨-, -, hlt, hne⟩ := hspec
    exact ⟨fun h => absurd h hne, fun _ => by simp only [pending]; omega, fun h => ⟨h, fun h => h⟩⟩
  · intro s stream t hturn
    exact ⟨fun _ => rfl, fun h => absurd rfl h, fun h => ⟨h, fun h => h⟩⟩
  · intro s stream k reads t hturn hnothing
    have hspec := turn_turns stops s
    rw [hturn] at hspec
    obtain ⟨-, -, hle, hroom⟩ := hspec
    refine ⟨nofun, fun _ => ?_, fun hpos => ⟨fun k hk => hpos k (List.mem_cons_of_mem _ hk), fun _ => ?_⟩⟩
    · simp only [pending, List.length_cons]
      omega
    · have hk := hpos k List.mem_cons_self
      have hempty : stream = [] := (List.take_eq_nil_iff.mp hnothing).resolve_left (by omega)
      simp [hempty]
  · rintro s stream k j reads t u res hturn rfl hsome hlive ⟨hfailed, hlt, hreads⟩
    have hspec := turn_turns stops s
    rw [hturn] at hspec
    obtain ⟨-, -, hle, hroom⟩ := hspec
    have hn : u.n = t.n + (stream.take (min k (maxFrame - t.n))).length := by
      rw [← u.length_live, hlive, List.length_append, t.length_live]
    have hsplit := congrArg List.length (List.take_append_drop (min k (maxFrame - t.n)) stream)
    rw [List.length_append] at hsplit
    have hdeliver := List.length_pos_iff.mpr hsome
    refine ⟨hfailed, fun hne => (hlt hne).trans ?_, fun hpos => ?_⟩
    · simp only [pending, List.length_cons]
      omega
    · obtain ⟨hpos', hlen⟩ := hreads fun k hk => hpos k (List.mem_cons_of_mem _ hk)
      refine ⟨hpos', fun hl => hlen ?_⟩
      rw [List.length_cons] at hl
      omega

/-! ## Calls one after the other -/

/-- The results of the first calls of a loop, and what they leave. -/
def calls (next : Scanner → Port → Result × Scanner × Port) :
    ℕ → Scanner → Port → List Result × Scanner × Port
  | 0, s, port => ([], s, port)
  | n + 1, s, port =>
    ((next s port).1 :: (calls next n (next s port).2.1 (next s port).2.2).1,
      (calls next n (next s port).2.1 (next s port).2.2).2)

/-- The loops the calls are made of. -/
def Loop (next : Scanner → Port → Result × Scanner × Port) : Prop :=
  next = Panel.next ∨ next = Pd.next

/-- Both loops are instances of one. -/
theorem Loop.eq_nextWith (h : Loop next) :
    ∃ stops, next = fun s port => nextWith stops s port.stream port.reads := by
  rcases h with rfl | rfl
  · exact ⟨true, rfl⟩
  · exact ⟨false, rfl⟩

/-- **Calls return the frames of the scan of the octets they took in, in order.** -/
theorem calls_scan (hnext : Loop next) (n : ℕ) (s : Scanner) (port : Port) :
    ∃ d, port.stream = d ++ (calls next n s port).2.2.stream ∧
      scan front (s.live ++ d) =
        ((calls next n s port).1.filter Result.hasFrame ++
          (scan front (calls next n s port).2.1.live).1,
        (scan front (calls next n s port).2.1.live).2) ∧
      (∀ r, (calls next n s port).1.getLast? = some r → r.hasFrame = false →
        (scan front (calls next n s port).2.1.live).1 = []) := by
  obtain ⟨stops, rfl⟩ := hnext.eq_nextWith
  induction n generalizing s port with
  | zero => exact ⟨[], rfl, by simp [calls], by simp [calls]⟩
  | succ n ih =>
    obtain ⟨d, hd, hscan, hlast⟩ := nextWith_returned stops s port.stream port.reads
    simp only [calls]
    generalize nextWith stops s port.stream port.reads = res at hd hscan hlast
    obtain ⟨r, e, port'⟩ := res
    obtain ⟨d', hd', hscan', hlast'⟩ := ih e port'
    simp only at hd hscan hlast
    refine ⟨d ++ d', by rw [hd, hd', List.append_assoc], ?_, fun q hq hno => ?_⟩
    · -- what the first call left is scanned with what the others took in
      have hleft := scan_append front_stable e.live d'
      rw [← List.append_assoc, scan_append front_stable, hscan]
      simp only
      rw [hscan', Prod.mk.injEq] at hleft
      rw [List.append_assoc, ← hleft.1, ← hleft.2, ← List.append_assoc, ← List.filter_append]
      rfl
    · rw [List.getLast?_cons, Option.some.injEq] at hq
      cases hrest : (calls (fun s port => nextWith stops s port.stream port.reads) n e port').1.getLast? with
      | some q' =>
        rw [hrest] at hq
        exact hlast' q' hrest (by rw [show q' = q from hq]; exact hno)
      | none =>
        rw [hrest] at hq
        have hzero : n = 0 := by
          cases n with
          | zero => rfl
          | succ n => simp [calls] at hrest
        subst hzero
        exact hlast (by rw [show r = q from hq]; exact hno)

/-- Calls come to an end of the port: it fails when all its reads were made. -/
theorem calls_end (hnext : Loop next) (s : Scanner) (port : Port) (hpos : ∀ k ∈ port.reads, 0 < k) :
    ∃ n, (calls next n s port).1.getLast? = some .portFailed ∧
      (calls next n s port).2.2.reads = [] ∧
      (port.stream.length ≤ port.reads.length → (calls next n s port).2.2.stream = []) := by
  obtain ⟨stops, rfl⟩ := hnext.eq_nextWith
  induction hm : pending s port using Nat.strong_induction_on generalizing s port with
  | _ m ih =>
    obtain ⟨hfailed, hlt, hreads⟩ := nextWith_progresses stops s port.stream port.reads
    obtain ⟨hpos', hlen⟩ := hreads hpos
    by_cases hr : (nextWith stops s port.stream port.reads).1 = .portFailed
    · refine ⟨1, by simp [calls, hr], by simpa [calls] using hfailed hr, fun hle => ?_⟩
      have hnone := hlen hle
      rw [hfailed hr] at hnone
      simpa [calls] using hnone
    · obtain ⟨n, hlast, hdone, hstream⟩ := ih _ (hm ▸ hlt hr) _ _ hpos' rfl
      refine ⟨n + 1, ?_, hdone, fun hle => hstream (hlen hle)⟩
      simp only [calls, List.getLast?_cons]
      rw [hlast]
      rfl

/-- The frames of a concatenation of encoded frames. -/
theorem assembled_appended {fs : List Frame} {outs : List Octets}
    (h : fs.mapM (fun f => f.append []) = .ok outs)
    (hfs : ∀ f ∈ fs, f.checkOK = true ∧ f.wireLen ≤ maxFrame ∧
      f.security.isSome = f.control.hasSecurityBlock) :
    assembled outs.flatten = fs.map .frame := by
  induction fs generalizing outs with
  | nil =>
    cases h
    rfl
  | cons f fs ih =>
    obtain ⟨hcheck, hlen, hdeclared⟩ := hfs f List.mem_cons_self
    simp only [List.mapM_cons, bind, Except.bind] at h
    split at h
    · cases h
    · rename_i out hout
      split at h
      · cases h
      · rename_i outs' houts
        cases h
        obtain ⟨rfl, ha, hs, hl⟩ := Frame.append_eq_ok hout
        have hback := Frame.decode_wire
          { address := ha, blockLen := hs, len := hl, check := hcheck, declared := hdeclared }
        have hfront : front (f.wire ++ outs'.flatten) = some (some (.frame f), f.wireLen) := by
          have htake : (f.wire ++ outs'.flatten).take maxFrame =
              f.wire ++ outs'.flatten.take (maxFrame - f.wire.length) := by
            rw [List.take_append, List.take_of_length_le (by rw [f.length_wire]; exact hlen)]
          simp only [front, htake, hback]
        have hrest := ih houts fun g hg => hfs g (List.mem_cons_of_mem _ hg)
        rw [assembled, List.flatten_cons, scan_of_drops front_stable hfront, ← f.length_wire,
          List.drop_left]
        simp only [List.map_cons, Option.toList_some, List.singleton_append, ← hrest]
        rfl

/-- The results of calls on a port that ended a frame, from the start of the loop. -/
def frames (next : Scanner → Port → Result × Scanner × Port) (n : ℕ) (port : Port) : List Result :=
  (calls next n new port).1.filter Result.hasFrame

/-- The port delivered every octet and the last call returned no frame: nothing is left of the
stream, on the line or in the buffer, that could end one. -/
def Drained (next : Scanner → Port → Result × Scanner × Port) (n : ℕ) (port : Port) : Prop :=
  (calls next n new port).2.2.stream = [] ∧
    ∃ r, (calls next n new port).1.getLast? = some r ∧ r.hasFrame = false

/-- A new scanner holds nothing. -/
theorem live_new : new.live = [] := by
  simp [new, Scanner.live]

/-- The frames returned are the first of the stream's. -/
theorem frames_prefix (hnext : Loop next) (n : ℕ) (port : Port) :
    frames next n port <+: assembled port.stream := by
  obtain ⟨d, hd, hscan, -⟩ := calls_scan hnext n new port
  rw [live_new, List.nil_append] at hscan
  have hfront := Resumable.scan_prefix front_stable d (calls next n new port).2.2.stream
  rw [hscan, ← hd] at hfront
  exact (List.prefix_append _ _).trans hfront

/-- And all of them once the stream is drained. -/
theorem frames_eq_assembled (hnext : Loop next) {n : ℕ} (h : Drained next n port) :
    frames next n port = assembled port.stream := by
  obtain ⟨hstream, r, hr, hno⟩ := h
  obtain ⟨d, hd, hscan, hlast⟩ := calls_scan hnext n new port
  rw [live_new, List.nil_append, hlast r hr hno, List.append_nil] at hscan
  rw [hstream, List.append_nil] at hd
  rw [assembled, hd, hscan]
  rfl

end Scan

/-- **The frames of a stream do not depend on how it is read.** Whatever the octets are and however
the reads split them, the frames the reader and the scanner return are the front of one sequence
that the stream alone determines, and all of it once every octet was delivered and a call returned
without a frame. Calls come to that point: reads that ask for something are all made, and as many
of them as there are octets are enough. The sequence of a concatenation of encoded frames is those
frames. No read is given an empty slice, and every turn that does not read drops an octet: the loop
needs no more turns than there are octets. -/
theorem frames_chunk_independent :
    (∀ next, Scan.Loop next → ∀ (stream : Octets) (reads : List ℕ),
      (∀ n, Scan.frames next n ⟨stream, reads⟩ <+: Scan.assembled stream) ∧
      (∀ n, Scan.Drained next n ⟨stream, reads⟩ →
        Scan.frames next n ⟨stream, reads⟩ = Scan.assembled stream) ∧
      ((∀ k ∈ reads, 0 < k) → ∃ n,
        (Scan.calls next n Scan.new ⟨stream, reads⟩).1.getLast? = some .portFailed ∧
        (Scan.calls next n Scan.new ⟨stream, reads⟩).2.2.reads = [] ∧
        (stream.length ≤ reads.length → Scan.Drained next n ⟨stream, reads⟩))) ∧
    (∀ (fs : List Frame) (outs : List Octets), fs.mapM (fun f => f.append []) = .ok outs →
      (∀ f ∈ fs, f.checkOK = true ∧ f.wireLen ≤ 1536 ∧
        f.security.isSome = f.control.hasSecurityBlock) →
      Scan.assembled outs.flatten = fs.map .frame) ∧
    (∀ stops (s e : Scan.Scanner), Scan.turn stops s = .reads e → e.n < Scan.maxFrame) ∧
    (∀ s : Scan.Scanner, 0 < s.n → s.resync.2.n < s.n) ∧
    (∀ (s : Scan.Scanner) (fuel : ℕ), s.n < fuel → Scan.settleLoop fuel s = Scan.settle s) := by
  refine ⟨fun next hnext stream reads => ⟨fun n => Scan.frames_prefix hnext n _,
    fun n h => Scan.frames_eq_assembled hnext h, fun hpos => ?_⟩,
    fun fs outs h hfs => Scan.assembled_appended h hfs, fun stops s e hturn => ?_,
    fun s hn => s.live_resync.2 hn, fun s fuel h => Scan.settleLoop_fuel h (Nat.lt_succ_self _)⟩
  · obtain ⟨n, hlast, hreads, hstream⟩ := Scan.calls_end hnext Scan.new ⟨stream, reads⟩ hpos
    exact ⟨n, hlast, hreads, fun hle => ⟨hstream hle, _, hlast, rfl⟩⟩
  · have hspec := Scan.turn_turns stops s
    rw [hturn] at hspec
    exact hspec.2.2.2

/-- Two replies with noise before them, read octet by octet and in one go; the first of them as it
was encoded; and a buffer that holds the noise alone. -/
theorem frames_chunk_independent_sample :
    (∃ n m, Scan.frames Panel.next n ⟨0x00 :: twoReplies, List.replicate 23 1⟩ =
        Scan.frames Pd.next m ⟨0x00 :: twoReplies, List.replicate 23 23⟩) ∧
    Scan.assembled [twoReplies.take 15].flatten = [.frame cardReply] ∧
    Scan.new.n < Scan.maxFrame ∧
    (Scan.new.fill [0x00] (by decide)).resync.2.n < 1 ∧
    Scan.settleLoop 2 (Scan.new.fill [0x00] (by decide)) =
      Scan.settle (Scan.new.fill [0x00] (by decide)) := by
  obtain ⟨hruns, hencoded, hread, hresync, hfuel⟩ := frames_chunk_independent
  have hreader := hruns Panel.next (.inl rfl) (0x00 :: twoReplies) (List.replicate 23 1)
  have hscanner := hruns Pd.next (.inr rfl) (0x00 :: twoReplies) (List.replicate 23 23)
  obtain ⟨n, -, -, hn⟩ := hreader.2.2 (by simp)
  obtain ⟨m, -, -, hm⟩ := hscanner.2.2 (by simp)
  have hframes := hreader.2.1 n (hn (by decide))
  have hframes' := hscanner.2.1 m (hm (by decide))
  exact ⟨⟨n, m, hframes.trans hframes'.symm⟩,
    hencoded [cardReply] [twoReplies.take 15] (by decide) (by decide),
    hread false Scan.new Scan.new rfl, hresync _ (by decide), hfuel _ 2 (by decide)⟩

end Osdp
