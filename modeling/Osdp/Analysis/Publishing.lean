import Osdp.Analysis.Assembly
import Osdp.Analysis.ReplySpec
import Osdp.Library.Run
import Osdp.Model.Panel

/-!
# The payload of a published event

A card read, a keypad entry and a manufacturer's message reach the application as ranges of
the panel's read buffer. `Ledger` follows a panel and remembers, for every event that was
published and not yet received, the read that brought it and the reads since. Each of those
went to the front of the buffer, so the event is received as it was sent exactly when, at each
octet of its payload, the last of the later reads that was long enough left the same octet.
-/

set_option autoImplicit false

namespace Osdp

/-! ## From a reply to its event -/

/-- The octets of a reply that its event hands on: what stands behind the header of a card read,
a keypad entry or a manufacturer's message. -/
def Message.payload (m : Message) : Octets :=
  if m.code = Code.raw then m.data.drop 4
  else if m.code = Code.keypad then (m.data.drop 2).take (m.data.getD 1 0).toNat
  else if m.code = Code.mfgReply then m.data.drop 3
  else []

namespace Bus

namespace Event

/-- The payload that was put in, if there is room for one. -/
@[simp] theorem payload_withPayload (e : Event) (octets : Octets) :
    (e.withPayload octets).payload = e.payload.map fun _ => octets := by
  cases e <;> rfl

variable {e : Event}

/-- An event that refers to nothing has no payload. -/
theorem payload_of_range (h : e.range = Option.none) : e.payload = Option.none := by
  cases e <;> first | rfl | cases h

/-- The range of an event lies in the message it came from, and denotes its octets there. -/
def CutFrom (e : Event) (m : Message) : Prop :=
  ∀ r ∈ e.range, r.start + r.length ≤ m.data.length ∧ e.payload = some (r.of m.data) ∧
    m.payload = r.of m.data

/-- Such an event is cut from any reply. -/
theorem cutFrom_of_range (m : Message) (h : e.range = Option.none) : e.CutFrom m := by
  intro r hr
  rw [h] at hr
  cases hr

end Event

variable {m : Message}

/-- A card read is cut from its reply. -/
theorem cutFrom_cardRead {card : CardRead} (hm : m.code = Code.raw)
    (h : parseCardRead m.data = some card) : (Event.cardRead card).CutFrom m := by
  unfold parseCardRead at h
  simp only at h
  split at h
  · cases h
  · split at h
    · cases h
    · cases h
      rintro r ⟨⟩
      have hall : (m.data.drop 4).take (m.data.drop 4).length = m.data.drop 4 := List.take_length
      refine ⟨?_, congrArg some hall.symm, ?_⟩
      · simp only [List.length_drop]
        omega
      · rw [Message.payload, if_pos hm]
        exact hall.symm

/-- So is a keypad entry. -/
theorem cutFrom_keypad {entry : KeypadEntry} (hm : m.code = Code.keypad)
    (h : parseKeypadEntry m.data = some entry) : (Event.keypad entry).CutFrom m := by
  unfold parseKeypadEntry at h
  simp only at h
  split at h
  · cases h
  · split at h
    · cases h
    · rename_i hlen hcount
      cases h
      rintro r ⟨⟩
      have hkeys : ((m.data.drop 2).take (m.data.getD 1 0).toNat).length =
          (m.data.getD 1 0).toNat := List.length_take_of_le (by omega)
      have hraw : m.code ≠ Code.raw := by
        rw [hm]
        decide
      refine ⟨?_, ?_, ?_⟩
      · simp only [hkeys]
        rw [List.length_drop] at hcount
        omega
      · simp only [Event.payload, Window.Slice.of, hkeys]
      · rw [Message.payload, if_neg hraw, if_pos hm]
        simp only [Window.Slice.of, hkeys]

/-- So is a manufacturer's message. -/
theorem cutFrom_manufacturer {mfg : ManufacturerMessage} (hm : m.code = Code.mfgReply)
    (h : parseManufacturerMessage m.data = some mfg) : (Event.manufacturer mfg).CutFrom m := by
  unfold parseManufacturerMessage at h
  split at h
  · cases h
  · cases h
    rintro r ⟨⟩
    have hall : (m.data.drop 3).take (m.data.drop 3).length = m.data.drop 3 := List.take_length
    refine ⟨?_, congrArg some hall.symm, ?_⟩
    · simp only [List.length_drop]
      omega
    · rw [Message.payload, hm]
      exact hall.symm

/-- An event the dispatcher returns is cut from the message it was given. -/
theorem dispatch_cutFrom (b : Bus) (d : Device) (m : Message) :
    ∀ e, (dispatch b d m).1 = .ok e → e.CutFrom m := by
  have hbare : ∀ {f : Event}, f.range = Option.none →
      ∀ e, (Except.ok f : Except Error Event) = .ok e → e.CutFrom m := by
    rintro f hf e ⟨⟩
    exact Event.cutFrom_of_range m hf
  apply dispatch_rows b d m (motive := fun r => ∀ e, r.1 = .ok e → e.CutFrom m)
  case malformed => exact fun _ e => nofun
  case identified => exact fun _ _ _ => hbare rfl
  case capabilities =>
    rintro report e - - (rfl | ⟨rfl, -⟩)
    · exact hbare rfl
    · exact hbare rfl
  case status =>
    rintro ss e - (rfl | ⟨changed, -, rfl⟩)
    · exact hbare rfl
    · exact hbare rfl
  case cryptogram =>
    intro _
    obtain he | ⟨s, s', out, -, -, he⟩ := onCryptogram_cases d m.data <;> rw [he] <;> exact hbare rfl
  case initialRMAC =>
    intro _
    obtain he | ⟨s, s', u, -, -, he⟩ := onInitialRMAC_cases d m.data <;> rw [he] <;> exact hbare rfl
  case card =>
    rintro card hm hcard e ⟨⟩
    exact cutFrom_cardRead hm hcard
  case keypad =>
    rintro entry hm hentry e ⟨⟩
    exact cutFrom_keypad hm hentry
  case refused => exact fun _ _ => hbare rfl
  case manufacturer =>
    rintro mfg hm hmfg e ⟨⟩
    exact cutFrom_manufacturer hm hmfg
  case moved => exact fun _ _ _ => hbare rfl
  case busy => exact fun _ => hbare rfl
  case installed => exact fun _ _ _ _ => hbare rfl
  case answer =>
    intro _
    obtain ⟨-, he⟩ | ⟨-, he⟩ := onAnswer_cases d <;> rw [he] <;> exact hbare rfl

/-- A reply that is not deciphered is read where it lies: in the clear it is the front of the
frame's data. -/
theorem openIfEstablished_prefix {d e : Device} {f g : Frame}
    (h : openIfEstablished d f = .ok (g, e)) (hd : d.deciphers f = false) : g.data <+: f.data := by
  unfold openIfEstablished at h
  split at h
  · cases h
    exact List.prefix_rfl
  · rename_i s hs
    split at h
    · rename_i hest
      have hclear : (f.security.any fun block => Secure.BlockType.encrypted block.type) = false := by
        simpa [Device.deciphers, Device.secureEstablished, hs, hest] using hd
      split at h
      · cases h
      · rename_i payload t hopen
        cases h
        unfold openReply at hopen
        split at hopen
        · cases hopen
        · rename_i block hblock
          rw [hblock] at hclear
          split at hopen
          · cases hopen
          · simp only at hopen
            split at hopen
            · cases hopen
            · rw [if_pos (by simpa using hclear)] at hopen
              cases hopen
              exact List.take_prefix _ _
    · cases h
      exact List.prefix_rfl

end Bus

/-! ## From a read to a published event -/

/-- An event that was published and not received: the event, what the read delivered that brought
it, what the reply in it said if it came from a reply, and what the reads since delivered. -/
structure Tracked where
  published : Published
  wire : Octets
  said : Option Message
  since : List Octets := []

namespace Tracked

/-- The octets the application sees are those of the reply. -/
def Delivered (t : Tracked) (buf : Octets) : Prop :=
  ∀ octets ∈ (t.published.seen buf).payload, t.said.map Message.payload = some octets

/-- At each octet of the payload, the last of the later reads that was long enough left the octet
that was there. -/
def Undisturbed (t : Tracked) : Prop :=
  ∀ r ∈ t.published.range, ∀ k < r.length, ∀ wire ∈ Window.reaching t.since (r.start + k),
    wire[r.start + k]? = t.wire[r.start + k]?

instance (t : Tracked) (buf : Octets) : Decidable (t.Delivered buf) :=
  inferInstanceAs (Decidable (∀ octets ∈ (t.published.seen buf).payload, _))

instance (t : Tracked) : Decidable t.Undisturbed :=
  inferInstanceAs (Decidable (∀ r ∈ t.published.range, _))

/-- The event as it left `Reply`, read in the octets of the line. -/
structure Sent (t : Tracked) : Prop where
  inside : ∀ r ∈ t.published.range, r.start + r.length ≤ t.wire.length
  carries : ∀ r ∈ t.published.range, t.published.event.payload.isSome
  delivered : t.Delivered t.wire

variable {t : Tracked} {buf : Octets}

/-- An event without octets of a reply. -/
theorem sent_of_bare (hr : t.published.range = none) (hp : t.published.event.payload = none) :
    t.Sent := by
  refine ⟨by simp [hr], by simp [hr], ?_⟩
  intro octets ho
  simp [Published.seen, hr, hp] at ho

/-- The buffer is what the event's read left, with the later reads over it. -/
def Held (t : Tracked) (buf : Octets) : Prop :=
  ∃ base, buf = t.since.foldl Window.overlay (Window.overlay base t.wire)

/-- One more read. -/
def age (wire : Octets) (t : Tracked) : Tracked := { t with since := t.since ++ [wire] }

/-- Age does not change what was sent. -/
theorem Sent.age (h : t.Sent) (wire : Octets) : (t.age wire).Sent :=
  ⟨h.inside, h.carries, h.delivered⟩

/-- What is held reads as the buffer does then. -/
theorem Held.age (h : t.Held buf) (wire : Octets) :
    (t.age wire).Held (Window.overlay buf wire) := by
  obtain ⟨base, rfl⟩ := h
  exact ⟨base, by rw [Tracked.age, List.foldl_concat]⟩

/-- **An event is received as it was sent exactly when the reads since left its octets.** -/
theorem delivered_iff (hsent : t.Sent) (hheld : t.Held buf) : t.Delivered buf ↔ t.Undisturbed := by
  obtain ⟨base, rfl⟩ := hheld
  have hdelivered := hsent.delivered
  unfold Delivered Published.seen at hdelivered ⊢
  unfold Undisturbed
  cases hr : t.published.range with
  | none =>
    rw [hr] at hdelivered
    simp only [Option.not_mem_none, false_implies, implies_true, iff_true]
    exact hdelivered
  | some r =>
    have hin := hsent.inside r hr
    obtain ⟨octets, ho⟩ := Option.isSome_iff_exists.mp (hsent.carries r hr)
    -- the front of the buffer is what the read put there
    have hfront : ∀ k < r.length, (Window.overlay base t.wire)[r.start + k]? =
        t.wire[r.start + k]? := by
      intro k hk
      rw [Window.getElem?_overlay, if_pos (by omega)]
    have hbase : r.of (Window.overlay base t.wire) = r.of t.wire := r.of_overlay base hin
    simp only [hr, Bus.Event.payload_withPayload, ho, Option.map_some, Option.mem_some_iff,
      forall_eq'] at hdelivered ⊢
    rw [hdelivered, Option.some.injEq, ← hbase, eq_comm, Window.slice_overlays_iff]
    constructor
    · intro h k hk wire hwire
      rw [h k hk wire hwire, hfront k hk]
    · intro h k hk wire hwire
      rw [h k hk wire hwire, hfront k hk]

end Tracked

namespace Panel

/-- What the reply in a read said to the device at `i`. -/
def saidTo (b : Bus) (i : ℕ) (port : Scan.Port) : Option Message :=
  match decode port.stream, b.devices[i]? with
  | .ok f, some d => d.hears f
  | _, _ => none

/-- An event that `Reply` returned is the event its frame sent. -/
theorem publish_sent {b : Bus} {i : ℕ} {d e : Bus.Device} {f : Frame} {ev : Bus.Event}
    {wire : Octets} (hd : b.devices[i]? = some d) (hreply : Bus.reply b d f = (.ok ev, e))
    (hdata : f.dataSlice.of wire = f.data) (hw : f.wireLen ≤ wire.length) :
    Tracked.Sent { published := publish b i f ev, wire := wire, said := d.hears f } := by
  have hbare : ev.range = none →
      Tracked.Sent { published := publish b i f ev, wire := wire, said := d.hears f } := by
    intro hr
    refine Tracked.sent_of_bare ?_ (Bus.Event.payload_of_range hr)
    rw [publish, hr]
    exact ite_self _
  obtain ⟨-, err, he⟩ | ⟨hisReply, haddr, ⟨-, he⟩ | ⟨-, -, he⟩ | ⟨hseq, data, s, hopen, he⟩⟩ :=
    Bus.reply_cases b d f
  · rw [he] at hreply
    cases hreply
  · rw [he] at hreply
    cases hreply
    exact hbare rfl
  · rw [he] at hreply
    cases hreply
    exact hbare rfl
  · have hheard := Bus.Device.hears_eq hisReply haddr hseq hopen
    rw [he] at hreply
    have hcut := Bus.dispatch_cutFrom b _ _ ev (congrArg Prod.fst hreply)
    cases hr : ev.range with
    | none => exact hbare hr
    | some r =>
      obtain ⟨hle, hpayload, hsaid⟩ := hcut r hr
      simp only at hle hpayload hsaid
      have hany : (b.devices[i]?.any fun d => d.deciphers f) = d.deciphers f := by rw [hd]; rfl
      cases hdec : d.deciphers f with
      | true =>
        have hpublish : publish b i f ev = ⟨ev, none⟩ := by rw [publish, hany, hdec]; rfl
        rw [hpublish, hheard]
        refine ⟨by simp, by simp, ?_⟩
        intro octets ho
        simp only [Published.seen, hpayload, Option.mem_some_iff] at ho
        rw [Option.map_some, hsaid, ho]
      | false =>
        have hpublish : publish b i f ev =
            ⟨ev, some ⟨f.dataSlice.start + r.start, r.length⟩⟩ := by
          rw [publish, hany, hdec, hr]
          rfl
        have hprefix := Bus.openIfEstablished_prefix hopen hdec
        simp only at hprefix
        have hlen : r.start + r.length ≤ f.dataSlice.length := hle.trans hprefix.length_le
        have hinside : f.dataSlice.start + r.start + r.length ≤ wire.length := by
          have := f.dataSlice_le
          omega
        -- the range denotes the same in the clear, in the frame's data and on the line
        have hof : (Window.Slice.mk (f.dataSlice.start + r.start) r.length).of wire = r.of data := by
          rw [← r.of_window hlen wire]
          change r.of (f.dataSlice.of wire) = r.of data
          rw [hdata, List.prefix_iff_eq_take.mp hprefix, r.of_take hle]
        rw [hpublish, hheard]
        refine ⟨?_, fun _ _ => Option.isSome_of_eq_some hpayload, ?_⟩
        · rintro r' ⟨⟩
          exact hinside
        · intro octets ho
          simp only [Published.seen, Bus.Event.payload_withPayload, hpayload, Option.map_some,
            Option.mem_some_iff, hof] at ho
          rw [Option.map_some, hsaid, ho]

end Panel

/-! ## A read of one frame -/

namespace Scan

/-- The next read delivers one whole frame, if it delivers anything. -/
def Port.OneFrame (port : Port) : Prop :=
  port.stream = [] ∨ port.stream.length ≤ maxFrame ∧
    port.reads.head? = some port.stream.length ∧
    (decode port.stream).frame?.map Frame.wireLen = some port.stream.length

instance : DecidablePred Port.OneFrame := fun _ => inferInstanceAs (Decidable (_ ∨ _))

variable {stops : Bool} {s : Scanner}

/-- An empty buffer asks for a read. -/
theorem turn_empty (hn : s.n = 0) : turn stops s = .reads s := by
  have hsettle : settle s = (.short, s) := by rw [settle_eq, if_pos hn]
  have hroom : s.n ≠ maxFrame := by
    rw [hn]
    decide
  rw [turn, hsettle]
  exact if_neg hroom

/-- A turn that returns ends `next`. -/
theorem nextWith_returns {e : Scanner} {r : Result} (h : turn stops s = .returns r e)
    (stream : Octets) (reads : List ℕ) :
    nextWith stops s stream reads = (r, e, ⟨stream, reads⟩) := by
  cases reads <;> rw [nextWith, h]

/-- A turn over one whole frame returns it, and nothing is left. -/
theorem turn_whole (stops : Bool) {f : Frame} (h : (decode s.live).frame? = some f)
    (hw : f.wireLen = s.n) :
    ∃ r, turn stops s = .returns r (s.consume f.wireLen) ∧
      ∀ g, r = .frame g → decode s.live = .ok g ∧ f = g := by
  have hpos : s.n ≠ 0 := by
    rw [← hw, f.wireLen_eq]
    have := f.len_pos
    omega
  cases hdec : decode s.live with
  | ok g =>
    rw [hdec] at h
    cases h
    refine ⟨.frame f, ?_, ?_⟩
    · rw [turn, settle_eq, if_neg hpos, hdec]
    · rintro g ⟨⟩
      exact ⟨rfl, rfl⟩
  | badCheck g =>
    rw [hdec] at h
    cases h
    refine ⟨.badCheck f, ?_, ?_⟩
    · rw [turn, settle_eq, if_neg hpos, hdec]
    · rintro g ⟨⟩
  | error e =>
    rw [hdec] at h
    cases h

/-- Into an empty buffer a read goes to the front. -/
theorem fill_empty (hn : s.n = 0) (octets : Octets) (h : s.n + octets.length ≤ maxFrame) :
    (s.fill octets h).n = octets.length ∧ (s.fill octets h).live = octets ∧
      (s.fill octets h).buf = Window.overlay s.buf octets := by
  have hlive : s.live = [] := by rw [Scanner.live, hn, List.take_zero]
  refine ⟨?_, ?_, ?_⟩
  · change s.n + octets.length = _
    rw [hn, Nat.zero_add]
  · rw [s.live_fill, hlive, List.nil_append]
  · change s.live ++ octets ++ s.buf.drop (s.n + octets.length) = _
    rw [hlive, List.nil_append, hn, Nat.zero_add, Window.overlay]

/-- Consuming all there is moves nothing. -/
theorem consume_all (hn : 0 < s.n) : (s.consume s.n).n = 0 ∧ (s.consume s.n).buf = s.buf := by
  refine ⟨?_, ?_⟩
  · rw [← Scanner.length_live, (Scanner.live_consume hn le_rfl).1, List.length_drop, s.length_live,
      Nat.sub_self]
  · rw [(Scanner.live_consume hn le_rfl).2, Window.slide, Nat.sub_self, List.drop_zero,
      List.drop_eq_nil_of_le (List.length_take_le _ _), List.nil_append]

end Scan

/-- **A read of one frame.** From an empty buffer, the read goes to its front and leaves nothing
live behind; a frame that is returned is what was read. -/
theorem Panel.next_oneFrame {s : Scan.Scanner} {port : Scan.Port} (hn : s.n = 0) (h : port.OneFrame) :
    (Panel.next s port).2.1.n = 0 ∧
      (Panel.next s port).2.1.buf = Window.overlay s.buf port.stream ∧
      ∀ f, (Panel.next s port).1 = .frame f →
        decode port.stream = .ok f ∧ f.wireLen = port.stream.length := by
  obtain ⟨stream, reads⟩ := port
  obtain hnothing | ⟨hfits, hreads, hwhole⟩ := h
  · simp only at hnothing
    subst hnothing
    cases reads <;> simp [Panel.next, Scan.nextWith, Scan.turn_empty hn, hn]
  · simp only at hfits hreads hwhole
    obtain ⟨rest, rfl⟩ : ∃ rest, reads = stream.length :: rest := List.head?_eq_some_iff.mp hreads
    obtain ⟨f, hf, hw⟩ := Option.map_eq_some_iff.mp hwhole
    have hpos : 0 < stream.length := by
      rw [← hw, f.wireLen_eq]
      have := f.len_pos
      omega
    have htake : stream.take (min stream.length (Scan.maxFrame - s.n)) = stream :=
      List.take_of_length_le (by omega)
    have hroom : s.n + (stream.take (min stream.length (Scan.maxFrame - s.n))).length ≤
        Scan.maxFrame := by
      rw [htake]
      omega
    have hnext : Panel.next s ⟨stream, stream.length :: rest⟩ =
        Scan.nextWith true (s.fill _ hroom)
          (stream.drop (min stream.length (Scan.maxFrame - s.n))) rest := by
      rw [Panel.next, Scan.nextWith, Scan.turn_empty hn]
      exact if_neg (by rw [htake]; exact List.ne_nil_of_length_pos hpos)
    have hfilled : (s.fill _ hroom).n = stream.length ∧ (s.fill _ hroom).live = stream ∧
        (s.fill _ hroom).buf = Window.overlay s.buf stream := by
      obtain ⟨hlen, hall, hover⟩ := Scan.fill_empty hn _ hroom
      exact ⟨hlen.trans (congrArg _ htake), hall.trans htake, hover.trans (congrArg _ htake)⟩
    rw [hnext]
    generalize s.fill _ hroom = u at hfilled
    obtain ⟨hn', hlive', hbuf⟩ := hfilled
    obtain ⟨r, hturn, hr⟩ := Scan.turn_whole true (by rw [hlive', hf]) (hw.trans hn'.symm)
    obtain ⟨hempty, hsame⟩ := Scan.consume_all (s := u) (by omega)
    rw [Scan.nextWith_returns hturn, hw, ← hn']
    refine ⟨hempty, hsame.trans hbuf, ?_⟩
    intro g hg
    obtain ⟨hdec, rfl⟩ := hr g hg
    exact ⟨hlive' ▸ hdec, hw.trans hn'.symm⟩

/-- A frame reads the same in the buffer as in what was read into it. -/
theorem Frame.readBack_overlay {f : Frame} {wire : Octets} (h : Read wire f) (buf : Octets) :
    f.readBack (Window.overlay buf wire) = f := by
  obtain ⟨hdata, hsecurity⟩ := (f.readBack_eq_iff wire).mp h.readBack
  rw [f.readBack_eq_iff]
  refine ⟨?_, fun s hs => ?_⟩
  · rw [Window.Slice.of_overlay _ _ (f.dataSlice_le.trans h.wireLen_le), hdata]
  · rw [Window.Slice.of_overlay _ _ ((Frame.securitySlice_le hs).trans h.wireLen_le),
      hsecurity s hs]

/-! ## A transaction -/

namespace Panel

/-- What a panel keeps over a read, and what the read does to its buffer. -/
structure HasRead (wire : Octets) (p q : Panel) : Prop where
  events : q.events = p.events
  buffer : q.buffer = p.buffer
  emitting : q.emitting = p.emitting
  idle : q.reader.n = 0
  buf : q.reader.buf = Window.overlay p.reader.buf wire

/-- Silence touches the bus, and its event has no payload. -/
theorem silent_spec (p : Panel) (i : ℕ) :
    (p.silent i).2 = { p with bus := (p.silent i).2.bus } ∧
      ∀ v ∈ (p.silent i).1, v.range = none ∧ v.event.payload = none := by
  unfold silent Bus.onDevice
  cases p.bus.devices[i]? with
  | none => exact ⟨rfl, by simp⟩
  | some d =>
    refine ⟨rfl, ?_⟩
    rintro v ⟨⟩
    refine ⟨rfl, ?_⟩
    obtain ⟨-, he⟩ | ⟨-, -, he⟩ := Bus.timeout_cases d <;> rw [he] <;> rfl

variable {p : Panel}

/-- What is read is overlaid on the buffer, and what is returned is what the read sent. -/
theorem await_spec {i : ℕ} {port : Scan.Port} (hidle : p.reader.n = 0) (hport : port.OneFrame) :
    HasRead port.stream p (p.await i port).2 ∧
      ∀ v ∈ (p.await i port).1,
        Tracked.Sent { published := v, wire := port.stream, said := saidTo p.bus i port } := by
  obtain ⟨hn, hbuf, hframe⟩ := Panel.next_oneFrame hidle hport
  unfold await
  generalize Panel.next p.reader port = res at hn hbuf hframe
  obtain ⟨r, s, port'⟩ := res
  simp only at hn hbuf hframe
  -- a device taken to be silent, after the read
  have hsilent : ∀ b, HasRead port.stream p ({ p with reader := s, bus := b }.silent i).2 ∧
      ∀ v ∈ ({ p with reader := s, bus := b }.silent i).1,
        Tracked.Sent { published := v, wire := port.stream, said := saidTo p.bus i port } := by
    intro b
    obtain ⟨hq, hv⟩ := silent_spec { p with reader := s, bus := b } i
    refine ⟨?_, fun v h => Tracked.sent_of_bare (hv v h).1 (hv v h).2⟩
    rw [hq]
    exact ⟨rfl, rfl, rfl, hn, hbuf⟩
  cases r with
  | frame f =>
    obtain ⟨hdec, hw⟩ := hframe f rfl
    have hread := decode_frame (hdec ▸ rfl : (decode port.stream).frame? = some f)
    have hback : f.readBack s.buf = f := by rw [hbuf, Frame.readBack_overlay hread]
    simp only [hback]
    cases hd : p.bus.devices[i]? with
    | none =>
      simp only [Bus.onDevice, hd]
      exact hsilent p.bus
    | some d =>
      simp only [Bus.onDevice, hd, Bus.call]
      cases hreply : (Bus.reply p.bus d f).1 with
      | error e => exact hsilent _
      | ok ev =>
        refine ⟨⟨rfl, rfl, rfl, hn, hbuf⟩, ?_⟩
        rintro v ⟨⟩
        have hsaid : saidTo p.bus i port = d.hears f := by rw [saidTo, hdec, hd]
        rw [hsaid]
        exact publish_sent hd (Prod.ext hreply rfl) ((f.readBack_eq_iff _).mp hread.readBack).1
          hread.wireLen_le
  | badCheck f => exact hsilent p.bus
  | failed e =>
    simp only
    split
    · exact ⟨⟨rfl, rfl, rfl, hn, hbuf⟩, by simp⟩
    · exact hsilent p.bus
  | timeout => exact hsilent p.bus
  | portFailed => exact ⟨⟨rfl, rfl, rfl, hn, hbuf⟩, by simp⟩

/-- Whether a transaction gets as far as to wait for an answer. -/
def asks (p : Panel) (x : Cycle) : Bool :=
  match (p.bus.next x.rndA).1 with
  | some (.step f) => (f.append []).toBool && x.writes
  | _ => false

/-- What the reads of a transaction deliver. -/
def delivered (p : Panel) (x : Cycle) : Octets := if p.asks x then x.port.stream else []

/-- What the reply of a transaction says. -/
def said (p : Panel) (x : Cycle) : Option Message :=
  saidTo (p.bus.next x.rndA).2 p.bus.current x.port

/-- What a transaction leaves: the channel as it was, what it read overlaid on the buffer, and in
`emit` the event that was sent in it, if there is one. -/
structure Exchanged (p : Panel) (x : Cycle) (q : Panel) : Prop where
  events : q.events = p.events
  buffer : q.buffer = p.buffer
  idle : q.reader.n = 0
  buf : q.reader.buf = Window.overlay p.reader.buf (p.delivered x)
  emitting : ∀ v ∈ q.emitting,
    Tracked.Sent { published := v, wire := p.delivered x, said := p.said x }

/-- A transaction is a wait for an answer, or ends the run. -/
theorem exchange_eq (p : Panel) (x : Cycle) :
    p.exchange x =
      if p.asks x then
        match { p with bus := (p.bus.next x.rndA).2 }.await p.bus.current x.port with
        | (none, q) => q.stop
        | (some v, q) => if v.event = .none then q else { q with emitting := some v }
      else { p with bus := (p.bus.next x.rndA).2 }.stop := by
  unfold exchange asks
  rcases p.bus.next x.rndA with ⟨_ | o, b⟩
  · rfl
  · cases o with
    | step f =>
      simp only
      cases f.append [] with
      | error e => rfl
      | ok wire => cases x.writes <;> rfl
    | _ => rfl

/-- **One transaction.** -/
theorem exchange_spec {x : Cycle} (hidle : p.reader.n = 0) (hport : x.port.OneFrame)
    (hready : p.emitting = none) : Exchanged p x (p.exchange x) := by
  rw [exchange_eq]
  cases hasks : p.asks x with
  | false =>
    refine ⟨rfl, rfl, hidle, ?_, by simp [stop]⟩
    simp [delivered, hasks, stop]
  | true =>
    have hdelivered : p.delivered x = x.port.stream := by simp [delivered, hasks]
    obtain ⟨hread, hsent⟩ :=
      await_spec (p := { p with bus := (p.bus.next x.rndA).2 }) (i := p.bus.current) hidle hport
    rw [← hdelivered] at hread hsent
    change ∀ v ∈ _, Tracked.Sent { published := v, wire := p.delivered x, said := p.said x } at hsent
    revert hread hsent
    rw [if_pos rfl]
    generalize ({ p with bus := (p.bus.next x.rndA).2 } : Panel).await p.bus.current x.port = res
    obtain ⟨o, q⟩ := res
    intro hread hsent
    cases o with
    | none => exact ⟨hread.events, hread.buffer, hread.idle, hread.buf, by simp [stop]⟩
    | some v =>
      simp only
      split
      · refine ⟨hread.events, hread.buffer, hread.idle, hread.buf, ?_⟩
        rw [hread.emitting]
        simp [hready]
      · refine ⟨hread.events, hread.buffer, hread.idle, hread.buf, ?_⟩
        rintro v ⟨⟩
        exact hsent _ rfl

/-- The events that were published and not received: those in the channel, and the one `emit`
holds. -/
def waiting (p : Panel) : List Published := p.events ++ p.emitting.toList

/-- The application receives what waits longest. -/
theorem receive_spec (p : Panel) :
    p.receive.1 = p.waiting.head? ∧ p.receive.2.waiting = p.waiting.tail ∧
      p.receive.2.reader = p.reader ∧ p.receive.2.buffer = p.buffer := by
  unfold receive
  split
  · rename_i v hv
    obtain ⟨rest, hevents⟩ := List.head?_eq_some_iff.mp hv
    simp [waiting, hevents]
  · rename_i hnone
    have hevents := List.head?_eq_none_iff.mp hnone
    cases hemitting : p.emitting <;> simp [waiting, hevents, hemitting]

/-- Emitting touches neither the reader nor what waits. -/
theorem emit_spec (p : Panel) :
    p.emit.waiting = p.waiting ∧ p.emit.reader = p.reader ∧ p.emit.buffer = p.buffer := by
  unfold emit
  split
  · exact ⟨rfl, rfl, rfl⟩
  · rename_i v hv
    split
    · simp [waiting, hv]
    · exact ⟨rfl, rfl, rfl⟩

/-- When the loop begins a transaction, only events in the channel wait. -/
theorem waiting_ready (h : p.ready = true) : p.emitting = none ∧ p.waiting = p.events := by
  have hemitting : p.emitting = none := by
    simp only [ready, Bool.and_eq_true, Option.isNone_iff_eq_none] at h
    exact h.2
  exact ⟨hemitting, by rw [waiting, hemitting, Option.toList_none, List.append_nil]⟩

/-- Whether the read of a transaction delivers one whole frame, if anything. -/
def Op.OneFrame : Op → Prop
  | .cycle x => x.port.OneFrame
  | _ => True

instance : DecidablePred Op.OneFrame
  | .cycle x => inferInstanceAs (Decidable x.port.OneFrame)
  | .request _ _ | .emit | .receive | .cancel => isTrue trivial

end Panel

/-! ## The events on their way -/

/-- A panel and what became of the events it published. -/
structure Ledger where
  panel : Panel
  waiting : List Tracked := []

namespace Ledger

/-- A new panel on a bus, with room for `buffer` events. -/
def new (b : Bus) (buffer : ℕ) : Ledger := { panel := { bus := b, buffer := buffer } }

/-- What becomes of the events that wait when the panel or the application makes a step. -/
def awaiting (w : Ledger) : Panel.Op → List Tracked
  | .cycle x =>
    if w.panel.ready then
      w.waiting.map (Tracked.age (w.panel.delivered x)) ++
        (w.panel.exchange x).emitting.toList.map fun v =>
          { published := v, wire := w.panel.delivered x, said := w.panel.said x }
    else w.waiting
  | .receive => w.waiting.tail
  | .cancel => w.waiting.take w.panel.events.length
  | .request _ _ | .emit => w.waiting

def step (w : Ledger) (op : Panel.Op) : Ledger :=
  { panel := w.panel.step op, waiting := w.awaiting op }

/-- The events that wait are those of the panel, each is as it was sent, and the buffer is as the
reads since left it. -/
structure Sound (w : Ledger) : Prop where
  idle : w.panel.reader.n = 0
  waiting : w.waiting.map Tracked.published = w.panel.waiting
  sent : ∀ t ∈ w.waiting, t.Sent
  held : ∀ t ∈ w.waiting, t.Held w.panel.reader.buf

/-- A new panel is sound. -/
theorem sound_new (b : Bus) (buffer : ℕ) : (new b buffer).Sound :=
  ⟨rfl, rfl, by simp [new], by simp [new]⟩

variable {w : Ledger}

/-- A step that reads nothing and makes no event. -/
theorem Sound.of_waiting (h : w.Sound) {q : Panel} {ts : List Tracked}
    (hreader : q.reader = w.panel.reader) (hts : ts ⊆ w.waiting)
    (hmap : ts.map Tracked.published = q.waiting) :
    Sound { panel := q, waiting := ts } where
  idle := hreader ▸ h.idle
  waiting := hmap
  sent := fun t ht => h.sent t (hts ht)
  held := fun t ht => hreader ▸ h.held t (hts ht)

/-- A cycle keeps it sound. -/
theorem sound_cycle {x : Cycle} (h : w.Sound) (hx : x.port.OneFrame) :
    (w.step (.cycle x)).Sound := by
  unfold step awaiting Panel.step
  by_cases hready : w.panel.ready = true
  · simp only [hready, if_true]
    obtain ⟨hemitting, hwaiting⟩ := Panel.waiting_ready hready
    obtain ⟨hevents, -, hidle, hbuf, hsent⟩ := Panel.exchange_spec h.idle hx hemitting
    refine ⟨hidle, ?_, ?_, ?_⟩
    · have hold := h.waiting.trans hwaiting
      simp only [Panel.waiting, List.map_append, List.map_map, hevents, ← hold]
      congr 1
      exact List.map_id _
    · intro t ht
      simp only [List.mem_append, List.mem_map, Option.mem_toList] at ht
      obtain ⟨t, hold, rfl⟩ | ⟨v, hv, rfl⟩ := ht
      · exact (h.sent t hold).age _
      · exact hsent v hv
    · intro t ht
      simp only [List.mem_append, List.mem_map, Option.mem_toList] at ht
      simp only [hbuf]
      obtain ⟨t, hold, rfl⟩ | ⟨v, hv, rfl⟩ := ht
      · exact (h.held t hold).age _
      · exact ⟨_, rfl⟩
  · simp only [hready]
    exact h

/-- **What one step keeps.** -/
theorem sound_step (w : Ledger) (op : Panel.Op) (h : w.Sound) (hop : op.OneFrame) :
    (w.step op).Sound := by
  cases op with
  | request addr req =>
    by_cases hready : w.panel.ready = true
    · simp only [step, awaiting, Panel.step, hready, if_true]
      exact h.of_waiting rfl (List.Subset.refl _) h.waiting
    · simp only [step, awaiting, Panel.step, hready]
      exact h
  | cycle x => exact sound_cycle h hop
  | emit =>
    obtain ⟨hwaiting, hreader, -⟩ := w.panel.emit_spec
    exact h.of_waiting hreader (List.Subset.refl _) (h.waiting.trans hwaiting.symm)
  | receive =>
    obtain ⟨-, hwaiting, hreader, -⟩ := w.panel.receive_spec
    refine h.of_waiting hreader (List.tail_subset _) ?_
    calc w.waiting.tail.map Tracked.published = w.panel.waiting.tail := by
          rw [List.map_tail, h.waiting]
      _ = w.panel.receive.2.waiting := hwaiting.symm
  | cancel =>
    refine h.of_waiting rfl (List.take_subset _ _) ?_
    calc (w.waiting.take w.panel.events.length).map Tracked.published = w.panel.events := by
          rw [List.map_take, h.waiting, Panel.waiting, List.take_left]
      _ = w.panel.stop.waiting := (List.append_nil _).symm

/-- What the application receives is what the reply that gave the event said. -/
def Delivers (w : Ledger) : Panel.Op → Prop
  | .receive => ∀ t ∈ w.waiting.head?, t.Delivered w.panel.reader.buf
  | _ => True

/-- What the application receives was left alone by the reads since. -/
def Undisturbed (w : Ledger) : Panel.Op → Prop
  | .receive => ∀ t ∈ w.waiting.head?, t.Undisturbed
  | _ => True

instance (w : Ledger) : DecidablePred w.Delivers
  | .receive => inferInstanceAs (Decidable (∀ t ∈ w.waiting.head?, _))
  | .request _ _ | .cycle _ | .emit | .cancel => isTrue trivial

instance (w : Ledger) : DecidablePred w.Undisturbed
  | .receive => inferInstanceAs (Decidable (∀ t ∈ w.waiting.head?, _))
  | .request _ _ | .cycle _ | .emit | .cancel => isTrue trivial

/-- On a sound panel an operation delivers exactly if it disturbs nothing. -/
theorem Sound.delivers_iff (h : w.Sound) (op : Panel.Op) : w.Delivers op ↔ w.Undisturbed op := by
  cases op with
  | receive =>
    refine forall_congr' fun t => imp_congr_right fun ht => ?_
    have hmem : t ∈ w.waiting := List.mem_of_mem_head? ht
    exact Tracked.delivered_iff (h.sent t hmem) (h.held t hmem)
  | request addr req => exact Iff.rfl
  | cycle x => exact Iff.rfl
  | emit => exact Iff.rfl
  | cancel => exact Iff.rfl

/-! ### A channel without room -/

/-- In a channel without room an event waits in `emit`, and no read comes between. -/
structure Prompt (w : Ledger) : Prop where
  sound : w.Sound
  buffer : w.panel.buffer = 0
  since : ∀ t ∈ w.waiting, t.since = []

/-- A panel that waits for no more than before stays prompt. -/
theorem Prompt.of_waiting (h : w.Prompt) {op : Panel.Op} (hop : op.OneFrame)
    (hbuffer : (w.panel.step op).buffer = w.panel.buffer) (hts : w.awaiting op ⊆ w.waiting) :
    (w.step op).Prompt :=
  ⟨sound_step w op h.sound hop, hbuffer.trans h.buffer, fun t ht => h.since t (hts ht)⟩

/-- **Every operation** keeps a prompt panel prompt. -/
theorem prompt_step (w : Ledger) (op : Panel.Op) (h : w.Prompt) (hop : op.OneFrame) :
    (w.step op).Prompt := by
  cases op with
  | request addr req =>
    refine h.of_waiting hop ?_ (List.Subset.refl _)
    simp only [Panel.step]
    split <;> rfl
  | cycle x =>
    by_cases hready : w.panel.ready = true
    · obtain ⟨hemitting, hwaiting⟩ := Panel.waiting_ready hready
      have hexchanged := Panel.exchange_spec h.sound.idle hop hemitting
      -- nothing is in the channel, so what waits afterwards is the event of this transaction
      have hnone : w.waiting = [] := by
        have hlen := w.panel.bounded
        rw [h.buffer, Nat.le_zero, List.length_eq_zero_iff] at hlen
        rw [← List.map_eq_nil_iff, h.sound.waiting, hwaiting, hlen]
      refine ⟨sound_step w _ h.sound hop, ?_, ?_⟩
      · simp only [step, Panel.step, hready, if_true]
        exact hexchanged.buffer.trans h.buffer
      · intro t ht
        simp only [step, awaiting, hready, if_true, hnone, List.map_nil, List.nil_append,
          List.mem_map] at ht
        obtain ⟨v, -, rfl⟩ := ht
        rfl
    · refine h.of_waiting hop ?_ ?_
      · simp only [Panel.step, hready]
        rfl
      · simp only [awaiting, hready]
        exact List.Subset.refl _
  | emit => exact h.of_waiting hop w.panel.emit_spec.2.2 (List.Subset.refl _)
  | receive => exact h.of_waiting hop w.panel.receive_spec.2.2.2 (List.tail_subset _)
  | cancel => exact h.of_waiting hop rfl (List.take_subset _ _)

/-- **A rendezvous keeps every payload**: with a channel of size zero, what the application
receives is what was sent. -/
theorem rendezvous_delivers (b : Bus) (ops : List Panel.Op) (h : ∀ op ∈ ops, op.OneFrame) :
    ∀ p ∈ Run.trace step (new b 0) ops, p.1.Delivers p.2 := by
  have hprompt : ∀ p ∈ Run.trace step (new b 0) ops, p.1.Prompt :=
    (Run.invariant_of_inputs prompt_step
      ⟨sound_new b 0, rfl, by simp [new]⟩ ops h).1
  rintro ⟨w, op⟩ hp
  have hw := hprompt _ hp
  rw [hw.sound.delivers_iff]
  cases op with
  | receive =>
    intro t ht r hr k hk wire hwire
    rw [hw.since t (List.mem_of_mem_head? ht)] at hwire
    cases hwire
  | request addr req => trivial
  | cycle x => trivial
  | emit => trivial
  | cancel => trivial

end Ledger

/-- **Published events keep their payload exactly as long as the reads leave it.** Over every run
of a panel on any bus, with any size of its channel, in which a read delivers one whole frame if
it delivers anything, and for every schedule of the application: the application receives the
events in the order in which they were published, and what it sees of each is the payload of the
reply that gave it if and only if, at each octet of the payload, the last of the later reads that
reached it left the same octet there. -/
theorem published_payload_kept_iff (b : Bus) (buffer : ℕ) (ops : List Panel.Op)
    (h : ∀ op ∈ ops, op.OneFrame) :
    (∀ p ∈ Run.trace Ledger.step (Ledger.new b buffer) ops,
      p.1.panel.receive.1 = p.1.waiting.head?.map Tracked.published) ∧
    ((∀ p ∈ Run.trace Ledger.step (Ledger.new b buffer) ops, p.1.Delivers p.2) ↔
      ∀ p ∈ Run.trace Ledger.step (Ledger.new b buffer) ops, p.1.Undisturbed p.2) := by
  have hsound : ∀ p ∈ Run.trace Ledger.step (Ledger.new b buffer) ops, p.1.Sound :=
    (Run.invariant_of_inputs Ledger.sound_step (Ledger.sound_new b buffer) ops h).1
  refine ⟨fun p hp => ?_, ?_⟩
  · rw [p.1.panel.receive_spec.1, ← (hsound p hp).waiting, List.head?_map]
  · exact forall_congr' fun p => imp_congr_right fun hp => (hsound p hp).delivers_iff p.2

/-! ## Sample traffic -/

/-- A card at the same reader, later. -/
def nextCard : Octets :=
  [0x53, 0x81, 0x0F, 0x00, 0x02, 0x50, 0x00, 0x01, 0x20, 0x00, 0xCA, 0xFE, 0xF0, 0x0D, 0xE5]

/-- A transaction whose read delivers these octets. -/
def reading (wire : Octets) : Panel.Op := .cycle { port := ⟨wire, [wire.length]⟩ }

/-- A reader at address one, and a panel that has not heard of it. -/
def cardBus : Bus := Bus.new [1] .checksum none

/-- An acknowledgement is too short to reach a card's octets; the next card comes after the first
was received. -/
def promptOps : List Panel.Op :=
  [reading (twoReplies.take 15), .emit, reading (twoReplies.drop 15), .receive,
    reading nextCard, .emit, .receive]

/-- The next card comes while the first is in the channel. -/
def laggingOps : List Panel.Op :=
  [reading (twoReplies.take 15), .emit, reading nextCard, .emit, .receive]

/-- An application that takes each event in time. -/
theorem published_payload_kept_prompt :
    (∀ op ∈ promptOps, op.OneFrame) ∧
      ∀ p ∈ Run.trace Ledger.step (Ledger.new cardBus 16) promptOps, p.1.Delivers p.2 := by
  have hframes : ∀ op ∈ promptOps, op.OneFrame := by decide +kernel
  refine ⟨hframes, (published_payload_kept_iff cardBus 16 promptOps hframes).2.mpr ?_⟩
  decide +kernel

/-- The event of the first card is received with the number of the second. -/
theorem waiting_card_overwritten :
    (∀ op ∈ laggingOps, op.OneFrame) ∧
      (laggingOps.dropLast.foldl Panel.step { bus := cardBus }).receive.1 =
        some ⟨.cardRead ⟨0, 1, 32, [0xDE, 0xAD, 0xBE, 0xEF]⟩, some ⟨10, 4⟩⟩ ∧
      (Published.mk (.cardRead ⟨0, 1, 32, [0xDE, 0xAD, 0xBE, 0xEF]⟩) (some ⟨10, 4⟩)).seen
        (laggingOps.dropLast.foldl Panel.step { bus := cardBus }).reader.buf =
        .cardRead ⟨0, 1, 32, [0xCA, 0xFE, 0xF0, 0x0D]⟩ ∧
      ¬ ∀ p ∈ Run.trace Ledger.step (Ledger.new cardBus 16) laggingOps, p.1.Delivers p.2 := by
  decide +kernel

/-- The same schedule with a channel of size zero: the second card is not read before the first is
received. -/
theorem rendezvous_delivers_lagging :
    (∀ op ∈ laggingOps, op.OneFrame) ∧
      ∀ p ∈ Run.trace Ledger.step (Ledger.new cardBus 0) laggingOps, p.1.Delivers p.2 := by
  have hframes : ∀ op ∈ laggingOps, op.OneFrame := by decide +kernel
  exact ⟨hframes, Ledger.rendezvous_delivers cardBus laggingOps hframes⟩

end Osdp
