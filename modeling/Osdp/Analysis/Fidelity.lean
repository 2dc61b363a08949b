import Osdp.Analysis.Reporting
import Osdp.Analysis.ChannelSpec
import Osdp.Analysis.Transparency
import Osdp.Analysis.Answers
import Osdp.Analysis.Serving
import Osdp.Analysis.Estimate

/-!
# A report from one end of the line to the other

What `ReportCardRead` or `ReportKeypad` put on the queue is taken off it by a poll, encoded,
sealed if the channel is secure, framed, decoded, opened and parsed. The event the bus returns
for it is the report: the poll that takes it is one both ends are ready for, because a device
hands nothing out to a command it could not attribute. A device that attends to the poll
(`Pd.Device.Attends`) does hand it out.
-/

set_option autoImplicit false

namespace Osdp

open Osdp.Secure (Session Rnd Block)

/-! ## Taking a report off the queue -/

/-- The event that says what was reported. -/
def Pd.Report.Says : Pd.Report → Bus.Event → Prop
  | .cardRead c, ev => ev = .cardRead c
  | .keypad k, ev => k.keys.length ≤ 0xFF ∧ ev = .keypad k
  | _, _ => False

namespace Pd.Device

variable {d : Device} {m : Message}

/-- What an accepted report put on the queue is read back as the report. -/
theorem event_of_report {r : Report} {ev : Bus.Event} (hmeans : r.Says ev)
    (hok : (d.report r).1 = .ok ()) (hm : (d.report r).2.pending = d.pending ++ [m]) :
    m.event = some ev := by
  have hqueued : ∀ {n : Message}, (d.queue n).1 = .ok () → (d.queue n).2.pending = d.pending ++ [m] →
      m = n := by
    intro n hn hp
    unfold queue at hn hp
    split at hn
    · cases hn
    · rename_i hroom
      rw [if_neg hroom] at hp
      simpa using (List.append_cancel_left hp).symm
  cases r with
  | cardRead c =>
    cases hmeans
    simp only [report, reportCardRead] at hok hm
    split at hok
    · cases hok
    · rename_i hlen
      rw [if_neg hlen] at hm
      rw [hqueued hok hm]
      simp [Message.event, parseCardRead_append (Nat.le_of_not_lt hlen)]
  | keypad k =>
    obtain ⟨hk, rfl⟩ := hmeans
    simp only [report, reportKeypad] at hok hm
    rw [hqueued hok hm]
    have hcode : Code.keypad ≠ Code.raw := by decide
    simp [Message.event, hcode, parseKeypadEntry_append, List.take_of_length_le hk]
  | input _ _ => exact hmeans.elim
  | tamper _ => exact hmeans.elim
  | power _ => exact hmeans.elim

/-- How a message taken off the queue goes out: in the clear to a command in the clear, or sealed
by the session that opened the command. -/
structure Handed (d : Device) (now : ℤ) (f : Frame) (m : Message) (g : Frame) (s : Option Session)
    (block : Option SecurityBlock) : Prop where
  heard : d.heard f = true
  encoded : ∃ rest u, { d.opening now f with session := s, pending := rest }.encode
    { m with isReply := true } f.control.sequence f.control.scheme block = (.ok g, u)
  carried : (block = none ∧ f.security = none) ∨
    ∃ k t payload t', block = some (replyBlock m.data.length) ∧ f.security = some k ∧
      d.session = some t ∧ t.established = true ∧ openCommand t f k = .ok (payload, t') ∧ s = some t'

/-- **A poll that takes a message off the queue sends it.** -/
theorem handed_of_handle {e : Device} {now : ℤ} {rndB : Rnd} {f g : Frame}
    (hpoll : f.code = Code.poll) (h : d.handle now rndB f = (.ok g, e))
    (ht : d.pending = m :: e.pending) : ∃ s block, Handed d now f m g s block := by
  have hkept : e.pending ≠ d.pending := by
    intro hsame
    have hlen := congrArg List.length ht
    rw [hsame, List.length_cons] at hlen
    omega
  obtain ⟨-, err, -, he⟩ | ⟨-, hreplays, he⟩ | ⟨hheard, -, he⟩ := handle_cases d now rndB f
  · rw [he] at h
    cases h
  · rw [he] at h
    cases h
    refine absurd ?_ hkept
    obtain ⟨s, c, q, v, ho⟩ := observe_eq d now
    rw [ho]
  · rw [he, replyTo] at h
    cases hd : (d.opening now f).dispatchFor f f.control.sequence with
    | none =>
      obtain ⟨s, m', block, hans, -⟩ := answerFor_of_none hd rndB
      rw [hans] at h
      have hpending := emit_pending { d.opening now f with session := s } f f.control.sequence m' block
      rw [h] at hpending
      exact absurd (hpending.trans (opening_pending d now f)) hkept
    | some q =>
      obtain ⟨payload, secured⟩ := q
      obtain ⟨s, hans, hcarried⟩ := answerFor_of_dispatchFor hd rndB
      have htable : { d.opening now f with session := s }.tableAnswer f.code payload secured =
          (m, if secured then some (replyBlock m.data.length) else none,
            { d.opening now f with session := s, pending := e.pending }) := by
        simp [tableAnswer, dispatch, hpoll, pollReply, opening_pending, ht]
      rw [hans, htable] at h
      obtain ⟨err, u, hemit⟩ | ⟨g', u, hemit, hencode, -⟩ :=
        emit_cases { d.opening now f with session := s, pending := e.pending } f f.control.sequence m
          (if secured then some (replyBlock m.data.length) else none)
      · rw [hemit] at h
        cases h
      · rw [hemit] at h
        obtain rfl : g' = g := Except.ok.inj (congrArg Prod.fst h)
        refine ⟨s, _, hheard, ⟨_, _, hencode⟩, ?_⟩
        obtain ⟨rfl, -, -, hsec⟩ | ⟨rfl, k, t, t', hsec, hses, hopen, rfl⟩ := hcarried
        · exact .inl ⟨rfl, hsec⟩
        · exact .inr ⟨k, t, payload, t', rfl, hsec, opening_session hses,
            established_of_dispatchFor hsec hses hd, hopen, rfl⟩

/-- The command reaches the table: the device hears it, has not been silent for too long, has not
answered under its number, is asked in order if it is strict, and holds the session it is asked
under. -/
structure Attends (d : Device) (now : ℤ) (f : Frame) : Prop where
  heard : d.heard f = true
  live : d.silent now = false
  fresh : d.cachedValid = true → f.control.sequence ≠ d.cachedSeq
  ordered : d.cfg.strict = true → d.cachedValid = true → f.control.sequence = nextSequence d.cachedSeq
  enabled : f.security.isSome = true → d.secureEnabled = true
  plain : d.session.any Session.established = false → f.security = none

/-- The suite of the session seals and codes whatever it is given, and pads as the code expects. -/
def Seals (d : Device) : Prop := ∀ t, d.session = some t → t.suite.Total ∧ t.suite.Pads

section Attends

variable {d : Device} {now : ℤ} {f : Frame} {m : Message} {rest : List Message}

/-- The clock is read, and nothing else of the device changes before it answers. -/
theorem Attends.opening_eq (h : d.Attends now f) (hz : f.control.sequence ≠ 0) :
    d.opening now f = d.noticed now := by
  simp only [opening, if_neg hz, observe_of_not_silent h.live]

/-- The table is asked what the session, if there is one, makes of the command. -/
theorem Attends.dispatchFor_eq (h : d.Attends now f) :
    (d.noticed now).dispatchFor f f.control.sequence = d.dispatchOf f := by
  have hordered : ¬ ((d.noticed now).cfg.strict = true ∧ (d.noticed now).cachedValid = true ∧
      f.control.sequence ≠ nextSequence (d.noticed now).cachedSeq) :=
    fun hc => hc.2.2 (h.ordered hc.1 hc.2.1)
  rw [dispatchFor, if_neg hordered]
  rfl

/-- **A poll that reaches the table is answered with the first message of the queue.** -/
theorem Attends.hands_out (h : d.Attends now f) (rndB : Rnd) (hz : f.control.sequence ≠ 0)
    (hpoll : f.code = Code.poll) (hv : Address.valid d.address = true) (hseals : d.Seals)
    {q : Octets × Bool} (hq : d.dispatchOf f = some q) (hp : d.pending = m :: rest) :
    ∃ g e, d.handle now rndB f = (.ok g, e) ∧ e.pending = rest := by
  obtain ⟨payload, secured⟩ := q
  have hreplays : d.replays now f = false := by
    rw [replays, observe_of_not_silent h.live]
    by_cases hc : d.cachedValid = true
    · simp [noticed, h.fresh hc]
    · simp [noticed, hc]
  have he := handle_eq_replyTo h.heard hreplays rndB
  have hfor := h.dispatchFor_eq.trans hq
  obtain ⟨s, hans, hcarried⟩ := answerFor_of_dispatchFor hfor rndB
  have htable : { d.noticed now with session := s }.tableAnswer f.code payload secured =
      (m, if secured then some (replyBlock m.data.length) else none,
        { d.noticed now with session := s, pending := rest }) := by
    simp [tableAnswer, dispatch, hpoll, pollReply, noticed, hp]
  -- the session that opened the command seals the reply
  have hsealable : ({ d.noticed now with session := s, pending := rest } : Device).Sealable
      (if secured then some (replyBlock m.data.length) else none) := by
    intro block hblock
    obtain ⟨rfl, -⟩ | ⟨rfl, k, t, t', hsec, ht, hopen, rfl⟩ := hcarried
    · cases hblock
    · cases hblock
      obtain ⟨mac, rfl⟩ := openCommand_commit hopen
      refine ⟨?_, .inr ⟨t.commit true mac, rfl, ?_, hseals t ht⟩⟩
      · unfold replyBlock
        split <;> rfl
      · exact (established_of_dispatchFor hsec ht hfor : t.established = true)
  obtain ⟨g, u, hencode, -⟩ := encode_total (d := { d.noticed now with session := s, pending := rest })
    hv { m with isReply := true } f.control.sequence f.control.scheme hsealable
  obtain ⟨err, v, hemit⟩ | ⟨g', v, hemit, -, -⟩ :=
    emit_cases { d.noticed now with session := s, pending := rest } f f.control.sequence m
      (if secured then some (replyBlock m.data.length) else none)
  · simp [emit, hencode] at hemit
  · have hpending := emit_pending { d.noticed now with session := s, pending := rest } f
      f.control.sequence m (if secured then some (replyBlock m.data.length) else none)
    rw [hemit] at hpending
    exact ⟨g', _, by rw [he, replyTo, h.opening_eq hz, hans, htable, hemit], hpending⟩

end Attends

end Pd.Device

/-! ## The panel's side -/

namespace Bus

variable {p : Device}

/-- A panel without an established session has none after it asked in the clear. -/
theorem transact_clear {b : Bus} {d : Device} {rndA : Rnd} {f : Frame}
    (hest : d.secureEstablished = false) (h : transact b d rndA = (.ok f, p))
    (hf : f.security = none) : p.secureEstablished = false := by
  have hcommand : (commandFor d rndA).2.2.secureEstablished = false := by
    have hblock : (commandFor d rndA).2.1 = none := (transact_ok h).security.symm.trans hf
    obtain ⟨q, -, hc⟩ | ⟨-, -, hc⟩ | ⟨-, -, hc⟩ | ⟨-, -, hc⟩ | ⟨-, -, hc⟩ := commandFor_cases d rndA
    · rw [hc]
      exact hest
    · rw [hc]
      exact hest
    · rw [hc]
      exact hest
    · rw [hc] at hblock ⊢
      unfold handshakeCommand at hblock ⊢
      split
      · exact hest
      · split
        · exact hest
        · rename_i hpending _ s hs
          simp only [hpending, hs] at hblock
          split
          · rfl
          · rename_i hbegin
            rw [hbegin] at hblock
            cases hblock
    · rw [hc]
      exact hest
  have hcompose := compose_secureEstablished b (commandFor d rndA).2.2 (commandFor d rndA).1
    (commandFor d rndA).2.1
  unfold transact at h
  simp only at h
  rw [h] at hcompose
  exact hcompose.trans hcommand

/-- A reply of the device with a number that opens to a report returns the report. -/
theorem reply_report (b : Bus) {g : Frame} {m : Message} {ev : Event} {s : Option Session}
    (hreply : g.isReply = true) (haddr : g.address = p.address) (hseq : g.control.sequence ≠ 0)
    (hcode : g.code = m.code) (hev : m.event = some ev)
    (hopen : openIfEstablished { p with misses := 0 } g =
      .ok ({ g with data := m.data }, { p with misses := 0, session := s })) :
    ∃ q, reply b p g = (.ok ev, q) := by
  have hmessage : Message.event { code := g.code, isReply := g.isReply, data := m.data } = some ev := by
    rw [← hev]
    simp only [Message.event, hcode]
  obtain ⟨h | h, -⟩ | ⟨-, -, ⟨h, -⟩ | ⟨-, ⟨err, h⟩, -⟩ | ⟨-, data, s', h, he⟩⟩ := reply_cases b p g
  · rw [hreply] at h
    cases h
  · exact absurd haddr h
  · exact absurd h hseq
  · rw [hopen] at h
    cases h
  · rw [hopen] at h
    cases h
    rw [he, dispatch_report b _ hmessage]
    exact ⟨_, rfl⟩

end Bus

/-! ## The exchange -/

namespace Line

/-- Neither end has an established session. -/
def InClear (l : Line) : Prop :=
  l.panel.secureEstablished = false ∧ l.device.session.any Session.established = false

/-- The panel polls, and its frame `f` arrives. -/
structure Polled (b : Bus) (l : Line) (x : Exchange) (f f' : Frame) (p : Bus.Device) : Prop where
  asks : Bus.transact b l.panel x.rndA = (.ok f, p)
  poll : f.code = Code.poll
  arrives : f.crossing = some f'

variable {b : Bus} {p : Bus.Device} {f : Frame} {s : Option Session} {block : Option SecurityBlock}
  {l : Line}

/-- A panel that polls is enrolled. -/
theorem enrolled_of_poll {d : Bus.Device} {rndA : Rnd} (h : Bus.transact b d rndA = (.ok f, p))
    (hpoll : f.code = Code.poll) : d.state ≠ .offline := by
  intro hst
  have hcode := (Bus.transact_ok h).code
  simp only [Bus.commandFor, hst] at hcode
  rw [hpoll] at hcode
  cases hcode

section Exchange

variable {b : Bus} {l : Line} {x : Exchange} {m : Message} {f f' g : Frame} {p : Bus.Device}

/-- The command arrives as it was sent. -/
theorem Polled.same (h : l.Polled b x f f' p) : f' = f :=
  crossing_eq h.arrives (Bus.transact_ok h.asks).check (compose_declared h.asks)

/-- Asking does not move the panel's record of the address. -/
theorem Polled.panel_address (h : l.Polled b x f f' p) : p.address = l.panel.address := by
  have := Bus.transact_address b l.panel x.rndA
  rwa [h.asks] at this

/-- The panel asked a device at an address there is. -/
theorem Polled.valid (h : l.Polled b x f f' p) : Address.valid f.address = true := by
  have harrives := h.arrives
  unfold Frame.crossing at harrives
  split at harrives
  · cases harrives
  · rename_i octets ho
    exact (f.append_ok_iff.mp ⟨_, ho⟩).1

/-- The reply of a device that handed a message out is for the panel that asked. -/
theorem Polled.addressed (h : l.Polled b x f f' p) (hsound : l.Sound)
    (hheard : l.device.heard f = true) : l.device.address = p.address := by
  have hown := hsound.enrolled (enrolled_of_poll h.asks h.poll)
  have hput := Bus.transact_put hsound.isNumber h.asks
  simp only [Pd.Device.heard, Pd.Device.addressed, hput.address, Bool.and_eq_true, Bool.or_eq_true,
    beq_iff_eq] at hheard
  rcases hheard.2 with haddr | ⟨-, haddr⟩
  · rw [h.panel_address, haddr]
  · exact absurd haddr hown

/-- The two ends of an established channel: the panel in the state `Secure`, and the sessions in
lock-step. -/
def Channelled (l : Line) : Prop := l.panel.state = .secure ∧ Locked l.panel l.device

/-- A reply in the clear, to a panel that has no established session. -/
theorem Polled.opens_clear (h : l.Polled b x f f' p) (hclear : l.InClear)
    (hh : l.device.Handed x.now f m g s block) :
    ∃ s, Bus.openIfEstablished { p with misses := 0 } g =
      .ok ({ g with data := m.data }, { p with misses := 0, session := s }) := by
  obtain ⟨-, ⟨rest, u, hencode⟩, ⟨rfl, hsec⟩ | ⟨k, t, payload, t', -, -, ht, hest, -⟩⟩ := hh
  · have hest := Bus.transact_clear hclear.1 h.asks hsec
    have hdata := (Pd.Device.encode_ok rfl hencode).plain rfl
    refine ⟨p.session, ?_⟩
    have hsame : { g with data := m.data } = g := by rw [← hdata]
    rw [hsame]
    unfold Bus.openIfEstablished
    cases hs : p.session with
    | none => rfl
    | some s =>
      simp only [Bus.Device.secureEstablished, hs, Option.any_some] at hest
      simp [hest]
  · have hno := hclear.2
    simp [ht, hest] at hno

/-- A sealed reply, to the panel whose session sealed the command. -/
theorem Polled.opens_sealed (h : l.Polled b x f f' p) (hch : l.Channelled)
    (hh : l.device.Handed x.now f m g s block) :
    ∃ s, Bus.openIfEstablished { p with misses := 0 } g =
      .ok ({ g with data := m.data }, { p with misses := 0, session := s }) := by
  obtain ⟨hst, s₀, t₀, hs₀, ht₀, hpaired, hlaw, hchain⟩ := hch
  obtain ⟨k₀, mac, -, hsealed, -, hasked⟩ := Bus.transact_sealed hst hs₀ h.asks
  obtain ⟨-, ⟨rest, u, hencode⟩, ⟨-, hsec⟩ | ⟨k, t, payload, t', rfl, hsec, ht, -, hopen, rfl⟩⟩ := hh
  · rw [hsealed.security] at hsec
    cases hsec
  · -- the device's session opened the command, so both chains moved alike
    rw [hsealed.security] at hsec
    cases hsec
    rw [ht₀] at ht
    cases ht
    rw [openCommand_eq, hsealed.opens hlaw hpaired hchain] at hopen
    cases hopen
    have hblock : Secure.BlockType.handshake (Pd.replyBlock m.data.length).type = false := by
      unfold Pd.replyBlock
      split <;> decide
    simp only [Pd.Device.encode, hblock, Bool.false_eq_true, if_false] at hencode
    obtain ⟨v, mac', hv, hreply, -⟩ := sealed_of_sealReply hencode
    cases hv
    have hpaired' : (t₀.commit true mac).Paired (s₀.commit true mac) :=
      (hpaired.commit_left true mac).commit_right true mac |>.symm
    have hlaw' : (t₀.commit true mac).suite.Lawful := by
      rw [Secure.Session.commit_suite, hpaired.suite]
      exact hlaw
    have hest : (s₀.commit true mac).established = true := hpaired'.peer
    refine ⟨some ((s₀.commit true mac).commit false mac'), ?_⟩
    simp only [Bus.openIfEstablished, hasked.session, hest, if_true, openReply_eq _ hreply.security,
      hreply.opens hlaw' hpaired' rfl]

/-- A device that attends to the poll runs its table on it. -/
theorem Polled.dispatched (h : l.Polled b x f f' p) (hlink : l.InClear ∨ l.Channelled)
    (hattends : l.device.Attends x.now f) : ∃ q, l.device.dispatchOf f = some q := by
  rcases hlink with hclear | ⟨hst, s₀, t₀, hs₀, ht₀, hpaired, hlaw, hchain⟩
  · exact ⟨(f.data, false), by simp [Pd.Device.dispatchOf, hattends.plain hclear.2, hclear.2]⟩
  · obtain ⟨k₀, mac, hblock, hsealed, -, -⟩ := Bus.transact_sealed hst hs₀ h.asks
    have hopen := hsealed.opens hlaw hpaired hchain
    have hen := hattends.enabled (by rw [hsealed.security]; rfl)
    refine ⟨((l.panel.takes.getD Bus.Device.pollMessage).data, true), ?_⟩
    simp only [Pd.Device.dispatchOf, hsealed.security, hen, hblock, and_self, if_true, ht₀,
      hpaired.peer, openCommand_eq, hopen]

end Exchange

/-- The number, the addresses and the queue of a line that was run from its start. -/
theorem sound_step (b : Bus) (h : l.Sound) (op : LineOp) : (l.step b op).Sound := by
  -- a submission touches none of what the panel numbers and addresses by
  have hpanel : ∀ d : Bus.Device, d.repeatSequence = l.panel.repeatSequence → d.seq = l.panel.seq →
      d.state = l.panel.state → d.address = l.panel.address → ({ l with panel := d } : Line).Sound := by
    intro d hrep hseq hst haddr
    exact ⟨by simpa [hrep, hseq] using h.number,
      by simpa [Bus.Device.Enrolled, hst, haddr] using h.enrolled, h.device⟩
  cases op with
  | send m =>
    refine hpanel _ ?_ ?_ ?_ ?_
    all_goals
      unfold Bus.send
      split <;> rfl
  | installKey key =>
    refine hpanel _ ?_ ?_ ?_ ?_
    all_goals
      unfold Bus.installKey
      split <;> rfl
  | report r =>
    obtain ⟨i, t, w, p, he⟩ := Pd.Device.report_device l.device r
    refine ⟨h.number, h.enrolled, ?_⟩
    simp only [step, he]
    exact ⟨h.device.address, h.device.cached, h.device.settled⟩
  | exchange x => exact sound_exchange b h x

/-- A line that was run from its start in any way is sound. -/
theorem sound_of_run (b : Bus) (addr : Address) {addr' : Address} {cfg : Pd.Settings}
    {d : Pd.Device} (hnew : Pd.new addr' cfg = .ok d) (ops : List LineOp) :
    (ops.foldl (Line.step b) { panel := .new addr, device := d }).Sound :=
  Run.invariant (I := Line.Sound) (fun l op hl => sound_step b hl op)
    ⟨by simp [Bus.Device.new], fun hoff => absurd rfl hoff, Pd.Device.unicast_new hnew⟩ ops

/-- **A report arrives as it was made.** On a line that was run from its start in any way, with
any losses before, in the clear or over a channel in lock-step: a poll that takes an accepted
report off the queue makes the bus return that report, and a poll the device attends to takes it
off when it is the first there. -/
theorem reported_event_arrives (b : Bus) (addr : Address) {addr' : Address} {cfg : Pd.Settings}
    {d : Pd.Device} (hnew : Pd.new addr' cfg = .ok d) (ops : List LineOp) {l : Line}
    (hl : ops.foldl (Line.step b) { panel := .new addr, device := d } = l)
    (hlink : l.InClear ∨ l.Channelled)
    {origin : Pd.Device} {r : Pd.Report} {ev : Bus.Event} {m : Message} (hmeans : r.Says ev)
    (haccepted : (origin.report r).1 = .ok ())
    (hqueued : (origin.report r).2.pending = origin.pending ++ [m])
    {x : Exchange} {f f' : Frame} {p : Bus.Device} (h : l.Polled b x f f' p) :
    (l.device.Attends x.now f' → l.device.Seals → ∀ rest, l.device.pending = m :: rest →
      ∃ g e, l.device.handle x.now x.rndB f' = (.ok g, e) ∧ e.pending = rest) ∧
    ∀ g e octets, l.device.handle x.now x.rndB f' = (.ok g, e) →
      l.device.pending = m :: e.pending → g.append [] = .ok octets →
      decode octets = .ok g ∧ ∃ q, Bus.reply b p g = (.ok ev, q) := by
  have hsound : l.Sound := hl ▸ sound_of_run b addr hnew ops
  have hput := Bus.transact_put hsound.isNumber h.asks
  have hz : f.control.sequence ≠ 0 := by
    rw [hput.number]
    exact hsound.isNumber.ne_zero
  refine ⟨fun hattends hseals rest hrest => ?_, fun g e octets hanswers htakes hwritten => ?_⟩
  · rw [h.same] at hattends ⊢
    obtain ⟨q, hq⟩ := h.dispatched hlink hattends
    have hv : Address.valid l.device.address = true := by
      rw [h.addressed hsound hattends.heard, h.panel_address, ← hput.address]
      exact h.valid
    exact hattends.hands_out x.rndB hz h.poll hv hseals hq hrest
  · have hev := Pd.Device.event_of_report hmeans haccepted hqueued
    obtain ⟨s, block, hh⟩ := Pd.Device.handed_of_handle (by rw [h.same]; exact h.poll) hanswers htakes
    rw [h.same] at hh
    obtain ⟨s', hopen⟩ : ∃ s, Bus.openIfEstablished { p with misses := 0 } g =
        .ok ({ g with data := m.data }, { p with misses := 0, session := s }) := by
      rcases hlink with hclear | hch
      · exact h.opens_clear hclear hh
      · exact h.opens_sealed hch hh
    obtain ⟨rest, u, hencode⟩ := hh.encoded
    have hreplied := Pd.Device.encode_ok rfl hencode
    refine ⟨decode_append hwritten (Pd.Device.encode_checked hencode).1
      (encode_declared hencode), ?_⟩
    refine Bus.reply_report b hreplied.isReply ?_ ?_ hreplied.code hev hopen
    · obtain ⟨_, _, _, _, _, hopening⟩ := Pd.Device.opening_eq l.device x.now f
      rw [hreplied.address, ← h.addressed hsound hh.heard]
      simp [hopening]
    · rw [hreplied.number (hput.number ▸ hsound.isNumber.le)]
      exact hz

/-! ## Sample traffic -/

/-- The message a card read goes out as. -/
def cardMessage : Message := { code := Code.raw, data := Pd.appendCardRead [] Journal.card }

/-- A poll that is about to take the card off the queue, with what its answer needs. -/
structure Waiting (b : Bus) (l : Line) (f : Frame) (p : Bus.Device) : Prop where
  polled : l.Polled b { fate := .delivered } f f p
  attends : l.device.Attends 0 f
  seals : l.device.Seals
  first : l.device.pending = [cardMessage]
  fits : ((l.device.handle 0 Secure.zeroRnd f).1.toOption.bind fun g =>
    (g.append []).toOption).isSome = true

/-- A reader is enrolled and a card is read. -/
def cardReadOps : List LineOp :=
  [Journal.heardExchange, Journal.heardExchange, .report (.cardRead Journal.card)]

/-- In the clear, with a checksum. -/
theorem waiting_clear : ∃ d l f p, Pd.new 1 Journal.plainSettings = .ok d ∧
    cardReadOps.foldl (Line.step { scheme := .checksum }) { panel := .new 1, device := d } = l ∧
    l.InClear ∧ l.Waiting { scheme := .checksum } f p :=
  ⟨_, _, _, _, rfl, rfl, ⟨by decide, by decide⟩, ⟨rfl, rfl, rfl⟩,
    ⟨by decide, by decide, by decide, by decide, by decide, by decide⟩, nofun, rfl, by decide +kernel⟩

/-- The standard suite around the cipher that leaves every block as it is, over CRC-16 frames. -/
def sealedBus : Bus :=
  { scheme := .crc16
    secure := some ⟨Secure.aes128 Secure.plainCipher, fun _ => some Secure.zeroBlock⟩ }

/-- A reader with that suite. -/
def sealedSettings : Pd.Settings := { suite := some (Secure.aes128 Secure.plainCipher) }

/-- The reader is enrolled, the handshake completes and a card is read. -/
def sealedCardOps : List LineOp :=
  [Journal.heardExchange, Journal.heardExchange, Journal.heardExchange, Journal.heardExchange,
    .report (.cardRead Journal.card)]

set_option maxRecDepth 100000 in
/-- Over the Secure Channel. -/
theorem waiting_sealed : ∃ d l f p, Pd.new 1 sealedSettings = .ok d ∧
    sealedCardOps.foldl (Line.step sealedBus) { panel := .new 1, device := d } = l ∧
    l.Channelled ∧ l.Waiting sealedBus f p := by
  refine ⟨_, _, _, _, rfl, rfl,
    ⟨by decide +kernel, _, _, rfl, rfl, ⟨rfl, rfl, rfl, rfl⟩, Secure.aes128_lawful _, rfl⟩,
    ⟨rfl, by decide +kernel, rfl⟩, ⟨by decide +kernel, by decide +kernel, by decide +kernel,
      by decide +kernel, by decide +kernel, by decide +kernel⟩, ?_, by decide +kernel,
    by decide +kernel⟩
  intro t ht
  cases ht
  exact ⟨Secure.aes128_total _, Secure.aes128_pads _⟩

/-- What the device answers such a poll with can be written. -/
theorem Waiting.written {g : Frame} {e : Pd.Device} (h : l.Waiting b f p)
    (hg : l.device.handle 0 Secure.zeroRnd f = (.ok g, e)) :
    ∃ octets, g.append [] = .ok octets := by
  have hfits := h.fits
  rw [hg] at hfits
  cases ha : g.append [] with
  | ok octets => exact ⟨octets, rfl⟩
  | error err => simp [Except.toOption, ha] at hfits

/-- In the clear, and over a Secure Channel with CRC-16 frames. -/
theorem reported_event_arrives_card :
    (∃ p g q, Bus.reply { scheme := .checksum } p g = (.ok (.cardRead Journal.card), q) ∧
      ∃ octets, g.append [] = .ok octets ∧ decode octets = .ok g) ∧
    ∃ l : Line, l.Channelled ∧ ∃ f p g e q,
      Bus.transact sealedBus l.panel Secure.zeroRnd = (.ok f, p) ∧
      l.device.handle 0 Secure.zeroRnd f = (.ok g, e) ∧ e.pending = [] ∧
      Bus.reply sealedBus p g = (.ok (.cardRead Journal.card), q) ∧
      ∃ octets, g.append [] = .ok octets ∧ decode octets = .ok g := by
  have hsays : (Pd.Report.cardRead Journal.card).Says (.cardRead Journal.card) := rfl
  have haccepted : (Pd.Device.report { cfg := {}, address := 1 } (.cardRead Journal.card)).1 =
    .ok () := rfl
  constructor
  · obtain ⟨d, l, f, p, hnew, hl, hclear, h⟩ := waiting_clear
    obtain ⟨hout, harrives⟩ := reported_event_arrives _ 1 hnew cardReadOps hl (.inl hclear)
      (m := cardMessage) hsays haccepted rfl h.polled
    obtain ⟨g, e, hg, he⟩ := hout h.attends h.seals [] h.first
    obtain ⟨octets, ho⟩ := h.written hg
    obtain ⟨hdec, q, hq⟩ := harrives g e octets hg (he ▸ h.first) ho
    exact ⟨p, g, q, hq, octets, ho, hdec⟩
  · obtain ⟨d, l, f, p, hnew, hl, hch, h⟩ := waiting_sealed
    obtain ⟨hout, harrives⟩ := reported_event_arrives _ 1 hnew sealedCardOps hl (.inr hch)
      (m := cardMessage) hsays haccepted rfl h.polled
    obtain ⟨g, e, hg, he⟩ := hout h.attends h.seals [] h.first
    obtain ⟨octets, ho⟩ := h.written hg
    obtain ⟨hdec, q, hq⟩ := harrives g e octets hg (he ▸ h.first) ho
    exact ⟨l, hch, f, p, g, e, q, h.polled.asks, hg, he, hq, octets, ho, hdec⟩

end Line

end Osdp
