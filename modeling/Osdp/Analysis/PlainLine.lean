import Osdp.Analysis.Journal

/-!
# A line in plaintext

What `Next`, `Handle`, `Reply` and `Timeout` come to when neither side has a Secure
Channel, the device is lenient about numbers and measures no silence. The panel asks a
question of its own or takes a waiting command, under the number `Device.number`; the
device ignores it, says again what it said last, or runs its table and caches the answer.
-/

set_option autoImplicit false

namespace Osdp

open Osdp.Secure (Session Rnd)

/-! ## The rotation -/

/-- The sequence numbers of the rotation. -/
def IsNumber (s : UInt8) : Prop := s = 1 ∨ s = 2 ∨ s = 3

variable {s : UInt8}

/-- A number is not zero. -/
theorem IsNumber.ne_zero (h : IsNumber s) : s ≠ 0 := by
  rcases h with rfl | rfl | rfl <;> decide

/-- Nor above three. -/
theorem IsNumber.le (h : IsNumber s) : s ≤ 3 := by
  rcases h with rfl | rfl | rfl <;> decide

namespace Bus

/-- The next number is one. -/
theorem rotate_isNumber (s : UInt8) : IsNumber (Device.rotate s) := by
  have hle := UInt8.le_iff_toNat_le.mp (Device.rotate_le s)
  have hne : (Device.rotate s).toNat ≠ 0 := by
    intro h
    exact Device.rotate_ne_zero s (UInt8.toNat_inj.mp h)
  have h3 : (3 : UInt8).toNat = 3 := rfl
  rw [h3] at hle
  have hcases : (Device.rotate s).toNat = 1 ∨ (Device.rotate s).toNat = 2 ∨
      (Device.rotate s).toNat = 3 := by omega
  rcases hcases with h | h | h
  · exact .inl (UInt8.toNat_inj.mp h)
  · exact .inr (.inl (UInt8.toNat_inj.mp h))
  · exact .inr (.inr (UInt8.toNat_inj.mp h))

variable {d q : Device}

/-- The number of the next command is one. -/
theorem Device.isNumber_number (h : d.repeatSequence = true → IsNumber d.seq) :
    IsNumber d.number := by
  unfold Device.number
  split
  · rename_i hrep
    exact h hrep
  · exact rotate_isNumber _

/-- Fewer than three steps of the rotation do not come back to where they began. -/
theorem rotate_iterate_ne {s : UInt8} (h : IsNumber s) {g : ℕ} (h0 : 0 < g) (h3 : g < 3) :
    Device.rotate^[g] s ≠ s := by
  have hg : g = 1 ∨ g = 2 := by omega
  rcases h with rfl | rfl | rfl <;> rcases hg with rfl | rfl <;> decide

/-! ## The panel -/

/-- A device record of a panel without a Secure Channel, between two exchanges. -/
structure Device.Plain (p : Device) : Prop where
  session : p.session = none
  state : p.state = .offline ∨ p.state = .identifying ∨ p.state = .online
  inflight : p.inflight = none

/-- What `Next` asks of such a device. -/
def Device.question (p : Device) : Message :=
  match p.takes, p.state with
  | some m, _ => m
  | none, .offline => { code := Code.id, data := [0x00] }
  | none, .identifying => { code := Code.cap, data := [0x00] }
  | none, _ => Device.pollMessage

/-- What `Next` leaves of such a record. -/
def Device.sent (p : Device) : Device :=
  { p with
    outbox := if p.takes.isSome then p.outbox.tail else p.outbox
    inflight := p.takes
    seq := p.number
    repeatSequence := false
    deferCommands := if p.state = .online then false else p.deferCommands }

/-- **`Next` in plaintext.** A waiting command or a question of the panel's own, at the number
whose turn it is. -/
theorem transact_plain (b : Bus) {p : Device} (h : p.Plain) (rndA : Rnd) :
    transact b p rndA =
      (if Address.valid p.address then .ok (plainFrame b p p.question)
        else .error (.encode .invalidAddress), p.sent) := by
  have hcompose : ∀ (q : Message) (e : Device), e.address = p.address → e.number = p.number →
      compose b e q none =
        (if Address.valid p.address then .ok (plainFrame b p q)
          else .error (.encode .invalidAddress),
          { e with seq := p.number, repeatSequence := false }) := by
    intro q e ha hn
    by_cases hv : Address.valid p.address = true
    · rw [compose_none b e q (by rw [ha]; exact hv)]
      simp [hv, plainFrame, ha, hn]
    · simp [compose, Device.nextSequence_eq, Message.encode, hv, ha, hn]
  have hsecure : p.state ≠ .secure := by
    rcases h.state with hs | hs | hs <;> rw [hs] <;> decide
  obtain ⟨m, ht, he⟩ | ⟨ht, hs, he⟩ | ⟨ht, hs, he⟩ | ⟨ht, hs, he⟩ | ⟨ht, hs, he⟩ :=
    commandFor_cases p rndA
  · obtain ⟨hs, hd, -, -⟩ := Device.takes_eq_some ht
    have hon : p.state = .online := hs.resolve_right hsecure
    simp only [transact, he, if_neg hsecure]
    rw [hcompose _ _ (by rfl) (by rfl)]
    simp [Device.question, Device.sent, ht, hon, hd]
  · simp only [transact, he]
    rw [hcompose _ _ rfl rfl]
    simp [Device.question, Device.sent, ht, hs, h.inflight]
  · simp only [transact, he]
    rw [hcompose _ _ rfl rfl]
    simp [Device.question, Device.sent, ht, hs, h.inflight]
  · rcases h.state with hs' | hs' | hs' <;> rw [hs'] at hs <;> cases hs
  · have hon : p.state = .online := hs.resolve_right hsecure
    simp only [transact, he, if_neg hsecure]
    rw [hcompose _ _ (by rfl) (by rfl)]
    simp [Device.question, Device.sent, ht, hon, h.inflight]

/-- The dispatcher in plaintext: no session appears, and the state stays among those of enrolment. -/
theorem dispatch_plain (b : Bus) (hb : b.secure = none) (m : Message) (hse : d.session = none)
    (hst : d.state = .offline ∨ d.state = .identifying ∨ d.state = .online) :
    (dispatch b d m).2.session = none ∧
      ((dispatch b d m).2.state = .offline ∨ (dispatch b d m).2.state = .identifying ∨
        (dispatch b d m).2.state = .online) := by
  apply dispatch_rows b d m (motive := fun r => r.2.session = none ∧
    (r.2.state = .offline ∨ r.2.state = .identifying ∨ r.2.state = .online))
  case malformed => exact fun _ => ⟨hse, hst⟩
  case identified => exact fun _ _ _ => ⟨hse, .inr (.inl rfl)⟩
  case capabilities =>
    intro report e _ _ _
    have hcap : afterCapabilities b { d with caps := report } =
        { d with caps := report, state := .online } := by simp only [afterCapabilities, hb]
    rw [hcap]
    exact ⟨hse, .inr (.inr rfl)⟩
  case status => exact fun _ _ _ _ => ⟨hse, hst⟩
  case cryptogram =>
    intro _
    simp only [onCryptogram, hse]
    exact ⟨rfl, .inr (.inr rfl)⟩
  case initialRMAC =>
    intro _
    simp only [onInitialRMAC, hse]
    exact ⟨rfl, .inr (.inr rfl)⟩
  case card => exact fun _ _ _ => ⟨hse, hst⟩
  case keypad => exact fun _ _ _ => ⟨hse, hst⟩
  case refused => exact fun _ _ => ⟨hse, hst⟩
  case manufacturer => exact fun _ _ _ => ⟨hse, hst⟩
  case moved => exact fun _ _ _ => ⟨rfl, .inl rfl⟩
  case busy =>
    intro _
    rw [Device.reclaim_eq]
    split <;> exact ⟨hse, hst⟩
  case installed => exact fun _ _ _ _ => ⟨rfl, .inr (.inl rfl)⟩
  case answer =>
    intro _
    obtain ⟨-, he⟩ | ⟨-, he⟩ := onAnswer_cases d
    · rw [he]
      exact ⟨hse, .inr (.inl rfl)⟩
    · rw [he]
      exact ⟨hse, hst⟩

/-- What a reply leaves of a plaintext record that was waiting for it. -/
structure Answered (q : Device) (r : Frame) (e : Device) : Prop where
  plain : e.Plain
  repeatSequence : e.repeatSequence = false
  outbox : e.outbox = if r.code = Code.busy then q.inflight.toList ++ q.outbox else q.outbox
  kept : e.state ≠ .offline → e.seq = q.seq ∧ e.misses ≤ 1 ∧ e.address = q.address

/-- **`Reply` in plaintext**, for a reply from this device with a sequence number. -/
theorem reply_plain (b : Bus) (hb : b.secure = none) (hse : q.session = none)
    (hst : q.state = .offline ∨ q.state = .identifying ∨ q.state = .online)
    (hrep : q.repeatSequence = false) {r : Frame} (hr : r.isReply = true)
    (ha : r.address = q.address) (hz : r.control.sequence ≠ 0) :
    Answered q r (reply b q r).2 ∧ ((reply b q r).2.state ≠ .offline → (reply b q r).2.misses = 0) := by
  have hopen : openIfEstablished { q with misses := 0 } r = .ok (r, { q with misses := 0 }) := by
    simp [openIfEstablished, hse]
  have hreply : reply b q r = dispatch b { q with misses := 0 }.delivered (Message.decode r) := by
    simp only [reply, hr, ha, hz, hopen, not_true_eq_false, ne_eq, if_false]
  obtain ⟨hinflight, houtbox⟩ := dispatch_queue b { q with misses := 0 } (Message.decode r)
  obtain ⟨hsession, hstate⟩ := dispatch_plain b hb (d := { q with misses := 0 }.delivered)
    (Message.decode r) (by simpa using hse) (by simpa using hst)
  have hfields : (dispatch b { q with misses := 0 }.delivered (Message.decode r)).2.repeatSequence =
        false ∧
      ((dispatch b { q with misses := 0 }.delivered (Message.decode r)).2.state ≠ .offline →
        (dispatch b { q with misses := 0 }.delivered (Message.decode r)).2.seq = q.seq ∧
        (dispatch b { q with misses := 0 }.delivered (Message.decode r)).2.misses = 0 ∧
        (dispatch b { q with misses := 0 }.delivered (Message.decode r)).2.address = q.address) := by
    obtain ⟨-, i, c, st, se, pe, de, ss, he⟩ | ⟨-, he⟩ | ⟨k, -, -, -, he⟩ | ⟨c, -, -, he⟩ | ⟨-, he⟩ :=
      dispatch_cases b { q with misses := 0 }.delivered (Message.decode r)
    · rw [he]; simpa using hrep
    · rw [he]; simpa using hrep
    · rw [he]; simpa using hrep
    · rw [he]; simp [Device.resync_eq]
    · rw [he, Device.reclaim_eq]
      split <;> simpa using hrep
  obtain ⟨hrepeat, hkept⟩ := hfields
  rw [hreply]
  refine ⟨⟨⟨hsession, hstate, hinflight⟩, hrepeat, houtbox, fun hoff => ?_⟩, fun hoff => (hkept hoff).2.1⟩
  obtain ⟨hseq, hmiss, haddr⟩ := hkept hoff
  exact ⟨hseq, by omega, haddr⟩

/-- What a silence leaves of a plaintext record that was waiting. -/
structure Unanswered (q e : Device) : Prop where
  plain : e.Plain
  outbox : e.outbox = q.inflight.toList ++ q.outbox
  kept : e.state ≠ .offline → e.state = q.state ∧ e.seq = q.seq ∧ e.misses = q.misses + 1 ∧
    e.misses < offlineThreshold ∧ e.address = q.address ∧ e.deferCommands = q.deferCommands ∧
    e.repeatSequence = (q.inflight.isSome || q.repeatSequence)
  restarted : e.state = .offline →
    (q.state = .offline ∧ e.repeatSequence = (q.inflight.isSome || q.repeatSequence)) ∨
      e.repeatSequence = false

/-- **`Timeout` in plaintext.** -/
theorem timeout_plain (hse : q.session = none)
    (hst : q.state = .offline ∨ q.state = .identifying ∨ q.state = .online) :
    Unanswered q (timeout q).2 := by
  obtain ⟨hlt, he⟩ | ⟨-, -, he⟩ := timeout_cases q
  · rw [he]
    simp only [Device.retransmit_eq]
    refine ⟨⟨hse, hst, rfl⟩, rfl, fun hoff => ⟨rfl, rfl, rfl, ?_, rfl, rfl, rfl⟩,
      fun hoff => .inl ⟨hoff, rfl⟩⟩
    exact hlt.resolve_right hoff
  · rw [he]
    simp only [Device.resync_eq]
    exact ⟨⟨rfl, .inl rfl, rfl⟩, rfl, fun hoff => absurd rfl hoff, fun _ => .inr rfl⟩

end Bus

/-! ## The device -/

namespace Pd

/-- A device without a Secure Channel that is lenient about numbers and measures no silence. -/
structure Device.Plain (d : Device) : Prop where
  strict : d.cfg.strict = false
  timeout : d.cfg.timeout = 0
  suite : d.cfg.suite = none
  session : d.session = none
  settled : d.Settled
  valid : Address.valid d.address = true
  unicast : d.address ≠ broadcastAddress

/-- A device without options is plain. -/
theorem Device.plain_new {addr : Address} {cfg : Settings} {d : Device} (h : new addr cfg = .ok d)
    (hstrict : cfg.strict = false) (ht : cfg.timeout = 0) (hsuite : cfg.suite = none) :
    d.Plain ∧ d.cachedValid = false := by
  obtain ⟨hvalid, hunicast, -, c, rfl, -⟩ := new_ok h
  exact ⟨⟨hstrict, ht, hsuite, rfl, ⟨rfl, rfl⟩, hvalid, hunicast⟩, rfl⟩

namespace Device

/-- The clock read. -/
def noticed (d : Device) (now : ℤ) : Device := { d with seen := true, lastSeen := now }

variable {d : Device} {f : Frame}

/-- It does not fall silent. -/
theorem observe_plain (h : d.Plain) (now : ℤ) : d.observe now = d.noticed now := by
  simp [observe, noticed, h.timeout]

/-- The device after a plaintext answer: the table run, the reply cached, what it had to adopt
adopted. -/
def answered (d : Device) (now : ℤ) (f r : Frame) : Device :=
  (((d.noticed now).dispatch f.code f.data false).2.stored f.control.sequence r).adoptAddress.adoptKey

/-- **`Handle` in plaintext.** -/
theorem handle_plain (h : d.Plain) (now : ℤ) (rndB : Rnd) (hsec : f.security = none)
    (hz : f.control.sequence ≠ 0) :
    (d.heard f = false ∧ d.dispatched now f = none ∧
      ∃ e, Error.isNoReply e = true ∧ d.handle now rndB f = (.error e, d)) ∨
    (d.heard f = true ∧ d.replays now f = true ∧ d.cachedValid = true ∧
      f.control.sequence = d.cachedSeq ∧ d.dispatched now f = none ∧
      d.handle now rndB f = (.ok d.cached, d.noticed now)) ∨
    (d.heard f = true ∧ d.replays now f = false ∧
      ¬ (d.cachedValid = true ∧ f.control.sequence = d.cachedSeq) ∧
      d.dispatched now f = some (f.data, false) ∧
      ∃ r, d.handle now rndB f = (.ok r, d.answered now f r) ∧
        Replied d ((d.noticed now).dispatch f.code f.data false).1 f.control.sequence none r) := by
  have hobs := observe_plain h now
  have hopening : d.opening now f = d.noticed now := by simp [opening, hz, hobs]
  have hreplays : d.replays now f = (d.cachedValid && f.control.sequence == d.cachedSeq) := by
    simp [replays, hz, hobs, noticed]
  have hdispatch : (d.noticed now).dispatchFor f f.control.sequence = some (f.data, false) := by
    simp [dispatchFor, noticed, h.strict, dispatchOf, hsec, h.session]
  obtain ⟨hheard, e, he, hh⟩ | ⟨hheard, hrep, hh⟩ | ⟨hheard, hrep, hh⟩ := handle_cases d now rndB f
  · exact .inl ⟨hheard, by simp [dispatched, hheard], e, he, hh⟩
  · have hcached : d.cachedValid = true ∧ f.control.sequence = d.cachedSeq := by
      simpa [hreplays] using hrep
    refine .inr (.inl ⟨hheard, hrep, hcached.1, hcached.2, by simp [dispatched, hrep], ?_⟩)
    rw [hh, hobs]
    rfl
  · have hcached : ¬ (d.cachedValid = true ∧ f.control.sequence = d.cachedSeq) := by
      simpa [hreplays] using hrep
    refine .inr (.inr ⟨hheard, hrep, hcached, ?_, ?_⟩)
    · simp [dispatched, hheard, hrep, hopening, hdispatch]
    · have hanswer : (d.noticed now).answerFor f f.control.sequence rndB =
          (((d.noticed now).dispatch f.code f.data false).1, none,
            ((d.noticed now).dispatch f.code f.data false).2) := by
        simp [answerFor, noticed, h.strict, answer, hsec, h.session]
      obtain ⟨p, o, a, k, hd⟩ := dispatch_device (d.noticed now) f.code f.data false
      have hvalid : Address.valid ((d.noticed now).dispatch f.code f.data false).2.address = true := by
        rw [hd]
        exact h.valid
      have haddr : ((d.noticed now).dispatch f.code f.data false).2.address = d.address := by
        rw [hd]
        rfl
      rw [hh, replyTo, hopening, hanswer]
      simp only
      obtain ⟨err, s, he⟩ | ⟨g, s, he, hencode, hg⟩ :=
        emit_cases ((d.noticed now).dispatch f.code f.data false).2 f f.control.sequence
          ((d.noticed now).dispatch f.code f.data false).1 none
      · -- a plaintext reply from a valid address is always built
        exfalso
        simp [emit, encode, Message.encode, hvalid] at he
      · refine ⟨g, ?_, hg.isReply, hg.address.trans haddr, hg.number, hg.code, hg.security, hg.plain⟩
        have hs : s = ((d.noticed now).dispatch f.code f.data false).2.session := by
          simp only [encode, Message.encode, hvalid, not_true_eq_false, if_false,
            Prod.mk.injEq] at hencode
          exact (congrArg Device.session hencode.2).symm
        rw [he, hs]
        rfl

/-- What is left of a plain device by an answer. -/
structure Fresh (d : Device) (now : ℤ) (f r : Frame) (e : Device) : Prop where
  plain : e.Plain
  cfg : e.cfg = d.cfg
  cached : e.cached = r
  cachedSeq : e.cachedSeq = f.control.sequence
  cachedValid : e.cachedValid = true
  pending : e.pending = ((d.noticed now).dispatch f.code f.data false).2.pending

/-- A new answer leaves it fresh. -/
theorem answered_fresh (h : d.Plain) (now : ℤ) {r : Frame} (hz : f.control.sequence ≠ 0) :
    Fresh d now f r (d.answered now f r) := by
  obtain ⟨p, o, a, k, hd⟩ := dispatch_device (d.noticed now) f.code f.data false
  obtain ⟨hadopt, hkey⟩ := dispatch_adopting (d.noticed now) f.code f.data false
  have hk : k = none := by
    have := hkey rfl
    rw [hd] at this
    exact this.trans h.settled.2
  subst hk
  rw [hd] at hadopt
  have hsettled := h.settled.1
  cases a with
  | none =>
    have he : d.answered now f r =
        { d.noticed now with pending := p, outputs := o, cached := r,
                             cachedSeq := f.control.sequence, cachedValid := true, adopting := none,
                             adoptingKey := none } := by
      simp [answered, hd, stored, hz, adoptAddress, adoptKey]
    rw [he]
    refine ⟨⟨h.strict, h.timeout, h.suite, h.session, ⟨rfl, rfl⟩, h.valid, h.unicast⟩, rfl, rfl, rfl,
      rfl, ?_⟩
    rw [hd]
  | some a =>
    obtain ⟨hvalid, hunicast⟩ : Address.valid a = true ∧ a ≠ broadcastAddress := by
      rcases hadopt with hsame | ⟨a', ha', hv, hu⟩
      · simp only [noticed, hsettled] at hsame
        cases hsame
      · cases ha'
        exact ⟨hv, hu⟩
    have he : d.answered now f r =
        { d.noticed now with pending := p, outputs := o, cached := r,
                             cachedSeq := f.control.sequence, cachedValid := true, address := a,
                             adopting := none, adoptingKey := none } := by
      simp [answered, hd, stored, hz, adoptAddress, adoptKey]
    rw [he]
    refine ⟨⟨h.strict, h.timeout, h.suite, h.session, ⟨rfl, rfl⟩, hvalid, hunicast⟩, rfl, rfl, rfl,
      rfl, ?_⟩
    rw [hd]

end Device

end Pd

/-! ## The panel's turn -/

namespace Line

variable {l : Line} {r : Frame}

/-- A silence is one at the panel. -/
theorem await_none_plain (b : Bus) (hse : l.panel.session = none)
    (hst : l.panel.state = .offline ∨ l.panel.state = .identifying ∨ l.panel.state = .online)
    (x : Exchange) : ∃ e, (l.await b x none).2 = { l with panel := e } ∧ Bus.Unanswered l.panel e :=
  ⟨_, rfl, Bus.timeout_plain hse hst⟩

/-- A reply to this device is taken, and one it cannot read still ends the exchange. -/
theorem await_some_plain (b : Bus) (hb : b.secure = none) (hse : l.panel.session = none)
    (hst : l.panel.state = .offline ∨ l.panel.state = .identifying ∨ l.panel.state = .online)
    (hrep : l.panel.repeatSequence = false) (x : Exchange) (hr : r.isReply = true)
    (ha : r.address = l.panel.address) (hz : r.control.sequence ≠ 0) :
    ∃ e, (l.await b x (some r)).2 = { l with panel := e } ∧ Bus.Answered l.panel r e := by
  obtain ⟨hans, hzero⟩ := Bus.reply_plain b hb hse hst hrep hr ha hz
  cases hreply : Bus.reply b l.panel r with
  | mk res p =>
    rw [hreply] at hans hzero
    cases res with
    | ok e => exact ⟨p, by simp [await, hreply], hans⟩
    | error err =>
      by_cases hx : x.awaits = true
      · have hun := Bus.timeout_plain hans.plain.session hans.plain.state
        simp only at hans hun hzero
        refine ⟨(Bus.timeout p).2, by simp [await, hreply, hx, silence], hun.plain, ?_, ?_, ?_⟩
        · by_cases hoff : (Bus.timeout p).2.state = .offline
          · rcases hun.restarted hoff with ⟨-, h⟩ | h
            · simpa [hans.plain.inflight, hans.repeatSequence] using h
            · exact h
          · simpa [hans.plain.inflight, hans.repeatSequence] using (hun.kept hoff).2.2.2.2.2.2
        · simpa [hans.plain.inflight] using hun.outbox.trans (congrArg _ hans.outbox)
        · intro hoff
          obtain ⟨hstate, hseq, hmiss, -, haddr, -⟩ := hun.kept hoff
          rw [hstate] at hoff
          obtain ⟨hseq', -, haddr'⟩ := hans.kept hoff
          have hmiss' := hzero hoff
          exact ⟨hseq.trans hseq', by omega, haddr.trans haddr'⟩
      · exact ⟨p, by simp [await, hreply, hx], hans⟩

/-- A reply from another address leaves a panel that is out of the exchange where it is. -/
theorem await_strange_plain (b : Bus) (hp : l.panel.Plain) (hoff : l.panel.state = .offline)
    (hrep : l.panel.repeatSequence = false) (x : Exchange) (hr : r.isReply = true)
    (ha : r.address ≠ l.panel.address) :
    ∃ e : Bus.Device, (l.await b x (some r)).2 = { l with panel := e } ∧ e.state = .offline ∧
      e.Plain ∧ e.outbox = l.panel.outbox ∧ e.repeatSequence = false := by
  have hreply : Bus.reply b l.panel r = (.error .wrongAddress, l.panel) := by
    simp [Bus.reply, hr, ha]
  by_cases hx : x.awaits = true
  · refine ⟨(Bus.timeout l.panel).2, by simp [await, hreply, hx, silence], ?_⟩
    obtain ⟨-, ht⟩ | ⟨-, hne, -⟩ := Bus.timeout_cases l.panel
    · rw [ht]
      simp only [Bus.Device.retransmit_eq, hp.inflight]
      exact ⟨hoff, ⟨hp.session, hp.state, rfl⟩, rfl, hrep⟩
    · exact absurd hoff hne
  · exact ⟨l.panel, by simp [await, hreply, hx], hoff, hp, rfl, hrep⟩

end Line

/-- A device hears a plaintext command that is addressed to it. -/
theorem heard_plainFrame (d : Pd.Device) (b : Bus) (p : Bus.Device) (q : Message) :
    d.heard (Bus.plainFrame b p q) = (!q.isReply && d.addressed p.address) := by
  have hcheck : (Bus.plainFrame b p q).checkOK = true := Frame.checkOK_sealCheck _
  simp only [Pd.Device.heard, hcheck, Bool.and_true]
  rfl

/-! ## One exchange -/

/-- What the device did with a frame: nothing, a repeat of its last reply, or an answer. -/
inductive Turn (d : Pd.Device) (x : Exchange) (f : Frame) : Pd.Device → Option Frame → Bool → Prop where
  | quiet (h : x.fate = .commandLost ∨ d.heard f = false) : Turn d x f d none false
  | again (hf : x.fate ≠ .commandLost) (hh : d.heard f = true) (hv : d.cachedValid = true)
      (hs : f.control.sequence = d.cachedSeq) :
      Turn d x f (d.noticed x.now) (if x.fate = .delivered then some d.cached else none) false
  | fresh (r : Frame) (hf : x.fate ≠ .commandLost) (hh : d.heard f = true)
      (hs : ¬ (d.cachedValid = true ∧ f.control.sequence = d.cachedSeq))
      (hr : Pd.Device.Replied d ((d.noticed x.now).dispatch f.code f.data false).1
        f.control.sequence none r) :
      Turn d x f (d.answered x.now f r) (if x.fate = .delivered then some r else none) true

namespace Journal

/-- The journal after an exchange in which the panel sent its question, the device was left as `d`,
the reply `r` or none came back, and the table was run or not. -/
def noted (b : Bus) (j : Journal) (x : Exchange) (d : Pd.Device) (r : Option Frame) (ran : Bool) :
    Journal :=
  let after := (Line.mk j.line.panel.sent d true).await b x r
  { j with
    line := after.2
    log := j.log ++ (if ran then (j.taken.map Entry.ran).toList else []) ++
      if after.1.any Bus.Event.isRestart then [.restart] else []
    origin := if ran then j.taken else j.origin
    events := j.events ++ after.1.toList }

/-- **One exchange in plaintext**, seen from the journal. -/
theorem step_exchange_plain (b : Bus) {j : Journal} (hp : j.line.panel.Plain)
    (hd : j.line.device.Plain) (hserving : j.line.serving = true) (x : Exchange)
    (hv : Address.valid j.line.panel.address = true) (hn : IsNumber j.line.panel.number) :
    ∃ d r ran, Turn j.line.device x (Bus.plainFrame b j.line.panel j.line.panel.question) d r ran ∧
      j.step b (.exchange x) = j.noted b x d r ran ∧
      j.released b x = r.bind fun r =>
        if (j.line.panel.sent.freed (Bus.reply b j.line.panel.sent r).2).isSome then j.taken
        else none := by
  have htransact := Bus.transact_plain b hp x.rndA
  rw [if_pos hv] at htransact
  generalize hf : Bus.plainFrame b j.line.panel j.line.panel.question = f at htransact ⊢
  have hseq : f.control.sequence = j.line.panel.number := by
    rw [← hf]
    exact newControl_sequence hn.le _ _
  have hsec : f.security = none := by
    rw [← hf]
    rfl
  -- the frame does not get there, or the device is asked
  by_cases hfate : x.fate = .commandLost
  · refine ⟨_, _, _, .quiet (.inl hfate), ?_, ?_⟩
    · simp [step, Line.exchange, htransact, Line.carry, hfate, noted, deviceEntries, reaching,
        originAfter, hserving]
    · simp [released, htransact, Line.carry, hfate]
  · have hreach : j.reaching b x = some f := by
      simp [reaching, htransact, hserving, hfate]
    have hsilent : j.line.device.silent x.now = false := by
      simp [Pd.Device.silent, hd.timeout]
    have hcarry : ∀ (d : Pd.Device) (r : Frame),
        j.line.device.handle x.now x.rndB f = (.ok r, d) →
        { j.line with panel := j.line.panel.sent }.carry x f =
          (if x.fate = .delivered then some r else none, Line.mk j.line.panel.sent d true) := by
      intro d r hh
      cases hx : x.fate with
      | commandLost => exact absurd hx hfate
      | replyLost => simp [Line.carry, hx, Line.serve, hserving, hh]
      | delivered => simp [Line.carry, hx, Line.serve, hserving, hh]
    rcases Pd.Device.handle_plain hd x.now x.rndB hsec (by rw [hseq]; exact hn.ne_zero) with
      ⟨hheard, hnone, e, he, hh⟩ | ⟨hheard, hrep, hvalid, hcached, hnone, hh⟩ |
      ⟨hheard, hrep, hcached, hsome, r, hh, hr⟩
    · have hquiet : { j.line with panel := j.line.panel.sent }.carry x f =
          (none, Line.mk j.line.panel.sent j.line.device true) := by
        cases hx : x.fate with
        | commandLost => exact absurd hx hfate
        | replyLost => simp [Line.carry, hx, Line.serve, hserving, hh, he]
        | delivered => simp [Line.carry, hx, Line.serve, hserving, hh, he]
      refine ⟨_, _, _, .quiet (.inr hheard), ?_, ?_⟩
      · simp [step, Line.exchange, htransact, hquiet, noted, deviceEntries, hreach, runs, hnone,
          hheard, originAfter, replies]
      · simp [released, htransact, hquiet]
    · refine ⟨_, _, _, .again hfate hheard hvalid hcached, ?_, ?_⟩
      · simp [step, Line.exchange, htransact, hcarry _ _ hh, noted, deviceEntries, hreach, runs, hnone,
          hsilent, originAfter, replies, hrep]
      · simp only [released, htransact, hcarry _ _ hh]
    · refine ⟨_, _, _, .fresh r hfate hheard hcached hr, ?_, ?_⟩
      · simp [step, Line.exchange, htransact, hcarry _ _ hh, noted, deviceEntries, hreach, runs, hsome,
          hsilent, originAfter, replies, hrep, hheard, hh, Except.isOk, Except.toBool]
      · simp only [released, htransact, hcarry _ _ hh]

end Journal

/-! ## The two sides in step -/

/-- What the cache of a device holds, when it holds something. -/
structure Pd.Device.Cached (d : Pd.Device) : Prop where
  isReply : d.cached.isReply = true
  valid : Address.valid d.cached.address = true
  unicast : d.cached.address ≠ broadcastAddress
  sequence : d.cached.control.sequence = d.cachedSeq
  number : IsNumber d.cachedSeq

/-- The panel and the device of an exchange that is running: the cache holds a reply to this
panel, and the panel's number is ahead of the cached one by the exchanges it heard nothing of, at
most. -/
structure InStep (p : Bus.Device) (d : Pd.Device) : Prop where
  valid : d.cachedValid = true
  address : d.cached.address = p.address
  gap : ∃ g, g ≤ p.misses ∧ p.seq = Bus.Device.rotate^[g] d.cachedSeq
  misses : p.misses < Bus.offlineThreshold

/-- A line in plaintext between two exchanges. -/
structure Line.Plain (l : Line) : Prop where
  panel : l.panel.Plain
  device : l.device.Plain
  serving : l.serving = true
  cached : l.device.cachedValid = true → l.device.Cached
  resting : l.panel.state = .offline → l.panel.repeatSequence = false
  inStep : l.panel.state ≠ .offline → InStep l.panel l.device

namespace Line.Plain

variable {l : Line}

/-- An enrolled line has a cached reply. -/
theorem cachedAt (h : l.Plain) (hoff : l.panel.state ≠ .offline) : l.device.Cached :=
  h.cached (h.inStep hoff).valid

/-- Its address is valid. -/
theorem valid (h : l.Plain) (hoff : l.panel.state ≠ .offline) :
    Address.valid l.panel.address = true := by
  rw [← (h.inStep hoff).address]
  exact (h.cachedAt hoff).valid

/-- And is not the broadcast one. -/
theorem unicast (h : l.Plain) (hoff : l.panel.state ≠ .offline) :
    l.panel.address ≠ broadcastAddress := by
  rw [← (h.inStep hoff).address]
  exact (h.cachedAt hoff).unicast

/-- So is each number after it. -/
theorem isNumber_iterate {s : UInt8} (hs : IsNumber s) (g : ℕ) :
    IsNumber (Bus.Device.rotate^[g] s) := by
  cases g with
  | zero => exact hs
  | succ g =>
    rw [Function.iterate_succ_apply']
    exact Bus.rotate_isNumber _

/-- The number the panel is about to send is one of the rotation. -/
theorem number (h : l.Plain) : IsNumber l.panel.number := by
  apply Bus.Device.isNumber_number
  intro hrep
  have hoff : l.panel.state ≠ .offline := by
    intro hoff
    rw [h.resting hoff] at hrep
    cases hrep
  obtain ⟨g, -, hg⟩ := (h.inStep hoff).gap
  rw [hg]
  exact isNumber_iterate (h.cachedAt hoff).number g

/-- A device that is out of the exchange is not sent a waiting command. -/
theorem takes_none (hoff : l.panel.state = .offline) : l.panel.takes = none := by
  simp [Bus.Device.takes, hoff]

/-- A command the device hears in a running exchange is for its own address. -/
theorem heard_address (h : l.Plain) (hoff : l.panel.state ≠ .offline) {f : Frame}
    (hf : f.address = l.panel.address) (hh : l.device.heard f = true) :
    l.device.address = l.panel.address := by
  simp only [Pd.Device.heard, Pd.Device.addressed, hf, Bool.and_eq_true, Bool.or_eq_true,
    beq_iff_eq] at hh
  rcases hh.2 with ha | ⟨-, ha⟩
  · exact ha.symm
  · exact absurd ha (h.unicast hoff)

end Line.Plain

/-- The number `Next` sends is ahead of the cached one by one more exchange at most. -/
theorem InStep.gap_number {p : Bus.Device} {d : Pd.Device} (h : InStep p d) :
    ∃ g, g ≤ p.misses + 1 ∧ p.number = Bus.Device.rotate^[g] d.cachedSeq := by
  obtain ⟨g, hg, hs⟩ := h.gap
  unfold Bus.Device.number
  split
  · exact ⟨g, by omega, hs⟩
  · exact ⟨g + 1, by omega, by rw [Function.iterate_succ_apply', ← hs]⟩

/-- Where an exchange leaves the panel: it heard nothing, it heard the device, or it is out of the
exchange and stays out. -/
inductive Outcome (p : Bus.Device) (r : Option Frame) (e : Bus.Device) : Prop where
  | unanswered (hr : r = none) (h : Bus.Unanswered p.sent e)
  | answered (a : Frame) (hr : r = some a) (ha : a.address = p.address) (h : Bus.Answered p.sent a e)
  | strange (a : Frame) (hr : r = some a) (ha : a.address ≠ p.address) (hp : p.state = .offline)
      (he : e.state = .offline) (hplain : e.Plain) (hout : e.outbox = p.outbox)
      (hrep : e.repeatSequence = false)

namespace Turn

variable {d e : Pd.Device} {x : Exchange} {f : Frame} {r : Option Frame} {ran : Bool}

/-- The device stays plain, and what it caches is a reply of its own. -/
theorem device (h : Turn d x f e r ran) (hd : d.Plain) (hc : d.cachedValid = true → d.Cached)
    (hn : IsNumber f.control.sequence) :
    e.Plain ∧ e.cfg = d.cfg ∧ (e.cachedValid = true → e.Cached) := by
  cases h with
  | quiet => exact ⟨hd, rfl, hc⟩
  | again hf hh hv hs =>
    obtain ⟨h1, h2, h3, h4, h5⟩ := hc hv
    exact ⟨⟨hd.strict, hd.timeout, hd.suite, hd.session, hd.settled, hd.valid, hd.unicast⟩, rfl,
      fun _ => ⟨h1, h2, h3, h4, h5⟩⟩
  | fresh a hf hh hs hr =>
    have hfresh := Pd.Device.answered_fresh hd x.now (r := a) hn.ne_zero
    refine ⟨hfresh.plain, hfresh.cfg, fun _ => ?_⟩
    refine ⟨?_, ?_, ?_, ?_, ?_⟩
    · rw [hfresh.cached, hr.isReply]
    · rw [hfresh.cached, hr.address, hd.valid]
    · rw [hfresh.cached, hr.address]
      exact hd.unicast
    · rw [hfresh.cached, hfresh.cachedSeq, hr.number hn.le]
    · rw [hfresh.cachedSeq]
      exact hn

/-- A device that was reached has its last reply cached under the number it was asked at. -/
structure Reached (d : Pd.Device) (f : Frame) (e : Pd.Device) (r : Option Frame) (ran : Bool) :
    Prop where
  heard : d.heard f = true
  valid : e.cachedValid = true
  seq : e.cachedSeq = f.control.sequence
  cached : ∀ a, r = some a → e.cached = a
  again : ran = false → e.cached = d.cached ∧ d.cachedValid = true ∧ d.cachedSeq = e.cachedSeq
  fresh : ran = true → e.cached.address = d.address

/-- A turn does nothing or reaches the device. -/
theorem reached (h : Turn d x f e r ran) (hd : d.Plain) (hz : f.control.sequence ≠ 0) :
    (e = d ∧ r = none ∧ ran = false) ∨ Reached d f e r ran := by
  cases h with
  | quiet => exact .inl ⟨rfl, rfl, rfl⟩
  | again hf hh hv hs =>
    refine .inr ⟨hh, hv, hs.symm, ?_, fun _ => ⟨rfl, hv, rfl⟩, by simp⟩
    intro a ha
    split at ha
    · cases ha
      rfl
    · cases ha
  | fresh a hf hh hs hr =>
    have hfresh := Pd.Device.answered_fresh hd x.now (r := a) hz
    refine .inr ⟨hh, hfresh.cachedValid, hfresh.cachedSeq, ?_, by simp, fun _ => ?_⟩
    · intro a' ha
      split at ha
      · cases ha
        exact hfresh.cached
      · cases ha
    · rw [hfresh.cached, hr.address]

end Turn

namespace Journal

/-- What one exchange in plaintext does: the device took its turn, the panel heard of it or not,
and the line is plain again. -/
structure Exchanged (b : Bus) (j : Journal) (x : Exchange) (d : Pd.Device) (r : Option Frame)
    (ran : Bool) : Prop where
  turn : Turn j.line.device x (Bus.plainFrame b j.line.panel j.line.panel.question) d r ran
  step : j.step b (.exchange x) = j.noted b x d r ran
  released : j.released b x = r.bind fun a =>
    if (j.line.panel.sent.freed (Bus.reply b j.line.panel.sent a).2).isSome then j.taken else none
  device : (j.step b (.exchange x)).line.device = d
  outcome : Outcome j.line.panel r (j.step b (.exchange x)).line.panel
  plain : (j.step b (.exchange x)).line.Plain

variable {l : Line} {f a : Frame} {d : Pd.Device} {ran : Bool} {e : Bus.Device} {j : Journal}

/-- After an exchange it heard nothing of, a running panel is still in step with the device. -/
theorem inStep_unanswered (h : l.Plain) (hoff : l.panel.state ≠ .offline)
    (hf : f.address = l.panel.address) (hseq : f.control.sequence = l.panel.number)
    {r : Option Frame}
    (hreached : (d = l.device ∧ r = none ∧ ran = false) ∨ Turn.Reached l.device f d r ran)
    (hs : e.seq = l.panel.number) (hm : e.misses = l.panel.misses + 1)
    (hlt : e.misses < Bus.offlineThreshold) (ha : e.address = l.panel.address) : InStep e d := by
  have hin := h.inStep hoff
  rcases hreached with ⟨rfl, -, -⟩ | hreached
  · obtain ⟨g, hg, hnum⟩ := hin.gap_number
    exact ⟨hin.valid, hin.address.trans ha.symm, ⟨g, by omega, hs.trans hnum⟩, hlt⟩
  · refine ⟨hreached.valid, ?_, ⟨0, Nat.zero_le _, by rw [hs, hreached.seq, hseq]; rfl⟩, hlt⟩
    rw [ha]
    cases ran with
    | false => rw [(hreached.again rfl).1, hin.address]
    | true => rw [hreached.fresh rfl, h.heard_address hoff hf hreached.heard]

/-- In a running exchange every reply comes from the address it was asked of. -/
theorem reply_address (h : l.Plain) (hoff : l.panel.state ≠ .offline)
    (hf : f.address = l.panel.address) (hreached : Turn.Reached l.device f d (some a) ran) :
    a.address = l.panel.address := by
  rw [← hreached.cached a rfl]
  cases ran with
  | false => rw [(hreached.again rfl).1, (h.inStep hoff).address]
  | true => rw [hreached.fresh rfl, h.heard_address hoff hf hreached.heard]

section Exchange

variable {l : Line} {f : Frame} {d : Pd.Device} {ran : Bool}

/-- A line is plain again after an exchange that its panel heard nothing of. -/
theorem plain_unanswered (h : l.Plain) (hf : f.address = l.panel.address)
    (hseq : f.control.sequence = l.panel.number) (hd : d.Plain)
    (hc : d.cachedValid = true → d.Cached)
    (hreached : (d = l.device ∧ (none : Option Frame) = none ∧ ran = false) ∨
      Turn.Reached l.device f d none ran) (hun : Bus.Unanswered l.panel.sent e) :
    Line.Plain ⟨e, d, true⟩ := by
  refine { panel := hun.plain, device := hd, serving := rfl, cached := hc,
           resting := fun hoff => ?_, inStep := fun hoff => ?_ }
  · rcases hun.restarted hoff with ⟨hq, hrep⟩ | hrep
    · have htakes : l.panel.takes = none := Line.Plain.takes_none hq
      simpa [Bus.Device.sent, htakes] using hrep
    · exact hrep
  · obtain ⟨hst, hs, hm, hlt, ha, -, -⟩ := hun.kept hoff
    have hpoff : l.panel.state ≠ .offline := by
      rw [hst] at hoff
      exact hoff
    exact inStep_unanswered h hpoff hf hseq hreached hs hm hlt ha

/-- And after one that was answered. -/
theorem plain_answered (hseq : f.control.sequence = l.panel.number) (hd : d.Plain)
    (hc : d.cachedValid = true → d.Cached) (hreached : Turn.Reached l.device f d (some a) ran)
    (ha : a.address = l.panel.address) (hans : Bus.Answered l.panel.sent a e) :
    Line.Plain ⟨e, d, true⟩ := by
  refine { panel := hans.plain, device := hd, serving := rfl, cached := hc,
           resting := fun _ => hans.repeatSequence, inStep := fun hoff => ?_ }
  obtain ⟨hs, hm, haddr⟩ := hans.kept hoff
  refine ⟨hreached.valid, ?_, ⟨0, Nat.zero_le _, ?_⟩, ?_⟩
  · rw [hreached.cached a rfl, ha]
    exact haddr.symm
  · rw [hreached.seq, hseq]
    exact hs
  · exact Nat.lt_of_le_of_lt hm (by decide)

end Exchange

/-- A panel whose address no frame can carry stays out of the exchange. -/
theorem exchange_unsent (b : Bus) (h : j.line.Plain) (x : Exchange)
    (hv : ¬ Address.valid j.line.panel.address = true) :
    j.line.panel.state = .offline ∧ j.released b x = none ∧
      j.step b (.exchange x) = { j with line := { j.line with panel := j.line.panel.sent } } ∧
      (j.step b (.exchange x)).line.Plain := by
  have hoff : j.line.panel.state = .offline := by
    by_contra hoff
    exact hv (h.valid hoff)
  have htakes := Line.Plain.takes_none hoff
  have htransact := Bus.transact_plain b h.panel x.rndA
  rw [if_neg hv] at htransact
  have hstep : j.step b (.exchange x) =
      { j with line := { j.line with panel := j.line.panel.sent } } := by
    simp [step, Line.exchange, htransact, deviceEntries, reaching, originAfter]
  refine ⟨hoff, by simp [released, htransact], hstep, ?_⟩
  rw [hstep]
  exact { panel := ⟨h.panel.session, .inl hoff, by simp [Bus.Device.sent, htakes]⟩, device := h.device,
          serving := h.serving, cached := h.cached, resting := fun _ => rfl,
          inStep := fun hne => absurd hoff hne }

/-- **The exchange lemma.** A panel whose address no frame can carry stays out of the exchange;
otherwise an exchange of a plain line is as `Exchanged` says. -/
theorem exchange_plain (b : Bus) (hb : b.secure = none) (h : j.line.Plain) (x : Exchange) :
    (j.line.panel.state = .offline ∧ j.released b x = none ∧
      j.step b (.exchange x) = { j with line := { j.line with panel := j.line.panel.sent } } ∧
      (j.step b (.exchange x)).line.Plain) ∨
    ∃ d r ran, Exchanged b j x d r ran := by
  by_cases hv : Address.valid j.line.panel.address = true
  · right
    have hp := h.panel
    have hn := h.number
    obtain ⟨d, r, ran, hturn, hstep, hreleased⟩ :=
      step_exchange_plain b hp h.device h.serving x hv hn
    have hseq : (Bus.plainFrame b j.line.panel j.line.panel.question).control.sequence =
        j.line.panel.number := newControl_sequence hn.le _ _
    obtain ⟨hdplain, -, hdcached⟩ := hturn.device h.device h.cached (by rw [hseq]; exact hn)
    have hreached := hturn.reached h.device (by rw [hseq]; exact hn.ne_zero)
    cases r with
    | none =>
      obtain ⟨e, hline, hun⟩ := Line.await_none_plain b (l := ⟨j.line.panel.sent, d, true⟩) hp.session
        hp.state x
      have hjline : (j.step b (.exchange x)).line = ⟨e, d, true⟩ := by
        rw [hstep]
        exact hline
      refine ⟨d, none, ran, hturn, hstep, hreleased, by rw [hjline],
        .unanswered rfl (by rw [hjline]; exact hun), ?_⟩
      rw [hjline]
      exact plain_unanswered h rfl hseq hdplain hdcached hreached hun
    | some a =>
      have hreached := hreached.resolve_left (by simp)
      have hcached := hdcached hreached.valid
      have hcache := hreached.cached a rfl
      have har : a.isReply = true := by
        rw [← hcache]
        exact hcached.isReply
      have haz : a.control.sequence ≠ 0 := by
        rw [← hcache, hcached.sequence, hreached.seq, hseq]
        exact hn.ne_zero
      by_cases ha : a.address = j.line.panel.address
      · obtain ⟨e, hline, hans⟩ := Line.await_some_plain b hb (l := ⟨j.line.panel.sent, d, true⟩)
          hp.session hp.state rfl x har ha haz
        have hjline : (j.step b (.exchange x)).line = ⟨e, d, true⟩ := by
          rw [hstep]
          exact hline
        refine ⟨d, some a, ran, hturn, hstep, hreleased, by rw [hjline],
          .answered a rfl ha (by rw [hjline]; exact hans), ?_⟩
        rw [hjline]
        exact plain_answered hseq hdplain hdcached hreached ha hans
      · -- a reply from another address: only a panel that is out of the exchange can get one
        have hoff : j.line.panel.state = .offline := by
          by_contra hoff
          exact ha (reply_address h hoff rfl hreached)
        have htakes := Line.Plain.takes_none hoff
        obtain ⟨e, hawait, he, hplain, hout, hrep⟩ :=
          Line.await_strange_plain b (l := ⟨j.line.panel.sent, d, true⟩) ⟨hp.session, hp.state, htakes⟩
            hoff rfl x har ha
        have hline : (j.step b (.exchange x)).line = ⟨e, d, true⟩ := by
          rw [hstep]
          exact hawait
        have hout : e.outbox = j.line.panel.outbox := by
          rw [hout]
          simp [Bus.Device.sent, htakes]
        refine ⟨d, some a, ran, hturn, hstep, hreleased, by rw [hline],
          .strange a rfl ha hoff (by rw [hline]; exact he) (by rw [hline]; exact hplain)
            (by rw [hline]; exact hout) (by rw [hline]; exact hrep), ?_⟩
        rw [hline]
        exact { panel := hplain, device := hdplain, serving := rfl, cached := hdcached,
                resting := fun _ => hrep, inStep := fun hne => absurd he hne }
  · exact .inl (exchange_unsent b h x hv)

/-! ## The other steps -/

/-- Queueing a command keeps a line plain. -/
theorem plain_enqueue (h : l.Plain) (m : Message) :
    { l with panel := l.panel.enqueue m }.Plain where
  panel := ⟨h.panel.session, h.panel.state, h.panel.inflight⟩
  device := h.device
  serving := h.serving
  cached := h.cached
  resting := h.resting
  inStep hoff := by
    obtain ⟨hv, ha, hg, hm⟩ := h.inStep hoff
    exact ⟨hv, ha, hg, hm⟩

/-- So does a report. -/
theorem plain_reported (h : l.Plain) (i : List Bool) (t w : Bool) (p : List Message) :
    { l with device := { l.device with inputs := i, tamper := t, powerFailure := w, pending := p } }.Plain
    where
  panel := h.panel
  device := ⟨h.device.strict, h.device.timeout, h.device.suite, h.device.session, h.device.settled,
    h.device.valid, h.device.unicast⟩
  serving := h.serving
  cached hv := by
    obtain ⟨h1, h2, h3, h4, h5⟩ := h.cached hv
    exact ⟨h1, h2, h3, h4, h5⟩
  resting := h.resting
  inStep hoff := by
    obtain ⟨hv, ha, hg, hm⟩ := h.inStep hoff
    exact ⟨hv, ha, hg, hm⟩

/-- Without a session no key is taken. -/
theorem step_installKey_plain (b : Bus) (h : j.line.Plain) (key : Secure.BaseKey) :
    j.step b (.installKey key) = j := by
  rcases j.step_installKey b key with hstep | ⟨hest, -⟩
  · exact hstep
  · simp [Bus.Device.secureEstablished, h.panel.session] at hest

/-- The start of a run in plaintext. -/
theorem plain_new (addr : Address) {addr' : Address} {cfg : Pd.Settings}
    (h : Pd.new addr' cfg = .ok d) (hstrict : cfg.strict = false) (ht : cfg.timeout = 0)
    (hsuite : cfg.suite = none) : (new addr d).line.Plain := by
  obtain ⟨hd, hv⟩ := Pd.Device.plain_new h hstrict ht hsuite
  exact { panel := ⟨rfl, .inl rfl, rfl⟩, device := hd, serving := rfl,
          cached := fun hv' => by simp [new, hv] at hv', resting := fun _ => rfl,
          inStep := fun hoff => absurd rfl hoff }

end Journal

end Osdp
