import Osdp.Analysis.Answers
import Osdp.Analysis.BusRun
import Osdp.Analysis.Conservation
import Osdp.Analysis.Publishing
import Osdp.Library.Watchdog

/-!
# When a device is reported offline

A `Wait` is one wait for a device's answer: the record of the device when the command was out, and
the frame that was read, if any. `Timeout` is called when there was none and also when `Reply`
refuses the one there was. `Reply` counts the device alive before it parses the payload, so a reply
that does not parse puts the count of misses at one, whatever it was: the bus is a watchdog that
such a reply starts over (`Wait.tracks`). In a run of the panel the waits for one device follow on
each other (`step_follows`), so what holds of a watchdog holds of them.
-/

set_option autoImplicit false

namespace Osdp

open Osdp.Secure (Rnd)
open Watchdog (Report)

namespace Bus

/-- One wait for an answer. -/
structure Wait where
  bus : Bus
  before : Device
  /-- The frame the reader handed over; a read that timed out or a frame that did not decode or
  failed its check is none. -/
  heard : Option Frame

namespace Wait

/-- What `await` makes of it.
GOLINE: internal/panel/cycle.go:66-116 -/
def outcome (t : Wait) : Event × Device :=
  match t.heard with
  | none => timeout t.before
  | some f =>
    match reply t.bus t.before f with
    | (.ok e, d) => (e, d)
    | (.error _, d) => timeout d

def event (t : Wait) : Event := t.outcome.1

def after (t : Wait) : Device := t.outcome.2

/-- Whether it ended without a usable reply. -/
def useless (t : Wait) : Bool := t.heard.all fun f => (reply t.bus t.before f).1.toBool = false

/-- Whether it ended in a reply of the device whose payload does not parse. -/
def garbled (t : Wait) : Bool :=
  t.heard.any fun f => (t.before.hears f).any Message.malformed

end Wait

/-! ## What a reply does to the count -/

/-- The dispatcher counts no misses, and what it answers is not that the device is offline. -/
theorem dispatch_count (b : Bus) (d : Device) (m : Message) :
    (dispatch b d m).2.misses = d.misses ∧ (dispatch b d m).1 ≠ .ok .offline ∧
      ((dispatch b d m).1.toBool = false → (dispatch b d m).2 = d) := by
  apply dispatch_rows b d m (motive := fun r =>
    r.2.misses = d.misses ∧ r.1 ≠ .ok .offline ∧ (r.1.toBool = false → r.2 = d))
  case malformed => exact fun _ => ⟨rfl, by simp, fun _ => rfl⟩
  case identified => exact fun _ _ _ => ⟨rfl, by simp, by simp [Except.toBool]⟩
  case capabilities =>
    intro report e _ _ he
    obtain ⟨st, se, de, ha⟩ := afterCapabilities_eq b { d with caps := report }
    refine ⟨by rw [ha], ?_, by simp [Except.toBool]⟩
    obtain rfl | ⟨rfl, -⟩ := he <;> simp
  case status =>
    intro ss e _ he
    refine ⟨rfl, ?_, by simp [Except.toBool]⟩
    obtain rfl | ⟨changed, -, rfl⟩ := he <;> simp
  case cryptogram =>
    intro _
    obtain hc | ⟨s, s', out, -, -, hc⟩ := onCryptogram_cases d m.data
    · rw [hc]
      exact ⟨rfl, by simp, by simp [Except.toBool]⟩
    · rw [hc]
      exact ⟨rfl, by simp, by simp [Except.toBool]⟩
  case initialRMAC =>
    intro _
    obtain hc | ⟨s, s', u, -, -, hc⟩ := onInitialRMAC_cases d m.data
    · rw [hc]
      exact ⟨rfl, by simp, by simp [Except.toBool]⟩
    · rw [hc]
      exact ⟨rfl, by simp, by simp [Except.toBool]⟩
  case card => exact fun _ _ _ => ⟨rfl, by simp, by simp [Except.toBool]⟩
  case keypad => exact fun _ _ _ => ⟨rfl, by simp, by simp [Except.toBool]⟩
  case refused => exact fun _ _ => ⟨rfl, by simp, by simp [Except.toBool]⟩
  case manufacturer => exact fun _ _ _ => ⟨rfl, by simp, by simp [Except.toBool]⟩
  case moved => exact fun _ _ _ => ⟨by simp [Device.resync_eq], by simp, by simp [Except.toBool]⟩
  case busy =>
    intro _
    refine ⟨?_, by simp, by simp [Except.toBool]⟩
    rw [Device.reclaim_eq]
    cases d.released <;> rfl
  case installed => exact fun _ _ _ _ => ⟨rfl, by simp, by simp [Except.toBool]⟩
  case answer =>
    intro _
    obtain ⟨-, he⟩ | ⟨-, he⟩ := onAnswer_cases d
    · rw [he]
      exact ⟨rfl, by simp, by simp [Except.toBool]⟩
    · rw [he]
      exact ⟨rfl, by simp, by simp [Except.toBool]⟩

namespace Wait

variable (t : Wait)

/-- **How a wait may end.** In silence, and what is not the device's reply is silence too; in a reply
that does not parse, which releases the command and is then taken for silence; or in an answer. -/
theorem outcome_cases :
    (t.useless = true ∧ t.garbled = false ∧ t.outcome = timeout t.before) ∨
    (t.useless = true ∧ t.garbled = true ∧
      ∃ s, t.outcome = timeout { t.before with misses := 0, session := s }.delivered) ∨
    (t.useless = false ∧ t.garbled = false ∧ t.after.misses = 0 ∧ t.event ≠ .offline) := by
  cases hh : t.heard with
  | none => exact .inl ⟨by simp [useless, hh], by simp [garbled, hh], by simp [outcome, hh]⟩
  | some f =>
    obtain ⟨hforeign, e, he⟩ | ⟨hr, ha, ⟨hz, he⟩ | ⟨hz, ⟨err, ho⟩, he⟩ | ⟨hz, data, s, ho, he⟩⟩ :=
      reply_cases t.bus t.before f
    · refine .inl ⟨by simp [useless, hh, he, Except.toBool], ?_, by simp [outcome, hh, he]⟩
      simp [garbled, hh, Device.hears_of_foreign hforeign]
    · refine .inr (.inr ⟨by simp [useless, hh, he, Except.toBool], ?_, ?_, ?_⟩)
      · simp [garbled, hh, Device.hears, hz]
      · simp [after, outcome, hh, he, Device.resync_eq]
      · simp [event, outcome, hh, he]
    · refine .inr (.inr ⟨by simp [useless, hh, he, Except.toBool], ?_, ?_, ?_⟩)
      · simp [garbled, hh, Device.hears_of_closed ho]
      · simp [after, outcome, hh, he, Device.resync_eq]
      · simp [event, outcome, hh, he]
    · have hheard := Device.hears_eq hr ha hz ho
      obtain ⟨hcount, hevent, hsame⟩ := dispatch_count t.bus
        { t.before with misses := 0, session := s }.delivered
        { code := f.code, isReply := f.isReply, data := data }
      have herror := dispatch_error_iff t.bus { t.before with misses := 0, session := s }.delivered
        { code := f.code, isReply := f.isReply, data := data }
      generalize hd : dispatch t.bus { t.before with misses := 0, session := s }.delivered
        { code := f.code, isReply := f.isReply, data := data } = r at he hcount hevent hsame herror
      obtain ⟨res, d⟩ := r
      cases res with
      | error err =>
        have hmal := herror.mp ⟨err, rfl⟩
        have hleft : d = { t.before with misses := 0, session := s }.delivered := hsame rfl
        refine .inr (.inl ⟨by simp [useless, hh, he, Except.toBool], ?_, s, ?_⟩)
        · simp [garbled, hh, hheard, hmal]
        · simp [outcome, hh, he, hleft]
      | ok e =>
        refine .inr (.inr ⟨by simp [useless, hh, he, Except.toBool], ?_, ?_, ?_⟩)
        · have hwell : Message.malformed { code := f.code, isReply := f.isReply, data := data } =
              false := by
            by_contra hmal
            obtain ⟨err, herr⟩ := herror.mpr (by simpa using hmal)
            cases herr
          simp [garbled, hh, hheard, hwell]
        · simpa [after, outcome, hh, he] using hcount
        · simpa [event, outcome, hh, he] using hevent

/-- The command that was in flight is back at the front of the outbox, or was released. -/
theorem inflight_back (h : t.useless = true) :
    t.after.inflight = none ∧
      ((t.garbled = false ∧ t.after.outbox = t.before.inflight.toList ++ t.before.outbox) ∨
        (t.garbled = true ∧ t.after.released = t.before.inflight)) := by
  obtain ⟨-, hg, ho⟩ | ⟨-, hg, s, ho⟩ | ⟨hu, -⟩ := t.outcome_cases
  · rw [after, ho]
    have hout := timeout_outstanding t.before
    rw [Device.outstanding, timeout_inflight, Option.toList_none, List.nil_append] at hout
    exact ⟨timeout_inflight _, .inl ⟨hg, hout⟩⟩
  · rw [after, ho]
    refine ⟨timeout_inflight _, .inr ⟨hg, ?_⟩⟩
    obtain ⟨-, he⟩ | ⟨-, -, he⟩ := timeout_cases { t.before with misses := 0, session := s }.delivered
    · rw [he]
      simp [Device.retransmit_eq]
    · rw [he]
      simp [Device.resync_eq]
  · rw [hu] at h
    cases h

/-! ## The bus as a watchdog -/

/-- What a wait tells the watchdog. -/
def report : Report :=
  if t.useless then if t.garbled then .restarted else .missed
  else .fine (decide (t.after.state = .offline))

end Wait

/-- A device record and the watchdog that stands for it. -/
structure Device.Tracks (s : Watchdog.State) (d : Device) : Prop where
  count : d.misses = s.count
  down : s.down = decide (d.state = .offline)

variable {s : Watchdog.State} {d e : Device} {c : Call} {b : Bus} {i : ℕ}

/-- A silence, counted from where the watchdog counts from. -/
theorem timeout_tracks {r : Report} (hr : r.isMiss = true) (hcount : d.misses + 1 = s.counted r)
    (hdown : s.down = decide (d.state = .offline)) :
    (timeout d).2.Tracks (Watchdog.after offlineThreshold s r) ∧
      ((timeout d).1 = .offline ↔ Watchdog.alarms offlineThreshold s r = true) := by
  have hafter : (Watchdog.after offlineThreshold s r).down =
      (s.down || Watchdog.alarms offlineThreshold s r) := by
    cases r with
    | fine down => cases hr
    | missed => rfl
    | restarted => rfl
  have halarms : Watchdog.alarms offlineThreshold s r = true ↔
      d.state ≠ .offline ∧ offlineThreshold ≤ d.misses + 1 := by
    simp [Watchdog.alarms, hr, hdown, hcount]
  obtain ⟨hquiet, he⟩ | ⟨hmany, hst, he⟩ := timeout_cases d
  · have hnone : Watchdog.alarms offlineThreshold s r = false := by
      rw [← Bool.not_eq_true, halarms]
      rintro ⟨hst, hmany⟩
      obtain hfew | hoff := hquiet
      · omega
      · exact hst hoff
    rw [he, hnone]
    refine ⟨⟨?_, ?_⟩, by simp⟩
    · simpa [Device.retransmit_eq, Watchdog.after] using hcount
    · rw [hafter, hnone, hdown]
      simp [Device.retransmit_eq]
  · have hsome : Watchdog.alarms offlineThreshold s r = true := halarms.mpr ⟨hst, hmany⟩
    rw [he, hsome]
    refine ⟨⟨?_, ?_⟩, by simp⟩
    · simpa [Device.resync_eq, Watchdog.after] using hcount
    · rw [hafter, hsome]
      simp [Device.resync_eq]

/-- **A wait is a report to the watchdog.** -/
theorem Wait.tracks {t : Wait} (h : t.before.Tracks s) :
    t.after.Tracks (Watchdog.after offlineThreshold s t.report) ∧
      (t.event = .offline ↔ Watchdog.alarms offlineThreshold s t.report = true) := by
  obtain ⟨hu, hg, ho⟩ | ⟨hu, hg, e, ho⟩ | ⟨hu, hg, hzero, hev⟩ := t.outcome_cases
  · have hreport : t.report = .missed := by simp [report, hu, hg]
    rw [after, event, ho, hreport]
    exact timeout_tracks rfl (by rw [h.count]; rfl) h.down
  · have hreport : t.report = .restarted := by simp [report, hu, hg]
    rw [after, event, ho, hreport]
    exact timeout_tracks rfl (by simp [Watchdog.State.counted]) (by simpa using h.down)
  · have hreport : t.report = .fine (decide (t.after.state = .offline)) := by simp [report, hu]
    rw [hreport]
    refine ⟨⟨hzero, rfl⟩, ?_⟩
    simp [hev, Watchdog.alarms, Report.isMiss]

/-- A useless wait is a miss. -/
theorem Wait.report_isMiss (t : Wait) : t.report.isMiss = t.useless := by
  unfold report
  cases t.useless <;> cases t.garbled <;> rfl

/-! ## Waits that follow on each other -/

/-- What is left of a device between its waits: the count, and whether it is offline. -/
structure Device.Carried (d e : Device) : Prop where
  misses : e.misses = d.misses
  offline : e.state = .offline ↔ d.state = .offline

/-- A device carries its own count. -/
theorem Device.Carried.refl (d : Device) : d.Carried d := ⟨rfl, Iff.rfl⟩

/-- The watchdog goes on where the count is carried. -/
theorem Device.Tracks.carried (h : d.Tracks s) (hc : d.Carried e) : e.Tracks s :=
  ⟨hc.misses.trans h.count, by rw [h.down, decide_eq_decide]; exact hc.offline.symm⟩

/-- Asking carries the count. -/
theorem transact_carried (b : Bus) (d : Device) (rndA : Rnd) : d.Carried (transact b d rndA).2 := by
  constructor
  · obtain ⟨q, r, s, he⟩ :=
      compose_device b (commandFor d rndA).2.2 (commandFor d rndA).1 (commandFor d rndA).2.1
    rw [transact, he]
    obtain ⟨m, -, hc⟩ | ⟨-, -, hc⟩ | ⟨-, -, hc⟩ | ⟨-, -, hc⟩ | ⟨-, -, hc⟩ := commandFor_cases d rndA
    case inr.inr.inr.inl =>
      rw [hc]
      unfold handshakeCommand
      split
      · rfl
      · split
        · rfl
        · split <;> rfl
    all_goals rw [hc]
  · obtain ⟨-, -, ⟨hst, -⟩ | ⟨hst, hst'⟩⟩ := transact_standing b d rndA
    · rw [hst]
    · rw [hst, hst']
      decide

/-- Neither `Next` nor a call of the application ends a count. -/
theorem call_carried (b : Bus) (d : Device) (hreply : ∀ f, c ≠ .reply f) (htimeout : c ≠ .timeout) :
    d.Carried (call b d c).2 := by
  cases c with
  | send m =>
    obtain ⟨o, he⟩ := send_queue b d m
    rw [call, he]
    exact ⟨rfl, Iff.rfl⟩
  | installKey key =>
    obtain ⟨o, k, he⟩ := installKey_queue d key
    rw [call, he]
    exact ⟨rfl, Iff.rfl⟩
  | next rndA => exact transact_carried b d rndA
  | reply f => exact absurd rfl (hreply f)
  | timeout => exact absurd rfl htimeout

/-- So does every call but a reply and a timeout. -/
theorem onDevice_carried (hreply : ∀ f, c ≠ .reply f) (htimeout : c ≠ .timeout) (j : ℕ)
    (hd : b.devices[i]? = some d) : ∃ e, (b.onDevice j c).2.devices[i]? = some e ∧ d.Carried e := by
  rw [onDevice_devices]
  by_cases hij : j = i
  · subst hij
    simp only [hd]
    exact ⟨_, List.getElem?_set_self (List.getElem?_eq_some_iff.mp hd).1,
      call_carried b d hreply htimeout⟩
  · refine ⟨d, ?_, .refl d⟩
    cases b.devices[j]? with
    | none => exact hd
    | some g => rw [List.getElem?_set_ne hij, hd]

/-- So does `Next`. -/
theorem next_carried (rndA : Rnd) (hd : b.devices[i]? = some d) :
    ∃ e, (b.next rndA).2.devices[i]? = some e ∧ d.Carried e := by
  unfold next
  split
  · exact ⟨d, hd, .refl d⟩
  · exact onDevice_carried (by simp) (by simp) _ hd

end Bus

namespace Panel

variable {i : ℕ} {d : Bus.Device} {p : Panel} {x : Cycle}

/-- So does a submission. -/
theorem queue_carried {b : Bus} (addr : Address) (req : Request) (hd : b.devices[i]? = some d) :
    ∃ e, (queue b addr req).2.devices[i]? = some e ∧ d.Carried e := by
  unfold queue
  split
  · exact ⟨d, hd, .refl d⟩
  · rename_i j _
    cases req with
    | send m => exact Bus.onDevice_carried (by simp) (by simp) j hd
    | installKey key => exact Bus.onDevice_carried (by simp) (by simp) j hd
    | setCommunication want =>
      simp only [Bus.perform, Bus.setCommunication]
      split
      · exact ⟨d, hd, .refl d⟩
      · split
        · exact ⟨d, hd, .refl d⟩
        · exact Bus.onDevice_carried (by simp) (by simp) j hd

/-! ## The waits of a run -/

/-- What a wait for an answer ends in: a frame or none; nothing when the port has failed. -/
def listens (reader : Scan.Scanner) (port : Scan.Port) : Option (Option Frame) :=
  match Panel.next reader port with
  | (.frame f, r, _) => some (some (f.readBack r.buf))
  | (.badCheck _, _, _) => some none
  | (.timeout, _, _) => some none
  | (.failed e, _, _) => if e = .shortBuffer then none else some none
  | (.portFailed, _, _) => none

/-- **`await` is a wait** for the device it is about. -/
theorem await_listens (hd : p.bus.devices[i]? = some d) (port : Scan.Port) :
    (listens p.reader port = none → (p.await i port).1 = none ∧ (p.await i port).2.bus = p.bus) ∧
    ∀ heard, listens p.reader port = some heard →
      (p.await i port).1.map Published.event = some (Bus.Wait.mk p.bus d heard).event ∧
      (p.await i port).2.bus =
        { p.bus with devices := p.bus.devices.set i (Bus.Wait.mk p.bus d heard).after } := by
  have hlt : i < p.bus.devices.length := (List.getElem?_eq_some_iff.mp hd).1
  have hsame : p.bus.devices.set i d = p.bus.devices := by
    rw [← (List.getElem?_eq_some_iff.mp hd).2, List.set_getElem_self]
  -- a device taken to be silent, of which the record is `e`
  have hsilent : ∀ (r : Scan.Scanner) (e : Bus.Device),
      ({ p with reader := r, bus := { p.bus with devices := p.bus.devices.set i e } }.silent
        i).1.map Published.event = some (Bus.timeout e).1 ∧
      ({ p with reader := r, bus := { p.bus with devices := p.bus.devices.set i e } }.silent
        i).2.bus = { p.bus with devices := p.bus.devices.set i (Bus.timeout e).2 } := by
    intro r e
    simp [silent, Bus.onDevice, Bus.call, hlt]
  have hquiet : ∀ r : Scan.Scanner,
      ({ p with reader := r }.silent i).1.map Published.event =
        some (Bus.Wait.mk p.bus d none).event ∧
      ({ p with reader := r }.silent i).2.bus =
        { p.bus with devices := p.bus.devices.set i (Bus.Wait.mk p.bus d none).after } := by
    intro r
    have h := hsilent r d
    rw [hsame] at h
    exact h
  unfold await listens
  generalize Panel.next p.reader port = res
  obtain ⟨r, s, port'⟩ := res
  cases r with
  | frame f =>
    simp only
    refine ⟨by rintro ⟨⟩, ?_⟩
    rintro heard ⟨⟩
    simp only [Bus.onDevice, hd, Bus.call]
    cases hreply : Bus.reply p.bus d (f.readBack s.buf) with
    | mk result e =>
      cases result with
      | error err =>
        have hwait : (Bus.Wait.mk p.bus d (some (f.readBack s.buf))).outcome = Bus.timeout e := by
          simp only [Bus.Wait.outcome, hreply]
        rw [Bus.Wait.event, Bus.Wait.after, hwait]
        exact hsilent s e
      | ok ev =>
        have hwait : (Bus.Wait.mk p.bus d (some (f.readBack s.buf))).outcome = (ev, e) := by
          simp only [Bus.Wait.outcome, hreply]
        rw [Bus.Wait.event, Bus.Wait.after, hwait]
        exact ⟨rfl, rfl⟩
  | badCheck f =>
    refine ⟨by rintro ⟨⟩, ?_⟩
    rintro heard ⟨⟩
    exact hquiet s
  | timeout =>
    refine ⟨by rintro ⟨⟩, ?_⟩
    rintro heard ⟨⟩
    exact hquiet s
  | failed e =>
    simp only
    split
    · exact ⟨fun _ => ⟨rfl, rfl⟩, by rintro heard ⟨⟩⟩
    · refine ⟨by rintro ⟨⟩, ?_⟩
      rintro heard ⟨⟩
      exact hquiet s
  | portFailed => exact ⟨fun _ => ⟨rfl, rfl⟩, by rintro heard ⟨⟩⟩

/-- The wait for the device at `i` that a step is, if it is one. -/
def waitOn (i : ℕ) (p : Panel) : Op → Option Bus.Wait
  | .cycle x =>
    if p.ready && p.asks x && p.bus.current == i then do
      let b := (p.bus.next x.rndA).2
      let d ← b.devices[i]?
      let heard ← listens p.reader x.port
      some ⟨b, d, heard⟩
    else none
  | _ => none

/-- The waits for the device at `i` in a run. -/
def waits (i : ℕ) (p : Panel) (ops : List Op) : List Bus.Wait :=
  (Run.trace step p ops).filterMap fun s => waitOn i s.1 s.2

/-- The waits of a run, one by one. -/
theorem waits_cons (i : ℕ) (p : Panel) (op : Op) (ops : List Op) :
    waits i p (op :: ops) = (waitOn i p op).toList ++ waits i (p.step op) ops := by
  cases h : waitOn i p op <;> simp [waits, h]

/-- A wait does not touch what is being emitted. -/
theorem await_emitting (p : Panel) (i : ℕ) (port : Scan.Port) :
    (p.await i port).2.emitting = p.emitting := by
  have hsilent : ∀ q : Panel, (q.silent i).2.emitting = q.emitting := by
    intro q
    rw [(silent_spec q i).1]
  unfold await
  split
  · simp only
    split
    · rfl
    · exact hsilent _
  · exact hsilent _
  · exact hsilent _
  · split
    · rfl
    · exact hsilent _
  · rfl

/-- Only a device that is there is asked. -/
theorem current_of_asks (h : p.asks x = true) :
    ∃ g, (p.bus.next x.rndA).2.devices[p.bus.current]? = some g := by
  cases hd : p.bus.devices[p.bus.current]? with
  | none =>
    have hnext : (p.bus.next x.rndA).1 = none := by
      unfold Bus.next
      split
      · rfl
      · simp [Bus.onDevice, hd]
    simp [asks, hnext] at h
  | some d =>
    obtain ⟨e, he, -⟩ := Bus.next_carried x.rndA hd
    exact ⟨e, he⟩

/-- **A transaction** is a wait for the device that is asked, and what it ended in is handed to
`emit`; when the port fails nothing is. -/
theorem exchange_listens {g : Bus.Device} (hasks : p.asks x = true)
    (hg : (p.bus.next x.rndA).2.devices[p.bus.current]? = some g) :
    (listens p.reader x.port = none →
      (p.exchange x).bus = (p.bus.next x.rndA).2 ∧ (p.exchange x).emitting = none) ∧
    ∀ heard, listens p.reader x.port = some heard →
      let t : Bus.Wait := ⟨(p.bus.next x.rndA).2, g, heard⟩
      (p.exchange x).bus = { t.bus with devices := t.bus.devices.set p.bus.current t.after } ∧
      (p.exchange x).emitting.map Published.event =
        if t.event = .none then p.emitting.map Published.event else some t.event := by
  have hkept := await_emitting { p with bus := (p.bus.next x.rndA).2 } p.bus.current x.port
  obtain ⟨hfailed, hwait⟩ := await_listens (p := { p with bus := (p.bus.next x.rndA).2 }) hg x.port
  rw [exchange_eq, if_pos hasks]
  revert hkept hfailed hwait
  generalize ({ p with bus := (p.bus.next x.rndA).2 } : Panel).await p.bus.current x.port = res
  obtain ⟨o, q⟩ := res
  intro hkept hfailed hwait
  constructor
  · intro hlistens
    obtain ⟨ho, hbus⟩ := hfailed hlistens
    simp only at ho
    subst ho
    exact ⟨hbus, rfl⟩
  · intro heard hlistens
    obtain ⟨hevent, hbus⟩ := hwait heard hlistens
    obtain ⟨v, ho, hv⟩ := Option.map_eq_some_iff.mp hevent
    simp only at ho
    subst ho
    simp only [hv]
    split
    · exact ⟨hbus, congrArg _ hkept⟩
    · exact ⟨hbus, congrArg some hv⟩

/-- What a wait for the device at `i` leaves: it took the device up as it was left, and what it ended
in is handed to `emit`. -/
structure Follows (i : ℕ) (d : Bus.Device) (t : Bus.Wait) (q : Panel) : Prop where
  carried : d.Carried t.before
  after : q.bus.devices[i]? = some t.after
  emitting : q.emitting.map Published.event = if t.event = .none then none else some t.event

/-- An exchange carries the count or is a wait. -/
theorem exchange_follows (x : Cycle) (hready : p.ready = true) (hd : p.bus.devices[i]? = some d) :
    (waitOn i p (.cycle x) = none →
      ∃ e, (p.exchange x).bus.devices[i]? = some e ∧ d.Carried e) ∧
    ∀ t, waitOn i p (.cycle x) = some t → Follows i d t (p.exchange x) := by
  obtain ⟨e, he, hcarried⟩ := Bus.next_carried x.rndA hd
  cases hasks : p.asks x with
  | false =>
    rw [exchange_eq, hasks]
    exact ⟨fun _ => ⟨e, he, hcarried⟩, by simp [waitOn, hasks]⟩
  | true =>
    obtain ⟨g, hg⟩ := current_of_asks hasks
    obtain ⟨hfailed, hwait⟩ := exchange_listens hasks hg
    simp only [waitOn, hready, hasks, Bool.true_and, he, Option.bind_eq_bind, Option.bind_some,
      beq_iff_eq]
    cases hlistens : listens p.reader x.port with
    | none =>
      refine ⟨fun _ => ⟨e, ?_, hcarried⟩, by simp⟩
      rw [(hfailed hlistens).1, he]
    | some heard =>
      obtain ⟨hbus, hemitting⟩ := hwait heard hlistens
      by_cases hi : p.bus.current = i
      · subst hi
        obtain rfl : g = e := Option.some.inj (hg.symm.trans he)
        refine ⟨by simp, ?_⟩
        simp only [if_true, Option.bind_some, Option.some.injEq, forall_eq']
        refine ⟨hcarried, ?_, ?_⟩
        · rw [hbus]
          exact List.getElem?_set_self (List.getElem?_eq_some_iff.mp hg).1
        · rw [hemitting, (waiting_ready hready).1]
          rfl
      · refine ⟨fun _ => ⟨e, ?_, hcarried⟩, by simp [hi]⟩
        rw [hbus]
        exact (List.getElem?_set_ne hi).trans he

/-- What is handed to `emit` is what a wait ended in. -/
theorem step_emits (p : Panel) (op : Op) {v : Published} (hv : (p.step op).emitting = some v) :
    p.emitting = some v ∨ ∃ i t, waitOn i p op = some t ∧ t.event = v.event := by
  cases op with
  | request addr req =>
    simp only [step] at hv
    split at hv <;> exact .inl hv
  | cycle x =>
    simp only [step] at hv
    split at hv
    · rename_i hready
      cases hasks : p.asks x with
      | false =>
        rw [exchange_eq, hasks] at hv
        cases hv
      | true =>
        obtain ⟨g, hg⟩ := current_of_asks hasks
        obtain ⟨hfailed, hwait⟩ := exchange_listens hasks hg
        cases hlistens : listens p.reader x.port with
        | none =>
          rw [(hfailed hlistens).2] at hv
          cases hv
        | some heard =>
          obtain ⟨-, hemitting⟩ := hwait heard hlistens
          refine .inr ⟨p.bus.current, ⟨(p.bus.next x.rndA).2, g, heard⟩, ?_, ?_⟩
          · simp [waitOn, hready, hasks, hg, hlistens]
          · rw [hv, (waiting_ready hready).1] at hemitting
            split at hemitting
            · cases hemitting
            · exact (Option.some.inj hemitting).symm
    · exact .inl hv
  | emit =>
    simp only [step, emit] at hv
    split at hv
    · exact .inl hv
    · split at hv
      · cases hv
      · exact .inl hv
  | receive =>
    simp only [step, receive] at hv
    split at hv
    · exact .inl hv
    · cases hv
  | cancel => cases hv

/-- **A step of the panel** is a wait for the device at `i`, or it is nothing to the count. -/
theorem step_follows (p : Panel) (op : Op) (hd : p.bus.devices[i]? = some d) :
    (waitOn i p op = none → ∃ e, (p.step op).bus.devices[i]? = some e ∧ d.Carried e) ∧
    ∀ t, waitOn i p op = some t → Follows i d t (p.step op) := by
  have hsame : p.bus.devices[i]? = some d ∧ d.Carried d := ⟨hd, .refl d⟩
  cases op with
  | request addr req =>
    refine ⟨fun _ => ?_, fun t ht => by cases ht⟩
    simp only [step]
    split
    · exact queue_carried addr req hd
    · exact ⟨d, hsame⟩
  | cycle x =>
    simp only [step]
    split
    · rename_i hready
      exact exchange_follows x hready hd
    · rename_i hready
      have hnone : waitOn i p (.cycle x) = none := by simp [waitOn, hready]
      exact ⟨fun _ => ⟨d, hsame⟩, fun t ht => by rw [hnone] at ht; cases ht⟩
  | emit =>
    have hbus : p.emit.bus = p.bus := by
      unfold emit
      split
      · rfl
      · split <;> rfl
    exact ⟨fun _ => ⟨d, hbus ▸ hd, .refl d⟩, fun t ht => by cases ht⟩
  | receive =>
    have hbus : p.receive.2.bus = p.bus := by
      unfold receive
      split <;> rfl
    exact ⟨fun _ => ⟨d, hbus ▸ hd, .refl d⟩, fun t ht => by cases ht⟩
  | cancel => exact ⟨fun _ => ⟨d, hsame⟩, fun t ht => by cases ht⟩

end Panel

/-! ## A run of waits -/

namespace Bus

/-- Waits that a watchdog follows from `s`. -/
def Wait.Tracked : Watchdog.State → List Wait → Prop
  | _, [] => True
  | s, t :: ts => t.before.Tracks s ∧ Wait.Tracked (Watchdog.after offlineThreshold s t.report) ts

namespace Wait

/-- The watchdog after some waits. -/
def watch (s : Watchdog.State) (ts : List Wait) : Watchdog.State :=
  (ts.map report).foldl (Watchdog.after offlineThreshold) s

variable {s : Watchdog.State} {ts : List Wait}

/-- Waits are tracked one after the other. -/
theorem tracked_append {us : List Wait} :
    Tracked s (ts ++ us) ↔ Tracked s ts ∧ Tracked (watch s ts) us := by
  induction ts generalizing s with
  | nil => simp [Tracked, watch]
  | cons t ts ih => simp [Tracked, watch, ih, and_assoc]

/-- The last misses are the last useless waits. -/
theorem rtakeWhile_report (ts : List Wait) :
    (ts.map report).rtakeWhile Report.isMiss = (ts.rtakeWhile useless).map report := by
  simp [List.rtakeWhile, ← List.map_reverse, List.takeWhile_map, Function.comp_def, report_isMiss]

/-- A useless wait without a garbled reply restarts nothing. -/
theorem report_ne_restarted {t : Wait} (h : t.useless = true) :
    t.report ≠ .restarted ↔ t.garbled = false := by
  cases hg : t.garbled <;> simp [report, h, hg]

/-- After a usable reply the count is zero. -/
theorem count_watch (hs : s.count = 0) (h : ∀ t ∈ ts.getLast?, t.useless = false) :
    (watch s ts).count = 0 := by
  obtain rfl | ⟨before, t, rfl⟩ := List.eq_nil_or_concat ts
  · exact hs
  · rw [List.concat_eq_append] at h ⊢
    have ht : t.useless = false := h t List.getLast?_concat
    rw [watch, List.map_append, List.foldl_append]
    simp [report, ht, Watchdog.State.counted]

/-- An offline event is an alarm. -/
theorem offline_iff_raises (h : Tracked s ts) :
    (∃ t ∈ ts, t.event = .offline) ↔
      Watchdog.raises offlineThreshold s (ts.map report) = true := by
  induction ts generalizing s with
  | nil => simp [Watchdog.raises]
  | cons t ts ih =>
    obtain ⟨ht, hts⟩ := h
    simp only [List.exists_mem_cons_iff, List.map_cons, Watchdog.raises, Bool.or_eq_true]
    exact or_congr (Wait.tracks ht).2 (ih hts)

end Wait

end Bus

namespace Panel

variable {i : ℕ} {p : Panel} {d : Bus.Device}

/-- The waits of a run follow on each other. -/
theorem waits_tracked {s : Watchdog.State} (ops : List Op) (hd : p.bus.devices[i]? = some d)
    (hs : d.Tracks s) : Bus.Wait.Tracked s (waits i p ops) := by
  induction ops generalizing p d s with
  | nil => trivial
  | cons op ops ih =>
    obtain ⟨hnone, hsome⟩ := step_follows p op hd
    rw [waits_cons]
    cases ht : waitOn i p op with
    | none =>
      obtain ⟨e, he, hcarried⟩ := hnone ht
      exact ih he (hs.carried hcarried)
    | some t =>
      have hf := hsome t ht
      have hbefore := hs.carried hf.carried
      exact ⟨hbefore, ih hf.after (Bus.Wait.tracks hbefore).1⟩

/-- The panel's device at `i` is there in every state of a run. -/
theorem device_of_trace (hd : p.bus.devices[i]? = some d) (ops : List Op) :
    ∀ s ∈ Run.trace step p ops, ∃ e, s.1.bus.devices[i]? = some e := by
  apply Run.invariant_trace (I := fun q : Panel => ∃ e, q.bus.devices[i]? = some e) ?_ ⟨d, hd⟩
  rintro q op ⟨e, he⟩
  obtain ⟨hnone, hsome⟩ := step_follows q op he
  cases ht : waitOn i q op with
  | none =>
    obtain ⟨g, hg, -⟩ := hnone ht
    exact ⟨g, hg⟩
  | some t => exact ⟨_, (hsome t ht).after⟩

/-- **A device is reported offline for silence alone, and for enough of it.** Over every run of a
panel, for the device at each index: what is handed to `emit` is what a wait for some device ended
in, and what the waits for this one ended in is handed to `emit`. It is reported offline only at the
end of `offlineThreshold` waits in a row without a usable reply. After every such wait no command is
in flight, and the one that was is at the front of the outbox or was released. And of
`offlineThreshold` such waits in a row, the first from a state other than offline, one reports the
device offline, provided that none after the first ended in a reply of the device that does not
parse; if the wait before them had a usable reply, in no other case. -/
theorem offline_after_silence_iff (addrs : List Address) (scheme : Scheme)
    (secure : Option Bus.SecureChannel) (buffer : ℕ) (ops : List Op) (i : Fin addrs.length) :
    let p : Panel := { bus := Bus.new addrs scheme secure, buffer := buffer }
    let ts := waits i p ops
    (∀ s ∈ Run.trace step p ops,
      (∀ v, (s.1.step s.2).emitting = some v → s.1.emitting = some v ∨
        ∃ j t, waitOn j s.1 s.2 = some t ∧ t.event = v.event) ∧
      ∀ t, waitOn i s.1 s.2 = some t → t.event ≠ .none →
        (s.1.step s.2).emitting.map Published.event = some t.event) ∧
    (∀ before t later, ts = before ++ t :: later → t.event = .offline →
      Bus.offlineThreshold ≤ ((before ++ [t]).rtakeWhile Bus.Wait.useless).length) ∧
    (∀ t ∈ ts, t.useless = true → t.after.inflight = none ∧
      ∀ m, t.before.inflight = some m →
        t.after.outbox.head? = some m ∨ t.after.released = some m) ∧
    ∀ before window later, ts = before ++ window ++ later →
      window.length = Bus.offlineThreshold → (∀ t ∈ window, t.useless = true) →
      (∀ t ∈ window.head?, t.before.state ≠ .offline) →
      ((∀ t ∈ window.tail, t.garbled = false) → ∃ t ∈ window, t.event = .offline) ∧
      ((∀ t ∈ before.getLast?, t.useless = false) →
        ((∃ t ∈ window, t.event = .offline) ↔ ∀ t ∈ window.tail, t.garbled = false)) := by
  intro p ts
  have hdevice : p.bus.devices[(i : ℕ)]? = some (Bus.Device.new (addrs.get i)) := by
    simp [p, Bus.new]
  have htracked : Bus.Wait.Tracked { count := 0, down := true } ts :=
    waits_tracked ops hdevice ⟨rfl, rfl⟩
  refine ⟨?_, ?_, ?_, ?_⟩
  · intro s hs
    refine ⟨fun v hv => step_emits s.1 s.2 hv, fun t ht hne => ?_⟩
    obtain ⟨d, hd⟩ := device_of_trace hdevice ops s hs
    rw [((step_follows s.1 s.2 hd).2 t ht).emitting, if_neg hne]
  · intro before t later hts hoff
    rw [hts, Bus.Wait.tracked_append] at htracked
    have halarms := (Bus.Wait.tracks htracked.2.1).2.mp hoff
    have hlen := Watchdog.le_length_of_alarms rfl halarms
    rwa [← List.map_singleton, ← List.map_append, Bus.Wait.rtakeWhile_report, List.length_map] at hlen
  · intro t _ hu
    obtain ⟨hnone, ⟨-, hout⟩ | ⟨-, hrel⟩⟩ := t.inflight_back hu
    · refine ⟨hnone, fun m hm => .inl ?_⟩
      rw [hout, hm]
      rfl
    · exact ⟨hnone, fun m hm => .inr (hrel.trans hm)⟩
  · intro before window later hts hlen hu hhead
    rw [hts, Bus.Wait.tracked_append, Bus.Wait.tracked_append] at htracked
    have hwindow := htracked.1.2
    have hpos : 0 < Bus.offlineThreshold := by decide
    have hdown : (Bus.Wait.watch { count := 0, down := true } before).down = false := by
      cases window with
      | nil => simp only [List.length_nil] at hlen; omega
      | cons t window =>
        rw [hwindow.1.down, decide_eq_false_iff_not]
        exact hhead t rfl
    have hmiss : ∀ r ∈ window.map Bus.Wait.report, r.isMiss = true := by
      simpa [Bus.Wait.report_isMiss] using hu
    have hlen' : (window.map Bus.Wait.report).length = Bus.offlineThreshold := by
      rw [List.length_map, hlen]
    have hrestart : (∀ r ∈ (window.map Bus.Wait.report).tail, r ≠ .restarted) ↔
        ∀ t ∈ window.tail, t.garbled = false := by
      rw [← List.map_tail, List.forall_mem_map]
      refine forall₂_congr fun t ht => ?_
      rw [Bus.Wait.report_ne_restarted (hu t (List.mem_of_mem_tail ht))]
    rw [Bus.Wait.offline_iff_raises hwindow, ← hrestart]
    refine ⟨Watchdog.raises_of_missed hdown hlen' hpos hmiss, fun hlast => ?_⟩
    exact Watchdog.raises_iff (Bus.Wait.count_watch rfl hlast) hdown hlen' hpos hmiss

/-! ## Sample runs -/

/-- A transaction that is answered with a reply of the device at address one. -/
def answered (code : Code) (data : Octets) : Op :=
  reading (((Bus.plainReply 1 1 code data).append []).toOption.getD [])

/-- A reader is enrolled, and then each transaction is `op`. -/
def enrolledThen (op : Op) : List Op :=
  [answered Code.pdID (List.replicate 12 0), .emit, answered Code.pdCap [], .emit, op, op, op]

/-- A reader that falls silent is reported. -/
theorem offline_after_silence_reported :
    let ts := waits 0 { bus := cardBus } (enrolledThen (reading []))
    (∀ t ∈ ts.drop 2, t.useless = true) ∧ ∃ t ∈ ts.drop 2, t.event = .offline :=
  ⟨by decide +kernel,
    ((offline_after_silence_iff [1] .checksum none defaultEventBuffer (enrolledThen (reading []))
      0).2.2.2 _ _ [] (by rw [List.append_nil]; exact (List.take_append_drop 2 _).symm)
      (by decide +kernel) (by decide +kernel) (by decide +kernel)).1 (by decide +kernel)⟩

/-- A reader that answers with card reads cut short is not, although none of them can be used. -/
theorem cut_short_never_offline :
    let ts := waits 0 { bus := cardBus } (enrolledThen (answered Code.raw [0]))
    (ts.drop 2).length = Bus.offlineThreshold ∧
      (∀ t ∈ ts.drop 2, t.useless = true ∧ t.before.state ≠ .offline) ∧
      ∀ t ∈ ts, t.event ≠ .offline := by
  decide +kernel

end Panel

end Osdp
