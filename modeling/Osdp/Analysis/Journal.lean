import Osdp.Model.Line
import Osdp.Analysis.PdSpec
import Osdp.Analysis.Queue
import Osdp.Library.Run

/-!
# The journal of a line

`Journal` follows a line through any sequence of submissions, reports and exchanges and
records beside it what no party knows as a whole: the commands the panel accepted, in
order, so that a command is named by its place; on which of them the device ran its
command table, and when the exchange was started again; for which of them the reply in the
device's cache was made; the events the device accepted and those the panel returned.
Nothing of the record is read by the line.
-/

set_option autoImplicit false

namespace Osdp

open Osdp.Secure (BaseKey Rnd)

/-- A step of a line: the application's calls at either end, or one exchange. -/
inductive LineOp where
  | send (m : Message)
  | installKey (key : BaseKey)
  | report (r : Pd.Report)
  | exchange (x : Exchange)

/-- What the journal notes down. -/
inductive Entry where
  /-- The device ran its command table on the command in this place. -/
  | ran (k : ℕ)
  /-- One side started the exchange again. -/
  | restart
  deriving DecidableEq

/-- The events by which the bus says that it started the exchange again. -/
def Bus.Event.isRestart : Bus.Event → Bool
  | .offline | .resync | .secureFailed => true
  | _ => false

/-- Whether a command after this long a silence makes the device start again.
GOLINE: internal/pd/handle.go:163-168 -/
def Pd.Device.silent (d : Pd.Device) (now : ℤ) : Bool :=
  d.seen && decide (d.cfg.timeout > 0) && decide (now - d.lastSeen > d.cfg.timeout)

/-- The event the panel is to return for a report of a card or a keypad entry. No more than 255
keys fit in one reply.
GOLINE: internal/pd/report.go:174-181 -/
def Pd.Report.event : Pd.Report → Option Bus.Event
  | .cardRead c => some (.cardRead c)
  | .keypad k => some (.keypad { k with keys := k.keys.take 0xFF })
  | _ => none

/-- A line and the record of its run. -/
structure Journal where
  line : Line
  accepted : List Message := []
  log : List Entry := []
  /-- The command the cached reply answers; none for one the panel asked of its own. -/
  origin : Option ℕ := none
  reports : List Bus.Event := []
  events : List Bus.Event := []

namespace Journal

/-- The start of a run. -/
def new (addr : Address) (d : Pd.Device) : Journal :=
  { line := { panel := Bus.Device.new addr, device := d } }

/-- The place of the first waiting command. -/
def cursor (j : Journal) : ℕ := j.accepted.length - j.line.panel.outbox.length

/-- The command the next exchange takes, if it takes one. -/
def taken (j : Journal) : Option ℕ := if j.line.panel.takes.isSome then some j.cursor else none

/-- The frame that reaches the device in an exchange. -/
def reaching (b : Bus) (j : Journal) (x : Exchange) : Option Frame :=
  match Bus.transact b j.line.panel x.rndA with
  | (.error _, _) => none
  | (.ok f, _) => if j.line.serving && x.fate != .commandLost then some f else none

/-- Whether the device runs its command table on a frame. -/
def runs (j : Journal) (x : Exchange) (f : Frame) : Bool :=
  (j.line.device.dispatched x.now f).isSome

/-- Whether the device makes a reply to a frame, rather than stay silent or say again. -/
def replies (j : Journal) (x : Exchange) (f : Frame) : Bool :=
  j.line.device.heard f && !j.line.device.replays x.now f &&
    (j.line.device.handle x.now x.rndB f).1.isOk

/-- What an exchange adds to the log at the device's end. -/
def deviceEntries (b : Bus) (j : Journal) (x : Exchange) : List Entry :=
  match j.reaching b x with
  | none => []
  | some f =>
    (if j.line.device.heard f && j.line.device.silent x.now then [.restart] else []) ++
      (if j.runs x f then (j.taken.map Entry.ran).toList else [])

/-- For which command the cached reply was made after an exchange. -/
def originAfter (b : Bus) (j : Journal) (x : Exchange) : Option ℕ :=
  match j.reaching b x with
  | none => j.origin
  | some f => if j.replies x f then j.taken else j.origin

/-- One step of the line. -/
def step (b : Bus) (j : Journal) : LineOp → Journal
  | .send m =>
    let (res, p) := Bus.send b j.line.panel m
    { j with
      line := { j.line with panel := p }
      accepted := j.accepted ++ if res.isOk then [m] else [] }
  | .installKey key =>
    let (res, p) := Bus.installKey j.line.panel key
    { j with
      line := { j.line with panel := p }
      accepted := j.accepted ++ if res.isOk then [keySetCommand key.toList] else [] }
  | .report r =>
    let (res, d) := j.line.device.report r
    { j with
      line := { j.line with device := d }
      reports := j.reports ++ if res.isOk then r.event.toList else [] }
  | .exchange x =>
    let (e, l) := j.line.exchange b x
    { j with
      line := l
      log := j.log ++ j.deviceEntries b x ++
        if e.any Bus.Event.isRestart then [.restart] else []
      origin := j.originAfter b x
      events := j.events ++ e.toList }

/-- The command whose message an exchange frees at the panel: the reply took it out of flight and
did not give it back. -/
def released (b : Bus) (j : Journal) (x : Exchange) : Option ℕ :=
  match Bus.transact b j.line.panel x.rndA with
  | (.error _, _) => none
  | (.ok f, p) =>
    ({ j.line with panel := p }.carry x f).1.bind fun r =>
      if (p.freed (Bus.reply b p r).2).isSome then j.taken else none

/-! ## The application's calls -/

/-- A submission is refused, or waits behind what was waiting. -/
theorem step_send (b : Bus) (j : Journal) (m : Message) :
    j.step b (.send m) = j ∨
      j.step b (.send m) =
        { j with
          line := { j.line with panel := j.line.panel.enqueue m }
          accepted := j.accepted ++ [m] } := by
  cases hcheck : Bus.checkSize b j.line.panel m with
  | error e => exact .inl (by simp [step, Bus.send, hcheck, Except.isOk, Except.toBool])
  | ok u => exact .inr (by simp [step, Bus.send, hcheck, Except.isOk, Except.toBool])

/-- So is a key, which is only taken while a session is established. -/
theorem step_installKey (b : Bus) (j : Journal) (key : BaseKey) :
    j.step b (.installKey key) = j ∨
      (j.line.panel.secureEstablished = true ∧ j.step b (.installKey key) =
        { j with
          line := { j.line with
            panel := { j.line.panel with pendingKey := some key }.enqueue (keySetCommand key.toList) }
          accepted := j.accepted ++ [keySetCommand key.toList] }) := by
  by_cases hs : j.line.panel.secureEstablished = true
  · exact .inr ⟨hs, by simp [step, Bus.installKey, hs, Except.isOk, Except.toBool]⟩
  · exact .inl (by simp [step, Bus.installKey, hs, Except.isOk, Except.toBool])

/-- A report touches the device's contacts and its queue of events. -/
theorem step_report (b : Bus) (j : Journal) (r : Pd.Report) :
    ∃ i t w p rs, j.step b (.report r) =
      { j with
        line := { j.line with
          device := { j.line.device with inputs := i, tamper := t, powerFailure := w, pending := p } }
        reports := rs } := by
  obtain ⟨i, t, w, p, he⟩ := Pd.Device.report_device j.line.device r
  exact ⟨i, t, w, p, (j.step b (.report r)).reports, by simp [step, he]⟩

/-- What was to be taken is still first after a submission. -/
theorem takes_enqueue {p : Bus.Device} {m : Message} (h : p.takes = some m) (m' : Message) :
    (p.enqueue m').takes = some m := by
  obtain ⟨hs, hd, hw, rest, ho⟩ := Bus.Device.takes_eq_some h
  have hw' : (p.enqueue m').withholdsKeySet = false := by
    rw [← hw]
    simp [Bus.Device.withholdsKeySet, Bus.Device.enqueue, ho, Bus.Device.secureEstablished]
  have hd' : (p.enqueue m').deferCommands = false := hd
  have hs' : (p.enqueue m').state = .online ∨ (p.enqueue m').state = .secure := hs
  rw [Bus.Device.takes, if_pos ⟨hs', by simp [hd'], by simp [hw']⟩]
  simp [Bus.Device.enqueue, ho]

/-! ## The command that is taken -/

/-- The first waiting command is the one in the place of the cursor. -/
theorem head_accepted {j : Journal} (h : j.line.panel.outbox <:+ j.accepted) {m : Message}
    {rest : List Message} (ho : j.line.panel.outbox = m :: rest) :
    j.accepted[j.cursor]? = some m ∧ j.cursor + (rest.length + 1) = j.accepted.length := by
  obtain ⟨gone, hgone⟩ := h
  have hlen : j.accepted.length = gone.length + j.line.panel.outbox.length := by
    rw [← hgone, List.length_append]
  have hcur : j.cursor = gone.length := by
    unfold cursor
    omega
  rw [hcur]
  refine ⟨?_, by rw [hlen, ho]; simp⟩
  rw [← hgone, ho, List.getElem?_append_right (Nat.le_refl _)]
  simp

/-- The command taken is the one at the cursor. -/
theorem taken_eq_some {j : Journal} {k : ℕ} (h : j.taken = some k) :
    k = j.cursor ∧ ∃ m, j.line.panel.takes = some m := by
  unfold taken at h
  split at h
  · rename_i hs
    cases h
    exact ⟨rfl, Option.isSome_iff_exists.mp hs⟩
  · cases h

/-! ## Sample traffic -/

/-- An exchange both frames of which get through. -/
def heardExchange : LineOp := .exchange { fate := .delivered }

/-- An exchange whose command is lost. -/
def unheardExchange : LineOp := .exchange { fate := .commandLost }

/-- An exchange whose reply is lost. -/
def halfExchange : LineOp := .exchange { fate := .replyLost }

/-- An `osdp_OUT` that energises the first output. -/
def energise : Message := { code := Code.out, data := [0, 2, 0, 0] }

/-- A card of four bits. -/
def card : CardRead := { reader := 0, format := 0, bitCount := 4, data := [0xA0] }

/-- A reader with one output. -/
def plainSettings : Pd.Settings := { outputs := 1 }

/-- The device is enrolled, and an `osdp_OUT` is answered at the second attempt. -/
def retriedOps : List LineOp :=
  [heardExchange, heardExchange, heardExchange, .send energise, halfExchange, heardExchange]

end Journal

end Osdp
