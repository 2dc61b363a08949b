import Osdp.Model.Scan
import Osdp.Analysis.SessionEnd
import Osdp.Analysis.EventQueue

/-!
# Delivery

What an application may count on that queues commands and keys at the panel and reports events at the
reader. From any state in which enrolment is open, as long as no frame is lost or too long:

* the commands the panel accepted are run by the reader in the order they were accepted, none of them
  twice, and the events the reader accepted are returned by the panel in the order they were reported,
  none of them twice (`Journal.Orderly`, kept by every operation);
* the exchanges that are left until all is done are bounded (`Line.Owes`), and each one takes one off:
  eight for the channel, one for a command that the panel holds back, one for each event and each
  command, and nine more for a command that ends the session.
-/

set_option autoImplicit false

namespace Osdp

open Osdp.Secure (Session Rnd BaseKey CipherSuite)

/-- A frame the line can carry: `Append` takes it, and it fits the buffer of who reads it. -/
def Frame.Writable (f : Frame) : Prop :=
  ∃ out ∈ (f.append []).toOption, out.length ≤ Scan.maxFrame

instance : DecidablePred Frame.Writable := fun f =>
  inferInstanceAs (Decidable (∃ out ∈ (f.append []).toOption, _))

/-! ## The device -/

namespace Pd.Device

variable {d : Device}

/-- Whether a command came over a session matters to a new key only. -/
theorem dispatch_secured {code : Code} (h : code ≠ Code.keySet) (d : Device) (data : Octets) :
    d.dispatch code data true = d.dispatch code data false := by
  simp only [dispatch, if_neg h]

/-- Without a handler a reader reports nothing of its own. -/
theorem reserved_of_handler (h : d.cfg.handler = none) : d.Reserved := by
  intro code data
  simp only [delegate, h]
  rfl

/-- The table answers a command of the session with the first report that waits, or with none. -/
theorem dispatch_reported (h : d.cfg.handler = none) (code : Code) (data : Octets) :
    (d.dispatch code data true).1.event.toList ++ (d.dispatch code data true).2.waiting = d.waiting := by
  by_cases hkey : code = Code.keySet
  · rw [hkey]
    obtain ⟨k, -, he⟩ | ⟨-, reason, he⟩ := dispatch_key d data <;> rw [he] <;> rfl
  · rw [dispatch_secured hkey]
    exact (dispatch_waiting (reserved_of_handler h) code data).1

/-- A poll takes the first event that waits. -/
theorem dispatch_poll (d : Device) (data : Octets) (secured : Bool) :
    (d.dispatch Code.poll data secured).2.pending = d.pending.tail := by
  cases hp : d.pending <;> simp [dispatch, pollReply, hp]

/-- A report is no word of being busy. -/
theorem report_available (h : d.Available) (r : Report) : (d.report r).2.Available := by
  have hqueue : ∀ {d : Device}, d.Available → ∀ m : Message, m.code ≠ Code.busy →
      (d.queue m).2.Available := by
    intro d h m hm
    unfold queue
    split
    · exact h
    · exact List.forall_mem_append.mpr ⟨h, List.forall_mem_singleton.mpr hm⟩
  have hcoalesce : ∀ {d : Device}, d.Available → ∀ m : Message, m.code ≠ Code.busy →
      (d.coalesce m).2.Available := by
    intro d h m hm
    unfold coalesce
    split
    · rename_i pending hp
      intro w hw
      obtain rfl | hw := mem_replaceFirst hp hw
      · exact hm
      · exact h w hw
    · exact hqueue h m hm
  cases r with
  | cardRead c =>
    simp only [report, reportCardRead]
    split
    · exact h
    · exact hqueue h _ (show Code.raw ≠ Code.busy by decide)
  | keypad k => exact hqueue h _ (show Code.keypad ≠ Code.busy by decide)
  | input index active =>
    simp only [report, setInput]
    split
    · exact h
    · exact hcoalesce (d := { d with inputs := d.inputs.set index.toNat active }) h
        (contactStatus Code.iStatR _) (show Code.iStatR ≠ Code.busy by decide)
  | tamper active =>
    exact hcoalesce (d := { d with tamper := active }) h _ (show Code.lStatR ≠ Code.busy by decide)
  | power failure =>
    exact hcoalesce (d := { d with powerFailure := failure }) h _
      (show Code.lStatR ≠ Code.busy by decide)

end Pd.Device

/-! ## The line -/

namespace Line

section Exchange

variable {b : Bus} {channel : Bus.SecureChannel} {cfg : Pd.Settings} {l : Line} {x : Exchange}

/-- How many exchanges a command takes at most: one that ends the session takes eight more for the next
one, and another for the commands that may be held back then. -/
def toll (m : Message) : ℕ := if Code.endsSession m.code then 10 else 1

/-- What the commands and events that wait take. -/
def due (l : Line) : ℕ := (l.panel.outbox.map toll).sum + l.device.pending.length

/-- How many exchanges are owed at most. -/
def Owes (channel : Bus.SecureChannel) (cfg : Pd.Settings) (n : ℕ) (l : Line) : Prop :=
  (l.Live channel cfg ∧ (l.due + if l.panel.deferCommands then 1 else 0) ≤ n) ∨
    (l.Enrolling channel cfg ∧ l.away + (l.due + 1) ≤ n)

/-- Each command costs an exchange. -/
theorem toll_pos (m : Message) : 1 ≤ toll m := by
  unfold toll
  split <;> decide

/-- Whatever is answered, the commands that wait are those behind it and no event is added. -/
theorem due_carried {res : Option Bus.Event × Line} (h : Carried channel cfg l x res) :
    res.2.due + (l.panel.takes.toList.map toll).sum ≤ l.due := by
  have hqueue := congrArg List.length (Pd.Device.dispatch_queue (l.device.noticed x.now)
    l.panel.utterance.code l.panel.utterance.data true)
  have hrest := congrArg (fun ms => (ms.map toll).sum) l.panel.takes_rest
  simp only [List.map_append, List.sum_append] at hrest
  have hafter : res.2.device.pending.length = ((l.device.noticed x.now).dispatch
      l.panel.utterance.code l.panel.utterance.data true).2.pending.length := by
    rw [h.pending]
    rfl
  have hnoticed : (l.device.noticed x.now).pending = l.device.pending := rfl
  rw [List.length_append, hnoticed] at hqueue
  simp only [due, h.outbox]
  omega

/-- An exchange that carries no command carries a poll, which takes an event. -/
theorem due_poll {res : Option Bus.Event × Line} (h : Carried channel cfg l x res)
    (hl : l.Live channel cfg) (ht : l.panel.takes = none) (hdefer : l.panel.deferCommands = false) :
    res.2.due ≤ l.due - 1 := by
  obtain ⟨s, t, hjoined, -⟩ := hl.up
  have hwithholds : l.panel.withholdsKeySet = false := by
    simp [Bus.Device.withholdsKeySet, Bus.Device.secureEstablished, hjoined.panel,
      hjoined.paired.established]
  have hempty : l.panel.outbox = [] := by
    simpa [Bus.Device.takes, hjoined.state, hdefer, hwithholds] using ht
  have hpoll : l.panel.utterance = Bus.Device.pollMessage := by
    simp [Bus.Device.utterance, ht]
  have hrest : l.panel.rest = [] := by
    simp [Bus.Device.rest, ht, hempty]
  have hafter : res.2.device.pending = l.device.pending.tail := by
    rw [h.pending, ran, hpoll]
    exact Pd.Device.dispatch_poll _ _ _
  simp only [due, h.outbox, hrest, hempty, hafter, List.map_nil, List.sum_nil, List.length_tail]
  omega

/-- **One less is owed** after an exchange over the channel. -/
theorem owes_live (hb : b.secure = some channel) (ha : Agreeable channel cfg)
    (hlaw : channel.suite.Lawful) (h : l.Live channel cfg) (hx : x.fate = .delivered)
    (havailable : l.device.Available) (hapt : l.Apt channel) {n : ℕ}
    (hn : (l.due + if l.panel.deferCommands then 1 else 0) ≤ n) :
    Owes channel cfg (n - 1) (l.exchange b x).2 := by
  have hcarried := carried hb ha hlaw h hx havailable hapt
  have hdue := due_carried hcarried
  by_cases hordinary : Code.endsSession l.panel.utterance.code = false
  · have hc := conducted_ordinary hb ha hlaw h hx havailable hordinary
    refine .inl ⟨hc.live, ?_⟩
    rw [hc.undeferred, if_neg (by decide)]
    cases ht : l.panel.takes with
    | some m =>
      have := toll_pos m
      rw [ht] at hdue
      simp only [Option.toList_some, List.map_cons, List.map_nil, List.sum_cons, List.sum_nil] at hdue
      omega
    | none =>
      cases hdefer : l.panel.deferCommands with
      | true =>
        rw [hdefer, if_pos rfl] at hn
        omega
      | false =>
        have := due_poll hcarried h ht hdefer
        omega
  · -- a poll does not end the session, so a command was taken that does
    have hten : (l.panel.takes.toList.map toll).sum = 10 := by
      unfold Bus.Device.utterance at hordinary
      cases ht : l.panel.takes with
      | none =>
        rw [ht] at hordinary
        exact absurd rfl hordinary
      | some m =>
        rw [ht] at hordinary
        simp [toll, show Code.endsSession m.code = true by simpa using hordinary]
    have haway := (l.exchange b x).2.away_le
    obtain hlive | he := hcarried.line
    · refine .inl ⟨hlive, ?_⟩
      split <;> omega
    · exact .inr ⟨he, by omega⟩

/-- So it is after one on the way to a channel. -/
theorem owes_enrolling (hb : b.secure = some channel) (ha : Agreeable channel cfg)
    (h : l.Enrolling channel cfg) (hx : x.fate = .delivered) {n : ℕ}
    (hn : l.away + (l.due + 1) ≤ n) : Owes channel cfg (n - 1) (l.exchange b x).2 := by
  have hnear := nearer hb ha h hx
  obtain ⟨seen, last, s, c, k, v, hdevice⟩ := hnear.aside.device
  have hdue : (l.exchange b x).2.due = l.due := by
    rw [due, hnear.aside.outbox, hdevice]
    rfl
  have hpos := l.away_pos
  obtain hl | ⟨he, haway⟩ := hnear.progress
  · refine .inl ⟨hl, ?_⟩
    split <;> omega
  · exact .inr ⟨he, by omega⟩

/-- While the two are on their way to a channel no command that waits is run. -/
theorem Enrolling.unran (ha : Agreeable channel cfg) (h : l.Enrolling channel cfg)
    (htakes : l.panel.takes ≠ none) {f : Frame} {p : Bus.Device}
    (ht : Bus.transact b l.panel x.rndA = (.ok f, p)) : l.device.dispatched x.now f = none := by
  obtain ⟨m, hm⟩ := Option.ne_none_iff_exists'.mp htakes
  obtain ⟨hst, -⟩ := Bus.Device.takes_eq_some hm
  have hsecure := hst.resolve_left h.offered
  obtain ⟨s, hs, hest⟩ := h.honest.panel.armed.secure hsecure
  have hunsecured := (h.forgotten (by simp [Bus.Device.secureEstablished, hs, hest])).2.2 hsecure
  have hsecurity := (Bus.transact_ok ht).security
  rw [Bus.commandFor_uttered hsecure] at hsecurity
  have hnone : (l.device.noticed x.now).dispatchOf f = none := by
    simp only [Pd.Device.dispatchOf, hsecurity]
    split
    · cases hse : (l.device.noticed x.now).session with
      | none => rfl
      | some t =>
        have hno : t.established = false := by
          have hse' : l.device.session = some t := hse
          simpa [Pd.Device.secured, hse'] using hunsecured
        simp [hno]
    · rfl
  have hz : f.control.sequence ≠ 0 := by
    rw [(Bus.transact_put h.isNumber ht).number]
    exact h.isNumber.ne_zero
  simp only [Pd.Device.dispatched, Pd.Device.opening, if_neg hz, h.honest.device.observe ha.defaults,
    Pd.Device.dispatchFor, hnone, ite_self]

end Exchange

/-- The frames of an exchange are ones the line can carry. -/
def Fits (b : Bus) (l : Line) (x : Exchange) : Prop :=
  ∀ f ∈ (Bus.transact b l.panel x.rndA).1.toOption, f.Writable ∧
    ∀ g ∈ (l.device.handle x.now x.rndB f).1.toOption, g.Writable

instance (b : Bus) (l : Line) (x : Exchange) : Decidable (l.Fits b x) :=
  inferInstanceAs (Decidable (∀ f ∈ (Bus.transact b l.panel x.rndA).1.toOption, _))

/-- What is asked of an operation: nothing is lost and the frames can be carried, what is sent is a
command, and one that is carried over the channel is apt. -/
def Proper (b : Bus) (channel : Bus.SecureChannel) (l : Line) : LineOp → Prop
  | .exchange x => x.fate = .delivered ∧ l.Fits b x ∧ (l.panel.state = .secure → l.Apt channel)
  | .send m => m.isReply = false
  | _ => True

instance (b : Bus) (channel : Bus.SecureChannel) (l : Line) (op : LineOp) :
    Decidable (l.Proper b channel op) := by
  unfold Proper
  cases op <;> infer_instance

/-- Such an operation is a calm one. -/
theorem Proper.calm {b : Bus} {channel : Bus.SecureChannel} {l : Line} {op : LineOp}
    (h : l.Proper b channel op) : Calm op := by
  cases op with
  | exchange x => exact h.1
  | send m => exact h
  | installKey key => trivial
  | report r => trivial

end Line

/-! ## The journal -/

/-- The command the device's table was run on. -/
def Entry.place : Entry → Option ℕ
  | .ran k => some k
  | .restart => none

namespace Journal

/-- The record of a line that is taken up where it stands: what waits on it counts as accepted. -/
def resume (l : Line) : Journal :=
  { line := l, accepted := l.panel.outbox, reports := l.device.waiting }

/-- The commands the device's table was run on, in order. -/
def places (j : Journal) : List ℕ := j.log.filterMap Entry.place

section

variable {b : Bus} {channel : Bus.SecureChannel} {cfg : Pd.Settings} {j : Journal} {x : Exchange}

/-- What an exchange runs. -/
theorem places_exchange (b : Bus) (j : Journal) (x : Exchange) :
    (j.step b (.exchange x)).places =
      j.places ++ if (j.reaching b x).any (j.runs x) then j.taken.toList else [] := by
  have hrestart : ∀ c : Prop, [Decidable c] →
      (if c then [Entry.restart] else []).filterMap Entry.place = [] := by
    intro c _
    split <;> rfl
  have hran : ∀ o : Option ℕ, (o.map Entry.ran).toList.filterMap Entry.place = o.toList := by
    intro o
    cases o <;> rfl
  simp only [places, step, List.filterMap_append, hrestart, List.append_nil, deviceEntries]
  congr 1
  cases j.reaching b x with
  | none => rfl
  | some f =>
    simp only [List.filterMap_append, hrestart, List.nil_append, Option.any_some]
    split
    · exact hran _
    · rfl

/-- What reaches the device is what the panel sent. -/
theorem transact_of_reaching {f : Frame} (h : j.reaching b x = some f) :
    ∃ p, Bus.transact b j.line.panel x.rndA = (.ok f, p) := by
  unfold reaching at h
  split at h
  · cases h
  · rename_i f' p ht
    split at h
    · cases h
      exact ⟨p, ht⟩
    · cases h

/-- What reaches the reader. -/
theorem reaching_of_transact {f : Frame} {p : Bus.Device}
    (ht : Bus.transact b j.line.panel x.rndA = (.ok f, p)) (hserving : j.line.serving = true)
    (hx : x.fate = .delivered) : j.reaching b x = some f := by
  simp [reaching, ht, hserving, hx]

/-- What an exchange returns. -/
theorem returned_exchange (b : Bus) (j : Journal) (x : Exchange) :
    (j.step b (.exchange x)).returned =
      j.returned ++ (j.line.exchange b x).1.toList.filter Bus.Event.isReport := by
  simp [returned, step]

/-- What holds of the record all along: a channel is up or the two are on their way to one; what has
been run is the commands accepted first, each once; what has been returned and what still waits at
the reader is what has been reported, each once. -/
structure Orderly (channel : Bus.SecureChannel) (cfg : Pd.Settings) (j : Journal) : Prop where
  line : j.line.Live channel cfg ∨ j.line.Enrolling channel cfg
  quiet : j.line.Quiet
  available : j.line.device.Available
  queue : j.line.panel.outbox <:+ j.accepted
  ran : j.places = List.range j.cursor
  returned : j.returned ++ j.line.device.waiting = j.reports

/-- A command that is accepted waits behind the others. -/
theorem orderly_enqueue (h : j.Orderly channel cfg) (key : Option BaseKey) (m : Message)
    (hline : ({ j.line with panel := { j.line.panel with pendingKey := key }.enqueue m } :
        Line).Live channel cfg ∨
      ({ j.line with panel := { j.line.panel with pendingKey := key }.enqueue m } :
        Line).Enrolling channel cfg) :
    Orderly channel cfg { j with
      line := { j.line with panel := { j.line.panel with pendingKey := key }.enqueue m }
      accepted := j.accepted ++ [m] } := by
  obtain ⟨gone, hgone⟩ := h.queue
  refine { line := hline, quiet := h.quiet, available := h.available, queue := ⟨gone, ?_⟩, ran := ?_
           returned := h.returned }
  · rw [← hgone, List.append_assoc]
    rfl
  · refine h.ran.trans (congrArg List.range ?_)
    simp [cursor, Bus.Device.enqueue]

section Kept

variable (hb : b.secure = some channel) (ha : Line.Agreeable channel cfg) (h : j.Orderly channel cfg)
include hb ha h

/-- An exchange that takes the two nearer runs nothing and returns nothing. -/
theorem orderly_nearer (he : j.line.Enrolling channel cfg) (hx : x.fate = .delivered) :
    (j.step b (.exchange x)).Orderly channel cfg := by
  have hnear := Line.nearer hb ha he hx
  obtain ⟨seen, last, s, c, n, v, hdevice⟩ := hnear.aside.device
  have hline : (j.step b (.exchange x)).line = (j.line.exchange b x).2 := rfl
  have haccepted : (j.step b (.exchange x)).accepted = j.accepted := rfl
  have hcursor : (j.step b (.exchange x)).cursor = j.cursor := by
    rw [cursor, hline, haccepted, hnear.aside.outbox, cursor]
  have hplaces : (j.step b (.exchange x)).places = j.places := by
    rw [places_exchange]
    cases hr : j.reaching b x with
    | none => simp
    | some f =>
      obtain ⟨p, ht⟩ := transact_of_reaching hr
      by_cases htakes : j.line.panel.takes = none
      · simp [taken, htakes]
      · simp [runs, he.unran ha htakes ht]
  have hreturned : (j.step b (.exchange x)).returned = j.returned := by
    have hsilent := hnear.silent h.quiet
    rw [returned_exchange]
    cases hev : (j.line.exchange b x).1 with
    | none => simp
    | some e => simp [hsilent e hev]
  have hwaiting : (j.step b (.exchange x)).line.device.waiting = j.line.device.waiting := by
    rw [hline, hdevice]
    rfl
  refine { line := ?_, quiet := ?_, available := ?_, queue := ?_, ran := ?_, returned := ?_ }
  · exact hnear.progress.imp id And.left
  · exact hnear.quiet h.quiet
  · rw [hline, hdevice]
    exact h.available
  · rw [hline, hnear.aside.outbox]
    exact h.queue
  · rw [hplaces, hcursor]
    exact h.ran
  · rw [hreturned, hwaiting]
    exact h.returned

/-- What is queued and reported between the exchanges keeps it in order too. -/
theorem orderly_queue {op : LineOp} (hcalm : Line.Calm op) (htalks : Line.talks op = false) :
    (j.step b op).Orderly channel cfg := by
  have hline : (j.line.step b op).Live channel cfg ∨ (j.line.step b op).Enrolling channel cfg :=
    h.line.imp (fun hl => Line.live_queue hb ha hl hcalm htalks)
      (fun he => (Line.enrolling_queue hb ha he hcalm htalks).1)
  cases op with
  | exchange x => cases htalks
  | send m =>
    have hsame : (j.step b (.send m)).line = j.line.step b (.send m) := rfl
    rw [← hsame] at hline
    obtain he | he := step_send b j m
    · rw [he]
      exact h
    · rw [he] at hline ⊢
      exact orderly_enqueue h j.line.panel.pendingKey m hline
  | installKey key =>
    have hsame : (j.step b (.installKey key)).line = j.line.step b (.installKey key) := rfl
    rw [← hsame] at hline
    obtain he | ⟨-, he⟩ := step_installKey b j key
    · rw [he]
      exact h
    · rw [he] at hline ⊢
      exact orderly_enqueue h (some key) _ hline
  | report r =>
    have hsame : (j.step b (.report r)).line = j.line.step b (.report r) := rfl
    have hwaiting := Pd.Device.report_waiting j.line.device r
    obtain ⟨i, t, w, p, he⟩ := Pd.Device.report_device j.line.device r
    rw [← hsame] at hline
    refine { line := hline, quiet := ?_, available := Pd.Device.report_available h.available r
             queue := h.queue, ran := h.ran, returned := ?_ }
    · have hdevice : (j.step b (.report r)).line = { j.line with device := (j.line.device.report r).2 } :=
        rfl
      rw [hdevice, he]
      exact h.quiet
    · have hreports : (j.step b (.report r)).reports =
          j.reports ++ if (j.line.device.report r).1.isOk then r.event.toList else [] := rfl
      have hafter : (j.step b (.report r)).line.device = (j.line.device.report r).2 := rfl
      rw [hafter, hwaiting, hreports, ← h.returned, List.append_assoc]
      rfl

variable (hlaw : channel.suite.Lawful)
include hlaw

/-- An exchange over the channel runs the next command, if one waits, and returns the first report. -/
theorem orderly_live (hl : j.line.Live channel cfg)
    (hx : x.fate = .delivered) (hapt : j.line.Apt channel) :
    (j.step b (.exchange x)).Orderly channel cfg := by
  have hc := Line.carried hb ha hlaw hl hx h.available hapt
  have hline : (j.step b (.exchange x)).line = (j.line.exchange b x).2 := rfl
  have haccepted : (j.step b (.exchange x)).accepted = j.accepted := rfl
  have hrest := j.line.panel.takes_rest
  have hplaces : (j.step b (.exchange x)).places = j.places ++ j.taken.toList := by
    obtain ⟨s, t, p, r, hconv⟩ := Line.exchange_live ha hlaw hl hx b
    obtain ⟨f, ht, hdispatched⟩ := hconv.heard
    rw [places_exchange, reaching_of_transact ht hl.serving hx]
    simp [runs, hdispatched]
  refine { line := hc.line, quiet := hc.quiet, available := ?_, queue := ?_, ran := ?_
           returned := ?_ }
  · intro m hm
    rw [hline, hc.pending] at hm
    exact (Pd.Device.dispatch_available (hl.handler ha x.now) h.available
      j.line.panel.utterance.code j.line.panel.utterance.data true).2 m hm
  · rw [hline, hc.outbox, haccepted]
    exact (hrest ▸ List.suffix_append _ _ : j.line.panel.rest <:+ j.line.panel.outbox).trans h.queue
  · -- the cursor moves by what the panel took off its queue
    have hle := h.queue.length_le
    have hlen := congrArg List.length hrest
    rw [List.length_append] at hlen
    have hcursor : (j.step b (.exchange x)).cursor = j.accepted.length - j.line.panel.rest.length := by
      rw [cursor, hline, haccepted, hc.outbox]
    rw [hplaces, h.ran, hcursor, taken]
    cases ht : j.line.panel.takes with
    | none =>
      rw [ht] at hlen
      simp only [Option.toList_none, List.length_nil, Nat.zero_add] at hlen
      simp [cursor, hlen]
    | some m =>
      rw [ht] at hlen
      simp only [Option.toList_some, List.length_singleton] at hlen
      simp only [Option.isSome_some, if_true, Option.toList_some, ← List.range_succ]
      congr 1
      unfold cursor
      omega
  · have hafter : (j.step b (.exchange x)).line.device.waiting =
        ((j.line.device.noticed x.now).dispatch j.line.panel.utterance.code
          j.line.panel.utterance.data true).2.waiting := by
      rw [hline, Pd.Device.waiting, hc.pending]
      rfl
    rw [returned_exchange, hc.returned, List.append_assoc, hafter, Line.ran,
      Pd.Device.dispatch_reported (hl.handler ha x.now)]
    exact h.returned

/-- **Every step of a run** keeps the record in order. -/
theorem orderly_step {op : LineOp}
    (hop : j.line.Proper b channel op) : (j.step b op).Orderly channel cfg := by
  cases htalks : Line.talks op with
  | false => exact orderly_queue hb ha h hop.calm htalks
  | true =>
    cases op with
    | exchange x =>
      obtain hl | he := h.line
      · obtain ⟨s, t, hjoined, -⟩ := hl.up
        exact orderly_live hb ha h hlaw hl hop.1 (hop.2.2 hjoined.state)
      · exact orderly_nearer hb ha h he hop.1
    | send m => cases htalks
    | installKey key => cases htalks
    | report r => cases htalks

/-- **Every exchange** takes one off what is owed. -/
theorem owes_exchange (hop : j.line.Proper b channel (.exchange x)) {n : ℕ}
    (howes : j.line.Owes channel cfg n) : (j.step b (.exchange x)).line.Owes channel cfg (n - 1) := by
  obtain ⟨hl, hn⟩ | ⟨he, hn⟩ := howes
  · obtain ⟨s, t, hjoined, -⟩ := hl.up
    exact Line.owes_live hb ha hlaw hl hop.1 h.available (hop.2.2 hjoined.state) hn
  · exact Line.owes_enrolling hb ha he hop.1 hn

end Kept

/-- A line taken up where it stands is orderly. -/
theorem orderly_resume {l : Line} (h : l.Enrolling channel cfg) (hquiet : l.Quiet)
    (havailable : l.device.Available) : (resume l).Orderly channel cfg where
  line := .inr h
  quiet := hquiet
  available := havailable
  queue := List.suffix_refl _
  ran := by simp [resume, places, cursor]
  returned := rfl

/-- No more is owed than this. -/
theorem Orderly.owes (h : j.Orderly channel cfg) : j.line.Owes channel cfg (j.line.due + 9) := by
  have haway := j.line.away_le
  obtain hl | he := h.line
  · refine .inl ⟨hl, ?_⟩
    split <;> omega
  · exact .inr ⟨he, by omega⟩

/-- When nothing is owed the channel is up and everything is done. -/
theorem Orderly.done (h : j.Orderly channel cfg) (howes : j.line.Owes channel cfg 0) :
    j.line.Up ∧ j.places = List.range j.accepted.length ∧ j.returned = j.reports := by
  obtain ⟨hl, hn⟩ | ⟨-, hn⟩ := howes
  · have hempty : j.line.panel.outbox = [] ∧ j.line.device.pending = [] := by
      unfold Line.due at hn
      constructor
      · cases ho : j.line.panel.outbox with
        | nil => rfl
        | cons m rest =>
          have := Line.toll_pos m
          rw [ho, List.map_cons, List.sum_cons] at hn
          omega
      · exact List.eq_nil_of_length_eq_zero (by omega)
    refine ⟨hl.up, ?_, ?_⟩
    · rw [h.ran, cursor, hempty.1]
      rfl
    · rw [← h.returned, Pd.Device.waiting, hempty.2]
      simp
  · omega

end

end Journal

namespace Line

/-- The channel comes up; then a command, a card, a new key, a new address and another command. -/
def duties : List LineOp :=
  [nth 1 .delivered, nth 2 .delivered, nth 3 .delivered, nth 4 .delivered, .send { code := Code.oStat },
    .report (.cardRead Journal.card), .installKey Pd.siteKey, nth 5 .delivered,
    .send (communicationCommand ⟨5, 9600⟩), .send { code := Code.lStat }, .report (.keypad ⟨0, [1, 2]⟩)]

/-- Thirty-two exchanges. -/
def rounds : List Exchange :=
  (List.range 32).map fun n => { rndA := List.Vector.replicate 8 (UInt8.ofNat n), fate := .delivered }

end Line

end Osdp
