import Osdp.Analysis.RetrySpec
import Osdp.Library.Spacing

/-!
# An `osdp_OUT` is run once between two restarts

A panel that hears nothing sends its command again under the number it had, and a device
answers that number from its cache. Once a device has run an `osdp_OUT` the two stay
together (`Line.Pinned`): the command is first in the outbox, its number is to be repeated,
its frame can be built again, and the cache holds the reply to it. Only the reply itself or
a restart ends this, so between two runs of one command the journal has a restart, of the
panel or of a device whose communication timeout ran out.
-/

set_option autoImplicit false

namespace Osdp

open Osdp.Secure (Session Rnd)

/-! ## The device runs a command -/

namespace Pd.Device

/-- An `osdp_OUT` is never answered with busy. -/
theorem applyOutputs_code (d : Device) (data : Octets) : (d.applyOutputs data).1.code ≠ Code.busy := by
  unfold applyOutputs
  split
  · simp [nak, Code.nak, Code.busy]
  · simp only
    split
    · simp [nak, Code.nak, Code.busy]
    · simp [ack, Code.ack, Code.busy]

/-- **A device that has run an `osdp_OUT`** has its reply cached, unless it could not build one. -/
theorem handle_out {d : Device} {now : ℤ} {f : Frame} (hcode : f.code = Code.out)
    (hn : IsNumber f.control.sequence) (hrun : (d.dispatched now f).isSome = true) (rndB : Rnd) :
    d.heard f = true ∧
    ((∃ err e, d.handle now rndB f = (.error err, e) ∧ err.isNoReply = false) ∨
      ∃ e, d.handle now rndB f = (.ok e.cached, e) ∧
        e.Holds (· ≠ Code.busy) f.control.sequence d.address) := by
  obtain ⟨⟨payload, secured⟩, hdisp⟩ := Option.isSome_iff_exists.mp hrun
  refine handle_dispatched hn hdisp rndB fun s => ?_
  rw [hcode, dispatch_out]
  exact applyOutputs_code _ _

end Pd.Device

namespace Line

/-- The device has run the first command of the outbox, and both sides will take it for the same
command: its number is to be repeated, its frame can be built again, and the reply is cached. -/
structure Pinned (b : Bus) (l : Line) : Prop where
  inflight : l.panel.inflight = none
  repeating : l.panel.repeatSequence = true
  sends : ∃ m f, l.panel.takes = some m ∧ m.code = Code.out ∧
    ∀ rndA, ∃ e, Bus.transact b l.panel rndA = (.ok f, e)
  holds : l.device.Holds (· ≠ Code.busy) l.panel.seq l.panel.address

variable {f : Frame} {l : Line}

/-- **The panel's turn after a command the device holds the reply to.** The command is released, or
the two are pinned, or the panel starts the exchange again. -/
theorem await_held (b : Bus) {d : Bus.Device} {m : Message} {rndA : Rnd} (ht : d.takes = some m)
    (hm : m.code = Code.out) (h : Bus.transact b d rndA = (.ok f, l.panel)) (hn : IsNumber d.number)
    (hd : l.device.Holds (· ≠ Code.busy) d.number d.address) (x : Exchange) {r : Option Frame}
    (hr : r = none ∨ r = some l.device.cached)
    (hevent : (l.await b x r).1.any Bus.Event.isRestart = false) :
    (l.await b x r).2.panel.outstanding = d.outbox.tail ∨
      ((l.await b x r).2.panel.outbox = d.outbox ∧ (l.await b x r).2.Pinned b) := by
  have hkey : m.code ≠ Code.keySet := by rw [hm]; decide
  obtain ⟨s, he⟩ := Bus.transact_sent ht h
  rcases hr with rfl | rfl
  · right
    have honline : (Bus.timeout l.panel).1 ≠ .offline := by
      intro hoff
      simp [await, silence, hoff, Bus.Event.isRestart] at hevent
    have hret := Bus.retried_of_timeout ht hkey h honline
    refine ⟨hret.outbox, ⟨hret.inflight, hret.repeatSequence, ⟨m, f, hret.takes, hm, fun rndA' => ?_⟩, ?_⟩⟩
    · obtain ⟨e', he', -⟩ := hret.again rndA'
      exact ⟨e', he'⟩
    show l.device.Holds (· ≠ Code.busy) (Bus.timeout l.panel).2.seq (Bus.timeout l.panel).2.address
    rw [hret.seq, hret.address]
    exact hd
  · left
    -- a reply to this command from this device: let through it releases, and otherwise restarts
    have haddr : l.device.cached.address = l.panel.address := by rw [hd.address, he]
    obtain ⟨hno, -⟩ | ⟨-, -, ⟨hz, -⟩ | ⟨-, -, hreply⟩ | ⟨-, data, s', -, hreply⟩⟩ :=
      Bus.reply_cases b l.panel l.device.cached
    · simp [hd.isReply, haddr] at hno
    · rw [hd.number] at hz
      exact absurd hz hn.ne_zero
    · simp [await, hreply, Bus.Event.isRestart] at hevent
    · obtain ⟨hinflight, houtbox⟩ := Bus.dispatch_queue b { l.panel with misses := 0, session := s' }
        { code := l.device.cached.code, isReply := l.device.cached.isReply, data := data }
      rw [← hreply] at hinflight houtbox
      rw [if_neg hd.code] at houtbox
      have hfree : (Bus.reply b l.panel l.device.cached).2.outstanding = d.outbox.tail := by
        rw [Bus.Device.outstanding, hinflight, houtbox, he]
        rfl
      obtain ⟨hnone, -⟩ | ⟨a, ha, hpanel | hpanel⟩ := l.await_panel b x (some l.device.cached)
      · cases hnone
      · cases ha
        rw [hpanel, hfree]
      · cases ha
        rw [hpanel, Bus.timeout_outstanding, hfree]

/-- The device's turn, when it runs an `osdp_OUT`: it holds the reply, or is served no longer. -/
theorem carry_out (hserving : l.serving = true) {x : Exchange} (hfate : x.fate ≠ .commandLost)
    (hcode : f.code = Code.out) (hn : IsNumber f.control.sequence)
    (hrun : (l.device.dispatched x.now f).isSome = true) :
    l.device.heard f = true ∧ ((l.carry x f).2.serving = false ∨
      ((l.carry x f).2.device.Holds (· ≠ Code.busy) f.control.sequence l.device.address ∧
        ((l.carry x f).1 = none ∨ (l.carry x f).1 = some (l.carry x f).2.device.cached))) := by
  obtain ⟨hheard, hhandle⟩ := Pd.Device.handle_out hcode hn hrun x.rndB
  refine ⟨hheard, ?_⟩
  obtain ⟨err, e, he, herr⟩ | ⟨e, he, hholds⟩ := hhandle
  · left
    cases hx : x.fate with
    | commandLost => exact absurd hx hfate
    | replyLost => simp [carry, hx, serve, hserving, he, herr]
    | delivered => simp [carry, hx, serve, hserving, he, herr]
  · right
    cases hx : x.fate with
    | commandLost => exact absurd hx hfate
    | replyLost => simpa [carry, hx, serve, hserving, he] using hholds
    | delivered => simpa [carry, hx, serve, hserving, he] using hholds

end Line

/-! ## The log -/

open Spacing

/-- What an exchange adds to a log: a restart of the device, a run, a restart of the panel. -/
def grow (log : List Entry) (quiet : Bool) (ran : Option ℕ) (again : Bool) : List Entry :=
  log ++ ((if quiet then [.restart] else []) ++ (ran.map Entry.ran).toList) ++
    if again then [.restart] else []

variable {log : List Entry} {quiet again : Bool} {ran : Option ℕ} {k : ℕ}

/-- What ran since the restart, one step later. -/
theorem since_grow (h : Since .restart (.ran k) (grow log quiet ran again)) :
    again = false ∧ (ran = some k ∨ (quiet = false ∧ Since .restart (.ran k) log)) := by
  have hk : Entry.ran k ≠ .restart := by simp
  cases again with
  | true => exact absurd h (not_since_append_sep hk)
  | false =>
    refine ⟨rfl, ?_⟩
    cases ran with
    | none =>
      cases quiet with
      | true => exact absurd h (by simpa [grow] using not_since_append_sep hk)
      | false => exact .inr ⟨rfl, by simpa [grow] using h⟩
    | some k' =>
      have hk' : Entry.ran k' ≠ .restart := by simp
      have hsplit : grow log quiet (some k') false =
          (log ++ if quiet then [.restart] else []) ++ [.ran k'] := by
        simp [grow]
      rw [hsplit, since_append_singleton hk'] at h
      rcases h with h | h
      · cases h
        exact .inl rfl
      · cases quiet with
        | true => exact absurd h (by simpa using not_since_append_sep hk)
        | false => exact .inr ⟨rfl, by simpa using h⟩

/-- A step keeps the runs apart. -/
theorem spaced_grow (h : Spaced .restart (.ran k) log)
    (hran : ran = some k → quiet = false → ¬ Since .restart (.ran k) log) :
    Spaced .restart (.ran k) (grow log quiet ran again) := by
  have hk : Entry.ran k ≠ .restart := by simp
  have hsep : ∀ l : List Entry, Spaced .restart (.ran k) l →
      ∀ c : Bool, Spaced .restart (.ran k) (l ++ if c then [.restart] else []) := by
    intro l hl c
    cases c with
    | true => exact spaced_append_singleton.mpr ⟨hl, fun he => absurd he.symm hk⟩
    | false => simpa using hl
  refine hsep _ ?_ again
  rw [← List.append_assoc]
  cases ran with
  | none => simpa using hsep log h quiet
  | some k' =>
    refine spaced_append_singleton.mpr ⟨hsep log h quiet, fun he => ?_⟩
    cases he
    cases quiet with
    | true => simpa using not_since_append_sep hk
    | false => simpa using hran rfl rfl

/-- What ran, ran before or now. -/
theorem mem_grow (h : .ran k ∈ grow log quiet ran again) : .ran k ∈ log ∨ ran = some k := by
  simp only [grow, List.mem_append] at h
  rcases h with (h | h | h) | h
  · exact .inl h
  · cases quiet <;> simp at h
  · right
    simpa using h
  · cases again <;> simp at h

namespace Journal

/-- How many commands the panel owes no longer. -/
def done (j : Journal) : ℕ := j.accepted.length - j.line.panel.outstanding.length

/-- The command in this place is an `osdp_OUT`. -/
def IsOut (j : Journal) (k : ℕ) : Prop := ∃ m, j.accepted[k]? = some m ∧ m.code = Code.out

/-- A command that is not run again before a restart: the device is served no longer, the panel
owes the command no longer, or the two sides are pinned to it. -/
def Fixed (b : Bus) (j : Journal) (k : ℕ) : Prop :=
  j.line.serving = false ∨ k < j.done ∨ (k = j.cursor ∧ j.line.Pinned b)

/-- What holds between the steps of every run. -/
structure Once (b : Bus) (j : Journal) : Prop where
  sound : j.line.Sound
  aligned : j.line.panel.outstanding <:+ j.accepted
  past : ∀ k, .ran k ∈ j.log → k < j.accepted.length
  fixed : ∀ k, j.IsOut k → Since .restart (.ran k) j.log → j.Fixed b k
  spaced : ∀ k, j.IsOut k → Spaced .restart (.ran k) j.log

/-- No more is done than was taken. -/
theorem done_le_cursor (j : Journal) : j.done ≤ j.cursor := by
  unfold done cursor
  have hle : j.line.panel.outbox.length ≤ j.line.panel.outstanding.length := by
    simp [Bus.Device.outstanding]
  omega

variable {p : Bus.Device} {f : Frame} {m : Message} {k : ℕ} {b : Bus} {j : Journal}

section Exchange

variable {b : Bus} {j : Journal} {x : Exchange}

/-- The line after the panel has sent its frame and the device has had its turn. -/
def carried (j : Journal) (p : Bus.Device) (x : Exchange) (f : Frame) : Option Frame × Line :=
  { j.line with panel := p }.carry x f

/-- An exchange in which nothing could be sent. -/
theorem step_exchange_error {e : Bus.Error} (h : Bus.transact b j.line.panel x.rndA = (.error e, p)) :
    j.step b (.exchange x) = { j with line := { j.line with panel := p } } := by
  simp [step, Line.exchange, h, deviceEntries, reaching, originAfter]

/-- An exchange in which a frame was sent. -/
theorem step_exchange_ok (h : Bus.transact b j.line.panel x.rndA = (.ok f, p)) :
    (j.step b (.exchange x)).line = ((j.carried p x f).2.await b x (j.carried p x f).1).2 ∧
    (j.step b (.exchange x)).accepted = j.accepted ∧
    (j.step b (.exchange x)).log = grow j.log
      (j.line.serving && x.fate != .commandLost && j.line.device.heard f && j.line.device.silent x.now)
      (if (j.line.serving && x.fate != .commandLost && j.runs x f) = true then j.taken else none)
      (((j.carried p x f).2.await b x (j.carried p x f).1).1.any Bus.Event.isRestart) := by
  refine ⟨by simp [step, Line.exchange, h, carried], rfl, ?_⟩
  have hlog : (j.step b (.exchange x)).log = j.log ++ j.deviceEntries b x ++
      if ((j.carried p x f).2.await b x (j.carried p x f).1).1.any Bus.Event.isRestart then [.restart]
      else [] := by
    simp only [step, Line.exchange, h, carried]
    rfl
  rw [hlog, grow]
  congr 2
  cases hreach : (j.line.serving && x.fate != .commandLost) with
  | false => simp [deviceEntries, reaching, h, hreach]
  | true =>
    simp only [deviceEntries, reaching, h, hreach, if_true, Bool.true_and]
    split <;> split <;> simp

/-- What the frame of an exchange bears. -/
theorem transact_frame (h : Bus.transact b j.line.panel x.rndA = (.ok f, p))
    (hn : IsNumber j.line.panel.number) :
    f.control.sequence = j.line.panel.number ∧ f.address = j.line.panel.address ∧
      ∀ m, j.line.panel.takes = some m → f.code = m.code := by
  have hc := Bus.transact_ok h
  have hnum := Bus.commandFor_number j.line.panel x.rndA
  refine ⟨?_, hc.address.trans (Bus.commandFor_address j.line.panel x.rndA), ?_⟩
  · rw [hc.number (hnum ▸ hn.le), hnum]
  · intro m hm
    rw [hc.code, Bus.commandFor_of_takes hm]

/-- The panel has sent an `osdp_OUT` the device holds the reply to: it is fixed. -/
theorem fixed_of_held (h : j.Once b) (ht : j.line.panel.takes = some m) (hm : m.code = Code.out)
    (hnext : Bus.transact b j.line.panel x.rndA = (.ok f, p))
    (hholds : (j.carried p x f).2.device.Holds (· ≠ Code.busy) j.line.panel.number j.line.panel.address)
    (hr : (j.carried p x f).1 = none ∨
      (j.carried p x f).1 = some (j.carried p x f).2.device.cached)
    (hagain : ((j.carried p x f).2.await b x (j.carried p x f).1).1.any Bus.Event.isRestart = false) :
    (j.step b (.exchange x)).Fixed b j.cursor := by
  obtain ⟨hline, haccepted, -⟩ := step_exchange_ok hnext
  obtain ⟨-, -, -, rest, ho⟩ := Bus.Device.takes_eq_some ht
  have hlen : j.line.panel.outbox.length ≤ j.accepted.length := by
    have hle := h.aligned.length_le
    simp only [Bus.Device.outstanding, List.length_append] at hle
    omega
  have hpanel : (j.carried p x f).2.panel = p :=
    (Line.carry_spec (l := { j.line with panel := p }) h.sound.device x f).1
  right
  rcases Line.await_held b ht hm (hpanel ▸ hnext) h.sound.isNumber hholds x hr hagain with hout | ⟨hout, hpin⟩
  · left
    rw [done, haccepted, hline, hout, cursor]
    rw [ho] at hlen ⊢
    simp only [List.tail_cons, List.length_cons] at hlen ⊢
    omega
  · right
    refine ⟨?_, hline ▸ hpin⟩
    rw [cursor, cursor, haccepted, hline, hout]

/-- A command that is fixed is not run, unless the device starts again. -/
theorem not_run_of_fixed (h : j.Once b) (hfixed : j.Fixed b k)
    (hnext : Bus.transact b j.line.panel x.rndA = (.ok f, p))
    (hreach : (j.line.serving && x.fate != .commandLost) = true) (htaken : j.taken = some k)
    (hquiet : (j.line.device.heard f && j.line.device.silent x.now) = false) :
    j.runs x f = false := by
  rw [Bool.and_eq_true] at hreach
  by_contra hrun
  rw [Bool.not_eq_false, runs] at hrun
  have hcur := (taken_eq_some htaken).1
  rcases hfixed with hserving | hdone | ⟨-, hpin⟩
  · rw [hreach.1] at hserving
    cases hserving
  · have hle := j.done_le_cursor
    omega
  · have hheard : j.line.device.heard f = true := by
      unfold Pd.Device.dispatched at hrun
      split at hrun
      · rename_i hc
        simp only [Bool.and_eq_true] at hc
        exact hc.1
      · cases hrun
    have hsilent : j.line.device.silent x.now = false := by simpa [hheard] using hquiet
    have hnum : j.line.panel.number = j.line.panel.seq := by
      simp [Bus.Device.number, hpin.repeating]
    have hseq := (transact_frame hnext h.sound.isNumber).1
    rw [hnum] at hseq
    have hz : j.line.panel.seq ≠ 0 := (h.sound.number hpin.repeating).ne_zero
    have hnone := (Pd.Device.handle_held hpin.holds hsilent hseq hz x.rndB hheard).1
    rw [hnone] at hrun
    cases hrun

/-- A command that is fixed stays so, unless one side starts again. -/
theorem fixed_exchange (h : j.Once b) (hfixed : j.Fixed b k)
    (hnext : Bus.transact b j.line.panel x.rndA = (.ok f, p))
    (hquiet : (j.line.serving && x.fate != .commandLost && j.line.device.heard f &&
      j.line.device.silent x.now) = false)
    (hagain : ((j.carried p x f).2.await b x (j.carried p x f).1).1.any Bus.Event.isRestart = false) :
    (j.step b (.exchange x)).Fixed b k := by
  obtain ⟨hline, haccepted, -⟩ := step_exchange_ok hnext
  rcases hfixed with hserving | hdone | ⟨rfl, hpin⟩
  · left
    rw [hline, (Line.await_device b _ x _).2, carried,
      Line.carry_unserved (l := { j.line with panel := p }) hserving x f]
    exact hserving
  · right
    left
    have hout : (j.step b (.exchange x)).line.panel.outstanding <:+ j.line.panel.outstanding := by
      have hexchange : (j.step b (.exchange x)).line = (j.line.exchange b x).2 := rfl
      rw [hexchange]
      exact Line.exchange_outstanding b h.sound.device x
    have hle := hout.length_le
    unfold done at hdone ⊢
    rw [haccepted]
    omega
  · obtain ⟨m, g, ht, hm, -⟩ := hpin.sends
    have hnum : j.line.panel.number = j.line.panel.seq := by
      simp [Bus.Device.number, hpin.repeating]
    have hseq := (transact_frame hnext h.sound.isNumber).1
    have hheld := Line.carry_held (l := { j.line with panel := p }) hpin.holds
      (h.sound.number hpin.repeating).ne_zero x (hseq.trans hnum) (by
        intro hserving hfate hheard
        have hserving' : j.line.serving = true := hserving
        have hheard' : j.line.device.heard f = true := hheard
        simpa [hserving', hfate, hheard'] using hquiet)
    refine fixed_of_held h ht hm hnext ?_ hheld.2 hagain
    rw [hnum]
    exact hheld.1

/-- **The first run.** An `osdp_OUT` the device runs is fixed from then on. -/
theorem fixed_of_run (h : j.Once b) (hnext : Bus.transact b j.line.panel x.rndA = (.ok f, p))
    (hreach : (j.line.serving && x.fate != .commandLost && j.runs x f) = true)
    (ht : j.line.panel.takes = some m) (hm : m.code = Code.out)
    (hagain : ((j.carried p x f).2.await b x (j.carried p x f).1).1.any Bus.Event.isRestart = false) :
    (j.step b (.exchange x)).Fixed b j.cursor := by
  simp only [Bool.and_eq_true, bne_iff_ne, ne_eq] at hreach
  obtain ⟨hseq, haddr, hcode⟩ := transact_frame hnext h.sound.isNumber
  obtain ⟨hheard, hserved | ⟨hholds, hr⟩⟩ := Line.carry_out (l := { j.line with panel := p }) hreach.1.1
    hreach.1.2 ((hcode m ht).trans hm) (hseq ▸ h.sound.isNumber) hreach.2
  · left
    rw [(step_exchange_ok hnext).1, (Line.await_device b _ x _).2]
    exact hserved
  · refine fixed_of_held h ht hm hnext ?_ hr hagain
    -- the device hears an enrolled panel at its own address only
    have hown : j.line.device.address = j.line.panel.address := by
      obtain ⟨hst, -⟩ := Bus.Device.takes_eq_some ht
      have hunicast := h.sound.enrolled (by rcases hst with hst | hst <;> rw [hst] <;> decide)
      have hheard' : j.line.device.heard f = true := hheard
      simp only [Pd.Device.heard, Pd.Device.addressed, haddr, Bool.and_eq_true, Bool.or_eq_true,
        beq_iff_eq] at hheard'
      rcases hheard'.2 with ha | ⟨-, ha⟩
      · exact ha.symm
      · exact absurd ha hunicast
    rw [← hseq, ← hown]
    exact hholds

/-- **One exchange.** -/
theorem once_exchange (h : j.Once b) (x : Exchange) : (j.step b (.exchange x)).Once b := by
  have hsound : (j.step b (.exchange x)).line.Sound := Line.sound_exchange b h.sound x
  have haligned : (j.step b (.exchange x)).line.panel.outstanding <:+ j.accepted :=
    (Line.exchange_outstanding b h.sound.device x).trans h.aligned
  cases hnext : Bus.transact b j.line.panel x.rndA with
  | mk res p =>
    cases res with
    | error e =>
      have hstep := step_exchange_error hnext
      rw [hstep] at hsound haligned ⊢
      refine ⟨hsound, haligned, h.past, fun k hk hsince => ?_, h.spaced⟩
      rcases h.fixed k hk hsince with hserving | hdone | ⟨-, hpin⟩
      · exact .inl hserving
      · refine .inr (.inl ?_)
        have hout : p.outstanding <:+ j.line.panel.outstanding := by
          have hsuffix := Bus.transact_outstanding b j.line.panel x.rndA
          rw [hnext] at hsuffix
          exact ⟨_, hsuffix.symm⟩
        have hle := hout.length_le
        unfold done at hdone ⊢
        simp only
        omega
      · -- a pinned command can be sent again
        obtain ⟨m, f, -, -, hagain⟩ := hpin.sends
        obtain ⟨e', he'⟩ := hagain x.rndA
        rw [hnext] at he'
        cases he'
    | ok f =>
      obtain ⟨-, haccepted, hlog⟩ := step_exchange_ok hnext
      -- the command taken is the one in the place of the cursor
      have hcursor : ∀ k, (if (j.line.serving && x.fate != .commandLost && j.runs x f) = true then j.taken
          else none) = some k → (j.line.serving && x.fate != .commandLost && j.runs x f) = true ∧
          j.taken = some k ∧ k = j.cursor ∧ ∃ m, j.line.panel.takes = some m ∧
            j.accepted[k]? = some m := by
        intro k hk
        split at hk
        · rename_i hc
          obtain ⟨hcur, m, hm⟩ := taken_eq_some hk
          refine ⟨hc, hk, hcur, m, hm, ?_⟩
          obtain ⟨-, -, -, rest, ho⟩ := Bus.Device.takes_eq_some hm
          have hsuffix : j.line.panel.outbox <:+ j.accepted :=
            (List.suffix_append _ _).trans h.aligned
          rw [hcur]
          exact (head_accepted hsuffix ho).1
        · cases hk
      refine ⟨hsound, haccepted ▸ haligned, ?_, ?_, ?_⟩
      · intro k hk
        rw [hlog] at hk
        rw [haccepted]
        rcases mem_grow hk with hk | hk
        · exact h.past k hk
        · obtain ⟨-, -, -, m, -, hm⟩ := hcursor k hk
          exact (List.getElem?_eq_some_iff.mp hm).1
      · intro k hk hsince
        rw [hlog] at hsince
        obtain ⟨m, hm, hout⟩ := hk
        rw [haccepted] at hm
        obtain ⟨hagain, hran | ⟨hquiet, hbefore⟩⟩ := since_grow hsince
        · obtain ⟨hreach, -, rfl, m', hm', hacc⟩ := hcursor k hran
          rw [hacc] at hm
          cases hm
          exact fixed_of_run h hnext hreach hm' hout hagain
        · exact fixed_exchange h (h.fixed k ⟨m, hm, hout⟩ hbefore) hnext hquiet hagain
      · intro k hk
        rw [hlog]
        obtain ⟨m, hm, hout⟩ := hk
        rw [haccepted] at hm
        refine spaced_grow (h.spaced k ⟨m, hm, hout⟩) fun hran hquiet hbefore => ?_
        obtain ⟨hreach, htaken, -, -⟩ := hcursor k hran
        rw [Bool.and_eq_true] at hreach
        rw [hreach.1, Bool.true_and] at hquiet
        have hno := not_run_of_fixed h (h.fixed k ⟨m, hm, hout⟩ hbefore) hnext hreach.1 htaken hquiet
        rw [hreach.2] at hno
        cases hno

end Exchange

/-! ## The other steps -/

/-- Queueing a message, with a key noted down beside it or not, leaves a pinned line pinned. -/
theorem pinned_enqueue {l : Line} (h : l.Pinned b) (key : Option Secure.BaseKey) (m : Message) :
    { l with panel := { l.panel with pendingKey := key }.enqueue m }.Pinned b := by
  obtain ⟨m', f, ht, hm, hagain⟩ := h.sends
  have ht' : ({ l.panel with pendingKey := key }.enqueue m).takes = some m' := takes_enqueue ht m
  refine ⟨h.inflight, h.repeating, ⟨m', f, ht', hm, fun rndA => ?_⟩, h.holds⟩
  obtain ⟨e, he⟩ := hagain rndA
  exact ⟨_, Bus.transact_again ht he ht' rfl rfl rfl (.inl rfl) rndA⟩

/-- Queueing keeps each command at one run. -/
theorem once_enqueue (h : j.Once b) (key : Option Secure.BaseKey) (m : Message) :
    Once b { j with
      line := { j.line with panel := { j.line.panel with pendingKey := key }.enqueue m }
      accepted := j.accepted ++ [m] } := by
  have hout : ({ j.line.panel with pendingKey := key }.enqueue m).outstanding =
      j.line.panel.outstanding ++ [m] := by
    simp [Bus.Device.outstanding, Bus.Device.enqueue]
  -- whatever ran was accepted before
  have hbefore : ∀ k, k < j.accepted.length →
      (∃ m', (j.accepted ++ [m])[k]? = some m' ∧ m'.code = Code.out) → j.IsOut k := by
    rintro k hk ⟨m', hm', hcode⟩
    exact ⟨m', by rw [← hm', List.getElem?_append_left hk], hcode⟩
  refine ⟨⟨h.sound.number, h.sound.enrolled, h.sound.device⟩, ?_, ?_, ?_, ?_⟩
  · obtain ⟨gone, hgone⟩ := h.aligned
    exact ⟨gone, by rw [hout, ← hgone, List.append_assoc]⟩
  · intro k hk
    have hlt := h.past k hk
    simp only [List.length_append, List.length_singleton]
    omega
  · intro k hk hsince
    have hmem : Entry.ran k ∈ j.log := by
      obtain ⟨a, c, hlog, -⟩ := hsince
      rw [show j.log = a ++ .ran k :: c from hlog]
      simp
    rcases h.fixed k (hbefore k (h.past k hmem) hk) hsince with hserving | hdone | ⟨hcur, hpin⟩
    · exact .inl hserving
    · refine .inr (.inl ?_)
      unfold done at hdone ⊢
      simp only [hout, List.length_append, List.length_singleton]
      omega
    · refine .inr (.inr ⟨?_, pinned_enqueue hpin key m⟩)
      rw [hcur]
      simp only [cursor, Bus.Device.enqueue, List.length_append, List.length_singleton]
      omega
  · intro k hk
    by_cases hlt : k < j.accepted.length
    · exact h.spaced k (hbefore k hlt hk)
    · intro a mid c hlog
      have hmem : Entry.ran k ∈ j.log := by
        rw [show j.log = a ++ .ran k :: (mid ++ .ran k :: c) from hlog]
        simp
      exact absurd (h.past k hmem) hlt

/-- **Every step keeps the invariant.** -/
theorem once_step (h : j.Once b) (op : LineOp) : (j.step b op).Once b := by
  cases op with
  | send m =>
    rcases j.step_send b m with hstep | hstep
    · rw [hstep]
      exact h
    · rw [hstep]
      exact once_enqueue h j.line.panel.pendingKey m
  | installKey key =>
    rcases j.step_installKey b key with hstep | ⟨-, hstep⟩
    · rw [hstep]
      exact h
    · rw [hstep]
      exact once_enqueue h (some key) _
  | report r =>
    obtain ⟨i, t, w, p, rs, hstep⟩ := j.step_report b r
    rw [hstep]
    refine ⟨⟨h.sound.number, h.sound.enrolled,
      ⟨h.sound.device.address, h.sound.device.cached, h.sound.device.settled⟩⟩, h.aligned, h.past,
      fun k hk hsince => ?_, h.spaced⟩
    rcases h.fixed k hk hsince with hserving | hdone | ⟨hcur, hpin⟩
    · exact .inl hserving
    · exact .inr (.inl hdone)
    · refine .inr (.inr ⟨hcur, hpin.inflight, hpin.repeating, hpin.sends, ?_⟩)
      exact ⟨hpin.holds.valid, hpin.holds.seq, hpin.holds.isReply, hpin.holds.address,
        hpin.holds.number, hpin.holds.code⟩
  | exchange x => exact once_exchange h x

/-- A new line has run nothing. -/
theorem once_new (b : Bus) (addr : Address) {addr' : Address} {cfg : Pd.Settings} {d : Pd.Device}
    (h : Pd.new addr' cfg = .ok d) : (new addr d).Once b where
  sound := ⟨by simp [new, Bus.Device.new], fun hoff => absurd rfl hoff, Pd.Device.unicast_new h⟩
  aligned := by simp [new, Bus.Device.new, Bus.Device.outstanding]
  past := by simp [new]
  fixed _ _ hsince := absurd hsince not_since_nil
  spaced _ _ := spaced_nil

end Journal

/-! ## A command the panel has released -/

namespace Bus.Track

/-- The place of the command the next `Next` sends, if it sends one. -/
def sends (t : Track) : Option ℕ :=
  if t.device.takes.isSome then some (t.accepted.length - t.device.outbox.length) else none

variable {t : Track}

/-- A reply that frees a command moves the cursor past it. -/
theorem cursor_reply (h : t.Aligned) {b : Bus} {f : Frame}
    (hf : (t.device.freed (reply b t.device f).2).isSome = true) :
    t.cursor < (t.step (b, .reply f)).cursor := by
  obtain ⟨m, hm⟩ := Option.isSome_iff_exists.mp hf
  have hlen := congrArg List.length (reply_outstanding b t.device f)
  rw [hm] at hlen
  have hle := h.length_le
  simp only [List.length_append, List.length_map, Option.toList_some, List.length_singleton] at hlen hle
  simp only [cursor, step, call, accepts, List.append_nil]
  omega

/-- What is no longer owed is not sent. -/
theorem sends_ne {k : ℕ} (h : k < t.cursor) : t.sends ≠ some k := by
  unfold sends
  split
  · intro hk
    cases hk
    have hle : t.device.outbox.length ≤ t.device.outstanding.length := by
      simp [Device.outstanding]
    unfold cursor at h
    omega
  · simp

end Bus.Track

/-- **An `osdp_OUT` is run at most once between two restarts, and never sent after its release.**
For every panel and every device, in plaintext or over a Secure Channel, whatever the device's
options, over a channel that may drop any frame: in the journal of every run two runs of the command
table on one `osdp_OUT` have a restart between them, of the panel or of a device whose communication
timeout ran out. And once `Reply` has released a command, no later calls about the device, whatever
they are, send it. -/
theorem out_run_once_between_restarts (b : Bus) (addr addr' : Address) {cfg : Pd.Settings}
    {d : Pd.Device} (hnew : Pd.new addr' cfg = .ok d) :
    (∀ ops : List LineOp, ∀ k m,
      (ops.foldl (Journal.step b) (Journal.new addr d)).accepted[k]? = some m → m.code = Code.out →
      Spacing.Spaced .restart (.ran k) (ops.foldl (Journal.step b) (Journal.new addr d)).log) ∧
    ∀ (is js : List (Bus × Bus.Call)) (b' : Bus) (f : Frame),
      let t := is.foldl Bus.Track.step (Bus.Track.new addr)
      (t.device.freed (Bus.reply b' t.device f).2).isSome = true →
      ∀ p ∈ Run.trace Bus.Track.step (t.step (b', .reply f)) js, p.1.sends ≠ some t.cursor := by
  constructor
  · intro ops k m hm hcode
    have hstep : ∀ (j : Journal) (op : LineOp), j.Once b → (j.step b op).Once b :=
      fun j op h => Journal.once_step h op
    exact (Run.invariant hstep (Journal.once_new b addr hnew) ops).spaced k ⟨m, hm, hcode⟩
  · intro is js b' f t hfreed p hp
    have haligned : t.Aligned :=
      Run.invariant (I := Bus.Track.Aligned) (fun _ i h => Bus.Track.aligned_step h i)
        (Bus.Track.aligned_new addr) is
    have hkeep : ∀ (u : Bus.Track) (i : Bus × Bus.Call), u.Aligned ∧ t.cursor < u.cursor →
        (u.step i).Aligned ∧ t.cursor < (u.step i).cursor := by
      rintro u i ⟨hu, hlt⟩
      exact ⟨Bus.Track.aligned_step hu i, Nat.lt_of_lt_of_le hlt (Bus.Track.cursor_le_step hu i)⟩
    have hstart : (t.step (b', .reply f)).Aligned ∧ t.cursor < (t.step (b', .reply f)).cursor :=
      ⟨Bus.Track.aligned_step haligned _, Bus.Track.cursor_reply haligned hfreed⟩
    exact Bus.Track.sends_ne (Run.invariant_trace hkeep hstart js p hp).2

/-- An `osdp_OUT` that is answered at the second attempt. -/
theorem out_run_once_at_second_attempt :
    ∃ d, Pd.new 1 Journal.plainSettings = .ok d ∧
      Spacing.Spaced Entry.restart (Entry.ran 0)
        (Journal.retriedOps.foldl (Journal.step { scheme := .checksum }) (Journal.new 1 d)).log :=
  ⟨_, rfl, (@out_run_once_between_restarts { scheme := .checksum } 1 1 Journal.plainSettings _ rfl).1
    Journal.retriedOps 0 Journal.energise (by decide) rfl⟩

/-- A reader with one output that starts again after a silence of eight. -/
def impatientSettings : Pd.Settings := { outputs := 1, timeout := 8 }

/-- The device is enrolled, the reply to an `osdp_OUT` is lost, and the command is sent again when
the device has been left alone for longer than its timeout. -/
def lateRetryOps : List LineOp :=
  [Journal.heardExchange, Journal.heardExchange, Journal.heardExchange, .send Journal.energise,
    Journal.halfExchange, .exchange { now := 100, fate := .delivered }]

/-- The device runs the one `osdp_OUT` twice, and the panel never started the exchange again. -/
theorem late_retry_runs_twice :
    ∃ d, Pd.new 1 impatientSettings = .ok d ∧
      let j := lateRetryOps.foldl (Journal.step { scheme := .checksum }) (Journal.new 1 d)
      j.accepted = [Journal.energise] ∧ j.log = [.ran 0, .restart, .ran 0] ∧
        j.events.all (fun e => !e.isRestart) = true :=
  ⟨_, rfl, by decide⟩

end Osdp
