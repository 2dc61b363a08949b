import Osdp.Analysis.Acknowledgement

/-!
# Reports over a lossy line

Whether every card and keypad entry the device accepted is returned by the panel once, in
order. `pollReply` takes an event out of the queue before anybody knows that the reply
arrived, so a report is safe while the panel asks for it again under the same number. It
does that for a command of the application, and not for a poll of its own: a report whose
poll is answered and not heard is gone, and one that was heard is heard again when the
panel's numbers come round to it (`Journal.spoils`).
-/

set_option autoImplicit false

namespace Osdp

open Osdp.Secure (Rnd)

/-- The events that return a report. -/
def Bus.Event.isReport : Bus.Event → Bool
  | .cardRead _ | .keypad _ => true
  | _ => false

/-- The report a message carries, as the panel's dispatcher reads it. -/
def Message.event (m : Message) : Option Bus.Event :=
  if m.code = Code.raw then (parseCardRead m.data).map .cardRead
  else if m.code = Code.keypad then (parseKeypadEntry m.data).map .keypad
  else none

variable {m : Message}

/-- Other replies carry no report. -/
theorem Message.event_of_code (h : m.code ≠ Code.raw) (h' : m.code ≠ Code.keypad) :
    m.event = none := by
  simp [event, h, h']

/-- The report the frame carries. -/
def Frame.event (f : Frame) : Option Bus.Event := (Message.decode f).event

/-! ## What a report is on the line -/

/-- A card read survives its encoding. -/
theorem parseCardRead_append {c : CardRead} (h : bitOctets c.bitCount ≤ c.data.length) :
    parseCardRead (Pd.appendCardRead [] c) = some c := by
  have hbits : UInt16.ofNat (fromLittleEndian (littleEndian 2 c.bitCount.toNat)) = c.bitCount := by
    have hlt : c.bitCount.toNat < 256 ^ 2 := c.bitCount.toNat_lt
    rw [fromLittleEndian_littleEndian, Nat.mod_eq_of_lt hlt, UInt16.ofNat_toNat]
  obtain ⟨reader, format, bitCount, data⟩ := c
  have hlong : ¬ (Pd.appendCardRead [] ⟨reader, format, bitCount, data⟩).length < 4 := by
    simp [Pd.appendCardRead, littleEndian]
  have hshort : ¬ data.length < bitOctets bitCount := Nat.not_lt.mpr h
  simp only [parseCardRead, if_neg hlong]
  simp only [Pd.appendCardRead, littleEndian, List.nil_append, List.cons_append, List.getD_cons_zero,
    List.getD_cons_succ, List.take_succ_cons, List.take_zero, List.drop_succ_cons, List.drop_zero]
  simp only [littleEndian] at hbits
  rw [hbits, if_neg hshort]

/-- A keypad entry survives its encoding, as far as it is sent. -/
theorem parseKeypadEntry_append (k : KeypadEntry) :
    parseKeypadEntry (Pd.appendKeypad [] k) = some { k with keys := k.keys.take 0xFF } := by
  obtain ⟨reader, keys⟩ := k
  have hkeys : (if keys.length > 0xFF then keys.take 0xFF else keys) = keys.take 0xFF := by
    split
    · rfl
    · rw [List.take_of_length_le (by omega)]
  have hlen := List.length_take_le 0xFF keys
  have hcount : (UInt8.ofNat (keys.take 0xFF).length).toNat = (keys.take 0xFF).length := by
    rw [UInt8.toNat_ofNat']
    exact Nat.mod_eq_of_lt (by omega)
  have hlong : ¬ (reader :: UInt8.ofNat (keys.take 0xFF).length :: keys.take 0xFF).length < 2 := by
    simp
  simp only [parseKeypadEntry, Pd.appendKeypad, hkeys, List.nil_append, List.cons_append, if_neg hlong,
    List.getD_cons_zero, List.getD_cons_succ, List.drop_succ_cons, List.drop_zero, hcount,
    Nat.lt_irrefl, if_false, List.take_length]

/-! ## The device's queue -/

namespace Pd.Device

/-- The handler of the commands the table does not know answers none of them with a report. -/
def Reserved (d : Device) : Prop := ∀ code data, (d.delegate code data).event = none

/-- The reports among the events that wait for a poll. -/
def waiting (d : Device) : List Bus.Event := d.pending.filterMap Message.event

/-- A queued report waits. -/
theorem queue_waiting (d : Device) (m : Message) :
    (d.queue m).2.waiting =
      d.waiting ++ if (d.queue m).1.isOk then m.event.toList else [] := by
  unfold queue
  split
  · simp [Except.isOk, Except.toBool]
  · simp only [waiting, List.filterMap_append, Except.isOk, Except.toBool, if_true]
    cases hm : m.event <;> simp [hm]

variable {m : Message}

/-- A message that replaces one of its code, neither of them a report, changes no report. -/
theorem replaceFirst_event (hm : m.code ≠ Code.raw) (hm' : m.code ≠ Code.keypad)
    {ws ws' : List Message} (h : replaceFirst m ws = some ws') :
    ws'.filterMap Message.event = ws.filterMap Message.event := by
  induction ws generalizing ws' with
  | nil => cases h
  | cons w ws ih =>
    simp only [replaceFirst] at h
    split at h
    · rename_i hw
      cases h
      have h1 := Message.event_of_code hm hm'
      have h2 : w.event = none := Message.event_of_code (hw ▸ hm) (hw ▸ hm')
      simp [h1, h2]
    · obtain ⟨vs, hvs, rfl⟩ := Option.map_eq_some_iff.mp h
      simp [List.filterMap_cons, ih hvs]

/-- A status does not. -/
theorem coalesce_waiting (d : Device) (hm : m.code ≠ Code.raw) (hm' : m.code ≠ Code.keypad) :
    (d.coalesce m).2.waiting = d.waiting := by
  unfold coalesce
  split
  · rename_i pending hp
    exact replaceFirst_event hm hm' hp
  · rw [queue_waiting, Message.event_of_code hm hm']
    simp

/-- **A report that is accepted waits behind the others.** -/
theorem report_waiting (d : Device) (r : Report) :
    (d.report r).2.waiting =
      d.waiting ++ if (d.report r).1.isOk then r.event.toList else [] := by
  cases r with
  | cardRead c =>
    simp only [report, reportCardRead]
    split
    · simp [Except.isOk, Except.toBool]
    · rename_i hlen
      rw [queue_waiting]
      have hevent : Message.event { code := Code.raw, data := appendCardRead [] c } =
          some (.cardRead c) := by
        simp [Message.event, parseCardRead_append (Nat.le_of_not_lt hlen)]
      rw [hevent]
      rfl
  | keypad k =>
    simp only [report, reportKeypad]
    rw [queue_waiting]
    have hevent : Message.event { code := Code.keypad, data := appendKeypad [] k } =
        some (.keypad { k with keys := k.keys.take 0xFF }) := by
      simp [Message.event, parseKeypadEntry_append, Code.keypad, Code.raw]
    rw [hevent]
    rfl
  | input index active =>
    simp only [Report.event, Option.toList_none, ite_self, List.append_nil]
    simp only [report, setInput]
    split
    · rfl
    · exact coalesce_waiting _ (show Code.iStatR ≠ Code.raw by decide)
        (show Code.iStatR ≠ Code.keypad by decide)
  | tamper active =>
    simp only [Report.event, Option.toList_none, ite_self, List.append_nil]
    simp only [report, setTamper]
    exact coalesce_waiting _ (m := localStatus _) (show Code.lStatR ≠ Code.raw by decide)
      (show Code.lStatR ≠ Code.keypad by decide)
  | power failure =>
    simp only [Report.event, Option.toList_none, ite_self, List.append_nil]
    simp only [report, setPower]
    exact coalesce_waiting _ (m := localStatus _) (show Code.lStatR ≠ Code.raw by decide)
      (show Code.lStatR ≠ Code.keypad by decide)

/-- **The table answers a poll with the first event that waits, and nothing else with a
report.** -/
theorem dispatch_waiting {d : Device} (hh : d.Reserved) (code : Code) (data : Octets) :
    (d.dispatch code data false).1.event.toList ++ (d.dispatch code data false).2.waiting =
      d.waiting ∧
    (code ≠ Code.poll → (d.dispatch code data false).1.event = none) ∧
    (code = Code.poll → (d.dispatch code data false).1.event = d.pending.head?.bind Message.event) := by
  have hquiet : ∀ m : Message, code ≠ Code.poll → m.event = none →
      m.event.toList ++ d.waiting = d.waiting ∧ (code ≠ Code.poll → m.event = none) ∧
        (code = Code.poll → m.event = d.pending.head?.bind Message.event) := by
    intro m hpoll hm
    exact ⟨by simp [hm], fun _ => hm, fun h => absurd h hpoll⟩
  apply dispatch_rows d code data false (motive := fun r =>
    r.1.event.toList ++ r.2.waiting = d.waiting ∧ (code ≠ Code.poll → r.1.event = none) ∧
      (code = Code.poll → r.1.event = d.pending.head?.bind Message.event))
  case idle =>
    intro hpoll hp
    refine ⟨rfl, fun h => absurd hpoll h, fun _ => ?_⟩
    rw [hp]
    rfl
  case event =>
    intro m rest hpoll hp
    refine ⟨?_, fun h => absurd hpoll h, fun _ => by simp [hp]⟩
    simp only [waiting, hp, List.filterMap_cons]
    cases m.event <;> simp
  case identity => exact fun h => hquiet _ (h.trans_ne (by decide)) rfl
  case capabilities => exact fun h => hquiet _ (h.trans_ne (by decide)) rfl
  case answered =>
    intro m hpoll hm
    have hall : ∀ c ∈ routine, c ≠ Code.raw ∧ c ≠ Code.keypad := by decide +kernel
    obtain ⟨hraw, hkey⟩ := hall m.code hm.code
    exact hquiet m hpoll (by rw [Message.event, if_neg hraw, if_neg hkey])
  case outputs => exact fun _ h => hquiet _ (h.trans_ne (by decide)) rfl
  case address => exact fun _ h _ _ => hquiet _ (h.trans_ne (by decide)) rfl
  case key => exact fun _ h _ _ _ => hquiet _ (h.trans_ne (by decide)) rfl
  case delegated => exact fun hpoll => hquiet _ hpoll (hh code data)

end Pd.Device

/-! ## The panel's dispatcher -/

/-- What a reply carries is a report. -/
theorem Message.event_isReport {e : Bus.Event} (h : m.event = some e) : e.isReport = true := by
  unfold event at h
  split at h
  · obtain ⟨c, -, rfl⟩ := Option.map_eq_some_iff.mp h
    rfl
  · split at h
    · obtain ⟨k, -, rfl⟩ := Option.map_eq_some_iff.mp h
      rfl
    · cases h

namespace Bus

variable {m : Message} {e : Event}

/-- A report is returned, and nothing else happens to the record. -/
theorem dispatch_report (b : Bus) (d : Device) (h : m.event = some e) :
    dispatch b d m = (.ok e, d) := by
  unfold Message.event at h
  split at h
  · rename_i hcode
    obtain ⟨c, hc, rfl⟩ := Option.map_eq_some_iff.mp h
    simp [dispatch, hcode, hc, Code.raw, Code.pdID, Code.pdCap, Code.iStatR, Code.oStatR, Code.lStatR,
      Code.rStatR, Code.cCrypt, Code.rMacI]
  · split at h
    · rename_i hcode
      obtain ⟨k, hk, rfl⟩ := Option.map_eq_some_iff.mp h
      simp [dispatch, hcode, hk, Code.raw, Code.pdID, Code.pdCap, Code.iStatR, Code.oStatR,
        Code.lStatR, Code.rStatR, Code.cCrypt, Code.rMacI, Code.keypad]
    · cases h

/-- A reply that carries no report returns none. -/
theorem dispatch_silent (b : Bus) (d : Device) (h : m.event = none)
    (he : (dispatch b d m).1 = .ok e) : e.isReport = false := by
  have hok : ∀ {f : Event}, f.isReport = false →
      ∀ e, (Except.ok f : Except Error Event) = .ok e → e.isReport = false := by
    rintro f hf e ⟨⟩
    exact hf
  revert e
  apply dispatch_rows b d m (motive := fun r => ∀ {e}, r.1 = .ok e → e.isReport = false)
  case malformed => exact fun _ _ => nofun
  case identified => exact fun _ _ _ => hok rfl _
  case capabilities =>
    rintro report e - - (rfl | ⟨rfl, -⟩)
    · exact hok rfl _
    · exact hok rfl _
  case status =>
    rintro ss e - (rfl | ⟨changed, -, rfl⟩)
    · exact hok rfl _
    · exact hok rfl _
  case cryptogram =>
    intro _
    obtain he | ⟨s, s', out, -, -, he⟩ := onCryptogram_cases d m.data <;> rw [he] <;> exact hok rfl _
  case initialRMAC =>
    intro _
    obtain he | ⟨s, s', u, -, -, he⟩ := onInitialRMAC_cases d m.data <;> rw [he] <;> exact hok rfl _
  case card =>
    intro card hraw hcard
    rw [Message.event, if_pos hraw, Option.map_eq_none_iff, hcard] at h
    cases h
  case keypad =>
    intro entry hkey hentry
    have hraw : m.code ≠ Code.raw := by
      rw [hkey]
      decide
    rw [Message.event, if_neg hraw, if_pos hkey, Option.map_eq_none_iff, hentry] at h
    cases h
  case refused => exact fun _ _ => hok rfl _
  case manufacturer => exact fun _ _ _ => hok rfl _
  case moved => exact fun _ _ _ => hok rfl _
  case busy => exact fun _ => hok rfl _
  case installed => exact fun _ _ _ _ => hok rfl _
  case answer =>
    intro _
    obtain ⟨-, he⟩ | ⟨-, he⟩ := onAnswer_cases d <;> rw [he] <;> exact hok rfl _

/-- A timeout reports nothing. -/
theorem timeout_silent (d : Device) : (timeout d).1.isReport = false := by
  obtain ⟨-, ht⟩ | ⟨-, -, ht⟩ := timeout_cases d <;> rw [ht] <;> rfl

end Bus

/-! ## One exchange -/

namespace Line

/-- A silence returns no report. -/
theorem silence_event (l : Line) : l.silence.1.toList.filter Bus.Event.isReport = [] := by
  simp [silence, Bus.timeout_silent]

variable {r : Frame}

/-- A reply from the device is returned as the report it carries, and then leaves the state of the
record alone. -/
theorem await_event (b : Bus) {l : Line} (hse : l.panel.session = none) (x : Exchange)
    (hr : r.isReply = true) (ha : r.address = l.panel.address) (hz : r.control.sequence ≠ 0) :
    (l.await b x (some r)).1.toList.filter Bus.Event.isReport = r.event.toList ∧
      (r.event ≠ none → (l.await b x (some r)).2.panel.state = l.panel.state) := by
  have hopen : Bus.openIfEstablished { l.panel with misses := 0 } r =
      .ok (r, { l.panel with misses := 0 }) := by
    simp [Bus.openIfEstablished, hse]
  have hreply : Bus.reply b l.panel r =
      Bus.dispatch b { l.panel with misses := 0 }.delivered (Message.decode r) := by
    simp only [Bus.reply, hr, ha, hz, hopen, not_true_eq_false, ne_eq, if_false]
  cases hevent : r.event with
  | some e =>
    rw [Bus.dispatch_report b _ hevent] at hreply
    simp [await, hreply, Message.event_isReport hevent]
  | none =>
    refine ⟨?_, by simp⟩
    cases hres : Bus.reply b l.panel r with
    | mk res p =>
      cases res with
      | ok e =>
        have hsilent := Bus.dispatch_silent b { l.panel with misses := 0 }.delivered hevent
          (by rw [← hreply, hres])
        simp [await, hres, hsilent]
      | error err =>
        simp only [await, hres]
        split
        · exact silence_event _
        · rfl

/-- A reply from another address returns nothing. -/
theorem await_strange_event (b : Bus) (l : Line) (x : Exchange) (ha : r.address ≠ l.panel.address) :
    (l.await b x (some r)).1.toList.filter Bus.Event.isReport = [] := by
  have hreply : ∃ e, Bus.reply b l.panel r = (.error e, l.panel) := by
    by_cases hr : r.isReply = true
    · exact ⟨.wrongAddress, by simp [Bus.reply, hr, ha]⟩
    · exact ⟨.notAReply, by simp [Bus.reply, hr]⟩
  obtain ⟨e, he⟩ := hreply
  simp only [await, he]
  split
  · exact silence_event _
  · rfl

end Line

/-- **The device's turn, for its reports.** An answer takes the report it carries from those that
wait, and only a poll has one. -/
theorem Turn.waiting {d e : Pd.Device} {x : Exchange} {f : Frame} {r : Option Frame} {ran : Bool}
    (h : Turn d x f e r ran) (hd : d.Plain) (hh : d.Reserved) (hz : f.control.sequence ≠ 0) :
    (if ran then e.cached.event.toList else []) ++ e.waiting = d.waiting ∧
      (ran = true → f.code ≠ Code.poll → e.cached.event = none) ∧
      (ran = true → f.code = Code.poll → e.cached.event = d.pending.head?.bind Message.event) := by
  cases h with
  | quiet => exact ⟨rfl, by simp, by simp⟩
  | again => exact ⟨rfl, by simp, by simp⟩
  | fresh a hf hheard hs hr =>
    have hfresh := Pd.Device.answered_fresh hd x.now (r := a) hz
    have hevent : a.event = ((d.noticed x.now).dispatch f.code f.data false).1.event := by
      simp only [Frame.event, Message.event, Message.decode, hr.code, hr.plain rfl]
    obtain ⟨hwait, hother, hpoll⟩ := Pd.Device.dispatch_waiting (d := d.noticed x.now) hh f.code f.data
    rw [hfresh.cached, hevent]
    refine ⟨?_, fun _ => hother, fun _ => hpoll⟩
    have hpending : (d.answered x.now f a).waiting =
        ((d.noticed x.now).dispatch f.code f.data false).2.waiting := by
      simp only [Pd.Device.waiting, hfresh.pending]
    rw [if_pos rfl, hpending]
    exact hwait

namespace Journal

/-! ## What every run accounts for -/

/-- The reports the panel returned. -/
def returned (j : Journal) : List Bus.Event := j.events.filter Bus.Event.isReport

/-- The report in the cached reply, while the panel's next command asks for that reply again. -/
def inTransit (j : Journal) : List Bus.Event :=
  if j.line.panel.repeatSequence && j.line.device.cachedValid &&
      j.line.device.cachedSeq == j.line.panel.seq then j.line.device.cached.event.toList
  else []

/-- The property of a state: the reports that were accepted are those returned, that in transit and
those that wait, in this order. -/
def Exact (j : Journal) : Prop := j.returned ++ j.inTransit ++ j.line.device.waiting = j.reports

/-- A poll takes a report from the queue and its reply is lost. -/
def dropsReport (j : Journal) (x : Exchange) : Bool :=
  x.fate == .replyLost && j.line.panel.takes.isNone && j.line.panel.state == .online &&
    j.line.device.addressed j.line.panel.address &&
    (j.line.device.pending.head?.bind Message.event).isSome

/-- A question that is asked for the first time bears the number of a cached report, and both
frames get through. -/
def repeatsReport (j : Journal) (x : Exchange) : Bool :=
  x.fate == .delivered && !j.line.panel.repeatSequence && !j.line.panel.question.isReply &&
    j.line.device.addressed j.line.panel.address && j.line.device.cachedValid &&
    Bus.Device.rotate j.line.panel.seq == j.line.device.cachedSeq &&
    j.line.device.cached.event.isSome

/-- A step after which the reports do not add up. -/
def spoils (j : Journal) : LineOp → Bool
  | .exchange x => j.dropsReport x || j.repeatsReport x
  | _ => false

/-- What holds between the exchanges of a run in which no step spoiled the account. -/
structure Accounted (j : Journal) : Prop where
  truthful : j.Truthful
  reserved : j.line.device.Reserved
  exact : j.Exact
  /-- No report is cached before the device is online. -/
  idle : j.line.panel.state ≠ .online → j.line.device.cachedValid = true →
    j.line.device.cached.event = none

/-- A panel that polls is online. -/
theorem question_poll {p : Bus.Device} (hp : p.Plain) (h : p.question.code = Code.poll) :
    p.state = .online := by
  rcases hp.state with hs | hs | hs
  · have htakes : p.takes = none := by simp [Bus.Device.takes, hs]
    simp [Bus.Device.question, htakes, hs, Code.id, Code.poll] at h
  · have htakes : p.takes = none := by simp [Bus.Device.takes, hs]
    simp [Bus.Device.question, htakes, hs, Code.cap, Code.poll] at h
  · exact hs

variable {a : Frame} {d : Pd.Device} {j : Journal}

section Exchange

variable {b : Bus} {j : Journal} {x : Exchange} {d : Pd.Device} {r : Option Frame} {ran : Bool}

/-- Every reply that reaches the panel is the one the device has cached, at a number. -/
theorem Exchanged.reply (hx : Exchanged b j x d r ran) (hp : j.line.Plain) (hr : r = some a) :
    d.cached = a ∧ d.cachedValid = true ∧ a.isReply = true ∧
      a.control.sequence ≠ 0 := by
  subst hr
  have hreached := (hx.reached hp).resolve_left (by simp)
  have hcached := hx.plain.cached
  rw [hx.device] at hcached
  have hc := hcached hreached.valid
  have hcache := hreached.cached a rfl
  refine ⟨hcache, hreached.valid, hcache ▸ hc.isReply, ?_⟩
  rw [← hcache, hc.sequence]
  exact hc.number.ne_zero

/-- The poll that runs takes one report off the queue. -/
theorem Exchanged.waiting (hx : Exchanged b j x d r ran) (h : j.Accounted) :
    (if ran then d.cached.event.toList else []) ++ d.waiting = j.line.device.waiting ∧
      (ran = true → j.line.panel.question.code ≠ Code.poll → d.cached.event = none) ∧
      (ran = true → j.line.panel.question.code = Code.poll →
        d.cached.event = j.line.device.pending.head?.bind Message.event) := by
  refine hx.turn.waiting h.truthful.plain.device h.reserved ?_
  rw [Exchanged.sequence h.truthful.plain]
  exact h.truthful.plain.number.ne_zero

/-- The cache after an exchange whose frame the table was not run on. -/
theorem Exchanged.kept (hx : Exchanged b j x d r false) :
    d.cached = j.line.device.cached ∧ d.cachedValid = j.line.device.cachedValid ∧
      d.cachedSeq = j.line.device.cachedSeq := by
  generalize hran : false = ran at hx
  cases hx.turn with
  | quiet => exact ⟨rfl, rfl, rfl⟩
  | again => exact ⟨rfl, rfl, rfl⟩
  | fresh => cases hran

/-- A report is in the cache only after an exchange of a device that is online. -/
theorem Exchanged.online (hx : Exchanged b j x d r ran) (h : j.Accounted)
    (hv : d.cachedValid = true) (he : d.cached.event ≠ none) : j.line.panel.state = .online := by
  cases ran with
  | true =>
    refine question_poll h.truthful.plain.panel ?_
    by_contra hcode
    exact he ((hx.waiting h).2.1 rfl hcode)
  | false =>
    obtain ⟨hcached, hvalid, -⟩ := hx.kept
    by_contra hst
    exact he (hcached ▸ h.idle hst (hvalid ▸ hv))

/-- The reply's report is returned. -/
theorem Exchanged.returned (hx : Exchanged b j x d r ran) (h : j.Accounted) :
    (j.step b (.exchange x)).returned = j.returned ++ (r.bind Frame.event).toList ∧
      (∀ a, r = some a → a.event ≠ none →
        (j.step b (.exchange x)).line.panel.state = j.line.panel.state) := by
  rw [hx.step]
  simp only [Journal.returned, noted, List.filter_append]
  cases r with
  | none => exact ⟨congrArg _ (Line.silence_event _), by simp⟩
  | some a =>
    obtain ⟨hcached, hv, hr, hz⟩ := hx.reply h.truthful.plain rfl
    by_cases ha : a.address = j.line.panel.address
    · obtain ⟨hevent, hstate⟩ := Line.await_event b (l := ⟨j.line.panel.sent, d, true⟩)
        h.truthful.plain.panel.session x hr ha hz
      refine ⟨congrArg _ hevent, ?_⟩
      rintro a' ha' hne
      cases ha'
      exact hstate hne
    · have hnone : a.event = none := by
        by_contra hne
        have hon := hx.online h hv (hcached ▸ hne)
        cases hx.outcome with
        | unanswered hr' => cases hr'
        | answered a' hr' ha' =>
          cases hr'
          exact ha ha'
        | strange a' hr' ha' hp =>
          rw [hon] at hp
          cases hp
      refine ⟨?_, ?_⟩
      · rw [Line.await_strange_event b ⟨j.line.panel.sent, d, true⟩ x ha]
        simp [hnone]
      · rintro a' ha' hne
        cases ha'
        exact absurd hnone hne

/-- A panel that hears the device stops repeating itself. -/
theorem Exchanged.inTransit_heard (hx : Exchanged b j x d r ran) (hr : r = some a) :
    (j.step b (.exchange x)).inTransit = [] := by
  have hrep : (j.step b (.exchange x)).line.panel.repeatSequence = false := by
    cases hx.outcome with
    | unanswered hr' =>
      rw [hr] at hr'
      cases hr'
    | answered a' hr' ha hans => exact hans.repeatSequence
    | strange a' hr' ha hp he hplain hout hrep => exact hrep
  simp [inTransit, hrep]

/-- A silence that does not end the exchange: the panel asks again under the number it sent, if it
sent a command of the application. -/
theorem Exchanged.silence (hx : Exchanged b j x d none ran)
    (hA : Bus.Event.offline ∉ (j.step b (.exchange x)).events)
    (hst : j.line.panel.state ≠ .offline) :
    (j.step b (.exchange x)).line.panel.state = j.line.panel.state ∧
      (j.step b (.exchange x)).line.panel.seq = j.line.panel.number ∧
      j.line.panel.misses + 1 < Bus.offlineThreshold ∧
      (j.step b (.exchange x)).line.panel.repeatSequence = j.line.panel.takes.isSome := by
  rw [hx.step] at hA ⊢
  obtain ⟨hlt, ht⟩ | ⟨-, -, ht⟩ := Bus.timeout_cases j.line.panel.sent
  · simp only [noted, Line.await, Line.silence, ht, Bus.Device.retransmit_eq]
    refine ⟨rfl, rfl, hlt.resolve_right hst, ?_⟩
    simp [Bus.Device.sent]
  · simp [noted, Line.await, Line.silence, ht] at hA

/-- What was in transit was asked for again, so an answer that is new means that nothing was. -/
theorem inTransit_fresh (hp : j.line.Plain)
    (hs : ¬ (j.line.device.cachedValid = true ∧
      (Bus.plainFrame b j.line.panel j.line.panel.question).control.sequence = j.line.device.cachedSeq)) :
    j.inTransit = [] := by
  rw [Exchanged.sequence hp] at hs
  unfold inTransit
  split
  · rename_i hcond
    simp only [Bool.and_eq_true, beq_iff_eq] at hcond
    obtain ⟨⟨hrep, hv⟩, hseq⟩ := hcond
    exact absurd ⟨hv, by rw [hseq]; simp [Bus.Device.number, hrep]⟩ hs
  · rfl

/-- The account of one exchange: what was in transit and waiting was heard, is in transit or
waits. -/
theorem Exchanged.exact_iff (hx : Exchanged b j x d r ran) (h : j.Accounted) :
    (j.step b (.exchange x)).Exact ↔
      (r.bind Frame.event).toList ++ (j.step b (.exchange x)).inTransit =
        j.inTransit ++ if ran then d.cached.event.toList else [] := by
  have hreports : (j.step b (.exchange x)).reports = j.reports := by
    rw [hx.step]
    rfl
  rw [Exact, (hx.returned h).1, hx.device, hreports, ← h.exact, ← (hx.waiting h).1]
  rw [← List.append_assoc, List.append_left_inj, List.append_assoc, List.append_assoc,
    List.append_right_inj]

/-- The device made a new answer and the panel heard it. -/
theorem fresh_heard (h : j.Accounted) (hx : Exchanged b j x d (some a) true) :
    (j.step b (.exchange x)).Exact ∧ j.spoils (.exchange x) = false := by
  rw [hx.exact_iff h, hx.inTransit_heard rfl, (hx.reply h.truthful.plain rfl).1]
  generalize hran : true = ran at hx
  generalize hr : some a = r at hx
  cases hx.turn with
  | quiet => cases hran
  | again => cases hran
  | fresh a' hf hh hs hrep =>
    have hfate : x.fate = .delivered := by
      by_contra hfate
      rw [if_neg hfate] at hr
      cases hr
    rw [inTransit_fresh h.truthful.plain hs]
    refine ⟨by rw [← hr]; simp, ?_⟩
    rw [Exchanged.sequence h.truthful.plain] at hs
    rw [← Bool.not_eq_true]
    intro hspoils
    simp only [spoils, dropsReport, repeatsReport, hfate, Bool.or_eq_true, Bool.and_eq_true,
      beq_iff_eq, Bool.not_eq_true', reduceCtorEq, false_and, false_or, true_and] at hspoils
    obtain ⟨⟨⟨⟨⟨hno, -⟩, -⟩, hv⟩, hseq⟩, -⟩ := hspoils
    exact hs ⟨hv, by simp [Bus.Device.number, hno, hseq]⟩

/-- The device made a new answer and it was lost: it is in transit, unless it answers a poll of the
panel's own. -/
theorem fresh_lost (h : j.Accounted) (hx : Exchanged b j x d none true)
    (hA : Bus.Event.offline ∉ (j.step b (.exchange x)).events) :
    (j.step b (.exchange x)).Exact ↔ j.spoils (.exchange x) = false := by
  have hwait := hx.waiting h
  rw [hx.exact_iff h]
  obtain ⟨hfate, hheard, hs⟩ : x.fate = .replyLost ∧
      j.line.device.heard (Bus.plainFrame b j.line.panel j.line.panel.question) = true ∧
      ¬ (j.line.device.cachedValid = true ∧
        (Bus.plainFrame b j.line.panel j.line.panel.question).control.sequence =
          j.line.device.cachedSeq) := by
    generalize hran : true = ran at hx
    generalize hr : none = r at hx
    cases hx.turn with
    | quiet => cases hran
    | again => cases hran
    | fresh a hf hh hs hrep =>
      refine ⟨?_, hh, hs⟩
      cases hfate : x.fate with
      | commandLost => exact absurd hfate hf
      | replyLost => rfl
      | delivered =>
        rw [if_pos hfate] at hr
        cases hr
  have hreached := (hx.reached h.truthful.plain).resolve_left (by simp)
  rw [inTransit_fresh h.truthful.plain hs]
  rw [heard_plainFrame, Bool.and_eq_true] at hheard
  simp only [Option.bind_none, Option.toList_none, List.nil_append, if_true]
  cases he : d.cached.event with
  | none =>
    have htransit : (j.step b (.exchange x)).inTransit = [] := by
      unfold inTransit
      rw [hx.device, he]
      simp
    simp only [htransit, Option.toList_none, true_iff]
    rw [← Bool.not_eq_true]
    intro hspoils
    simp only [spoils, dropsReport, repeatsReport, hfate, Bool.or_eq_true, Bool.and_eq_true,
      beq_iff_eq, reduceCtorEq, false_and, or_false, true_and, Option.isNone_iff_eq_none] at hspoils
    obtain ⟨⟨⟨htakes, hst⟩, -⟩, hhead⟩ := hspoils
    have hpoll : j.line.panel.question.code = Code.poll := by
      simp [Bus.Device.question, htakes, hst, Bus.Device.pollMessage]
    rw [← hwait.2.2 rfl hpoll, he] at hhead
    cases hhead
  | some e =>
    have hpoll : j.line.panel.question.code = Code.poll := by
      by_contra hcode
      rw [hwait.2.1 rfl hcode] at he
      cases he
    have hst := question_poll h.truthful.plain.panel hpoll
    have hhead := hwait.2.2 rfl hpoll
    rw [he] at hhead
    obtain ⟨-, hseq, -, hrep⟩ := hx.silence hA (by rw [hst]; decide)
    have hdseq : d.cachedSeq = j.line.panel.number := by
      rw [hreached.seq, Exchanged.sequence h.truthful.plain]
    unfold inTransit
    rw [hx.device, hrep, hseq, hdseq, hreached.valid, he]
    cases htakes : j.line.panel.takes with
    | none => simp [spoils, dropsReport, hfate, htakes, hst, hheard.2, ← hhead]
    | some m => simp [spoils, dropsReport, repeatsReport, hfate, htakes]

/-- The device said again what it said last, and the panel heard it: what was in transit, unless
the panel had not asked again. -/
theorem again_heard (h : j.Accounted) (hx : Exchanged b j x d (some a) false) :
    (j.step b (.exchange x)).Exact ↔ j.spoils (.exchange x) = false := by
  have hcached := (hx.reply h.truthful.plain rfl).1
  rw [hx.exact_iff h, hx.inTransit_heard rfl]
  obtain ⟨hfate, hheard, hv, hs⟩ : x.fate = .delivered ∧
      j.line.device.heard (Bus.plainFrame b j.line.panel j.line.panel.question) = true ∧
      j.line.device.cachedValid = true ∧ j.line.panel.number = j.line.device.cachedSeq := by
    generalize hran : false = ran at hx
    generalize hr : some a = r at hx
    cases hx.turn with
    | quiet => cases hr
    | fresh => cases hran
    | again hf hh hv hs =>
      refine ⟨?_, hh, hv, (Exchanged.sequence h.truthful.plain).symm.trans hs⟩
      by_contra hfate
      rw [if_neg hfate] at hr
      cases hr
  rw [heard_plainFrame, Bool.and_eq_true, Bool.not_eq_true'] at hheard
  have hevent : a.event = j.line.device.cached.event := by rw [← hcached, hx.kept.1]
  cases hrep : j.line.panel.repeatSequence with
  | true =>
    have hseq : j.line.device.cachedSeq = j.line.panel.seq := by
      rw [← hs]
      simp [Bus.Device.number, hrep]
    simp [inTransit, hrep, hv, hseq, hevent, spoils, dropsReport, repeatsReport, hfate]
  | false =>
    have hseq : Bus.Device.rotate j.line.panel.seq = j.line.device.cachedSeq := by
      rw [← hs]
      simp [Bus.Device.number, hrep]
    cases he : j.line.device.cached.event <;>
      simp [inTransit, hrep, hv, hseq, hevent, he, spoils, dropsReport, repeatsReport, hfate, hheard.1,
        hheard.2]

/-- The table was not run and the panel heard nothing: what was in transit still is. -/
theorem quiet_lost (h : j.Accounted) (hx : Exchanged b j x d none false)
    (hA : Bus.Event.offline ∉ (j.step b (.exchange x)).events) :
    (j.step b (.exchange x)).Exact ∧ j.spoils (.exchange x) = false := by
  obtain ⟨hcached, hvalid, hcseq⟩ := hx.kept
  rw [hx.exact_iff h]
  have hfirst : j.line.panel.state ≠ .offline → j.line.panel.repeatSequence = false →
      j.line.panel.number ≠ j.line.device.cachedSeq := fun hst hrep =>
    number_ne_cachedSeq (h.truthful.plain.inStep hst) (h.truthful.plain.cachedAt hst).number hrep
      (hx.silence hA hst).2.2.1
  constructor
  · have htransit : (j.step b (.exchange x)).inTransit = j.inTransit := by
      by_cases hst : j.line.panel.state = .offline
      · -- nothing is cached that could be in transit
        have hnone := h.idle (by rw [hst]; decide)
        unfold inTransit
        rw [hx.device, hcached, hvalid]
        cases hv : j.line.device.cachedValid with
        | false => simp
        | true => simp [hnone hv]
      · obtain ⟨-, hseq, -, hrep⟩ := hx.silence hA hst
        unfold inTransit
        rw [hx.device, hcached, hvalid, hcseq, hrep, hseq]
        cases hagain : j.line.panel.repeatSequence with
        | true => simp [(h.truthful.repeating hagain).1, Bus.Device.number, hagain]
        | false =>
          have hne := (hfirst hst hagain).symm
          simp [hne]
    simp [htransit]
  · rw [← Bool.not_eq_true]
    intro hspoils
    simp only [spoils, dropsReport, repeatsReport, Bool.or_eq_true, Bool.and_eq_true, beq_iff_eq,
      Bool.not_eq_true', Option.isNone_iff_eq_none] at hspoils
    generalize hran : false = ran at hx
    generalize hr : none = r at hx
    rcases hspoils with ⟨⟨⟨⟨hfate, htakes⟩, hst⟩, haddr⟩, -⟩ | ⟨⟨⟨⟨⟨⟨hfate, -⟩, hq⟩, haddr⟩, -⟩, -⟩, -⟩
    · have hheard : j.line.device.heard (Bus.plainFrame b j.line.panel j.line.panel.question) = true := by
        simp [heard_plainFrame, haddr, Bus.Device.question, htakes, hst, Bus.Device.pollMessage]
      have hagain : j.line.panel.repeatSequence = false := by
        by_contra hagain
        have := (h.truthful.repeating (by simpa using hagain)).1
        rw [htakes] at this
        cases this
      cases hx.turn with
      | quiet hq => simp [hfate, hheard] at hq
      | again hf hh hv hs =>
        rw [Exchanged.sequence h.truthful.plain] at hs
        exact hfirst (by rw [hst]; decide) hagain hs
      | fresh => cases hran
    · have hheard : j.line.device.heard (Bus.plainFrame b j.line.panel j.line.panel.question) = true := by
        simp [heard_plainFrame, haddr, hq]
      cases hx.turn with
      | quiet hq => simp [hfate, hheard] at hq
      | again hf hh hv hs =>
        rw [if_pos hfate] at hr
        cases hr
      | fresh => cases hran

/-- **One exchange.** The account is kept exactly when the exchange does not spoil it. -/
theorem exact_exchange_iff (h : j.Accounted) (hx : Exchanged b j x d r ran)
    (hA : Bus.Event.offline ∉ (j.step b (.exchange x)).events) :
    (j.step b (.exchange x)).Exact ↔ j.spoils (.exchange x) = false := by
  cases r with
  | none =>
    cases ran with
    | false => exact iff_of_true (quiet_lost h hx hA).1 (quiet_lost h hx hA).2
    | true => exact fresh_lost h hx hA
  | some a =>
    cases ran with
    | false => exact again_heard h hx
    | true => exact iff_of_true (fresh_heard h hx).1 (fresh_heard h hx).2

/-- No report gets into the cache of a device that is not online. -/
theorem idle_exchange (h : j.Accounted) (hx : Exchanged b j x d r ran)
    (hA : Bus.Event.offline ∉ (j.step b (.exchange x)).events)
    (hst : (j.step b (.exchange x)).line.panel.state ≠ .online) (hv : d.cachedValid = true) :
    d.cached.event = none := by
  by_contra hne
  have hon := hx.online h hv hne
  refine hst (Eq.trans ?_ hon)
  cases r with
  | none => exact (hx.silence hA (by rw [hon]; decide)).1
  | some a => exact (hx.returned h).2 a rfl ((hx.reply h.truthful.plain rfl).1 ▸ hne)

end Exchange

/-! ## Whole runs -/

/-- What a reader reserves is a matter of its configuration. -/
theorem reserved_of_cfg {e : Pd.Device} (h : d.Reserved) (hcfg : e.cfg = d.cfg) : e.Reserved := by
  intro code data
  have hd := h code data
  simpa [Pd.Device.delegate, hcfg] using hd

/-- A report waits behind the others. -/
theorem accounted_report (b : Bus) (hb : b.secure = none) (h : j.Accounted) (r : Pd.Report) :
    (j.step b (.report r)).Accounted := by
  obtain ⟨i, t, w, p, hd⟩ := Pd.Device.report_device j.line.device r
  have hdevice : (j.step b (.report r)).line.device = (j.line.device.report r).2 := rfl
  refine ⟨truthful_step b hb h.truthful _, ?_, ?_, ?_⟩
  · refine reserved_of_cfg h.reserved ?_
    rw [hdevice, hd]
  · have htransit : (j.step b (.report r)).inTransit = j.inTransit := by
      unfold inTransit
      rw [hdevice, hd]
      rfl
    have hreports : (j.step b (.report r)).reports =
        j.reports ++ if (j.line.device.report r).1.isOk then r.event.toList else [] := rfl
    have hreturned : (j.step b (.report r)).returned = j.returned := rfl
    rw [Exact, hreturned, htransit, hreports, hdevice, Pd.Device.report_waiting, ← List.append_assoc,
      h.exact]
  · rw [hdevice, hd]
    exact h.idle

/-- **An exchange** is exact unless it is spoilt. -/
theorem accounted_exchange (b : Bus) (hb : b.secure = none) (h : j.Accounted) (x : Exchange)
    (hA : Bus.Event.offline ∉ (j.step b (.exchange x)).events) :
    ((j.step b (.exchange x)).Exact ↔ j.spoils (.exchange x) = false) ∧
      ((j.step b (.exchange x)).Exact → (j.step b (.exchange x)).Accounted) := by
  have htruthful := truthful_step b hb h.truthful (.exchange x)
  obtain ⟨hoff, -, hstep, -⟩ | ⟨d, r, ran, hx⟩ := exchange_plain b hb h.truthful.plain x
  · -- nothing can be sent to the panel's address, and nothing is cached that could be repeated
    have hidle := h.idle (by rw [hoff]; decide)
    have hexact : (j.step b (.exchange x)).Exact := by
      have hrep := h.truthful.plain.resting hoff
      have hall := h.exact
      rw [hstep]
      simpa [Exact, inTransit, hrep, Bus.Device.sent, returned] using hall
    refine ⟨iff_of_true hexact ?_, fun _ => ⟨htruthful, ?_, hexact, ?_⟩⟩
    · rw [← Bool.not_eq_true]
      intro hspoils
      simp only [spoils, dropsReport, repeatsReport, hoff, Bool.or_eq_true, Bool.and_eq_true,
        beq_iff_eq, reduceCtorEq, and_false, false_and, false_or] at hspoils
      rw [hidle hspoils.1.1.2] at hspoils
      simp at hspoils
    · rw [hstep]
      exact h.reserved
    · rw [hstep]
      exact h.idle
  · refine ⟨exact_exchange_iff h hx hA, fun hexact => ⟨htruthful, ?_, hexact, fun hst hv => ?_⟩⟩
    · rw [hx.device]
      refine reserved_of_cfg h.reserved (hx.turn.device h.truthful.plain.device
        h.truthful.plain.cached ?_).2.1
      rw [Exchanged.sequence h.truthful.plain]
      exact h.truthful.plain.number
    · rw [hx.device] at hv ⊢
      exact idle_exchange h hx hA hst hv

/-- **One step.** While the panel does not give the device up, the account is kept exactly by the
steps that do not spoil it. -/
theorem accounted_step (b : Bus) (hb : b.secure = none) (h : j.Accounted) (op : LineOp)
    (hA : Bus.Event.offline ∉ (j.step b op).events) :
    ((j.step b op).Exact ↔ j.spoils op = false) ∧ ((j.step b op).Exact → (j.step b op).Accounted) := by
  cases op with
  | send m =>
    have hkept : (j.step b (.send m)).Accounted := by
      refine ⟨truthful_step b hb h.truthful _, ?_, ?_, ?_⟩ <;>
        rcases j.step_send b m with hstep | hstep <;> rw [hstep]
      · exact h.reserved
      · exact h.reserved
      · exact h.exact
      · exact h.exact
      · exact h.idle
      · exact h.idle
    exact ⟨iff_of_true hkept.exact rfl, fun _ => hkept⟩
  | installKey key =>
    rw [step_installKey_plain b h.truthful.plain key]
    exact ⟨iff_of_true h.exact rfl, fun _ => h⟩
  | report r =>
    have hkept := accounted_report b hb h r
    exact ⟨iff_of_true hkept.exact rfl, fun _ => hkept⟩
  | exchange x => exact accounted_exchange b hb h x hA

/-- A new line is accounted for. -/
theorem accounted_new (addr : Address) {addr' : Address} {cfg : Pd.Settings}
    (h : Pd.new addr' cfg = .ok d) (hstrict : cfg.strict = false) (ht : cfg.timeout = 0)
    (hsuite : cfg.suite = none) (hr : d.Reserved) : (new addr d).Accounted := by
  have hpending : d.pending = [] ∧ d.cachedValid = false := by
    refine ⟨?_, (Pd.Device.plain_new h hstrict ht hsuite).2⟩
    unfold Pd.new at h
    split at h
    · cases h
    · split at h
      · cases h
      · cases h
        unfold Pd.Device.refreshCapabilities
        split <;> rfl
  refine ⟨truthful_new addr h hstrict ht hsuite, hr, ?_, fun _ hv => ?_⟩
  · simp [Exact, returned, inTransit, new, hpending, Pd.Device.waiting]
  · simp [new, hpending] at hv

/-- What the panel returned stays returned. -/
theorem events_foldl (b : Bus) (j : Journal) (ops : List LineOp) :
    j.events ⊆ (ops.foldl (step b) j).events := by
  have hstep : ∀ (j' : Journal) (op : LineOp), j.events ⊆ j'.events →
      j.events ⊆ (j'.step b op).events := by
    intro j' op h
    cases op with
    | send m => exact h
    | installKey key => exact h
    | report r => exact h
    | exchange x => exact fun e he => List.mem_append_left _ (h he)
  exact Run.invariant hstep (List.Subset.refl _) ops

/-- **Every report once and in order, exactly when no step spoils the account.** A panel and a
device in plaintext, the device lenient about numbers and without a communication timeout, over a
channel that may drop any frame, while the panel does not give the device up: in every state of a
run the reports the device accepted are those the panel returned, the one in a reply the panel will
ask for again and those that wait, in this order, if and only if in the run no poll of the panel's
own takes a report whose reply is lost, and no question that gets through for the first time bears
the number of a cached report. -/
theorem reports_exact_iff (b : Bus) (hb : b.secure = none) (addr addr' : Address)
    {cfg : Pd.Settings} {d : Pd.Device} (hnew : Pd.new addr' cfg = .ok d)
    (hstrict : cfg.strict = false) (ht : cfg.timeout = 0) (hsuite : cfg.suite = none)
    (hr : d.Reserved) (ops : List LineOp)
    (hA : Bus.Event.offline ∉ (ops.foldl (step b) (new addr d)).events) :
    (∀ seen, seen <+: ops → (seen.foldl (step b) (new addr d)).Exact) ↔
      ∀ p ∈ Run.trace (step b) (new addr d) ops, p.1.spoils p.2 = false := by
  have hgood : ∀ (j : Journal) (op : LineOp), j.Accounted →
      Bus.Event.offline ∉ (j.step b op).events → j.spoils op = false →
      (j.step b op).Exact ∧ (j.step b op).Accounted := by
    intro j op h hA hs
    obtain ⟨hiff, hnext⟩ := accounted_step b hb h op hA
    exact ⟨hiff.mpr hs, hnext (hiff.mpr hs)⟩
  have hbad : ∀ (j : Journal) (op : LineOp), j.Accounted →
      Bus.Event.offline ∉ (j.step b op).events → ¬ j.spoils op = false → ¬ (j.step b op).Exact :=
    fun j op h hA hs hexact => hs ((accounted_step b hb h op hA).1.mp hexact)
  have hstart := accounted_new addr hnew hstrict ht hsuite hr
  rw [Run.forall_prefix_iff]
  have hall : ∀ p ∈ Run.trace (step b) (new addr d) ops,
      Bus.Event.offline ∉ (p.1.step b p.2).events := by
    rintro ⟨j, op⟩ hp hmem
    obtain ⟨before, after, rfl, rfl⟩ := (Run.mem_trace (step b)).mp hp
    refine hA ?_
    rw [List.foldl_append, List.foldl_cons]
    exact events_foldl b _ after hmem
  rw [← Run.trace_forall_iff hgood hbad hstart ops hall]
  exact and_iff_right hstart.exact

/-- The device is enrolled, a card is read, and the application asks for it at the second attempt. -/
def askedAgainOps : List LineOp :=
  [heardExchange, heardExchange, .report (.cardRead card), .send { code := Code.poll }, halfExchange,
    heardExchange]

/-- A reader that is asked again. -/
theorem reports_exact_asked_again :
    ∃ d, Pd.new 1 plainSettings = .ok d ∧
      ∀ seen, seen <+: askedAgainOps →
        (seen.foldl (step { scheme := .checksum }) (new 1 d)).Exact :=
  ⟨_, rfl, (@reports_exact_iff { scheme := .checksum } rfl 1 1 plainSettings _ rfl rfl rfl rfl
    (fun _ _ => rfl) askedAgainOps (by decide)).mpr (by decide)⟩

/-- A card is read, and the reply to the poll that asks for it is lost. -/
def droppedOps : List LineOp :=
  [heardExchange, heardExchange, .report (.cardRead card), halfExchange, heardExchange]

/-- A card is read and returned, two polls are lost, and a third gets through. -/
def repeatedOps : List LineOp :=
  [heardExchange, heardExchange, .report (.cardRead card), heardExchange, unheardExchange,
    unheardExchange, heardExchange]

/-- The first card is nowhere any more, and the second is returned twice, though the panel gave the
device up in neither run. -/
theorem lost_polls_lose_and_repeat_reports :
    ∃ d, Pd.new 1 plainSettings = .ok d ∧
      (let j := droppedOps.foldl (step { scheme := .checksum }) (new 1 d)
      j.reports = [.cardRead card] ∧ j.returned = [] ∧ j.inTransit = [] ∧
        j.line.device.pending = [] ∧ Bus.Event.offline ∉ j.events) ∧
      (let j := repeatedOps.foldl (step { scheme := .checksum }) (new 1 d)
      j.reports = [.cardRead card] ∧ j.returned = [.cardRead card, .cardRead card] ∧
        Bus.Event.offline ∉ j.events) :=
  ⟨_, rfl, by decide, by decide⟩

end Journal

end Osdp
