import Osdp.Analysis.ReplySpec
import Osdp.Analysis.SessionSpec
import Osdp.Library.Run

/-!
# The queue of one device over a run of calls

`Device.outstanding` is what the panel still owes a device: the message in flight, if
any, and then the outbox. Every call either leaves it alone, appends an accepted
message, or drops its head; `Device.freed` is the head a reply drops.

`Track` follows one device through any sequence of calls and records beside it what was
accepted, what was answered, the driver's place in the exchange and the number the last
`Next` sent. Nothing of that record is read by the device.
-/

set_option autoImplicit false

namespace Osdp.Bus

open Osdp.Secure (Session BaseKey Rnd)

namespace Device

/-- The message in flight, if any, followed by the outbox. -/
def outstanding (d : Device) : List Message := d.inflight.toList ++ d.outbox

/-- The message a reply took out of flight without giving it back to the outbox. -/
def freed (d e : Device) : Option Message :=
  if e.inflight = none ∧ e.outbox.length = d.outbox.length then d.inflight else none

/-- Nothing is freed by nothing. -/
@[simp] theorem freed_self (d : Device) : d.freed d = none := by
  unfold freed
  split
  · rename_i h; exact h.1
  · rfl

/-- Nothing is freed when what was in flight goes back to the outbox. -/
theorem freed_requeued {d e : Device} (ho : e.outbox = d.inflight.toList ++ d.outbox) :
    d.freed e = none := by
  unfold freed
  split
  · rename_i h
    rw [ho, List.length_append] at h
    cases hi : d.inflight with
    | none => rfl
    | some m => simp [hi] at h
  · rfl

/-- What was in flight is freed when the outbox stays as it was. -/
theorem freed_released {d e : Device} (hi : e.inflight = none) (ho : e.outbox = d.outbox) :
    d.freed e = d.inflight := by
  simp [freed, hi, ho]

end Device

/-! ## What each call does to the queue -/

/-- `Send` adds what it accepts. -/
theorem send_outstanding (b : Bus) (d : Device) (m : Message) :
    (send b d m).2.outstanding =
      d.outstanding ++ (match (send b d m).1 with | .ok _ => [m] | .error _ => []) := by
  unfold send
  split <;> simp [Device.outstanding, Device.enqueue]

/-- So does `InstallKey`. -/
theorem installKey_outstanding (d : Device) (key : BaseKey) :
    (installKey d key).2.outstanding = d.outstanding ++
      (match (installKey d key).1 with | .ok _ => [keySetCommand key.toList] | .error _ => []) := by
  unfold installKey
  split <;> simp [Device.outstanding, Device.enqueue]

/-- A message taken while another is in flight displaces it. -/
theorem transact_outstanding (b : Bus) (d : Device) (rndA : Rnd) :
    d.outstanding =
      (if d.takes.isSome then d.inflight.toList else []) ++ (transact b d rndA).2.outstanding := by
  cases ht : d.takes with
  | none =>
    have h := transact_of_takes_none b ht rndA
    simp [Device.outstanding, h.inflight, h.outbox]
  | some m =>
    obtain ⟨q, r, s, he⟩ := transact_of_takes b ht rndA
    obtain ⟨-, -, -, rest, ho⟩ := Device.takes_eq_some ht
    simp [Device.outstanding, he, ho]

/-- After a timeout nothing is in flight. -/
theorem timeout_inflight (d : Device) : (timeout d).2.inflight = none := by
  obtain ⟨-, he⟩ | ⟨-, -, he⟩ := timeout_cases d
  · rw [he]; simp [Device.retransmit_eq]
  · rw [he]; simp [Device.resync_eq]

/-- A timeout loses nothing. -/
theorem timeout_outstanding (d : Device) : (timeout d).2.outstanding = d.outstanding := by
  obtain ⟨-, he⟩ | ⟨-, -, he⟩ := timeout_cases d
  · rw [he]; simp [Device.outstanding, Device.retransmit_eq]
  · rw [he]; simp [Device.outstanding, Device.resync_eq]

/-- The dispatcher leaves nothing in flight, and gives the released command back to the outbox
exactly on `osdp_BUSY`. -/
theorem dispatch_queue (b : Bus) (d : Device) (m : Message) :
    (dispatch b d.delivered m).2.inflight = none ∧
    (dispatch b d.delivered m).2.outbox =
      if m.code = Code.busy then d.inflight.toList ++ d.outbox else d.outbox := by
  obtain ⟨hb, i, c, st, se, pe, de, ss, he⟩ | ⟨hc, he⟩ | ⟨k, hc, -, -, he⟩ | ⟨c, hc, -, he⟩ |
    ⟨hc, he⟩ := dispatch_cases b d.delivered m
  · simp [he, hb]
  · simp [he, hc, Code.nak, Code.busy]
  · simp [he, hc, Code.ack, Code.busy]
  · simp [he, hc, Code.com, Code.busy, Device.resync_eq]
  · rw [he]
    simp only [Device.reclaim_eq, Device.delivered_released, hc, if_true]
    cases hi : d.inflight <;> simp

/-- A reply frees the head of the queue or leaves the queue alone. -/
theorem reply_outstanding (b : Bus) (d : Device) (f : Frame) :
    d.outstanding = (d.freed (reply b d f).2).toList ++ (reply b d f).2.outstanding := by
  obtain ⟨-, e, he⟩ | ⟨-, -, ⟨-, he⟩ | ⟨-, -, he⟩ | ⟨-, data, s, -, he⟩⟩ := reply_cases b d f
  · simp [he]
  · rw [he, Device.freed_requeued (by simp [Device.resync_eq])]
    simp [Device.outstanding, Device.resync_eq]
  · rw [he, Device.freed_requeued (by simp [Device.resync_eq])]
    simp [Device.outstanding, Device.resync_eq]
  · rw [he]
    obtain ⟨hi, ho⟩ := dispatch_queue b { d with misses := 0, session := s }
      { code := f.code, isReply := f.isReply, data := data }
    by_cases hbusy : f.code = Code.busy
    · simp only [hbusy, if_true] at ho hi ⊢
      rw [Device.freed_requeued ho]
      simp [Device.outstanding, hi, ho]
    · simp only [hbusy, if_false] at ho
      rw [Device.freed_released hi ho]
      simp [Device.outstanding, hi, ho]

/-- A reply leaves nothing in flight unless it was not for this device. -/
theorem reply_inflight (b : Bus) (d : Device) (f : Frame) :
    (reply b d f).2.inflight = none ∨ ∃ e, reply b d f = (.error e, d) := by
  obtain ⟨-, e, he⟩ | ⟨-, -, ⟨-, he⟩ | ⟨-, -, he⟩ | ⟨-, data, s, -, he⟩⟩ := reply_cases b d f
  · exact .inr ⟨e, he⟩
  · exact .inl (by simp [he, Device.resync_eq])
  · exact .inl (by simp [he, Device.resync_eq])
  · exact .inl (by rw [he]; exact (dispatch_queue b { d with misses := 0, session := s } _).1)

/-- A reply to this device with a sequence number, once let through, goes to the dispatcher
with the command in flight released. -/
theorem reply_of_opened (b : Bus) {d : Device} {f : Frame} {m : Message} (hr : f.isReply = true)
    (ha : f.address = d.address) (hz : f.control.sequence ≠ 0) (ho : d.opened f = some m) :
    ∃ e s, e = { d with misses := 0, session := s } ∧ reply b d f = dispatch b e.delivered m := by
  obtain ⟨hn, -⟩ | ⟨-, -, ⟨hz', -⟩ | ⟨-, ⟨e, he⟩, -⟩ | ⟨-, data, s, he, hd⟩⟩ := reply_cases b d f
  · simp [hr, ha] at hn
  · exact absurd hz' hz
  · rw [← d.opened_misses f 0] at ho
    simp [Device.opened, he] at ho
  · refine ⟨_, s, rfl, ?_⟩
    rw [← d.opened_misses f 0] at ho
    simp only [Device.opened, he, Message.decode, Option.some.injEq] at ho
    rw [hd, ← ho]

/-! ## One device followed through a run -/

/-- A message the bus accepted, and by which call. -/
inductive Submission where
  | sent (m : Message)
  | installed (key : BaseKey)
  deriving DecidableEq

/-- The message a submission queued. -/
def Submission.message : Submission → Message
  | .sent m => m
  | .installed key => keySetCommand key.toList

/-- Where the driver stands between two calls of `Next`. -/
inductive Phase where
  | idle
  /-- A command is on the line. -/
  | awaiting
  /-- `Reply` returned an error and the driver owes a `Timeout`. -/
  | refused
  deriving DecidableEq

/-- Where a call leaves the driver. -/
def Phase.after (p : Phase) : Call → Outcome → Phase
  | .send _, _ => p
  | .installKey _, _ => p
  | .next _, _ => .awaiting
  | .reply _, .failed _ => .refused
  | .reply _, _ => .idle
  | .timeout, _ => .idle

/-- The calls the driver of `internal/panel` makes: a `Next` that returns a step is followed by
a `Reply`, by a `Timeout`, or by a `Reply` that fails and then a `Timeout`. -/
def Phase.permits : Phase → Call → Outcome → Bool
  | _, .send _, _ => true
  | _, .installKey _, _ => true
  | .idle, .next _, .step _ => true
  | .awaiting, .reply _, _ => true
  | .awaiting, .timeout, _ => true
  | .refused, .timeout, _ => true
  | _, _, _ => false

/-- What a call adds to the accepted submissions. -/
def accepts : Call → Outcome → List Submission
  | .send m, .accepted => [.sent m]
  | .installKey key, .accepted => [.installed key]
  | _, _ => []

/-- What a call adds to the answered messages: what a reply that returned no error freed. -/
def answers (d e : Device) : Call → Outcome → List Message
  | .reply _, .event _ => (d.freed e).toList
  | _, _ => []

/-- One device and the record of its run. -/
structure Track where
  device : Device
  accepted : List Submission := []
  answered : List Message := []
  phase : Phase := .idle
  /-- The sequence number the last step was sent under. -/
  number : Option UInt8 := none

namespace Track

/-- The start of a run. -/
def new (addr : Address) : Track := { device := Device.new addr }

/-- One call, made on the bus as it is at the time. -/
def step (t : Track) (i : Bus × Call) : Track :=
  let (o, e) := call i.1 t.device i.2
  { device := e
    accepted := t.accepted ++ accepts i.2 o
    answered := t.answered ++ answers t.device e i.2 o
    phase := t.phase.after i.2 o
    number := match o with
      | .step f => some f.control.sequence
      | _ => t.number }

/-- How many accepted messages are no longer outstanding. -/
def cursor (t : Track) : ℕ := t.accepted.length - t.device.outstanding.length

/-- The outstanding messages are the last ones accepted, in order. -/
def Aligned (t : Track) : Prop :=
  t.device.outstanding <:+ t.accepted.map Submission.message

/-- A new track is aligned. -/
theorem aligned_new (addr : Address) : (new addr).Aligned := by
  simp [Aligned, new, Device.outstanding, Device.new]

end Track

/-- No call brings a message back: what is outstanding after it is a tail of what was, with
whatever the call accepted behind. -/
theorem call_outstanding (b : Bus) (d : Device) (c : Call) :
    (call b d c).2.outstanding <:+
      d.outstanding ++ (accepts c (call b d c).1).map Submission.message := by
  cases c with
  | send m =>
    simp only [call, send_outstanding]
    cases (send b d m).1 <;> simp [accepts, Outcome.ofSubmission, Submission.message]
  | installKey key =>
    simp only [call, installKey_outstanding]
    cases (installKey d key).1 <;> simp [accepts, Outcome.ofSubmission, Submission.message]
  | next rndA =>
    simp only [call, accepts, List.map_nil, List.append_nil]
    exact ⟨_, (transact_outstanding b d rndA).symm⟩
  | reply f =>
    simp only [call, accepts, List.map_nil, List.append_nil]
    exact ⟨_, (reply_outstanding b d f).symm⟩
  | timeout => simp [call, accepts, timeout_outstanding]

namespace Track

/-- Every call keeps it aligned. -/
theorem aligned_step {t : Track} (h : t.Aligned) (i : Bus × Call) : (t.step i).Aligned := by
  unfold Aligned step
  simp only [List.map_append]
  obtain ⟨gone, hgone⟩ := h
  refine (call_outstanding i.1 t.device i.2).trans ⟨gone, ?_⟩
  rw [← hgone, List.append_assoc]

/-- The cursor never moves back. -/
theorem cursor_le_step {t : Track} (h : t.Aligned) (i : Bus × Call) :
    t.cursor ≤ (t.step i).cursor := by
  have hlen := (call_outstanding i.1 t.device i.2).length_le
  have hle := h.length_le
  simp only [List.length_append, List.length_map] at hlen hle
  simp only [cursor, step, List.length_append]
  omega

/-- The submissions whose messages are outstanding. -/
def held (t : Track) : List Submission := t.accepted.drop t.cursor

/-- The submission whose message is in flight. -/
def current (t : Track) : Option Submission :=
  if t.device.inflight.isSome then t.held.head? else none

/-- What is held is what is outstanding. -/
theorem Aligned.map_held {t : Track} (h : t.Aligned) :
    t.held.map Submission.message = t.device.outstanding := by
  obtain ⟨gone, hgone⟩ := h
  have hlen := congrArg List.length hgone
  simp only [List.length_append, List.length_map] at hlen
  have hcur : t.cursor = gone.length := by
    unfold cursor
    omega
  rw [held, List.map_drop, ← hgone, hcur, List.drop_left]

/-- What a step holds is a tail of what was held, with what it accepted behind. -/
theorem held_step {t : Track} (h : t.Aligned) (i : Bus × Call) :
    (t.step i).held <:+ t.held ++ accepts i.2 (call i.1 t.device i.2).1 := by
  have hle := h.length_le
  simp only [List.length_map] at hle
  have hmono := cursor_le_step h i
  have hcur : t.cursor ≤ t.accepted.length := Nat.sub_le _ _
  have hsplit : (t.step i).held =
      (t.held ++ accepts i.2 (call i.1 t.device i.2).1).drop ((t.step i).cursor - t.cursor) := by
    rw [held, held, ← List.drop_append_of_le_length hcur, List.drop_drop,
      Nat.add_sub_cancel' hmono]
    rfl
  rw [hsplit]
  exact List.drop_suffix _ _

/-- The submission in flight is held, and its message is the one in flight. -/
theorem current_eq_some {t : Track} (h : t.Aligned) {s : Submission} (hs : t.current = some s) :
    s ∈ t.held ∧ t.device.inflight = some s.message := by
  unfold current at hs
  split at hs
  · rename_i hfl
    obtain ⟨m, hm⟩ := Option.isSome_iff_exists.mp hfl
    cases hheld : t.held with
    | nil => simp [hheld] at hs
    | cons a rest =>
      simp only [hheld, List.head?_cons, Option.some.injEq] at hs
      have hmap := h.map_held
      simp only [hheld, List.map_cons, Device.outstanding, hm, Option.toList_some,
        List.singleton_append, List.cons.injEq] at hmap
      rw [← hs]
      exact ⟨List.mem_cons_self, by rw [hm, hmap.1]⟩
  · cases hs

end Track

/-! ## Sample traffic -/

/-- A plaintext reply as a device at this address sends it. -/
def plainReply (addr : Address) (seq : UInt8) (code : Code) (data : Octets) : Frame :=
  Frame.sealCheck {
    isReply := true
    address := addr
    control := newControl seq .checksum false
    code := code
    data := data }

/-- The calls that enrol a device at address 1 without a Secure Channel. -/
def enrolCalls : List Call :=
  [.next Secure.zeroRnd, .reply (plainReply 1 1 Code.pdID (List.replicate 12 0)),
   .next Secure.zeroRnd, .reply (plainReply 1 2 Code.pdCap [])]

/-- Calls made on a bus without a Secure Channel. -/
def onPlainBus (cs : List Call) : List (Bus × Call) :=
  cs.map fun c => ({ scheme := .checksum }, c)

/-- A reply carrying a security block, as a device at this address sends it. -/
def securedReply (addr : Address) (seq : UInt8) (block : UInt8) (code : Code) (data : Octets) :
    Frame :=
  Frame.sealCheck {
    isReply := true
    address := addr
    control := newControl seq .checksum true
    security := some { type := block }
    code := code
    data := data }

/-- The calls that enrol a device at address 1 and establish a session with it under the
counting suite. -/
def secureEnrolCalls : List Call :=
  [.next Secure.zeroRnd, .reply (plainReply 1 1 Code.pdID (List.replicate 12 0)),
   .next Secure.zeroRnd, .reply (plainReply 1 2 Code.pdCap [0x09, 0x01, 0x00]),
   .next Secure.zeroRnd, .reply (securedReply 1 3 Secure.scs12 Code.cCrypt (List.replicate 32 0)),
   .next Secure.zeroRnd, .reply (securedReply 1 1 Secure.scs14 Code.rMacI (List.replicate 16 0))]

/-- A bus that offers the counting suite to every device. -/
def secureBus : Bus :=
  { scheme := .checksum, secure := some ⟨Secure.countingSuite, fun _ => some Secure.zeroBlock⟩ }

/-- Calls made on that bus. -/
def onSecureBus (cs : List Call) : List (Bus × Call) := cs.map fun c => (secureBus, c)

end Osdp.Bus
