import Osdp.Library.Encoding
import Osdp.Library.Ring
import Osdp.Model.Frame

/-!
# The store of event records

The event service's store in memory: a ring of the last events, an index of them by resource name,
and pages of them newest first behind opaque cursors. A Go string is its octets here. Each method
holds the store's lock over all it reads or writes of the store, so it is one function of the state;
a clone of a record is the record. `α` is what a record carries beside its name and its two times,
which the store copies and never reads.
-/

set_option autoImplicit false

namespace Osdp

namespace Service

open Encoding

/-! ## Resource names -/

/-- Why a context is over. -/
inductive ContextError where
  | canceled
  | deadlineExceeded
  deriving DecidableEq, Repr

/-- GOLINE: protobuf/service/name.go:38-42, protobuf/service/store.go:29-46 -/
inductive Error where
  | context (cause : ContextError)
  | invalidParent
  /-- `ErrInvalidParent` again: an event belongs to one device. -/
  | wildcardParent
  | invalidName
  | noEvent
  | notFound (name : Octets)
  | invalidPageToken
  | capacity (n : ℤ)
  deriving DecidableEq, Repr

def text (s : String) : Octets := s.toList.map fun c => UInt8.ofNat c.toNat

def slash : UInt8 := 47

def devicesCollection : Octets := text "devices"

def eventsCollection : Octets := text "events"

def wildcard : Octets := text "-"

/-- GOLINE: protobuf/service/name.go:48-50 -/
def eventName (device event : Octets) : Octets :=
  devicesCollection ++ slash :: (device ++ slash :: (eventsCollection ++ slash :: event))

/-- GOLINE: protobuf/service/name.go:53-55 -/
def deviceName (device : Octets) : Octets := devicesCollection ++ slash :: device

/-- GOLINE: protobuf/service/name.go:99-101 -/
def validSegment (s : Octets) : Bool := decide (s ≠ [] ∧ s ≠ wildcard)

/-- GOLINE: protobuf/service/name.go:64-72 -/
def parseEventName (name : Octets) : Except Error (Octets × Octets) :=
  match name.splitOn slash with
  | [first, device, third, event] =>
    if first ≠ devicesCollection ∨ third ≠ eventsCollection ∨
        validSegment device = false ∨ validSegment event = false then .error .invalidName
    else .ok (device, event)
  | _ => .error .invalidName

/-- GOLINE: protobuf/service/name.go:81-90 -/
def parseParent (parent : Octets) : Except Error Octets :=
  match parent.splitOn slash with
  | [first, device] =>
    if first ≠ devicesCollection ∨ device = [] then .error .invalidParent
    else if device ≠ wildcard ∧ validSegment device = false then .error .invalidParent
    else .ok device
  | _ => .error .invalidParent

/-! ## Cursors -/

def cursorSeparator : UInt8 := 0

/-- GOLINE: protobuf/service/pagination.go:31-34 -/
def encodeCursor (parent : Octets) (seq : UInt64) : Octets :=
  encodeToString (parent ++ cursorSeparator :: formatUint seq.toNat)

/-- GOLINE: protobuf/service/pagination.go:44-66 -/
def decodeCursor (token parent : Octets) : Except Error UInt64 :=
  match decodeString token with
  | none => .error .invalidPageToken
  | some raw =>
    match cutLast cursorSeparator raw with
    | none => .error .invalidPageToken
    | some (before, after) =>
      if before ≠ parent then .error .invalidPageToken
      else
        match parseUint after with
        | none => .error .invalidPageToken
        | some seq => .ok seq

/-! ## The store -/

structure Event (α : Type*) where
  name : Octets
  eventTime : Option ℤ
  createTime : Option ℤ
  body : α
  deriving DecidableEq

/-- GOLINE: protobuf/service/memory.go:46-50 -/
structure Entry (α : Type*) where
  seq : UInt64
  device : Octets
  ev : Event α
  deriving DecidableEq

/-- GOLINE: protobuf/service/memory.go:78-87 -/
structure MemoryStore (α : Type*) where
  ring : List (Option (Entry α))
  next : ℕ
  count : ℕ
  seq : UInt64
  byName : Octets → Option (Entry α)

namespace MemoryStore

variable {α : Type*}

/-- A store of `n` empty slots. -/
def make (n : ℕ) : MemoryStore α :=
  { ring := List.replicate n none, next := 0, count := 0, seq := 0, byName := fun _ => none }

/-- GOLINE: protobuf/service/memory.go:97-112 -/
def new (capacity : ℤ) : Except Error (MemoryStore α) :=
  if capacity ≤ 0 then .error (.capacity capacity) else .ok (make capacity.toNat)

/-- What an append does under the lock: the name and the sequence number, the slot, the index.
GOLINE: protobuf/service/memory_write.go:53-70 -/
def insert (s : MemoryStore α) (device : Octets) (ev : Event α) : Event α × MemoryStore α :=
  let stored := { ev with name := eventName device (hex 16 s.seq.toNat) }
  let e : Entry α := { seq := s.seq, device := device, ev := stored }
  let byName :=
    if s.count = s.ring.length then
      match s.ring[s.next]?.join with
      | some old => Function.update s.byName old.ev.name none
      | none => s.byName
    else s.byName
  (stored,
    { ring := s.ring.set s.next (some e)
      next := (s.next + 1) % s.ring.length
      count := if s.count = s.ring.length then s.count else s.count + 1
      seq := s.seq + 1
      byName := Function.update byName stored.name (some e) })

/-- `ctx` is the context's error, `ev` is `none` for the nil record and `now` what the store's clock
says. GOLINE: protobuf/service/memory_write.go:23-71 -/
def append (s : MemoryStore α) (ctx : Option ContextError) (parent : Octets)
    (ev : Option (Event α)) (now : ℤ) : Except Error (Event α) × MemoryStore α :=
  match ctx with
  | some cause => (.error (.context cause), s)
  | none =>
    match parseParent parent with
    | .error err => (.error err, s)
    | .ok device =>
      if device = wildcard then (.error .wildcardParent, s)
      else
        match ev with
        | none => (.error .noEvent, s)
        | some ev =>
          let out := s.insert device
            { ev with createTime := some now, eventTime := some (ev.eventTime.getD now) }
          (.ok out.1, out.2)

/-- GOLINE: protobuf/service/memory_read.go:17-33 -/
def get (s : MemoryStore α) (ctx : Option ContextError) (name : Octets) :
    Except Error (Event α) :=
  match ctx with
  | some cause => .error (.context cause)
  | none =>
    match parseEventName name with
    | .error err => .error err
    | .ok _ =>
      match s.byName name with
      | none => .error (.notFound name)
      | some e => .ok e.ev

/-- The entry at a logical position, 0 being the oldest. Both remainders keep the sign of the
dividend. GOLINE: protobuf/service/memory_read.go:142-145 -/
def atPos (s : MemoryStore α) (i : ℕ) : Option (Entry α) :=
  let n : ℤ := s.ring.length
  s.ring[(Int.tmod (Int.tmod ((s.next : ℤ) - s.count + i) n + n) n).toNat]?.join

/-- Whether a listing of this device, or of all, shows an entry. -/
def shows (device : Octets) (e : Entry α) : Bool :=
  decide (device = wildcard ∨ e.device = device)

/-- The walk of a page from the position below `i` down. -/
def pageFrom (s : MemoryStore α) (device : Octets) (want : ℕ) :
    ℕ → List (Entry α) → List (Entry α)
  | 0, out => out
  | i + 1, out =>
    if out.length < want then
      match s.atPos i with
      | some e => pageFrom s device want i (if shows device e then out ++ [e] else out)
      | none => pageFrom s device want i out
    else out

/-- GOLINE: protobuf/service/memory_read.go:121-135 -/
def page (s : MemoryStore α) (device : Octets) (upper : UInt64) (want : ℕ) : List (Entry α) :=
  s.pageFrom device want (Ring.search s.count fun i => (s.atPos i).any fun e => upper ≤ e.seq) []

end MemoryStore

/-! ## Listing -/

/-- GOLINE: protobuf/service/store.go:55-66 -/
structure Query where
  parent : Octets
  pageSize : ℤ
  pageToken : Octets
  deriving DecidableEq, Repr

/-- GOLINE: protobuf/service/store.go:69-80 -/
structure Page (α : Type*) where
  events : List (Event α)
  nextPageToken : Octets
  deriving DecidableEq

def defaultPageSize : ℕ := 50

def maxPageSize : ℕ := 1000

/-- The size a request's page has. GOLINE: protobuf/service/memory_read.go:75-81 -/
def cappedSize (pageSize : ℤ) : ℕ :=
  min (if pageSize ≤ 0 then defaultPageSize else pageSize.toNat) maxPageSize

/-- The bound a request's token puts on the sequence numbers.
GOLINE: protobuf/service/memory_read.go:86-91 -/
def Query.upper (q : Query) : Except Error UInt64 :=
  if q.pageToken = [] then .ok (UInt64.ofNat (2 ^ 64 - 1)) else decodeCursor q.pageToken q.parent

/-- GOLINE: protobuf/service/memory_read.go:67-114 -/
def MemoryStore.list {α : Type*} (s : MemoryStore α) (ctx : Option ContextError) (q : Query) :
    Except Error (Page α) :=
  match ctx with
  | some cause => .error (.context cause)
  | none =>
    match parseParent q.parent with
    | .error err => .error err
    | .ok device =>
      match q.upper with
      | .error err => .error err
      | .ok upper =>
        let size := cappedSize q.pageSize
        let found := s.page device upper (size + 1)
        if size < found.length then
          .ok { events := (found.take size).map Entry.ev
                nextPageToken := match found[size - 1]? with
                  | some last => encodeCursor q.parent last.seq
                  | none => [] }
        else .ok { events := found.map Entry.ev, nextPageToken := [] }

end Service

end Osdp
