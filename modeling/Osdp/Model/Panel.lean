import Osdp.Model.Calls
import Osdp.Model.Scan

/-!
# The panel's runtime

`panel.Panel`: the loop that asks the bus for a command, reads the answer into its one buffer
and publishes what the bus makes of it, and the channel the application receives from.

`Card.Data`, `Keypad.Keys` and `Manufacturer.Body` are cut out of the reply they were parsed
from, and unless that reply was enciphered it still lies in the read buffer. So a published
event is the event `Reply` returned and the range of the buffer its octets lie in, and what the
application sees of it (`Published.seen`) depends on the buffer.

A receiver may come between any two steps of the loop; the loop itself waits in `emit` while
the channel is full. The command written to the port leaves no trace here, and the clock is
left out.
-/

set_option autoImplicit false

namespace Osdp

open Osdp.Secure (BaseKey Rnd)

namespace Bus

/-- The octets an event has by reference. -/
def Event.payload : Event → Option Octets
  | .cardRead card => some card.data
  | .keypad entry => some entry.keys
  | .manufacturer m => some m.body
  | _ => Option.none

/-- The event with other octets in their place. -/
def Event.withPayload (octets : Octets) : Event → Event
  | .cardRead card => .cardRead { card with data := octets }
  | .keypad entry => .keypad { entry with keys := octets }
  | .manufacturer m => .manufacturer { m with body := octets }
  | e => e

/-- Where in the payload of a reply the octets of its event lie.
GOLINE: internal/cmd/payloads.go:74, 100, 122 -/
def Event.range : Event → Option Window.Slice
  | .cardRead card => some ⟨4, card.data.length⟩
  | .keypad entry => some ⟨2, entry.keys.length⟩
  | .manufacturer m => some ⟨3, m.body.length⟩
  | _ => Option.none

/-- Whether `Reply` deciphers a frame, which puts its payload into memory of its own.
GOLINE: internal/bus/reply.go:64-77, internal/bus/seal.go:73-77 -/
def Device.deciphers (d : Device) (f : Frame) : Bool :=
  d.secureEstablished && f.security.any fun block => Secure.BlockType.encrypted block.type

end Bus

/-- An event on its way to the application: as `Reply` or `Timeout` returned it, and the range of
the read buffer its octets lie in, if they lie there. -/
structure Published where
  event : Bus.Event
  range : Option Window.Slice := none
  deriving DecidableEq

namespace Published

/-- What the event reads as while the read buffer holds `buf`. -/
def seen (v : Published) (buf : Octets) : Bus.Event :=
  match v.range with
  | none => v.event
  | some r => v.event.withPayload (r.of buf)

end Published

/-- What `Send`, `InstallKey` and `SetCommunication` put on the request channel.
GOLINE: internal/panel/send.go:33-39 -/
inductive Request where
  | send (m : Message)
  | installKey (key : BaseKey)
  | setCommunication (want : Communication)

/-- The surroundings of one transaction: the random octets `Next` may draw, whether the command
could be written and the turnaround waited for, and what the port delivers. -/
structure Cycle where
  rndA : Rnd := Secure.zeroRnd
  writes : Bool := true
  port : Scan.Port

namespace Panel

/-- GOLINE: internal/panel/options.go:13 -/
def defaultEventBuffer : ℕ := 16

end Panel

/-- The panel: its bus, its reader, the events in the channel and how many it has room for, the
event `emit` is waiting to publish, and whether `Run` has not returned.
GOLINE: internal/panel/panel.go:42-60 -/
structure Panel where
  bus : Bus
  reader : Scan.Scanner := Scan.new
  buffer : ℕ := Panel.defaultEventBuffer
  events : List Published := []
  emitting : Option Published := none
  running : Bool := true
  bounded : events.length ≤ buffer := by exact Nat.zero_le _

namespace Panel

/-- Whether the loop is about to take requests or begin a transaction. -/
def ready (p : Panel) : Bool := p.running && p.emitting.isNone

/-- `Run` returns. -/
def stop (p : Panel) : Panel := { p with emitting := none, running := false }

/-- The first device polled at an address is asked; none is an unknown device.
GOLINE: internal/panel/send.go:120-135 -/
def queue (b : Bus) (addr : Address) (req : Request) : Option Bus.Outcome × Bus :=
  match b.devices.findIdx? fun d => d.address == addr with
  | none => (none, b)
  | some i =>
    match req with
    | .send m => b.perform (.send i m)
    | .installKey key => b.perform (.installKey i key)
    | .setCommunication want => b.perform (.setCommunication i want)

/-- What `Reply` returned for a frame, as it is handed on. -/
def publish (b : Bus) (i : ℕ) (f : Frame) (e : Bus.Event) : Published :=
  { event := e
    range :=
      if b.devices[i]?.any fun d => d.deciphers f then none
      else e.range.map fun r => ⟨f.dataSlice.start + r.start, r.length⟩ }

/-- The device at `i` is taken to be silent. -/
def silent (p : Panel) (i : ℕ) : Option Published × Panel :=
  match p.bus.onDevice i .timeout with
  | (some (.event e), b) => (some { event := e }, { p with bus := b })
  | (_, b) => (none, { p with bus := b })

/-- Read the answer of the device at `i`. Nothing is returned when the port has failed.
GOLINE: internal/panel/cycle.go:61-117 -/
def await (p : Panel) (i : ℕ) (port : Scan.Port) : Option Published × Panel :=
  match Panel.next p.reader port with
  | (.frame f, r, _) =>
    -- the bus reads the frame where it lies
    let f := f.readBack r.buf
    match p.bus.onDevice i (.reply f) with
    | (some (.event e), b) => (some (publish p.bus i f e), { p with reader := r, bus := b })
    | (_, b) => { p with reader := r, bus := b }.silent i
  | (.badCheck _, r, _) => { p with reader := r }.silent i
  | (.timeout, r, _) => { p with reader := r }.silent i
  | (.failed e, r, _) =>
    if e = .shortBuffer then (none, { p with reader := r }) else { p with reader := r }.silent i
  | (.portFailed, r, _) => (none, { p with reader := r })

/-- One transaction up to where `emit` sends. An event of no kind is not sent.
GOLINE: internal/panel/cycle.go:24-52, internal/panel/panel.go:179-182 -/
def exchange (p : Panel) (x : Cycle) : Panel :=
  match p.bus.next x.rndA with
  | (some (.step f), b) =>
    match f.append [] with
    | .error _ => { p with bus := b }.stop
    | .ok _ =>
      if x.writes then
        match { p with bus := b }.await p.bus.current x.port with
        | (none, p) => p.stop
        | (some v, p) => if v.event = .none then p else { p with emitting := some v }
      else { p with bus := b }.stop
  | (_, b) => { p with bus := b }.stop

/-- The send of `emit` goes through once the channel has room.
GOLINE: internal/panel/panel.go:179-189 -/
def emit (p : Panel) : Panel :=
  match p.emitting with
  | none => p
  | some v =>
    if h : p.events.length < p.buffer then
      { p with
        events := p.events ++ [v], emitting := none
        bounded := by rw [List.length_append]; exact h }
    else p

/-- The application receives: the oldest event in the channel or, of an empty channel, the one
`emit` is about to send.
GOLINE: internal/panel/panel.go:104 -/
def receive (p : Panel) : Option Published × Panel :=
  match p.events.head? with
  | some v =>
    (some v, { p with
      events := p.events.tail
      bounded := by rw [List.length_tail]; exact (Nat.sub_le _ _).trans p.bounded })
  | none => (p.emitting, { p with emitting := none })

/-- One step of the panel or of the application. -/
inductive Op where
  | request (addr : Address) (req : Request)
  | cycle (x : Cycle)
  | emit
  | receive
  /-- The context is cancelled. -/
  | cancel

/-- The panel as a machine. Requests are taken and a transaction begun only when the last one has
published its event.
GOLINE: internal/panel/panel.go:142-163 -/
def step (p : Panel) : Op → Panel
  | .request addr req => if p.ready then { p with bus := (queue p.bus addr req).2 } else p
  | .cycle x => if p.ready then p.exchange x else p
  | .emit => p.emit
  | .receive => p.receive.2
  | .cancel => p.stop

end Panel

end Osdp
