import Osdp.Model.Bus

/-!
# The calls a driver makes

The exported methods of `bus.Bus`, as the steps of a machine. `call` is one call about one
device, in the context of the bus it is made on; `Bus.step` is one call on the whole bus,
with the cycle of `Next` over the devices. The last operation, `keys`, stands for the
application changing what its `KeyFor` answers.
-/

set_option autoImplicit false

namespace Osdp

open Osdp.Secure (BaseKey Rnd)

namespace Bus

/-- One call about one device. -/
inductive Call where
  | send (m : Message)
  | installKey (key : BaseKey)
  | next (rndA : Rnd)
  | reply (f : Frame)
  | timeout

/-- What a call returned. -/
inductive Outcome where
  /-- `Send` or `InstallKey` returned nil. -/
  | accepted
  | refused (e : Error)
  /-- `Next` returned a step with this frame. -/
  | step (f : Frame)
  | noStep
  /-- `Reply` or `Timeout` returned this event and no error. -/
  | event (e : Event)
  | failed (e : Error)

/-- What a submission returned. -/
def Outcome.ofSubmission : Except Error Unit → Outcome
  | .ok _ => .accepted
  | .error e => .refused e

/-- What `Next` returned. -/
def Outcome.ofNext : Except Error Frame → Outcome
  | .ok f => .step f
  | .error _ => .noStep

/-- What `Reply` returned. -/
def Outcome.ofReply : Except Error Event → Outcome
  | .ok e => .event e
  | .error e => .failed e

/-- One call about the device `d` on the bus `b`. -/
def call (b : Bus) (d : Device) : Call → Outcome × Device
  | .send m => (.ofSubmission (send b d m).1, (send b d m).2)
  | .installKey key => (.ofSubmission (installKey d key).1, (installKey d key).2)
  | .next rndA => (.ofNext (transact b d rndA).1, (transact b d rndA).2)
  | .reply f => (.ofReply (reply b d f).1, (reply b d f).2)
  | .timeout => (.event (timeout d).1, (timeout d).2)

/-- A device as `New` allocates it.
GOLINE: internal/bus/bus.go:53-58 -/
def Device.new (addr : Address) : Device := { address := addr }

/-- GOLINE: internal/bus/bus.go:53-64 -/
def new (addrs : List Address) (scheme : Scheme) (secure : Option SecureChannel) : Bus :=
  { scheme := scheme, secure := secure, devices := addrs.map Device.new }

/-- A call about the device at index `i`. -/
def onDevice (b : Bus) (i : ℕ) (c : Call) : Option Outcome × Bus :=
  match b.devices[i]? with
  | none => (none, b)
  | some d => (some (call b d c).1, { b with devices := b.devices.set i (call b d c).2 })

/-- Whether a device other than the one at `i` has this address. -/
def addressInUse (b : Bus) (i : ℕ) (addr : Address) : Bool :=
  (List.range b.devices.length).any fun j =>
    j != i && (b.devices[j]?.map Device.address) == some addr

/-- GOLINE: internal/bus/comset.go:56-67 -/
def setCommunication (b : Bus) (i : ℕ) (want : Communication) : Option Outcome × Bus :=
  if want.address ≥ broadcastAddress then (some (.refused .invalidAddress), b)
  else if b.addressInUse i want.address then (some (.refused .addressInUse), b)
  else b.onDevice i (.send (communicationCommand want))

/-- GOLINE: internal/bus/bus.go:119-138 -/
def next (b : Bus) (rndA : Rnd) : Option Outcome × Bus :=
  if b.devices.length = 0 then (none, b)
  else
    { b with current := (b.current + 1) % b.devices.length }.onDevice b.current (.next rndA)

/-- One operation on the whole bus. -/
inductive Op where
  | send (i : ℕ) (m : Message)
  | installKey (i : ℕ) (key : BaseKey)
  | setCommunication (i : ℕ) (want : Communication)
  | next (rndA : Rnd)
  | reply (i : ℕ) (f : Frame)
  | timeout (i : ℕ)
  | keys (keys : KeyFor)

/-- One operation and the bus it leaves. -/
def perform (b : Bus) : Op → Option Outcome × Bus
  | .send i m => b.onDevice i (.send m)
  | .installKey i key => b.onDevice i (.installKey key)
  | .setCommunication i want => b.setCommunication i want
  | .next rndA => b.next rndA
  | .reply i f => b.onDevice i (.reply f)
  | .timeout i => b.onDevice i .timeout
  | .keys keys =>
    (none, { b with secure := b.secure.map fun channel => { channel with keys := keys } })

/-- The step function of the bus as a machine. -/
def step (b : Bus) (op : Op) : Bus := (b.perform op).2

end Bus

end Osdp
