import Osdp.Model.Bus

/-!
# Records of events

The conversion of a runtime event into rows of the audit schema. An event of the bus carries a
pointer to its device and not a copy of it, so the device is an argument here: it is the device as
the pointer finds it when the event is converted. `none` is the nil pointer.

The schema's `int32` fields are numbers: a contact's index is below the size of a frame and the
other values have at most 24 bits, so no conversion wraps.
-/

set_option autoImplicit false

namespace Osdp

namespace Bus

/-- GOLINE: internal/bus/event.go:12-77 -/
inductive Kind where
  | none
  | online
  | offline
  | identified
  | cardRead
  | keypad
  | nak
  | resync
  | manufacturer
  | capabilities
  | secure
  | statusChange
  | busy
  | communication
  | keyInstalled
  | secureFailed
  deriving DecidableEq, Repr

def Event.kind : Event → Kind
  | .none => .none
  | .online _ => .online
  | .offline => .offline
  | .identified _ => .identified
  | .cardRead _ => .cardRead
  | .keypad _ => .keypad
  | .nak _ => .nak
  | .resync => .resync
  | .manufacturer _ => .manufacturer
  | .capabilities _ => .capabilities
  | .secure _ => .secure
  | .statusChange _ => .statusChange
  | .busy => .busy
  | .communication _ _ => .communication
  | .keyInstalled _ => .keyInstalled
  | .secureFailed => .secureFailed

/-- The state of the Secure Channel, and whether there is one.
GOLINE: internal/bus/session.go:20-25 -/
def Device.secureSession (d : Device) : Secure.State × Bool :=
  match d.session with
  | none => (.idle, false)
  | some s => (s.state, true)

end Bus

/-- GOLINE: internal/cmd/errors.go:21-58 -/
def NAKReason.string (r : NAKReason) : String :=
  if r = 0x01 then "error check failed"
  else if r = 0x02 then "command length error"
  else if r = 0x03 then "command not implemented"
  else if r = 0x04 then "unexpected sequence number"
  else if r = 0x05 then "secure channel required"
  else if r = 0x06 then "encryption not supported"
  else if r = 0x07 then "biometric type not supported"
  else if r = 0x08 then "biometric format not supported"
  else if r = 0x09 then "unsupported input value"
  else "unknown NAK reason"

namespace Record

/-- The kinds of the schema. -/
inductive EventKind where
  | cardRead
  | keypad
  | deviceOnline
  | deviceOffline
  | commandRefused
  | resync
  | manufacturer
  | securityViolation
  | statusChange
  deriving DecidableEq, Repr

/-- GOLINE: protobuf/record/kind.go:21-37 -/
def kinds : Bus.Kind → Option EventKind
  | .cardRead => some .cardRead
  | .keypad => some .keypad
  | .online => some .deviceOnline
  | .offline => some .deviceOffline
  | .nak => some .commandRefused
  | .resync => some .resync
  | .manufacturer => some .manufacturer
  | .secureFailed => some .securityViolation
  | .statusChange => some .statusChange
  | _ => none

/-- GOLINE: protobuf/record/kind.go:51-54 -/
def recordable (kind : Bus.Kind) : Bool := (kinds kind).isSome

inductive Error where
  | notRecordable (kind : Bus.Kind)
  | noDevice (kind : Bus.Kind)
  | noContacts
  deriving DecidableEq, Repr

/-- GOLINE: protobuf/record/kind.go:57-64 -/
def kindOf (kind : Bus.Kind) : Except Error EventKind :=
  match kinds kind with
  | none => .error (.notRecordable kind)
  | some k => .ok k

/-- GOLINE: protobuf/record/options.go:7-9 -/
structure Settings where
  credentials : Bool := false

/-- The one payload a record carries. -/
inductive Payload where
  | cardRead (reader format bitCount : ℕ) (data : Octets)
  | keypad (reader : ℕ) (keys : Octets)
  | statusChange (kind : StatusKind) (index : ℕ) (active : Bool)
  | manufacturer (oui : ℕ) (body : Octets)
  deriving DecidableEq, Repr

/-- A row of the schema. -/
structure Event where
  name : String
  kind : EventKind
  eventTime : ℤ
  payload : Option Payload := none
  refusalCode : ℕ := 0
  refusalReason : String := ""
  secure : Bool
  deriving DecidableEq, Repr

/-- GOLINE: protobuf/record/event.go:129-139 -/
def cardRead (c : CardRead) (cfg : Settings) : Payload :=
  .cardRead c.reader.toNat c.format.toNat c.bitCount.toNat (if cfg.credentials then c.data else [])

/-- GOLINE: protobuf/record/event.go:142-148 -/
def keypad (k : KeypadEntry) (cfg : Settings) : Payload :=
  .keypad k.reader.toNat (if cfg.credentials then k.keys else [])

/-- GOLINE: protobuf/record/event.go:153-158 -/
def manufacturer (m : ManufacturerMessage) : Payload := .manufacturer m.oui.toNat m.body

/-- GOLINE: protobuf/record/event.go:109-126 -/
def attachPayload (out : Event) (ev : Bus.Event) (cfg : Settings) : Event :=
  match ev with
  | .cardRead card => { out with payload := some (cardRead card cfg) }
  | .keypad entry => { out with payload := some (keypad entry cfg) }
  | .manufacturer m => { out with payload := some (manufacturer m) }
  | .nak reason => { out with refusalCode := reason.toNat, refusalReason := reason.string }
  | _ => out

/-- One record for each contact that moved.
GOLINE: protobuf/record/event.go:92-106 -/
def statusRecords (status : List StatusChange) (base : Event) : List Event :=
  status.map fun c => { base with payload := some (.statusChange c.kind c.index c.active) }

/-- Convert an event into its records.
GOLINE: protobuf/record/event.go:42-85 -/
def fromEvent (ev : Bus.Event) (device : Option Bus.Device) (name : String) (time : ℤ)
    (cfg : Settings) : Except Error (List Event) :=
  match kindOf ev.kind with
  | .error e => .error e
  | .ok kind =>
    match device with
    | none => .error (.noDevice ev.kind)
    | some d =>
      let (state, established) := d.secureSession
      let base : Event :=
        { name := name, kind := kind, eventTime := time,
          secure := established && state == .established }
      match ev with
      | .statusChange status =>
        if status.length = 0 then .error .noContacts else .ok (statusRecords status base)
      | ev => .ok [attachPayload base ev cfg]

end Record

end Osdp
