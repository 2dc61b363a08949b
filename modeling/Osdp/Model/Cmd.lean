import Osdp.Model.Frame
import Mathlib.Data.Vector.Basic

/-!
# Commands, replies and their payloads

`internal/cmd`: the code octets, the message record, how a message is placed in a
frame, and the payload parsers and builders the two ends of the line use. A parser
that fails fails with `ErrShortPayload` and nothing else, so it returns an `Option`.
-/

set_option autoImplicit false

namespace Osdp

/-- A command or reply code. Any octet may arrive, so this is not an enumeration.
GOLINE: internal/cmd/codes.go:11 -/
abbrev Code := UInt8

namespace Code

def poll : Code := 0x60
def id : Code := 0x61
def cap : Code := 0x62
def lStat : Code := 0x64
def iStat : Code := 0x65
def oStat : Code := 0x66
def rStat : Code := 0x67
def out : Code := 0x68
def led : Code := 0x69
def buz : Code := 0x6A
def text : Code := 0x6B
def comSet : Code := 0x6E
def keySet : Code := 0x75
def chlng : Code := 0x76
def sCrypt : Code := 0x77
def acuRxSize : Code := 0x7B
def abort : Code := 0xA2
def keepActive : Code := 0xA7

def ack : Code := 0x40
def nak : Code := 0x41
def pdID : Code := 0x45
def pdCap : Code := 0x46
def lStatR : Code := 0x48
def iStatR : Code := 0x49
def oStatR : Code := 0x4A
def rStatR : Code := 0x4B
def raw : Code := 0x50
def keypad : Code := 0x53
def com : Code := 0x54
def cCrypt : Code := 0x76
def rMacI : Code := 0x78
def busy : Code := 0x79
def mfgReply : Code := 0x90

end Code

/-- One command or reply: the code and the payload that follows it.
GOLINE: internal/cmd/message.go:21-31 -/
structure Message where
  code : Code
  isReply : Bool := false
  data : Octets := []
  deriving DecidableEq, Repr

/-- Place a message in a sealed plaintext frame; only the address can be refused.
GOLINE: internal/cmd/message.go:84-104 -/
def Message.encode (m : Message) (addr : Address) (seq : UInt8) (scheme : Scheme) :
    Except EncodeError Frame :=
  if ¬ Address.valid addr then .error .invalidAddress
  else .ok (Frame.sealCheck {
    isReply := m.isReply
    address := addr
    control := newControl seq scheme false
    code := m.code
    data := m.data })

/-- Place a message in a frame carrying a security block, the check not yet written.
GOLINE: internal/cmd/message.go:116-136 -/
def Message.encodeSecure (m : Message) (addr : Address) (seq : UInt8) (scheme : Scheme)
    (block : SecurityBlock) : Except EncodeError Frame :=
  if ¬ Address.valid addr then .error .invalidAddress
  else .ok {
    isReply := m.isReply
    address := addr
    control := newControl seq scheme true
    security := some block
    code := m.code
    data := m.data }

/-- The message a frame carries.
GOLINE: internal/cmd/message.go:71-78 -/
def Message.decode (f : Frame) : Message :=
  { code := f.code, isReply := f.isReply, data := f.data }

/-- A little-endian integer of `n` octets. -/
def littleEndian : ℕ → ℕ → Octets
  | 0, _ => []
  | n + 1, v => UInt8.ofNat v :: littleEndian n (v / 256)

/-- The integer a little-endian octet string spells. -/
def fromLittleEndian : Octets → ℕ
  | [] => 0
  | b :: bs => b.toNat + 256 * fromLittleEndian bs

/-- What a device says it is.
GOLINE: internal/cmd/payloads.go:12-22 -/
structure DeviceID where
  vendorCode : List.Vector UInt8 3
  model : UInt8
  version : UInt8
  serial : UInt32
  firmware : List.Vector UInt8 3
  deriving DecidableEq

/-- The fixed `osdp_PDID` payload length. -/
def deviceIDSize : ℕ := 12

/-- The `n` octets of a payload from index `i` on, as an array of that size. -/
def octetsAt (n : ℕ) (data : Octets) (i : ℕ) : List.Vector UInt8 n :=
  List.Vector.ofFn fun k => data.getD (i + k) 0

/-- GOLINE: internal/cmd/payloads.go:28-39 -/
def parseDeviceID (data : Octets) : Option DeviceID :=
  if data.length < deviceIDSize then none
  else some {
    vendorCode := octetsAt 3 data 0
    model := data.getD 3 0
    version := data.getD 4 0
    serial := UInt32.ofNat (fromLittleEndian ((data.take 9).drop 5))
    firmware := octetsAt 3 data 9 }

/-- A credential presented at a reader.
GOLINE: internal/cmd/payloads.go:48-62 -/
structure CardRead where
  reader : UInt8
  format : UInt8
  bitCount : UInt16
  data : Octets
  deriving DecidableEq, Repr

/-- How many octets a credential of this many bits occupies. -/
def bitOctets (bitCount : UInt16) : ℕ := (bitCount.toNat + 7) / 8

/-- GOLINE: internal/cmd/payloads.go:65-80 -/
def parseCardRead (data : Octets) : Option CardRead :=
  if data.length < 4 then none
  else
    let c : CardRead := {
      reader := data.getD 0 0
      format := data.getD 1 0
      bitCount := UInt16.ofNat (fromLittleEndian ((data.take 4).drop 2))
      data := data.drop 4 }
    if c.data.length < bitOctets c.bitCount then none else some c

/-- Digits entered at a keypad.
GOLINE: internal/cmd/payloads.go:83-88 -/
structure KeypadEntry where
  reader : UInt8
  keys : Octets
  deriving DecidableEq, Repr

/-- GOLINE: internal/cmd/payloads.go:91-101 -/
def parseKeypadEntry (data : Octets) : Option KeypadEntry :=
  if data.length < 2 then none
  else
    let count := (data.getD 1 0).toNat
    if (data.drop 2).length < count then none
    else some { reader := data.getD 0 0, keys := (data.drop 2).take count }

/-- An OUI and a vendor-defined remainder.
GOLINE: internal/cmd/payloads.go:109-112 -/
structure ManufacturerMessage where
  oui : UInt32
  body : Octets
  deriving DecidableEq, Repr

/-- GOLINE: internal/cmd/payloads.go:115-124 -/
def parseManufacturerMessage (data : Octets) : Option ManufacturerMessage :=
  if data.length < 3 then none
  else some {
    oui := (data.getD 0 0).toUInt32 <<< 16 ||| (data.getD 1 0).toUInt32 <<< 8 |||
      (data.getD 2 0).toUInt32
    body := data.drop 3 }

/-- The reason octet of an `osdp_NAK`.
GOLINE: internal/cmd/errors.go:19 -/
abbrev NAKReason := UInt8

namespace NAKReason

def commandLength : NAKReason := 0x02
def unknownCommand : NAKReason := 0x03
def sequenceError : NAKReason := 0x04
def secureRequired : NAKReason := 0x05
def encryptionUnsup : NAKReason := 0x06
def unsupportedInput : NAKReason := 0x09

end NAKReason

/-- GOLINE: internal/cmd/errors.go:61-66 -/
def parseNAK (data : Octets) : Option NAKReason := data.head?

/-- A device's address and line speed.
GOLINE: internal/cmd/comset.go:10-18 -/
structure Communication where
  address : UInt8
  baud : UInt32
  deriving DecidableEq, Repr

/-- The fixed `osdp_COMSET` and `osdp_COM` payload length. -/
def communicationSize : ℕ := 5

/-- GOLINE: internal/cmd/comset.go:41-47 -/
def communicationCommand (c : Communication) : Message :=
  { code := Code.comSet, data := c.address :: littleEndian 4 c.baud.toNat }

/-- GOLINE: internal/cmd/comset.go:52-60 -/
def parseCommunication (data : Octets) : Option Communication :=
  if data.length < communicationSize then none
  else some {
    address := data.getD 0 0
    baud := UInt32.ofNat (fromLittleEndian ((data.take communicationSize).drop 1)) }

/-- The key type octet for a Secure Channel Base Key. -/
def keySCBK : UInt8 := 0x01

/-- The fixed part of an `osdp_KEYSET` payload. -/
def keySetHeaderSize : ℕ := 2

/-- GOLINE: internal/cmd/keyset.go:36-40 -/
def keySetCommand (key : Octets) : Message :=
  { code := Code.keySet, data := keySCBK :: UInt8.ofNat key.length :: key }

/-- GOLINE: internal/cmd/keyset.go:46-56 -/
structure KeySetPayload where
  type : UInt8
  key : Octets
  deriving DecidableEq, Repr

/-- GOLINE: internal/cmd/keyset.go:62-76 -/
def parseKeySet (data : Octets) : Option KeySetPayload :=
  if data.length < keySetHeaderSize then none
  else
    let length := (data.getD 1 0).toNat
    if (data.drop keySetHeaderSize).length < length then none
    else some { type := data.getD 0 0, key := (data.drop keySetHeaderSize).take length }

/-- What an `osdp_OUT` entry does to its output. Any octet may arrive.
GOLINE: internal/cmd/output.go:36 -/
abbrev OutputControl := UInt8

namespace OutputControl

/-- GOLINE: internal/cmd/output.go:43-73 -/
def nop : OutputControl := 0x00
def offAbort : OutputControl := 0x01
def onAbort : OutputControl := 0x02
def offAfterTimer : OutputControl := 0x03
def onAfterTimer : OutputControl := 0x04
def timedOn : OutputControl := 0x05
def timedOff : OutputControl := 0x06

end OutputControl

/-- One entry of an `osdp_OUT` command, its timer in nanoseconds.
GOLINE: internal/cmd/output.go:77-89 -/
structure Output where
  number : UInt8
  control : OutputControl
  timer : ℤ := 0
  deriving DecidableEq, Repr

/-- The unit of a duration on the wire.
GOLINE: internal/cmd/output.go:14 -/
def tick : ℤ := 100 * 10 ^ 6

/-- GOLINE: internal/cmd/output.go:23-32 -/
def ticks (d : ℤ) (limit : ℕ) : ℕ :=
  if d ≤ 0 then 0
  else
    let n := (d / tick).toNat
    if n > limit then limit else n

/-- GOLINE: internal/cmd/output.go:92 -/
def maxOutputTimer : ℕ := 0xFFFF

/-- GOLINE: internal/cmd/output.go:102-109 -/
def outputCommand (outputs : List Output) : Message :=
  { code := Code.out
    data := outputs.flatMap fun o =>
      let t := ticks o.timer maxOutputTimer
      [o.number, o.control, UInt8.ofNat t, UInt8.ofNat (t >>> 8)] }

/-- One entry of a capability report.
GOLINE: internal/cmd/capabilities.go:61-68 -/
structure Capability where
  function : UInt8
  compliance : UInt8
  items : UInt8
  deriving DecidableEq, Repr

/-- GOLINE: internal/cmd/capabilities.go:77 -/
abbrev CapabilityReport := List Capability

/-- GOLINE: internal/cmd/capabilities.go:18-34 -/
def funcContactStatus : UInt8 := 0x01
def funcOutputControl : UInt8 := 0x02
def funcCardDataFormat : UInt8 := 0x03
def funcCheckCharacter : UInt8 := 0x08
def funcCommSecurity : UInt8 := 0x09
def funcReceiveBuffer : UInt8 := 0x0A
def funcReaders : UInt8 := 0x0D
def funcOSDPVersion : UInt8 := 0x10

/-- Bit 0 of the compliance octet of the security entry. -/
def securityAES128 : UInt8 := 0x01

/-- Bit 0 of the item octet of the security entry. -/
def securityDefaultKey : UInt8 := 0x01

/-- The loop of `ParseCapabilities`: whole three-octet entries. -/
def capabilityEntries : Octets → CapabilityReport
  | f :: c :: i :: rest => ⟨f, c, i⟩ :: capabilityEntries rest
  | _ => []

/-- GOLINE: internal/cmd/capabilities.go:89-106 -/
def parseCapabilities (data : Octets) : Option CapabilityReport :=
  if data.length % 3 ≠ 0 then none else some (capabilityEntries data)

namespace CapabilityReport

/-- GOLINE: internal/cmd/capabilities.go:113-118 -/
def append (r : CapabilityReport) (dst : Octets) : Octets :=
  dst ++ r.flatMap fun c => [c.function, c.compliance, c.items]

/-- GOLINE: internal/cmd/capabilities.go:121-128 -/
def get (r : CapabilityReport) (fn : UInt8) : Option Capability :=
  r.find? fun c => c.function == fn

/-- Whether the device claims AES-128, and whether it still holds the default key.
GOLINE: internal/cmd/capabilities.go:154-160 -/
def secureChannel (r : CapabilityReport) : Bool × Bool :=
  match get r funcCommSecurity with
  | none => (false, false)
  | some c => (c.compliance &&& securityAES128 ≠ 0, c.items &&& securityDefaultKey ≠ 0)

/-- GOLINE: internal/cmd/capabilities.go:168-174 -/
def receiveBufferSize (r : CapabilityReport) : ℕ :=
  match get r funcReceiveBuffer with
  | none => 0
  | some c => c.items.toNat <<< 8 ||| c.compliance.toNat

end CapabilityReport

/-- Which kind of contact a status report concerns.
GOLINE: internal/cmd/status.go:10-37 -/
inductive StatusKind where
  | unspecified
  | input
  | output
  | tamper
  | power
  | «local»
  deriving DecidableEq, Repr

/-- One contact reported at one state.
GOLINE: internal/cmd/status.go:63-67 -/
structure StatusChange where
  kind : StatusKind
  index : ℕ
  active : Bool
  deriving DecidableEq, Repr

/-- GOLINE: internal/cmd/status.go:95-101 -/
def parseContacts (kind : StatusKind) (data : Octets) : List StatusChange :=
  data.mapIdx fun i v => ⟨kind, i, v != 0⟩

/-- GOLINE: internal/cmd/status.go:71-73 -/
def parseInputStatus (data : Octets) : Option (List StatusChange) :=
  some (parseContacts .input data)

/-- GOLINE: internal/cmd/status.go:77-79 -/
def parseOutputStatus (data : Octets) : Option (List StatusChange) :=
  some (parseContacts .output data)

/-- GOLINE: internal/cmd/status.go:87-89 -/
def parseReaderStatus (data : Octets) : Option (List StatusChange) :=
  some (parseContacts .local data)

/-- GOLINE: internal/cmd/status.go:110-118 -/
def parseLocalStatus (data : Octets) : Option (List StatusChange) :=
  match data with
  | t :: p :: _ => some [⟨.tamper, 0, t != 0⟩, ⟨.power, 0, p != 0⟩]
  | _ => none

end Osdp
