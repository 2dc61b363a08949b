import Mathlib.Data.List.Basic
import Mathlib.Data.UInt
import Mathlib.Tactic.Common

/-!
# The frame codec

`internal/frame`: the error checks, the control octet, the frame record, the
encoder and the decoder. Octet strings are lists of `UInt8`; a nil and an empty
slice are the same list. A frame that `decode` returns with `ErrBadCheck` is a
frame all the same, so the decoder's answer is `Decoded`, not an `Except`.
-/

set_option autoImplicit false

namespace Osdp

/-- A string of octets. -/
abbrev Octets := List UInt8

/-- A peripheral device address. -/
abbrev Address := UInt8

/-- The trailing error check a frame carries.
GOLINE: internal/frame/check.go:8-18 -/
inductive Scheme where
  | checksum
  | crc16
  deriving DecidableEq, Repr

/-- GOLINE: internal/frame/check.go:30-35 -/
def Scheme.size : Scheme → ℕ
  | .crc16 => 2
  | .checksum => 1

/-- GOLINE: internal/frame/check.go:46 -/
def crcInit : UInt16 := 0x1D0F

/-- One octet of the CRC loop.
GOLINE: internal/frame/check.go:57-63 -/
def crcStep (crc : UInt16) (c : UInt8) : UInt16 :=
  let crc := (crc >>> 8) ||| (crc <<< 8)
  let crc := crc ^^^ c.toUInt16
  let crc := crc ^^^ ((crc &&& 0xff) >>> 4)
  let crc := crc ^^^ (crc <<< 12)
  crc ^^^ ((crc &&& 0xff) <<< 5)

/-- GOLINE: internal/frame/check.go:55-65 -/
def crc16 (b : Octets) : UInt16 := b.foldl crcStep crcInit

/-- GOLINE: internal/frame/check.go:72-78 -/
def checksum (b : Octets) : UInt8 := ~~~(b.foldl (· + ·) 0) + 1

/-- The start-of-message octet. -/
def som : UInt8 := 0x53

/-- The octet that may precede the start of message. -/
def mark : UInt8 := 0xFF

/-- The fixed part of every frame before any security block. -/
def headerSize : ℕ := 5

/-- The configuration address. -/
def broadcastAddress : Address := 0x7F

/-- The bit of the address octet that says the frame is a reply. -/
def replyFlag : UInt8 := 0x80

/-- GOLINE: internal/frame/control.go:37 -/
def Address.valid (a : Address) : Bool := a ≤ broadcastAddress

/-- The control octet, reserved bits included.
GOLINE: internal/frame/control.go:45 -/
structure Control where
  octet : UInt8
  deriving DecidableEq, Repr

/-- GOLINE: internal/frame/control.go:58 -/
def Control.sequence (c : Control) : UInt8 := c.octet &&& 0x03

/-- GOLINE: internal/frame/control.go:61-66 -/
def Control.scheme (c : Control) : Scheme :=
  if c.octet &&& 0x04 ≠ 0 then .crc16 else .checksum

/-- GOLINE: internal/frame/control.go:69 -/
def Control.hasSecurityBlock (c : Control) : Bool := c.octet &&& 0x08 ≠ 0

/-- GOLINE: internal/frame/control.go:73-82 -/
def newControl (seq : UInt8) (scheme : Scheme) (security : Bool) : Control :=
  let c := seq &&& 0x03
  let c := if scheme = .crc16 then c ||| 0x04 else c
  let c := if security then c ||| 0x08 else c
  ⟨c⟩

/-- The optional block between the control octet and the code.
GOLINE: internal/frame/control.go:87-96 -/
structure SecurityBlock where
  type : UInt8
  data : Octets := []
  deriving DecidableEq, Repr

/-- GOLINE: internal/frame/control.go:100 -/
def maxSecurityBlockSize : ℕ := 0xFF

/-- GOLINE: internal/frame/control.go:108 -/
def maxFrameSize : ℕ := 0xFFFF

/-- The block's length as its leading octet reports it, zero for no block.
GOLINE: internal/frame/control.go:112-117 -/
def SecurityBlock.wireLen : Option SecurityBlock → ℕ
  | none => 0
  | some s => 2 + s.data.length

/-- One frame, with the wire fields as they appeared.
GOLINE: internal/frame/frame.go:24-58 -/
structure Frame where
  hasMark : Bool := false
  isReply : Bool
  address : Address
  control : Control
  security : Option SecurityBlock := none
  code : UInt8
  data : Octets
  check : UInt16 := 0
  deriving DecidableEq, Repr

namespace Frame

/-- GOLINE: internal/frame/frame.go:62-64 -/
def len (f : Frame) : ℕ :=
  headerSize + SecurityBlock.wireLen f.security + 1 + f.data.length + f.control.scheme.size

/-- GOLINE: internal/frame/frame.go:67-72 -/
def wireLen (f : Frame) : ℕ := if f.hasMark then f.len + 1 else f.len

/-- The octets of the security block as the encoder writes them. -/
def securityOctets : Option SecurityBlock → Octets
  | none => []
  | some s => UInt8.ofNat (SecurityBlock.wireLen (some s)) :: s.type :: s.data

/-- GOLINE: internal/frame/encode.go:73-91 -/
def appendBody (f : Frame) (dst : Octets) : Octets :=
  let total := f.len
  let addr := if f.isReply then f.address ||| replyFlag else f.address
  dst ++ [som] ++ [addr, UInt8.ofNat total, UInt8.ofNat (total >>> 8), f.control.octet] ++
    securityOctets f.security ++ [f.code] ++ f.data

/-- GOLINE: internal/frame/encode.go:95-101 -/
def computeCheck (f : Frame) : UInt16 :=
  let body := f.appendBody []
  match f.control.scheme with
  | .crc16 => crc16 body
  | .checksum => (checksum body).toUInt16

/-- GOLINE: internal/frame/encode.go:105 -/
def sealCheck (f : Frame) : Frame := { f with check := f.computeCheck }

/-- GOLINE: internal/frame/encode.go:108 -/
def checkOK (f : Frame) : Bool := f.check == f.computeCheck

end Frame

/-- Why the encoder refuses a frame.
GOLINE: internal/frame/errors.go:39-57 -/
inductive EncodeError where
  | invalidAddress
  | securityBlockTooLong
  | frameTooLong
  deriving DecidableEq, Repr

/-- GOLINE: internal/frame/encode.go:50-60 -/
def Frame.representable (f : Frame) : Except EncodeError Unit :=
  if ¬ Address.valid f.address then .error .invalidAddress
  else if SecurityBlock.wireLen f.security > maxSecurityBlockSize then .error .securityBlockTooLong
  else if f.len > maxFrameSize then .error .frameTooLong
  else .ok ()

/-- GOLINE: internal/frame/encode.go:21-41 -/
def Frame.append (f : Frame) (dst : Octets) : Except EncodeError Octets := do
  f.representable
  let dst := if f.hasMark then dst ++ [mark] else dst
  let dst := f.appendBody dst
  match f.control.scheme with
  | .crc16 => return dst ++ [f.check.toUInt8, (f.check >>> 8).toUInt8]
  | .checksum => return dst ++ [f.check.toUInt8]

/-- The decoder's errors other than a failed error check.
GOLINE: internal/frame/errors.go:14-37 -/
inductive DecodeError where
  | shortBuffer
  | noStartOfMessage
  | lengthMismatch
  | badSecurityBlock
  deriving DecidableEq, Repr

/-- What `decode` returns: a frame, with or without `ErrBadCheck`, or an error alone. -/
inductive Decoded where
  | ok (f : Frame)
  | badCheck (f : Frame)
  | error (e : DecodeError)
  deriving DecidableEq, Repr

/-- The frame of a decoder answer, whatever its error check said. -/
def Decoded.frame? : Decoded → Option Frame
  | .ok f => some f
  | .badCheck f => some f
  | .error _ => none

/-- GOLINE: internal/frame/decode.go:113-122 -/
def decodeSecurityBlock (rest : Octets) : Except DecodeError (SecurityBlock × Octets) :=
  match rest with
  | l :: t :: _ =>
    let n := l.toNat
    if n < 2 ∨ n > rest.length then .error .badSecurityBlock
    else .ok (⟨t, (rest.take n).drop 2⟩, rest.drop n)
  | _ => .error .badSecurityBlock

/-- The tail of the decoder: the code, the payload and the error check.
GOLINE: internal/frame/decode.go:87-107 -/
def decodeTail (f : Frame) (rest : Octets) : Decoded :=
  let scheme := f.control.scheme
  if rest.length < 1 + scheme.size then .error .lengthMismatch
  else
    let dataEnd := rest.length - scheme.size
    let check := rest.drop dataEnd
    let f := { f with
      code := rest.headD 0
      data := (rest.take dataEnd).drop 1
      check := match scheme with
        | .crc16 => (check.getD 0 0).toUInt16 ||| ((check.getD 1 0).toUInt16 <<< 8)
        | .checksum => (check.getD 0 0).toUInt16 }
    if f.checkOK then .ok f else .badCheck f

/-- The decoder after the mark octet.
GOLINE: internal/frame/decode.go:52-107 -/
def decodeBody (hasMark : Bool) (body : Octets) : Decoded :=
  if body.length = 0 then .error .shortBuffer
  else if body.headD 0 ≠ som then .error .noStartOfMessage
  else if body.length < headerSize then .error .shortBuffer
  else
    let addr := body.getD 1 0
    let control : Control := ⟨body.getD 4 0⟩
    let f : Frame := {
      hasMark := hasMark
      isReply := addr &&& replyFlag ≠ 0
      address := addr &&& ~~~replyFlag
      control := control
      code := 0
      data := [] }
    let total := (body.getD 2 0).toNat ||| ((body.getD 3 0).toNat <<< 8)
    if total < headerSize + 1 + control.scheme.size then .error .lengthMismatch
    else if body.length < total then .error .shortBuffer
    else
      let rest := (body.take total).drop headerSize
      if control.hasSecurityBlock then
        match decodeSecurityBlock rest with
        | .error e => .error e
        | .ok (sb, remainder) => decodeTail { f with security := some sb } remainder
      else decodeTail f rest

/-- Parse one frame from the front of `buf`.
GOLINE: internal/frame/decode.go:43-108 -/
def decode (buf : Octets) : Decoded :=
  match buf with
  | b :: body => if b = mark then decodeBody true body else decodeBody false buf
  | [] => decodeBody false []

end Osdp
