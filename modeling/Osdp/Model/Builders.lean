import Osdp.Model.Cmd

/-!
# The builders that take a duration

`internal/cmd`: output, buzzer, LED and text commands. A duration is a count of nanoseconds, and the
count of units it is sent as is an `int` of the machine the library was built for, so everything here
takes the width of one. `Osdp.ticks` and `Osdp.outputCommand` are what a machine with 64 bits computes.
-/

set_option autoImplicit false

namespace Osdp

/-- The widths an `int` of Go has. -/
inductive IntSize where
  | bits32
  | bits64
  deriving DecidableEq, Repr

/-- GOLINE: internal/cmd/text.go:162 -/
def second : ℤ := 10 ^ 9

/-- GOLINE: internal/cmd/output.go:128 -/
def maxToneTime : ℤ := 0xFF

/-- GOLINE: internal/cmd/led.go:114-117 -/
def maxLEDTime : ℤ := 0xFF
def maxLEDTimer : ℤ := 0xFFFF

/-- GOLINE: internal/cmd/text.go:57-60 -/
def maxTextLength : ℕ := 0xFF
def maxTextHold : ℤ := 0xFF

/-- What a buzzer does. Any octet may be asked for.
GOLINE: internal/cmd/output.go:113 -/
abbrev Tone := UInt8

/-- GOLINE: internal/cmd/led.go:9 -/
abbrev Colour := UInt8

/-- GOLINE: internal/cmd/led.go:32 -/
abbrev LEDControl := UInt8

/-- One of the two states of an LED, the halves of its blink cycle in nanoseconds.
GOLINE: internal/cmd/led.go:58-70 -/
structure LEDState where
  control : LEDControl := 0
  on : ℤ := 0
  off : ℤ := 0
  onColour : Colour := 0
  offColour : Colour := 0
  deriving DecidableEq, Repr

/-- GOLINE: internal/cmd/text.go:14 -/
abbrev TextControl := UInt8

/-- GOLINE: internal/cmd/text.go:21 -/
def textPermanent : TextControl := 0x01

/-- A message for a display, its hold time in nanoseconds.
GOLINE: internal/cmd/text.go:74-113 -/
structure TextDisplay where
  reader : UInt8 := 0
  control : TextControl := 0
  hold : ℤ := 0
  row : UInt8 := 0
  column : UInt8 := 0
  content : Octets
  deriving DecidableEq, Repr

/-- GOLINE: internal/cmd/text.go:146-151 -/
def originOf (n : UInt8) : UInt8 := if n = 0 then 1 else n

namespace IntSize

def bits : IntSize → ℕ
  | bits32 => 32
  | bits64 => 64

variable (size : IntSize)

/-- The conversion `int(x)`: the low bits, in two's complement. -/
def int (x : ℤ) : ℤ := x.bmod (2 ^ size.bits)

/-- The body of `ticks` and `seconds`. The quotient is a duration; the conversion comes before the
comparison with the limit. -/
def unitsOf (unit d limit : ℤ) : ℤ :=
  if d ≤ 0 then 0
  else
    let n := size.int (d / unit)
    if n > limit then limit else n

/-- GOLINE: internal/cmd/output.go:23-32 -/
def ticks (d limit : ℤ) : ℤ := size.unitsOf tick d limit

/-- GOLINE: internal/cmd/text.go:158-167 -/
def seconds (d limit : ℤ) : ℤ := size.unitsOf second d limit

/-- GOLINE: internal/cmd/output.go:102-109 -/
def outputCommand (outputs : List Output) : Message :=
  { code := Code.out
    data := outputs.flatMap fun o =>
      let t := size.ticks o.timer maxOutputTimer
      [o.number, o.control, UInt8.ofInt t, UInt8.ofInt (t >>> (8 : ℕ))] }

/-- GOLINE: internal/cmd/output.go:137-145 -/
def buzzerCommand (reader : UInt8) (tone : Tone) (on off : ℤ) (count : UInt8) : Message :=
  { code := Code.buz
    data := [reader, tone, UInt8.ofInt (size.ticks on maxToneTime),
      UInt8.ofInt (size.ticks off maxToneTime), count] }

/-- GOLINE: internal/cmd/led.go:87-111 -/
def ledCommand (reader led : UInt8) (temporary : LEDState) (hold : ℤ) (permanent : LEDState) :
    Message :=
  let t := size.ticks hold maxLEDTimer
  { code := Code.led
    data := [reader, led,
      temporary.control, UInt8.ofInt (size.ticks temporary.on maxLEDTime),
      UInt8.ofInt (size.ticks temporary.off maxLEDTime), temporary.onColour, temporary.offColour,
      UInt8.ofInt t, UInt8.ofInt (t >>> (8 : ℕ)),
      permanent.control, UInt8.ofInt (size.ticks permanent.on maxLEDTime),
      UInt8.ofInt (size.ticks permanent.off maxLEDTime), permanent.onColour,
      permanent.offColour] }

/-- GOLINE: internal/cmd/text.go:118-139 -/
def textCommand (d : TextDisplay) : Message :=
  let content := if d.content.length > maxTextLength then d.content.take maxTextLength else d.content
  let control := if d.control = 0 then textPermanent else d.control
  { code := Code.text
    data := [d.reader, control, UInt8.ofInt (size.seconds d.hold maxTextHold), originOf d.row,
      originOf d.column, UInt8.ofNat content.length] ++ content }

end IntSize

end Osdp
