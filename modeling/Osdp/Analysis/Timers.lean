import Osdp.Model.Builders
import Mathlib.Tactic.Linarith

/-!
# Durations on the wire

Every duration of a command passes through `unitsOf` and is cut to the octets of its field. What the
field then holds is the count of units modulo the size of the field (`TimerField.eq_sent`), and that is
the saturated count as long as the conversion to an `int` leaves the count alone. An `int` of 64 bits
always does. One of 32 bits does so below 2^31 units; beyond, the count wraps before it is compared
with the limit, and `sent_eq_saturated_iff` says which counts still come out right.
-/

set_option autoImplicit false

namespace Osdp

/-- What a field of a limit should carry for a duration: its whole units, and no more than the limit. -/
def saturated (unit : ℤ) (limit : ℕ) (d : ℤ) : ℕ :=
  if d ≤ 0 then 0 else min (d / unit).toNat limit

/-- A longer time saturates no lower. -/
theorem saturated_mono {unit : ℤ} (hunit : 0 < unit) (limit : ℕ) {d d' : ℤ} (h : d ≤ d') :
    saturated unit limit d ≤ saturated unit limit d' := by
  have hdiv : d / unit ≤ d' / unit := Int.ediv_le_ediv hunit h
  unfold saturated
  split
  · exact Nat.zero_le _
  · rw [if_neg (by omega)]
    omega

/-- The number in some octets of a payload, the least significant octet first. -/
def readField (data : Octets) (offset width : ℕ) : Option ℕ :=
  if offset + width ≤ data.length then some (fromLittleEndian ((data.drop offset).take width))
  else none

/-- The fields of the commands that carry a duration: what is read back for a duration, given
everything else the command is built from, with the unit and the largest value of the field. -/
inductive TimerField : (IntSize → Int64 → Option ℕ) → ℤ → ℕ → Prop
  | output (before after : List Output) (number : UInt8) (control : OutputControl) :
    TimerField (fun size d => readField (size.outputCommand
      (before ++ { number := number, control := control, timer := d.toInt } :: after)).data
      (4 * before.length + 2) 2) tick 0xFFFF
  | buzzerOn (reader : UInt8) (tone : Tone) (off : ℤ) (count : UInt8) :
    TimerField (fun size d => readField (size.buzzerCommand reader tone d.toInt off count).data 2 1)
      tick 0xFF
  | buzzerOff (reader : UInt8) (tone : Tone) (on : ℤ) (count : UInt8) :
    TimerField (fun size d => readField (size.buzzerCommand reader tone on d.toInt count).data 3 1)
      tick 0xFF
  | temporaryOn (reader led : UInt8) (temporary : LEDState) (hold : ℤ) (permanent : LEDState) :
    TimerField (fun size d => readField (size.ledCommand reader led
      { temporary with on := d.toInt } hold permanent).data 3 1) tick 0xFF
  | temporaryOff (reader led : UInt8) (temporary : LEDState) (hold : ℤ) (permanent : LEDState) :
    TimerField (fun size d => readField (size.ledCommand reader led
      { temporary with off := d.toInt } hold permanent).data 4 1) tick 0xFF
  | hold (reader led : UInt8) (temporary permanent : LEDState) :
    TimerField (fun size d => readField (size.ledCommand reader led temporary d.toInt
      permanent).data 7 2) tick 0xFFFF
  | permanentOn (reader led : UInt8) (temporary : LEDState) (hold : ℤ) (permanent : LEDState) :
    TimerField (fun size d => readField (size.ledCommand reader led temporary hold
      { permanent with on := d.toInt }).data 10 1) tick 0xFF
  | permanentOff (reader led : UInt8) (temporary : LEDState) (hold : ℤ) (permanent : LEDState) :
    TimerField (fun size d => readField (size.ledCommand reader led temporary hold
      { permanent with off := d.toInt }).data 11 1) tick 0xFF
  | text (display : TextDisplay) :
    TimerField (fun size d => readField (size.textCommand { display with hold := d.toInt }).data 2 1)
      second 0xFF

/-! ## From the count to the octets -/

/-- What is left of a count in a field that holds values up to the limit. -/
def sent (size : IntSize) (unit : ℤ) (limit : ℕ) (d : ℤ) : ℕ :=
  (size.unitsOf unit d limit % (limit + 1)).toNat

/-- The low octet of a number. -/
theorem toNat_ofInt (t : ℤ) : (UInt8.ofInt t).toNat = (t % 256).toNat := by
  rw [UInt8.ofInt, UInt8.toNat_ofNat']
  omega

/-- It is read back modulo 256. -/
theorem fromLittleEndian_octet (t : ℤ) : fromLittleEndian [UInt8.ofInt t] = (t % 256).toNat := by
  rw [fromLittleEndian, fromLittleEndian, toNat_ofInt]
  omega

/-- Two octets are read back modulo 65536. -/
theorem fromLittleEndian_octets (t : ℤ) :
    fromLittleEndian [UInt8.ofInt t, UInt8.ofInt (t >>> (8 : ℕ))] = (t % 65536).toNat := by
  have hshift : t >>> (8 : ℕ) = t / 256 := Int.shiftRight_eq_div_pow t 8
  rw [fromLittleEndian, fromLittleEndian, fromLittleEndian, toNat_ofInt, toNat_ofInt, hshift]
  omega

/-- A field is read where it was written. -/
theorem readField_append (u v : Octets) {x : Octets} {width : ℕ} (hwidth : x.length = width) :
    readField (u ++ (x ++ v)) u.length width = some (fromLittleEndian x) := by
  rw [readField, if_pos (by simp only [List.length_append]; omega), List.drop_left, ← hwidth,
    List.take_left]

/-- One octet of a payload that holds a count. -/
theorem readField_octet (size : IntSize) (unit d : ℤ) (u v : Octets) :
    readField (u ++ ([UInt8.ofInt (size.unitsOf unit d 0xFF)] ++ v)) u.length 1 =
      some (sent size unit 0xFF d) := by
  have hwidth : [UInt8.ofInt (size.unitsOf unit d 0xFF)].length = 1 := rfl
  rw [readField_append u v hwidth, fromLittleEndian_octet]
  rfl

/-- Two octets of a payload that hold a count. -/
theorem readField_octets (size : IntSize) (unit d : ℤ) (u v : Octets) :
    readField (u ++ ([UInt8.ofInt (size.unitsOf unit d 0xFFFF),
      UInt8.ofInt (size.unitsOf unit d 0xFFFF >>> (8 : ℕ))] ++ v)) u.length 2 =
      some (sent size unit 0xFFFF d) := by
  have hwidth : [UInt8.ofInt (size.unitsOf unit d 0xFFFF),
      UInt8.ofInt (size.unitsOf unit d 0xFFFF >>> (8 : ℕ))].length = 2 := rfl
  rw [readField_append u v hwidth, fromLittleEndian_octets]
  rfl

/-- Each output takes four octets. -/
theorem length_outputEntries (size : IntSize) (os : List Output) :
    (size.outputCommand os).data.length = 4 * os.length := by
  induction os with
  | nil => rfl
  | cons o os ih =>
    have hcons : (size.outputCommand (o :: os)).data.length =
        (size.outputCommand os).data.length + 4 := by
      simp [IntSize.outputCommand]
    rw [hcons, ih, List.length_cons]
    omega

/-- The timer of an entry, whatever is before it and after it. -/
theorem readField_outputCommand (size : IntSize) (before after : List Output) (o : Output) :
    readField (size.outputCommand (before ++ o :: after)).data (4 * before.length + 2) 2 =
      some (sent size tick 0xFFFF o.timer) := by
  have hdata : (size.outputCommand (before ++ o :: after)).data =
      ((size.outputCommand before).data ++ [o.number, o.control]) ++
        ([UInt8.ofInt (size.unitsOf tick o.timer 0xFFFF),
          UInt8.ofInt (size.unitsOf tick o.timer 0xFFFF >>> (8 : ℕ))] ++
        (size.outputCommand after).data) := by
    simp [IntSize.outputCommand, IntSize.ticks, maxOutputTimer]
  have hoffset : ((size.outputCommand before).data ++ [o.number, o.control]).length =
      4 * before.length + 2 := by
    rw [List.length_append, length_outputEntries]
    rfl
  rw [hdata, ← hoffset, readField_octets]

variable {field : IntSize → Int64 → Option ℕ} {unit : ℤ} {limit : ℕ}

/-- **Every field holds the count of its duration, cut to the size of the field.** -/
theorem TimerField.eq_sent (h : TimerField field unit limit) (size : IntSize) (d : Int64) :
    field size d = some (sent size unit limit d.toInt) := by
  cases h with
  | output before after number control => exact readField_outputCommand size before after _
  | buzzerOn reader tone off count => exact readField_octet size tick d.toInt [reader, tone] _
  | buzzerOff reader tone on count => exact readField_octet size tick d.toInt [reader, tone, _] _
  | temporaryOn reader led temporary hold permanent =>
    exact readField_octet size tick d.toInt [reader, led, temporary.control] _
  | temporaryOff reader led temporary hold permanent =>
    exact readField_octet size tick d.toInt [reader, led, temporary.control, _] _
  | hold reader led temporary permanent =>
    exact readField_octets size tick d.toInt [reader, led, temporary.control, _, _,
      temporary.onColour, temporary.offColour] _
  | permanentOn reader led temporary hold permanent =>
    exact readField_octet size tick d.toInt [reader, led, temporary.control, _, _,
      temporary.onColour, temporary.offColour, _, _, permanent.control] _
  | permanentOff reader led temporary hold permanent =>
    exact readField_octet size tick d.toInt [reader, led, temporary.control, _, _,
      temporary.onColour, temporary.offColour, _, _, permanent.control, _] _
  | text display => exact readField_octet size second d.toInt [display.reader, _] _

/-- A unit is positive. -/
theorem TimerField.unit_pos (h : TimerField field unit limit) : 0 < unit := by
  cases h <;> decide

/-- A limit fits 31 bits. -/
theorem TimerField.limit_lt (h : TimerField field unit limit) : limit < 2 ^ 31 := by
  cases h <;> decide

/-! ## The conversion to an `int` -/

/-- A count the conversion leaves alone, or whose wrapped value is not noticed: it is still above the
limit, or the octets it is cut to hold the limit. -/
def CountKept (size : IntSize) (unit : ℤ) (limit : ℕ) (d : ℤ) : Prop :=
  d ≤ 0 ∨ size.int (d / unit) = d / unit ∨ limit < size.int (d / unit) ∨
    size.int (d / unit) % (limit + 1) = limit

/-- A count that fits is kept. -/
theorem IntSize.int_eq {size : IntSize} {n : ℤ} (h0 : 0 ≤ n) (h : n < 2 ^ (size.bits - 1)) :
    size.int n = n := by
  cases size with
  | bits32 => exact Int.bmod_eq_of_le (by simp [bits]; omega) (by simp [bits] at h ⊢; omega)
  | bits64 => exact Int.bmod_eq_of_le (by simp [bits]; omega) (by simp [bits] at h ⊢; omega)

/-- One that is not kept is at least 2^31. -/
theorem IntSize.int_eq_or {n : ℤ} (size : IntSize) (h0 : 0 ≤ n) : size.int n = n ∨ 2 ^ 31 ≤ n := by
  by_cases h : n < 2 ^ 31
  · refine .inl (int_eq h0 (h.trans_le ?_))
    cases size <;> decide
  · exact .inr (not_lt.mp h)

/-- **When a field holds the saturated count.** -/
theorem sent_eq_saturated_iff (size : IntSize) (hunit : 0 < unit) (hlimit : limit < 2 ^ 31) (d : ℤ) :
    sent size unit limit d = saturated unit limit d ↔ CountKept size unit limit d := by
  unfold sent saturated IntSize.unitsOf CountKept
  by_cases hd : d ≤ 0
  · simp [hd]
  have hcount : 0 ≤ d / unit := Int.ediv_nonneg (by omega) hunit.le
  rw [if_neg hd, if_neg hd]
  generalize d / unit = count at hcount
  have hsize := size.int_eq_or hcount
  generalize size.int count = n at hsize
  dsimp only
  by_cases hover : n > limit
  · rw [if_pos hover, Int.emod_eq_of_lt (by omega) (by omega)]
    omega
  · rw [if_neg hover]
    have hrem := Int.emod_nonneg n (show (limit : ℤ) + 1 ≠ 0 by omega)
    have hlt := Int.emod_lt_of_pos n (show (0 : ℤ) < limit + 1 by omega)
    rcases hsize with rfl | hbig
    · rw [Int.emod_eq_of_lt hcount (by omega)]
      omega
    · by_cases hkeep : n = count
      · omega
      · omega

/-- When the count survives. -/
theorem countKept_of {size : IntSize} (hunit : 0 < unit) (d : Int64)
    (h : size = .bits64 ∨ d.toInt / unit < 2 ^ 31) : CountKept size unit limit d.toInt := by
  by_cases hd : d.toInt ≤ 0
  · exact .inl hd
  have hcount : 0 ≤ d.toInt / unit := Int.ediv_nonneg (by omega) hunit.le
  refine .inr (.inl ?_)
  rcases h with rfl | hlt
  · have hle : d.toInt / unit ≤ d.toInt := Int.ediv_le_self _ (by omega)
    exact IntSize.int_eq hcount (hle.trans_lt d.toInt_lt)
  · rcases size.int_eq_or hcount with heq | hbig
    · exact heq
    · omega

/-! ## The machine of 64 bits -/

/-- A count in an octet. -/
theorem ofInt_natCast (n : ℕ) : UInt8.ofInt n = UInt8.ofNat n := by
  apply UInt8.toNat_inj.mp
  rw [toNat_ofInt, UInt8.toNat_ofNat']
  omega

/-- Ticks on a machine of 64 bits. -/
theorem ticks_bits64 {d : ℤ} (hd : d < 2 ^ 63) (limit : ℕ) :
    IntSize.bits64.ticks d limit = ticks d limit := by
  rw [IntSize.ticks, IntSize.unitsOf, ticks]
  split
  · rfl
  · have hcount : 0 ≤ d / tick := Int.ediv_nonneg (by omega) (by decide)
    have hle : d / tick ≤ d := Int.ediv_le_self _ (by omega)
    have hint : IntSize.bits64.int (d / tick) = d / tick :=
      IntSize.int_eq hcount (hle.trans_lt hd)
    dsimp only
    rw [hint]
    split <;> split <;> omega

/-- What is modelled without the width of an `int` is what a machine of 64 bits does. -/
theorem outputCommand_bits64 {os : List Output} (h : ∀ o ∈ os, o.timer < 2 ^ 63) :
    IntSize.bits64.outputCommand os = outputCommand os := by
  have hentry : ∀ o ∈ os,
      [o.number, o.control, UInt8.ofInt (IntSize.bits64.ticks o.timer maxOutputTimer),
        UInt8.ofInt (IntSize.bits64.ticks o.timer maxOutputTimer >>> (8 : ℕ))] =
      [o.number, o.control, UInt8.ofNat (ticks o.timer maxOutputTimer),
        UInt8.ofNat (ticks o.timer maxOutputTimer >>> 8)] := by
    intro o ho
    rw [ticks_bits64 (h o ho), ← Int.natCast_shiftRight, ofInt_natCast, ofInt_natCast]
  rw [IntSize.outputCommand, outputCommand]
  congr 1
  exact List.flatMap_congr hentry

/-- **Timers saturate while an `int` can count them.** A field that carries a duration holds the
saturated count of its units exactly if the count survives the conversion to an `int`; it does on a
machine of 64 bits, and below 2^31 units on any; and there the field grows with the duration. -/
theorem timers_saturate (h : TimerField field unit limit) :
    (∀ size (d : Int64), field size d = some (saturated unit limit d.toInt) ↔
      CountKept size unit limit d.toInt) ∧
    (∀ size (d : Int64), size = .bits64 ∨ d.toInt / unit < 2 ^ 31 →
      field size d = some (saturated unit limit d.toInt)) ∧
    ∀ size (d d' : Int64), d ≤ d' → size = .bits64 ∨ d'.toInt / unit < 2 ^ 31 →
      ∃ n n', field size d = some n ∧ field size d' = some n' ∧ n ≤ n' := by
  have hiff : ∀ size (d : Int64), field size d = some (saturated unit limit d.toInt) ↔
      CountKept size unit limit d.toInt := by
    intro size d
    rw [h.eq_sent, Option.some_inj, sent_eq_saturated_iff size h.unit_pos h.limit_lt]
  have hholds : ∀ size (d : Int64), size = .bits64 ∨ d.toInt / unit < 2 ^ 31 →
      field size d = some (saturated unit limit d.toInt) := by
    intro size d hd
    exact (hiff size d).mpr (countKept_of h.unit_pos d hd)
  refine ⟨hiff, hholds, ?_⟩
  intro size d d' hle hd'
  have hint : d.toInt ≤ d'.toInt := Int64.le_iff_toInt_le.mp hle
  have hd : size = .bits64 ∨ d.toInt / unit < 2 ^ 31 :=
    hd'.imp_right (Int.ediv_le_ediv h.unit_pos hint).trans_lt
  exact ⟨_, _, hholds size d hd, hholds size d' hd', saturated_mono h.unit_pos limit hint⟩

/-- A door strike, on a machine of 64 bits and on one of 32. -/
theorem timers_saturate_strike :
    readField (IntSize.bits64.outputCommand
      ([] ++ { number := 0, control := OutputControl.timedOn, timer := Int64.maxValue.toInt } ::
        [])).data (4 * 0 + 2) 2 = some 0xFFFF ∧
    readField (IntSize.bits32.outputCommand
      ([] ++ { number := 0, control := OutputControl.timedOn, timer := (5000000000 : Int64).toInt } ::
        [])).data (4 * 0 + 2) 2 = some 50 :=
  ⟨(timers_saturate (.output [] [] 0 OutputControl.timedOn)).2.1 .bits64 Int64.maxValue (.inl rfl),
    (timers_saturate (.output [] [] 0 OutputControl.timedOn)).2.1 .bits32 5000000000
      (.inr (by decide))⟩

/-- 2^31 ticks, a little under seven years. -/
def longHold : ℤ := 2 ^ 31 * tick

/-- On a machine of 32 bits a timer of seven years is no time at all, and shorter than one of five
seconds; so are the cycles of a buzzer and of an LED, and a text held for 2^31 seconds. -/
theorem timer_wraps_strike :
    longHold ≤ Int64.maxValue.toInt ∧ saturated tick 0xFFFF longHold = 0xFFFF ∧
    readField (IntSize.bits32.outputCommand
      [{ number := 0, control := OutputControl.timedOn, timer := longHold }]).data 2 2 = some 0 ∧
    readField (IntSize.bits32.outputCommand
      [{ number := 0, control := OutputControl.timedOn, timer := 5 * second }]).data 2 2 = some 50 ∧
    readField (IntSize.bits32.buzzerCommand 0 2 longHold 0 1).data 2 1 = some 0 ∧
    readField (IntSize.bits32.ledCommand 0 0 {} longHold {}).data 7 2 = some 0 ∧
    readField (IntSize.bits32.textCommand { hold := 2 ^ 31 * second, content := [] }).data 2 1 =
      some 0 := by
  decide

end Osdp
