import Osdp.Model.SchemaDrift

/-!
# The text of a message

A top-level message with one declaration to a line, as a syntax of its own: fields of any type inside
and outside a `oneof`, with a number in any of the three notations, blank lines and comments, all
spaces free. Beside the fields it declares (`MessageText.fields`) it has the fields a line parser gets
to see (`MessageText.read`): a field is missed when its line is not indented, when it is a map, when
its number is hexadecimal or does not fit an `int`, and when it comes after a `oneof` whose brace
stands in the first column; a number in octal is taken for a decimal one.
-/

set_option autoImplicit false

namespace Osdp

namespace SchemaDrift

open Encoding Pattern

open Service (text)

/-! ## The text of a message -/

/-- Spaces within a line. -/
structure Blank where
  octets : Octets
  spaces : ∀ c ∈ octets, isSpace c = true ∧ c ≠ newline

/-- At least one of them. -/
structure Gap extends Blank where
  nonempty : octets ≠ []

/-- A character of one class and any number of another. -/
structure Word (p q : UInt8 → Bool) where
  first : UInt8
  rest : Octets
  first_mem : p first = true
  rest_mem : ∀ c ∈ rest, q c = true

def Word.octets {p q : UInt8 → Bool} (w : Word p q) : Octets := w.first :: w.rest

abbrev FieldName := Word isNameStart isNamePart

abbrev Ident := Word isIdentStart isIdentPart

abbrev TypeName := Word isDotted isDotted

inductive Label where
  | repeated
  | optional

def Label.octets : Label → Octets
  | repeated => text "repeated"
  | optional => text "optional"

/-- The type of a field with the space after it. A type without a label is not spelled like one. -/
inductive TypeText where
  | singular (type : TypeName) (unlabelled : ∀ l : Label, type.octets ≠ l.octets) (gap : Gap)
  | labelled (label : Label) (gap : Gap) (type : TypeName) (gap' : Gap)
  | map (gap : Blank) (inside : Octets) (line : newline ∉ inside) (gap' : Blank)

namespace TypeText

def octets : TypeText → Octets
  | singular type _ gap => type.octets ++ gap.octets
  | labelled label gap type gap' => label.octets ++ (gap.octets ++ (type.octets ++ gap'.octets))
  | map gap inside _ gap' => text "map" ++ (gap.octets ++ 60 :: (inside ++ 62 :: gap'.octets))

/-- The type as the comparison names types. -/
def declared : TypeText → Octets
  | singular type _ _ => type.octets
  | labelled .repeated _ type _ => text "repeated " ++ type.octets
  | labelled .optional _ type _ => type.octets
  | map _ inside _ _ => text "map<" ++ inside ++ text ">"

def isMap : TypeText → Bool
  | map _ _ _ _ => true
  | _ => false

end TypeText

/-- A number in one of the three ways the language has. -/
inductive Numeral where
  | decimal (n : ℕ)
  | octal (digits : List (Fin 8))
  | hexadecimal (digit : Fin 16) (digits : List (Fin 16))

namespace Numeral

def octets : Numeral → Octets
  | decimal n => formatUint n
  | octal digits => 48 :: digits.map fun d => UInt8.ofNat (48 + d.val)
  | hexadecimal digit digits => 48 :: 120 :: (digit :: digits).map fun d => hexDigit d.val

def value : Numeral → ℕ
  | decimal n => n
  | octal digits => Nat.ofDigits 8 (digits.reverse.map Fin.val)
  | hexadecimal digit digits => Nat.ofDigits 16 ((digit :: digits).reverse.map Fin.val)

/-- The number read: digits, as if they were decimal. -/
def read (n : Numeral) : Option ℕ :=
  if n.octets.all isDigit = true ∧ decimalValue n.octets < 2 ^ 63 then some (decimalValue n.octets)
  else none

/-- A number whose digits, taken for decimal ones, name it and fit an `int`: a decimal one below
`2^63`, or an octal one with only zeros before its last digit. -/
def Legible : Numeral → Prop
  | decimal n => n < 2 ^ 63
  | octal digits => ∀ d ∈ digits.dropLast, d = 0
  | hexadecimal _ _ => False

end Numeral

/-- The end of a line: nothing, or a comment. -/
inductive Remark where
  | blank (gap : Blank)
  | comment (gap : Blank) (rest : Octets) (line : newline ∉ rest)

def Remark.octets : Remark → Octets
  | blank gap => gap.octets
  | comment gap rest _ => gap.octets ++ 47 :: 47 :: rest

/-- The end of a declaration, with the options it may have. -/
inductive Ending where
  | plain (remark : Remark)
  | options (inside : Octets) (line : newline ∉ inside) (gap : Blank) (remark : Remark)

def Ending.octets : Ending → Octets
  | plain remark => 59 :: remark.octets
  | options inside _ gap remark => 91 :: (inside ++ 93 :: (gap.octets ++ 59 :: remark.octets))

/-- A field, on a line of its own. -/
structure Declaration where
  indent : Blank
  type : TypeText
  name : FieldName
  beforeEquals : Blank
  afterEquals : Blank
  number : Numeral
  beforeEnd : Blank
  ending : Ending

namespace Declaration

/-- The line from the number on. -/
def fromNumber (d : Declaration) : Octets :=
  d.number.octets ++ (d.beforeEnd.octets ++ d.ending.octets)

/-- The line from the name on. -/
def fromName (d : Declaration) : Octets :=
  d.name.octets ++ (d.beforeEquals.octets ++ 61 :: (d.afterEquals.octets ++ d.fromNumber))

def octets (d : Declaration) : Octets := d.indent.octets ++ (d.type.octets ++ d.fromName)

/-- The field declared. -/
def field (d : Declaration) : Field :=
  { name := d.name.octets, type := d.type.declared, slot := d.number.value }

/-- The field read, if there is one. -/
def read (d : Declaration) : Option Field :=
  if d.indent.octets = [] ∨ d.type.isMap = true then none
  else
    d.number.read.map fun n : ℕ =>
      { name := d.name.octets, type := d.type.declared, slot := (n : ℤ) }

/-- A declaration the parser reads as it is meant: indented, not a map, and with a legible number. -/
def Legible (d : Declaration) : Prop :=
  d.indent.octets ≠ [] ∧ d.type.isMap = false ∧ d.number.Legible

end Declaration

/-- A line among the fields. -/
inductive Member where
  | field (d : Declaration)
  | remark (r : Remark)

namespace Member

def octets : Member → Octets
  | field d => d.octets
  | remark r => r.octets

def declaration? : Member → Option Declaration
  | field d => some d
  | remark _ => none

end Member

structure Oneof where
  indent : Blank
  gap : Gap
  name : Ident
  beforeBrace : Blank
  remark : Remark
  members : List Member
  closeIndent : Blank
  closeRemark : Remark

namespace Oneof

def header (o : Oneof) : Octets :=
  o.indent.octets ++ (text "oneof" ++ (o.gap.octets ++ (o.name.octets ++ (o.beforeBrace.octets ++
    123 :: o.remark.octets))))

def close (o : Oneof) : Octets := o.closeIndent.octets ++ closing :: o.closeRemark.octets

def lines (o : Oneof) : List Octets := o.header :: (o.members.map Member.octets ++ [o.close])

end Oneof

inductive Item where
  | member (m : Member)
  | oneof (o : Oneof)

namespace Item

def lines : Item → List Octets
  | member m => [m.octets]
  | oneof o => o.lines

def declarations : Item → List Declaration
  | member m => m.declaration?.toList
  | oneof o => o.members.filterMap Member.declaration?

/-- Does its last line look like the end of the message? -/
def closes : Item → Bool
  | member _ => false
  | oneof o => o.closeIndent.octets.isEmpty

end Item

/-- A message in the first column, its fields of different names and numbers. -/
structure MessageText where
  gap : Gap
  name : Ident
  beforeBrace : Blank
  remark : Remark
  body : List Item
  closeRemark : Remark
  names : ((body.flatMap Item.declarations).map fun d => d.field.name).Nodup
  numbers : ((body.flatMap Item.declarations).map fun d => d.field.slot).Nodup

/-- What is read of the items of a message: everything up to a line that looks like its end. -/
def readBody : List Item → List Field
  | [] => []
  | item :: body =>
    item.declarations.filterMap Declaration.read ++ if item.closes then [] else readBody body

namespace MessageText

variable (t : MessageText)

def header : Octets :=
  text "message" ++ (t.gap.octets ++ (t.name.octets ++ (t.beforeBrace.octets ++
    123 :: t.remark.octets)))

def close : Octets := closing :: t.closeRemark.octets

def lines : List Octets := t.header :: (t.body.flatMap Item.lines ++ [t.close])

def declarations : List Declaration := t.body.flatMap Item.declarations

/-- The fields declared. -/
def fields : List Field := t.declarations.map Declaration.field

/-- The fields read. -/
def read : List Field := readBody t.body

/-- Every field is indented, is not a map and has a legible number, and nothing is declared after a
`oneof` whose brace stands in the first column. -/
def Legible : Prop :=
  (∀ d ∈ t.declarations, d.Legible) ∧
    t.body.Pairwise fun item later => item.closes = true → later.declarations = []

end MessageText

/-! ## No line has a line end in it -/

/-- A blank stays on its line. -/
theorem Blank.newline_notMem (b : Blank) : newline ∉ b.octets := fun h => (b.spaces _ h).2 rfl

/-- A word stays on its line. -/
theorem Word.newline_notMem {p q : UInt8 → Bool} (w : Word p q) (hp : p newline = false)
    (hq : q newline = false) : newline ∉ w.octets := by
  intro h
  rcases List.mem_cons.1 h with h | h
  · have hfirst := w.first_mem
    rw [← h, hp] at hfirst
    cases hfirst
  · have hrest := w.rest_mem _ h
    rw [hq] at hrest
    cases hrest

/-- A remark stays on its line. -/
theorem Remark.newline_notMem (r : Remark) : newline ∉ r.octets := by
  cases r with
  | blank gap => exact gap.newline_notMem
  | comment gap rest line =>
    simp only [octets, List.mem_append, List.mem_cons, not_or]
    exact ⟨gap.newline_notMem, by decide, by decide, line⟩

/-- A type stays on its line. -/
theorem TypeText.newline_notMem (t : TypeText) : newline ∉ t.octets := by
  cases t with
  | singular type _ gap =>
    simp only [octets, List.mem_append, not_or]
    exact ⟨type.newline_notMem (by decide) (by decide), gap.newline_notMem⟩
  | labelled label gap type gap' =>
    have hlabel : newline ∉ label.octets := by cases label <;> decide
    simp only [octets, List.mem_append, not_or]
    exact ⟨hlabel, gap.newline_notMem, type.newline_notMem (by decide) (by decide),
      gap'.newline_notMem⟩
  | map gap inside line gap' =>
    have hmap : newline ∉ text "map" := by decide
    simp only [octets, List.mem_append, List.mem_cons, not_or]
    exact ⟨hmap, gap.newline_notMem, by decide, line, by decide, gap'.newline_notMem⟩

/-- A number stays on its line. -/
theorem Numeral.newline_notMem (n : Numeral) : newline ∉ n.octets := by
  cases n with
  | decimal n =>
    intro h
    exact absurd (digits_isDigit n _ h) (by decide)
  | octal digits =>
    have hall : ∀ d : Fin 8, UInt8.ofNat (48 + d.val) ≠ newline := by decide
    simp only [octets, List.mem_cons, List.mem_map, not_or, not_exists, not_and]
    exact ⟨by decide, fun d _ => hall d⟩
  | hexadecimal digit digits =>
    have hall : ∀ d : Fin 16, hexDigit d.val ≠ newline := by decide
    simp only [octets, List.mem_cons, List.mem_map, not_or, not_exists, not_and]
    exact ⟨by decide, by decide, fun d _ => hall d⟩

/-- The end of a declaration stays on its line. -/
theorem Ending.newline_notMem (e : Ending) : newline ∉ e.octets := by
  cases e with
  | plain remark =>
    simp only [octets, List.mem_cons, not_or]
    exact ⟨by decide, remark.newline_notMem⟩
  | options inside line gap remark =>
    simp only [octets, List.mem_append, List.mem_cons, not_or]
    exact ⟨by decide, line, by decide, gap.newline_notMem, by decide, remark.newline_notMem⟩

/-- A member of a `oneof` is one line. -/
theorem Member.newline_notMem (m : Member) : newline ∉ m.octets := by
  cases m with
  | field d =>
    simp only [octets, Declaration.octets, Declaration.fromName, Declaration.fromNumber,
      List.mem_append, List.mem_cons, not_or]
    exact ⟨d.indent.newline_notMem, d.type.newline_notMem,
      d.name.newline_notMem (by decide) (by decide), d.beforeEquals.newline_notMem, by decide,
      d.afterEquals.newline_notMem, d.number.newline_notMem, d.beforeEnd.newline_notMem,
      d.ending.newline_notMem⟩
  | remark r => exact r.newline_notMem

/-- An item is made of lines. -/
theorem Item.newline_notMem (item : Item) : ∀ l ∈ item.lines, newline ∉ l := by
  intro l hl
  cases item with
  | member m =>
    rw [List.mem_singleton.1 hl]
    exact m.newline_notMem
  | oneof o =>
    rcases List.mem_cons.1 hl with rfl | hl
    · have honeof : newline ∉ text "oneof" := by decide
      simp only [Oneof.header, List.mem_append, List.mem_cons, not_or]
      exact ⟨o.indent.newline_notMem, honeof, o.gap.newline_notMem,
        o.name.newline_notMem (by decide) (by decide), o.beforeBrace.newline_notMem, by decide,
        o.remark.newline_notMem⟩
    rcases List.mem_append.1 hl with hl | hl
    · obtain ⟨m, -, rfl⟩ := List.mem_map.1 hl
      exact m.newline_notMem
    · rw [List.mem_singleton.1 hl, Oneof.close]
      simp only [List.mem_append, List.mem_cons, not_or]
      exact ⟨o.closeIndent.newline_notMem, by decide, o.closeRemark.newline_notMem⟩

/-- A message is made of lines. -/
theorem MessageText.newline_notMem (t : MessageText) : ∀ l ∈ t.lines, newline ∉ l := by
  intro l hl
  rcases List.mem_cons.1 hl with rfl | hl
  · have hmessage : newline ∉ text "message" := by decide
    simp only [header, List.mem_append, List.mem_cons, not_or]
    exact ⟨hmessage, t.gap.newline_notMem, t.name.newline_notMem (by decide) (by decide),
      t.beforeBrace.newline_notMem, by decide, t.remark.newline_notMem⟩
  rcases List.mem_append.1 hl with hl | hl
  · obtain ⟨item, -, hl⟩ := List.mem_flatMap.1 hl
    exact item.newline_notMem l hl
  · rw [List.mem_singleton.1 hl, close, List.mem_cons, not_or]
    exact ⟨by decide, t.closeRemark.newline_notMem⟩

end SchemaDrift

end Osdp
