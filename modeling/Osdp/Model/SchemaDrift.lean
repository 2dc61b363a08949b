import Osdp.Library.Pattern
import Osdp.Model.Store

/-!
# The schema gate

`tools/schemadrift`: the line parsers of the `.proto` and `.fbs` schemas and of the ordinal ledger, and
the comparison of a message with the table that mirrors it. The texts are octets, and the patterns the
source's own; a file is given by its path and what it holds.
-/

set_option autoImplicit false

namespace Osdp

namespace SchemaDrift

open Encoding Pattern

open Service (text)

/-- GOLINE: tools/schemadrift/schema.go:10-24 -/
structure Field where
  name : Octets
  type : Octets
  slot : ℤ
  deriving DecidableEq, Repr

/-- GOLINE: tools/schemadrift/schema.go:27-35 -/
structure Message where
  name : Octets
  fields : List Field := []
  file : Octets
  line : ℕ
  deriving DecidableEq, Repr

/-- GOLINE: tools/schemadrift/schema.go:38-45 -/
def Message.field (m : Message) (name : Octets) : Option Field := m.fields.find? (·.name = name)

/-- GOLINE: tools/schemadrift/schema.go:57 -/
def fbsOrdinal (protoNumber : ℤ) : ℤ := protoNumber - 1

/-- GOLINE: tools/schemadrift/schema.go:60 -/
def protoNumber (fbsID : ℤ) : ℤ := fbsID + 1

/-! ## Classes of characters -/

/-- `\s` -/
def isSpace (c : UInt8) : Bool := c == 9 || c == 10 || c == 12 || c == 13 || c == 32

/-- `[a-z]` -/
def isLower (c : UInt8) : Bool := decide (97 ≤ c ∧ c ≤ 122)

/-- `[A-Za-z]` -/
def isLetter (c : UInt8) : Bool := isLower c || decide (65 ≤ c ∧ c ≤ 90)

def underscore : UInt8 := 95

/-- `[a-z_]` and `[a-z0-9_]` -/
def isNameStart (c : UInt8) : Bool := isLower c || c == underscore
def isNamePart (c : UInt8) : Bool := isNameStart c || isDigit c

/-- `[A-Za-z_]` and `[A-Za-z0-9_]` -/
def isIdentStart (c : UInt8) : Bool := isLetter c || c == underscore
def isIdentPart (c : UInt8) : Bool := isIdentStart c || isDigit c

/-- `[A-Za-z0-9_.]` -/
def isDotted (c : UInt8) : Bool := isIdentPart c || c == 46

/-- `[A-Za-z0-9_\[\]]` -/
def isFBSType (c : UInt8) : Bool := isIdentPart c || c == 91 || c == 93

/-- `[\[;]` -/
def isFieldEnd (c : UInt8) : Bool := c == 91 || c == 59

/-- `strconv.Atoi` of a text of digits, for an `int` of 64 bits: the number, and whether it is in
range. Out of range the number is the largest. -/
def atoi (s : Octets) : ℤ × Bool :=
  (min (decimalValue s) (2 ^ 63 - 1), decide (decimalValue s < 2 ^ 63))

def newline : UInt8 := 10

def closing : UInt8 := 125

/-! ## Messages -/

/-- GOLINE: tools/schemadrift/proto.go:15-17 -/
def protoPackage : Pattern UInt8 :=
  cat [many isSpace, lit (text "package"), plus isSpace, group 1 (plus isDotted), many isSpace,
    lit (text ";")]

def protoMessage : Pattern UInt8 :=
  cat [lit (text "message"), plus isSpace, group 1 (word isIdentStart isIdentPart), many isSpace,
    lit (text "\x7b")]

def protoEnum : Pattern UInt8 :=
  cat [lit (text "enum"), plus isSpace, group 1 (word isIdentStart isIdentPart), many isSpace,
    lit (text "\x7b")]

/-- `(repeated|optional)\s+` -/
def protoLabel : Pattern UInt8 :=
  seq (group 1 (alt (lit (text "repeated")) (lit (text "optional")))) (plus isSpace)

/-- GOLINE: tools/schemadrift/proto.go:22-23 -/
def protoField : Pattern UInt8 :=
  cat [plus isSpace, opt protoLabel, group 2 (plus isDotted), plus isSpace,
    group 3 (word isNameStart isNamePart), many isSpace, lit (text "="), many isSpace,
    group 4 (plus isDigit), many isSpace, one isFieldEnd]

/-- GOLINE: tools/schemadrift/proto.go:97-113 -/
def parseProtoField (line : Octets) : Option Field :=
  match find protoField line with
  | none => none
  | some m =>
    let number := atoi (m.get 4)
    if number.2 = false then none
    else
      let kind := if m.get 1 = text "repeated" then text "repeated " ++ m.get 2 else m.get 2
      some { name := m.get 3, type := kind, slot := number.1 }

/-- The enums are the keys of the source's map.
GOLINE: tools/schemadrift/proto.go:84-94 -/
structure ProtoFile where
  path : Octets
  package : Octets := []
  messages : List Message := []
  enums : List Octets := []
  deriving DecidableEq, Repr

/-- The errors of the parsers, with the values their texts name.
GOLINE: tools/schemadrift/proto.go:78, fbs.go:99-102, verify.go:60-76 -/
inductive ParseError where
  /-- what `os.ReadFile` returns -/
  | unreadable (path : Octets)
  /-- `%s: message %q is not closed` -/
  | messageNotClosed (path name : Octets)
  /-- `%s: table %q is not closed` -/
  | tableNotClosed (path name : Octets)
  /-- `mirrors: %s` is not followed by a table -/
  | mirrorWithoutTable (path mirror : Octets)
  /-- per-table `mirrors:` declarations need a source file -/
  | noSource (path : Octets)
  /-- `%s claims to mirror %s: %w` -/
  | claimsToMirror (schema path : Octets) (cause : ParseError)
  /-- `%s: namespace %q mirrors %s, whose package is %q` -/
  | otherPackage (schema space path package : Octets)
  deriving DecidableEq, Repr

/-- The file so far and the message that is open. -/
structure ProtoScan where
  file : ProtoFile
  current : Option Message := none
  deriving DecidableEq, Repr

/-- The message that is open, if there is one, goes to the file. -/
def ProtoScan.flush (s : ProtoScan) : ProtoFile :=
  { s.file with messages := s.file.messages ++ s.current.toList }

/-- One line of the loop of `ParseProto`, with its index.
GOLINE: tools/schemadrift/proto.go:48-76 -/
def parseProtoLine (s : ProtoScan) (l : Octets × ℕ) : ProtoScan :=
  match find protoPackage l.1 with
  | some m => { s with file := { s.file with package := m.get 1 } }
  | none =>
    match find protoEnum l.1 with
    | some m => { s with file := { s.file with enums := m.get 1 :: s.file.enums } }
    | none =>
      match find protoMessage l.1 with
      | some m =>
        { file := s.flush, current := some { name := m.get 1, file := s.file.path, line := l.2 + 1 } }
      | none =>
        if [closing] <+: l.1 then { file := s.flush, current := none }
        else
          match s.current, parseProtoField l.1 with
          | some m, some field =>
            { s with current := some { m with fields := m.fields ++ [field] } }
          | _, _ => s

/-- GOLINE: tools/schemadrift/proto.go:36-81 -/
def parseProto (path content : Octets) : Except ParseError ProtoFile :=
  let s := (content.splitOn newline).zipIdx.foldl parseProtoLine { file := { path := path } }
  match s.current with
  | some m => .error (.messageNotClosed path m.name)
  | none => .ok s.file

/-! ## Tables -/

/-- GOLINE: tools/schemadrift/fbs.go:15-17 -/
def fbsNamespace : Pattern UInt8 :=
  cat [many isSpace, lit (text "namespace"), plus isSpace, group 1 (plus isDotted), many isSpace,
    lit (text ";")]

def fbsTable : Pattern UInt8 :=
  cat [lit (text "table"), plus isSpace, group 1 (word isIdentStart isIdentPart), many isSpace,
    lit (text "\x7b")]

def fbsField : Pattern UInt8 :=
  cat [plus isSpace, group 1 (word isNameStart isNamePart), many isSpace, lit (text ":"),
    many isSpace, group 2 (plus isFBSType), many isSpace, lit (text "("), many isSpace,
    lit (text "id"), many isSpace, lit (text ":"), many isSpace, group 3 (plus isDigit),
    many isSpace, lit (text ")")]

/-- GOLINE: tools/schemadrift/fbs.go:22 -/
def fbsSource : Pattern UInt8 :=
  cat [lit (text "//"), many isSpace, lit (text "source:"), many isSpace,
    group 1 (seq (plus fun c => !isSpace c) (lit (text ".proto"))), many isSpace, atEnd]

/-- GOLINE: tools/schemadrift/fbs.go:26 -/
def fbsMirrors : Pattern UInt8 :=
  cat [many isSpace,
    opt (alt (seq (lit (text "/")) (plus (· == 47))) (seq (lit (text "/")) (plus (· == 42)))),
    many isSpace, lit (text "mirrors:"), many isSpace, group 1 (plus isDotted), many isSpace, atEnd]

/-- GOLINE: tools/schemadrift/fbs.go:109-120 -/
def parseFBSField (line : Octets) : Option Field :=
  match find fbsField line with
  | none => none
  | some m =>
    let id := atoi (m.get 3)
    if id.2 = false then none
    else some { name := m.get 1, type := m.get 2, slot := protoNumber id.1 }

/-- The mirrors are the source's map as a list, the latest entry first.
GOLINE: tools/schemadrift/fbs.go:30-49 -/
structure Schema where
  path : Octets
  space : Octets := []
  source : Octets := []
  tables : List Message := []
  declared : List (Octets × Octets) := []
  deriving DecidableEq, Repr

structure FBSScan where
  schema : Schema
  current : Option Message := none
  pendingMirror : Octets := []
  deriving DecidableEq, Repr

/-- One line of the loop of `ParseFBS`, with its index. A table that was not closed is dropped when
the next one opens.
GOLINE: tools/schemadrift/fbs.go:68-97 -/
def parseFBSLine (s : FBSScan) (l : Octets × ℕ) : FBSScan :=
  match find fbsSource l.1 with
  | some m => { s with schema := { s.schema with source := m.get 1 } }
  | none =>
    match find fbsNamespace l.1 with
    | some m => { s with schema := { s.schema with space := m.get 1 } }
    | none =>
      match find fbsMirrors l.1 with
      | some m => { s with pendingMirror := m.get 1 }
      | none =>
        match find fbsTable l.1 with
        | some m =>
          let table : Message := { name := m.get 1, file := s.schema.path, line := l.2 + 1 }
          if s.pendingMirror = [] then { s with current := some table }
          else
            { schema :=
                { s.schema with declared := (m.get 1, s.pendingMirror) :: s.schema.declared }
              current := some table }
        | none =>
          if [closing] <+: l.1 then
            { s with
              schema := { s.schema with tables := s.schema.tables ++ s.current.toList }
              current := none }
          else
            match s.current, parseFBSField l.1 with
            | some m, some field =>
              { s with current := some { m with fields := m.fields ++ [field] } }
            | _, _ => s

/-- GOLINE: tools/schemadrift/fbs.go:56-105 -/
def parseFBS (path content : Octets) : Except ParseError Schema :=
  let s := (content.splitOn newline).zipIdx.foldl parseFBSLine { schema := { path := path } }
  match s.current with
  | some m => .error (.tableNotClosed path m.name)
  | none =>
    if s.pendingMirror ≠ [] then .error (.mirrorWithoutTable path s.pendingMirror)
    else .ok s.schema

/-! ## The ledger -/

/-- GOLINE: tools/schemadrift/ledger.go:22-30 -/
structure Ledger where
  slots : Octets → Option (ℤ → Option ℤ)
  names : Octets → Option (ℤ → Option Octets)

/-- A message the names of which were never recorded has none.
GOLINE: tools/schemadrift/ledger.go:89-92 -/
def Ledger.message (l : Ledger) (name : Octets) :
    Option ((ℤ → Option ℤ) × (ℤ → Option Octets)) :=
  (l.slots name).map fun slots => (slots, (l.names name).getD fun _ => none)

/-- GOLINE: tools/schemadrift/ledger.go:33-41 -/
def ledgerMessage : Pattern UInt8 :=
  cat [many isSpace, lit (text "-"), many isSpace, lit (text "message:"), many isSpace,
    group 1 (plus isDotted), many isSpace, atEnd]

def ledgerNumber : Pattern UInt8 :=
  cat [many isSpace, lit (text "-"), many isSpace, lit (text "number:"), many isSpace,
    group 1 (plus isDigit), many isSpace, atEnd]

def ledgerOrdinal : Pattern UInt8 :=
  cat [many isSpace, lit (text "ordinal:"), many isSpace, group 1 (plus isDigit), many isSpace, atEnd]

def ledgerName : Pattern UInt8 :=
  cat [many isSpace, lit (text "name:"), many isSpace, group 1 (plus fun c => !isSpace c),
    many isSpace, atEnd]

def ledgerSection : Pattern UInt8 :=
  cat [word isLower fun c => isLower c || isDigit c || c == underscore, lit (text ":")]

structure LedgerScan where
  ledger : Ledger
  message : Octets := []
  number : ℤ := 0

/-- One line of the loop of `ParseLedger`.
GOLINE: tools/schemadrift/ledger.go:61-84 -/
def parseLedgerLine (s : LedgerScan) (line : Octets) : LedgerScan :=
  if (find ledgerSection line).isSome then { s with message := [] }
  else
    match find ledgerMessage line with
    | some m =>
      { s with
        ledger :=
          { slots := Function.update s.ledger.slots (m.get 1) (some fun _ => none)
            names := Function.update s.ledger.names (m.get 1) (some fun _ => none) }
        message := m.get 1 }
    | none =>
      if s.message = [] then s
      else
        match find ledgerNumber line with
        | some m => { s with number := (atoi (m.get 1)).1 }
        | none =>
          match find ledgerOrdinal line with
          | some m =>
            { s with
              ledger :=
                { s.ledger with
                  slots := Function.update s.ledger.slots s.message
                    ((s.ledger.slots s.message).map fun slots =>
                      Function.update slots s.number (some (atoi (m.get 1)).1)) } }
          | none =>
            match find ledgerName line with
            | some m =>
              { s with
                ledger :=
                  { s.ledger with
                    names := Function.update s.ledger.names s.message
                      ((s.ledger.names s.message).map fun names =>
                        Function.update names s.number (some (m.get 1))) } }
            | none => s

/-- GOLINE: tools/schemadrift/ledger.go:49-86 -/
def parseLedger (content : Octets) : Ledger :=
  ((content.splitOn newline).foldl parseLedgerLine
    { ledger := { slots := fun _ => none, names := fun _ => none } }).ledger

/-! ## The comparison -/

/-- GOLINE: tools/schemadrift/compare.go:15-32 -/
def fbsTypeFor : List (Octets × Octets) :=
  [(text "double", text "double"), (text "float", text "float"), (text "int32", text "int"),
    (text "int64", text "long"), (text "uint32", text "uint"), (text "uint64", text "ulong"),
    (text "sint32", text "int"), (text "sint64", text "long"), (text "fixed32", text "uint"),
    (text "fixed64", text "ulong"), (text "bool", text "bool"), (text "string", text "string"),
    (text "bytes", text "[ubyte]"), (text "repeated bytes", text "[[ubyte]]"),
    (text "repeated string", text "[string]"), (text "repeated int32", text "[int]")]

/-- What a drift says, with the values its text names. -/
inductive Detail where
  /-- no entry in buffers.lock; the ledger has not recorded this message's slots -/
  | noEntry
  /-- in %s but missing from the mirror -/
  | missing (file : Octets)
  /-- in %s but not in the proto it mirrors -/
  | unmirrored (file : Octets)
  /-- proto field %d maps to FlatBuffers id %d, but the mirror puts it at id %d -/
  | slot (number want got : ℤ)
  /-- no known FlatBuffers mapping for proto type %q -/
  | unmapped (type : Octets)
  /-- proto %s should mirror as %s, but the schema says %s -/
  | type (proto want got : Octets)
  /-- field %d is not in buffers.lock; regenerate before shipping it -/
  | unrecorded (number : ℤ)
  /-- buffers.lock gives field %d ordinal %d, not %d -/
  | ordinal (number got want : ℤ)
  /-- buffers.lock records field %d as %q; renaming a field in place keeps the slot and changes its
  meaning -/
  | renamed (number : ℤ) (name : Octets)
  /-- table at %s:%d mirrors nothing: no message of that name in %s -/
  | mirrorsNothing (file : Octets) (line : ℕ) (source : Octets)
  deriving DecidableEq, Repr

/-- GOLINE: tools/schemadrift/compare.go:35-39 -/
structure Drift where
  message : Octets
  field : Octets := []
  detail : Detail
  deriving DecidableEq, Repr

/-- The type a field of a proto type mirrors as, if there is one: an enum as itself.
GOLINE: tools/schemadrift/compare.go:102-105 -/
def expectedType (enums : List Octets) (type : Octets) : Option Octets :=
  if type ∈ enums then some type else fbsTypeFor.lookup type

/-- GOLINE: tools/schemadrift/compare.go:89-117 -/
def compareField (message : Octets) (want got : Field) (enums : List Octets) : List Drift :=
  (if want.slot ≠ got.slot then
    [{ message := message, field := want.name
       detail := .slot want.slot (fbsOrdinal want.slot) (fbsOrdinal got.slot) }]
  else []) ++
  match expectedType enums want.type with
  | none => [{ message := message, field := want.name, detail := .unmapped want.type }]
  | some expected =>
    if expected ≠ got.type then
      [{ message := message, field := want.name, detail := .type want.type expected got.type }]
    else []

/-- GOLINE: tools/schemadrift/compare.go:120-140 -/
def compareLedger (message : Octets) (want : Field) (slots : ℤ → Option ℤ)
    (names : ℤ → Option Octets) : List Drift :=
  match slots want.slot with
  | none => [{ message := message, field := want.name, detail := .unrecorded want.slot }]
  | some ordinal =>
    (if ordinal ≠ fbsOrdinal want.slot then
      [{ message := message, field := want.name
         detail := .ordinal want.slot ordinal (fbsOrdinal want.slot) }]
    else []) ++
    match names want.slot with
    | none => []
    | some named =>
      if named ≠ want.name then
        [{ message := message, field := want.name, detail := .renamed want.slot named }]
      else []

/-- GOLINE: tools/schemadrift/compare.go:54-86 -/
def compare (proto fbs : Message) (qualified : Octets) (ledger : Ledger) (enums : List Octets) :
    List Drift :=
  let known := ledger.message qualified
  (if known.isNone then [{ message := qualified, detail := .noEntry }] else []) ++
  (proto.fields.flatMap fun want =>
    match fbs.field want.name with
    | none => [{ message := qualified, field := want.name, detail := .missing proto.file }]
    | some got =>
      compareField qualified want got enums ++
      match known with
      | none => []
      | some (slots, names) => compareLedger qualified want slots names) ++
  fbs.fields.flatMap fun got =>
    match proto.field got.name with
    | none => [{ message := qualified, field := got.name, detail := .unmirrored fbs.file }]
    | some _ => []

/-! ## One schema file -/

section Verify

-- what `os.ReadFile` finds at a path, and `filepath.Join` of the root with a source
variable (readFile : Octets → Option Octets) (join : Octets → Octets)

/-- GOLINE: tools/schemadrift/verify.go:58-78 -/
def protoSource (schema : Schema) : Except ParseError ProtoFile :=
  if schema.source = [] then .error (.noSource schema.path)
  else
    let path := join schema.source
    match readFile path with
    | none => .error (.claimsToMirror schema.path path (.unreadable path))
    | some content =>
      match parseProto path content with
      | .error e => .error (.claimsToMirror schema.path path e)
      | .ok source =>
        if schema.space ≠ [] ∧ source.package ≠ [] ∧ schema.space ≠ source.package then
          .error (.otherPackage schema.path schema.space path source.package)
        else .ok source

/-- The qualified name of a table: what it declares, or the namespace and its own name.
GOLINE: tools/schemadrift/verify.go:37-40 -/
def Schema.qualified (schema : Schema) (table : Message) : Octets :=
  (schema.declared.lookup table.name).getD (schema.space ++ text "." ++ table.name)

/-- The last message of a name.
GOLINE: tools/schemadrift/verify.go:29-32 -/
def ProtoFile.byName (source : ProtoFile) (name : Octets) : Option Message :=
  source.messages.reverse.find? (·.name = name)

/-- The drifts of one table, and whether it was compared.
GOLINE: tools/schemadrift/verify.go:37-52 -/
def verifyTable (schema : Schema) (source : ProtoFile) (ledger : Ledger) (table : Message) :
    Bool × List Drift :=
  match source.byName table.name with
  | none =>
    (false, [{ message := schema.qualified table
               detail := .mirrorsNothing table.file table.line schema.source }])
  | some message => (true, compare message table (schema.qualified table) ledger source.enums)

/-- GOLINE: tools/schemadrift/verify.go:13-55 -/
def verify (fbsPath : Octets) (ledger : Ledger) : Except ParseError (ℕ × List Drift) :=
  match readFile fbsPath with
  | none => .error (.unreadable fbsPath)
  | some content =>
    match parseFBS fbsPath content with
    | .error e => .error e
    | .ok schema =>
      if schema.source = [] ∧ schema.declared = [] then .ok (0, [])
      else
        match protoSource readFile join schema with
        | .error e => .error e
        | .ok source =>
          let tables := schema.tables.map (verifyTable schema source ledger)
          .ok (tables.countP (·.1), tables.flatMap (·.2))

end Verify

end SchemaDrift

end Osdp
