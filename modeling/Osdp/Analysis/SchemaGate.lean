import Osdp.Analysis.ProtoRun

/-!
# What a passed schema gate says

`compare` reports nothing exactly when the ledger knows the message and every field read has a field of
its name in the table, with its slot, the type it maps to and the ordinal the ledger gives it, and the
table has no other field (`compare_eq_nil_iff`). So the table mirrors the fields the parser read
(`corresponds_of_compare`). These are the fields declared exactly if the message is legible
(`MessageText.read_eq_fields_iff`), and only then does a passed gate say what it is believed to say
(`corresponds_iff_read`): a field that was passed over is missed by the comparison as well.
-/

set_option autoImplicit false

namespace Osdp

namespace SchemaDrift

open Encoding Pattern

open Service (text)

/-- What a passed gate is to mean: the fields of a message and those of its table are the same names,
fields of one name have the same slot, counted from one on both sides, and the type the first maps to,
and the ledger gives every number the ordinal one below it. -/
structure Corresponds (fields : List Field) (table : Message) (qualified : Octets) (ledger : Ledger)
    (enums : List Octets) : Prop where
  names : (fields.map Field.name).Perm (table.fields.map Field.name)
  slot : ∀ want ∈ fields, ∀ got ∈ table.fields, want.name = got.name → got.slot = want.slot
  type : ∀ want ∈ fields, ∀ got ∈ table.fields, want.name = got.name →
    expectedType enums want.type = some got.type
  ledger : ∃ slots names, ledger.message qualified = some (slots, names) ∧
    ∀ want ∈ fields, slots want.slot = some (want.slot - 1)

/-! ## The comparison -/

variable {qualified : Octets} {ledger : Ledger} {enums : List Octets}

variable {want f : Field} {proto table m : Message} {name : Octets} {ds : List ℕ} {t : MessageText}

/-- When two fields do not drift. -/
theorem compareField_eq_nil_iff {got : Field} :
    compareField qualified want got enums = [] ↔
      want.slot = got.slot ∧ expectedType enums want.type = some got.type := by
  rw [compareField, List.append_eq_nil_iff]
  have hslot : (if want.slot ≠ got.slot then
      [({ message := qualified, field := want.name
          detail := .slot want.slot (fbsOrdinal want.slot) (fbsOrdinal got.slot) } : Drift)]
      else []) = [] ↔ want.slot = got.slot := by
    split <;> simp_all
  rw [hslot, and_congr_right_iff]
  intro _
  cases expectedType enums want.type with
  | none => simp
  | some expected =>
    simp only [Option.some.injEq]
    split <;> simp_all

/-- When the ledger agrees. -/
theorem compareLedger_eq_nil_iff {slots : ℤ → Option ℤ} {names : ℤ → Option Octets} :
    compareLedger qualified want slots names = [] ↔
      slots want.slot = some (want.slot - 1) ∧
        ∀ named, names want.slot = some named → named = want.name := by
  rw [compareLedger]
  cases slots want.slot with
  | none => simp
  | some ordinal =>
    dsimp only
    rw [List.append_eq_nil_iff]
    apply and_congr
    · rw [fbsOrdinal, Option.some.injEq]
      split <;> simp_all
    · cases names want.slot with
      | none => simp
      | some named =>
        simp only [Option.some.injEq, forall_eq']
        split <;> simp_all

/-- **When there is no drift.** -/
theorem compare_eq_nil_iff :
    compare proto table qualified ledger enums = [] ↔
      ∃ slots names, ledger.message qualified = some (slots, names) ∧
        (∀ want ∈ proto.fields, ∃ got, table.field want.name = some got ∧
          want.slot = got.slot ∧ expectedType enums want.type = some got.type ∧
          slots want.slot = some (want.slot - 1) ∧
          ∀ named, names want.slot = some named → named = want.name) ∧
        ∀ got ∈ table.fields, (proto.field got.name).isSome := by
  rw [compare]
  cases hknown : ledger.message qualified with
  | none => simp
  | some known =>
    obtain ⟨slots, names⟩ := known
    have hknown' : ∀ P : (ℤ → Option ℤ) → (ℤ → Option Octets) → Prop,
        (∃ slots' names', some (slots, names) = some (slots', names') ∧ P slots' names') ↔
          P slots names := by
      intro P
      constructor
      · rintro ⟨_, _, h, hP⟩
        cases h
        exact hP
      · exact fun hP => ⟨slots, names, rfl, hP⟩
    rw [hknown']
    simp only [Option.isNone_some, Bool.false_eq_true, if_false, List.nil_append,
      List.append_eq_nil_iff, List.flatMap_eq_nil_iff]
    apply and_congr
    · refine forall₂_congr fun want _ => ?_
      cases table.field want.name with
      | none => simp
      | some got =>
        simp only [List.append_eq_nil_iff, compareField_eq_nil_iff, compareLedger_eq_nil_iff,
          Option.some.injEq, exists_eq_left', and_assoc]
    · refine forall₂_congr fun got _ => ?_
      cases proto.field got.name <;> simp

/-- A field that is found has the name. -/
theorem Message.field_eq_some (h : m.field name = some f) : f ∈ m.fields ∧ f.name = name :=
  ⟨List.mem_of_find?_eq_some h, by simpa using List.find?_some h⟩

/-- A field is found exactly if there is one. -/
theorem Message.isSome_field : (m.field name).isSome ↔ name ∈ m.fields.map Field.name := by
  rw [field, List.find?_isSome, List.mem_map]
  simp

/-- **A passed comparison is a correspondence of what was read.** -/
theorem corresponds_of_compare (hproto : (proto.fields.map Field.name).Nodup)
    (htable : (table.fields.map Field.name).Nodup)
    (h : compare proto table qualified ledger enums = []) :
    Corresponds proto.fields table qualified ledger enums := by
  obtain ⟨slots, names, hknown, hfields, hothers⟩ := compare_eq_nil_iff.1 h
  -- the table has one field of a name, so it is the one that was compared
  have hsame : ∀ want ∈ proto.fields, ∀ got ∈ table.fields, want.name = got.name →
      table.field want.name = some got := by
    intro want hwant got hgot hname
    obtain ⟨got', hgot', -⟩ := hfields want hwant
    obtain ⟨hmem, hname'⟩ := Message.field_eq_some hgot'
    rw [hgot', List.inj_on_of_nodup_map htable hmem hgot (hname'.trans hname)]
  refine ⟨?_, ?_, ?_, slots, names, hknown, ?_⟩
  · rw [List.perm_ext_iff_of_nodup hproto htable]
    intro name
    constructor
    · intro hname
      obtain ⟨want, hwant, rfl⟩ := List.mem_map.1 hname
      obtain ⟨got, hgot, -⟩ := hfields want hwant
      obtain ⟨hmem, hname'⟩ := Message.field_eq_some hgot
      exact List.mem_map.2 ⟨got, hmem, hname'⟩
    · intro hname
      obtain ⟨got, hgot, rfl⟩ := List.mem_map.1 hname
      exact Message.isSome_field.1 (hothers got hgot)
  · intro want hwant got hgot hname
    obtain ⟨got', hgot', hslot, -⟩ := hfields want hwant
    rw [hsame want hwant got hgot hname] at hgot'
    cases hgot'
    exact hslot.symm
  · intro want hwant got hgot hname
    obtain ⟨got', hgot', -, htype, -⟩ := hfields want hwant
    rw [hsame want hwant got hgot hname] at hgot'
    cases hgot'
    exact htype
  · intro want hwant
    obtain ⟨got, -, -, -, hordinal, -⟩ := hfields want hwant
    exact hordinal

/-! ## The fields read and the fields declared -/

/-- A field that is read has the declared name and type. -/
theorem Declaration.read_eq_some {d : Declaration} (h : d.read = some f) :
    f.name = d.field.name ∧ f.type = d.field.type := by
  rw [read] at h
  split at h
  · cases h
  · obtain ⟨n, -, rfl⟩ := Option.map_eq_some_iff.1 h
    exact ⟨rfl, rfl⟩

/-- A number with nothing but zeros above its last digit is that digit in every base. -/
theorem ofDigits_of_tail (h : ∀ d ∈ ds.tail, d = 0) (b : ℕ) : Nat.ofDigits b ds = ds.headD 0 := by
  cases ds with
  | nil => rfl
  | cons d ds =>
    rw [Nat.ofDigits_cons, List.eq_replicate_of_mem (l := ds) h, Nat.ofDigits_replicate_zero]
    rfl

/-- Otherwise it is a greater one in base ten than in base eight. -/
theorem ofDigits_ten_eq_eight : Nat.ofDigits 10 ds = Nat.ofDigits 8 ds ↔ ∀ d ∈ ds.tail, d = 0 := by
  have hzero : ∀ ds : List ℕ, Nat.ofDigits 10 ds = 0 → ∀ d ∈ ds, d = 0 := by
    intro ds h
    induction ds with
    | nil => simp
    | cons d ds ih =>
      rw [Nat.ofDigits_cons] at h
      rw [List.forall_mem_cons]
      exact ⟨by omega, ih (by omega)⟩
  constructor
  · intro heq
    cases ds with
    | nil => simp
    | cons d ds =>
      rw [Nat.ofDigits_cons, Nat.ofDigits_cons] at heq
      have hle := Nat.ofDigits_monotone ds (show 8 ≤ 10 by decide)
      exact hzero ds (by omega)
  · intro h
    rw [ofDigits_of_tail h, ofDigits_of_tail h]

/-- **A number is read as it is meant exactly if it is legible.** -/
theorem Numeral.read_eq_value_iff (n : Numeral) : n.read = some n.value ↔ n.Legible := by
  cases n with
  | decimal n =>
    have hdigits : (formatUint n).all isDigit = true := List.all_eq_true.2 (digits_isDigit n)
    simp [read, octets, value, Legible, hdigits, decimalValue_formatUint]
  | octal digits =>
    have hlt : ∀ d ∈ digits.reverse.map Fin.val, d < 10 := by
      intro d hd
      obtain ⟨e, -, rfl⟩ := List.mem_map.1 hd
      omega
    have hdigits : (octal digits).octets.all isDigit = true := by
      refine List.all_eq_true.2 fun c hc => ?_
      rcases List.mem_cons.1 hc with rfl | hc
      · decide
      · obtain ⟨d, -, rfl⟩ := List.mem_map.1 hc
        exact (digit_roundtrip (by omega)).1
    have hvalue : decimalValue (octal digits).octets =
        Nat.ofDigits 10 (digits.reverse.map Fin.val) := by
      rw [← foldl_digits _ hlt]
      simp [decimalValue, octets, List.map_reverse, Function.comp_def]
    have hlegible : (∀ d ∈ (digits.reverse.map Fin.val).tail, d = 0) ↔ (octal digits).Legible := by
      rw [← List.map_tail, List.tail_reverse]
      simp only [Legible, List.mem_map, List.mem_reverse, forall_exists_index, and_imp,
        forall_apply_eq_imp_iff₂]
      exact forall₂_congr fun d _ => Fin.val_eq_zero_iff
    rw [← hlegible, read, hvalue, value]
    constructor
    · intro h
      split at h
      · exact ofDigits_ten_eq_eight.1 (Option.some.inj h)
      · cases h
    · intro h
      have hsmall : (digits.reverse.map Fin.val).headD 0 < 2 ^ 63 := by
        cases digits.reverse with
        | nil => decide
        | cons d ds => exact lt_trans d.isLt (by decide)
      rw [ofDigits_of_tail h, ofDigits_of_tail h, if_pos ⟨hdigits, hsmall⟩]
  | hexadecimal digit digits =>
    have hnot : (hexadecimal digit digits).octets.all isDigit = false := by
      simp [octets, show isDigit 120 = false by decide]
    simp [read, hnot, Legible]

/-- **A declaration is read as it is meant exactly if it is legible.** -/
theorem Declaration.read_eq_field_iff (d : Declaration) : d.read = some d.field ↔ d.Legible := by
  unfold read Legible field
  rw [← Numeral.read_eq_value_iff]
  by_cases h : d.indent.octets = [] ∨ d.type.isMap = true
  · rw [if_pos h]
    rcases h with h | h <;> simp [h]
  · rw [if_neg h]
    simp only [not_or, Bool.not_eq_true] at h
    cases d.number.read <;> simp [h]

/-- What is read of a body is read of the declarations up to some line. -/
theorem readBody_eq (body : List Item) :
    ∃ ds, ds <+: body.flatMap Item.declarations ∧ readBody body = ds.filterMap Declaration.read := by
  induction body with
  | nil => exact ⟨[], List.prefix_rfl, rfl⟩
  | cons item body ih =>
    obtain ⟨ds, hds, hread⟩ := ih
    rw [readBody, List.flatMap_cons]
    split
    · exact ⟨item.declarations, List.prefix_append _ _, List.append_nil _⟩
    · refine ⟨item.declarations ++ ds, List.prefix_append_right_inj _ |>.2 hds, ?_⟩
      rw [hread, List.filterMap_append]

/-- No other names are read than declared ones. -/
theorem names_filterMap_read (ds : List Declaration) :
    ((ds.filterMap Declaration.read).map Field.name).Sublist (ds.map fun d => d.field.name) := by
  induction ds with
  | nil => exact List.Sublist.slnil
  | cons d ds ih =>
    rw [List.map_cons]
    cases hd : d.read with
    | none =>
      rw [List.filterMap_cons_none hd]
      exact ih.cons _
    | some f =>
      rw [List.filterMap_cons_some hd, List.map_cons, (Declaration.read_eq_some hd).1]
      exact ih.cons_cons _

namespace MessageText

variable (t : MessageText)

/-- No name is read twice. -/
theorem nodup_read : (t.read.map Field.name).Nodup := by
  obtain ⟨ds, hds, hread⟩ := readBody_eq t.body
  rw [read, hread]
  exact t.names.sublist ((names_filterMap_read ds).trans (hds.sublist.map _))

variable {t}

end MessageText

/-- Nothing is left out of a list exactly if nothing is left out at any place. -/
theorem filterMap_eq_map_iff (ds : List Declaration) :
    ds.filterMap Declaration.read = ds.map Declaration.field ↔ ∀ d ∈ ds, d.Legible := by
  simp only [← Declaration.read_eq_field_iff]
  constructor
  · intro h
    induction ds with
    | nil => simp
    | cons d ds ih =>
      cases hd : d.read with
      | none =>
        rw [List.filterMap_cons_none hd] at h
        have hlen := congrArg List.length h
        have hle := List.length_filterMap_le Declaration.read ds
        simp at hlen
        omega
      | some f =>
        rw [List.filterMap_cons_some hd, List.map_cons, List.cons.injEq] at h
        rw [List.forall_mem_cons]
        exact ⟨by rw [hd, h.1], ih h.2⟩
  · intro h
    rw [← List.filterMap_eq_map]
    exact List.filterMap_congr h

/-- No more is read of a body than it declares. -/
theorem length_readBody_le (body : List Item) :
    (readBody body).length ≤ (body.flatMap Item.declarations).length := by
  obtain ⟨ds, hds, hread⟩ := readBody_eq body
  rw [hread]
  exact (List.length_filterMap_le _ _).trans hds.length_le

/-- **A message is read as it is declared exactly if it is legible.** -/
theorem MessageText.read_eq_fields_iff (t : MessageText) : t.read = t.fields ↔ t.Legible := by
  have hbody : ∀ body : List Item,
      readBody body = (body.flatMap Item.declarations).map Declaration.field ↔
        (∀ d ∈ body.flatMap Item.declarations, d.Legible) ∧
          body.Pairwise fun item later => item.closes = true → later.declarations = [] := by
    intro body
    induction body with
    | nil => simp [readBody]
    | cons item body ih =>
      have hrest := length_readBody_le body
      have hitem := List.length_filterMap_le Declaration.read item.declarations
      rw [readBody, List.flatMap_cons, List.map_append, List.pairwise_cons, List.forall_mem_append,
        ← filterMap_eq_map_iff item.declarations]
      -- the two halves are no longer than what is declared, so they agree each for itself
      have hsplit : ∀ {rest : List Field}, rest.length ≤ (body.flatMap Item.declarations).length →
          (item.declarations.filterMap Declaration.read ++ rest =
              item.declarations.map Declaration.field ++
                (body.flatMap Item.declarations).map Declaration.field ↔
            item.declarations.filterMap Declaration.read = item.declarations.map Declaration.field ∧
              rest = (body.flatMap Item.declarations).map Declaration.field) := by
        intro rest hlen
        refine ⟨fun h => List.append_inj h ?_, fun h => by rw [h.1, h.2]⟩
        have htotal := congrArg List.length h
        simp only [List.length_append, List.length_map] at htotal ⊢
        omega
      cases hcloses : item.closes with
      | false =>
        rw [if_neg Bool.false_ne_true, hsplit hrest, ih]
        simp [and_assoc]
      | true =>
        rw [if_pos rfl, hsplit (Nat.zero_le _)]
        have hnone : ([] : List Field) = (body.flatMap Item.declarations).map Declaration.field ↔
            ∀ later ∈ body, later.declarations = [] := by
          rw [eq_comm, List.map_eq_nil_iff, List.flatMap_eq_nil_iff]
        rw [hnone]
        constructor
        · rintro ⟨hhere, hlater⟩
          refine ⟨⟨hhere, ?_⟩, fun later h _ => hlater later h, ?_⟩
          · intro d hd
            obtain ⟨later, hl, hd⟩ := List.mem_flatMap.1 hd
            rw [hlater later hl] at hd
            cases hd
          · exact List.pairwise_of_forall_mem_list fun _ _ later h _ => hlater later h
        · rintro ⟨⟨hhere, -⟩, hlater, -⟩
          exact ⟨hhere, fun later h => hlater later h rfl⟩
  exact hbody t.body

/-- If as many fields are read as are declared, no line is passed over. -/
theorem MessageText.read_isSome (hlen : t.read.length = t.declarations.length) :
    t.read = t.declarations.filterMap Declaration.read ∧ ∀ d ∈ t.declarations, d.read.isSome := by
  obtain ⟨ds, hds, heq⟩ := readBody_eq t.body
  have hfilter : t.read = ds.filterMap Declaration.read := heq
  have hall : ds = t.declarations := by
    refine hds.eq_of_length_le ?_
    rw [hfilter] at hlen
    exact hlen ▸ List.length_filterMap_le _ _
  rw [hall] at hfilter
  refine ⟨hfilter, ?_⟩
  rw [← List.filterMap_length_eq_length, ← hfilter, hlen]

/-- A table can only mirror what was read and what is declared if the two are the same. -/
theorem Corresponds.read_eq (hread : Corresponds t.read table qualified ledger enums)
    (hdeclared : Corresponds t.fields table qualified ledger enums) : t.read = t.fields := by
  have hlen : t.read.length = t.declarations.length := by
    have h1 := hread.names.length_eq
    have h2 := hdeclared.names.length_eq
    simp only [List.length_map, MessageText.fields] at h1 h2
    omega
  obtain ⟨hfilter, hsome⟩ := MessageText.read_isSome hlen
  rw [hfilter, MessageText.fields, ← List.filterMap_eq_map]
  refine List.filterMap_congr fun d hd => ?_
  obtain ⟨f, hf⟩ := Option.isSome_iff_exists.1 (hsome d hd)
  obtain ⟨hname, htype⟩ := Declaration.read_eq_some hf
  have hmem : f ∈ t.read := hfilter ▸ List.mem_filterMap.2 ⟨d, hd, hf⟩
  -- the table has one slot for the name, for the field read and for the field declared
  obtain ⟨got, hgot, hgotname⟩ := List.mem_map.1
    (hread.names.subset (List.mem_map_of_mem (f := Field.name) hmem))
  have hslot : f.slot = d.field.slot :=
    (hread.slot f hmem got hgot hgotname.symm).symm.trans
      (hdeclared.slot d.field (List.mem_map_of_mem hd) got hgot (hname.symm.trans hgotname.symm))
  rw [hf, Function.comp_apply]
  congr 1
  cases f
  cases hname
  cases htype
  cases hslot
  rfl

/-- **What a passed comparison leaves open**: it says what it should exactly if the message was read
as it is declared. -/
theorem corresponds_iff_read (hm : m.fields = t.read) (htable : (table.fields.map Field.name).Nodup)
    (h : compare m table qualified ledger enums = []) :
    Corresponds t.fields table qualified ledger enums ↔ t.read = t.fields := by
  have hread : Corresponds t.read table qualified ledger enums := by
    rw [← hm]
    exact corresponds_of_compare (hm ▸ t.nodup_read) htable h
  constructor
  · exact hread.read_eq
  · intro heq
    rw [← heq]
    exact hread

/-- **A passed gate says what it should exactly of the legible messages.** A message anywhere in a file
is parsed into one message of the file, told by its line. Whenever its comparison with a table reports
nothing, the fields declared correspond to those of the table and to the ledger if and only if the
message is legible; and a legible message with a field of a type without a mapping makes the comparison
report something. -/
theorem gate_sees_legible {path : Octets} {before after : List Octets} {t : MessageText}
    (hbefore : ∀ l ∈ before, newline ∉ l) (hafter : ∀ l ∈ after, newline ∉ l) {f : ProtoFile}
    (hparse : parseProto path (contentWith before t after) = .ok f) :
    ∃ m ∈ f.messages, m.name = t.name.octets ∧ m.line = before.length + 1 ∧
      (∀ m' ∈ f.messages, m'.line = before.length + 1 → m' = m) ∧
      ∀ (table : Message) (qualified : Octets) (ledger : Ledger),
        (table.fields.map Field.name).Nodup →
        (compare m table qualified ledger f.enums = [] →
          (Corresponds t.fields table qualified ledger f.enums ↔ t.Legible)) ∧
        (t.Legible → (∃ d ∈ t.declarations, expectedType f.enums d.field.type = none) →
          compare m table qualified ledger f.enums ≠ []) := by
  obtain ⟨hmem, hunique⟩ := parseProto_contentWith hbefore hafter hparse
  refine ⟨_, hmem, rfl, rfl, hunique, fun table qualified ledger htable => ?_⟩
  have hexact : compare (t.parsed path (before.length + 1)) table qualified ledger f.enums = [] →
      (Corresponds t.fields table qualified ledger f.enums ↔ t.Legible) := by
    intro h
    rw [← t.read_eq_fields_iff]
    exact corresponds_iff_read rfl htable h
  refine ⟨hexact, ?_⟩
  rintro hlegible ⟨d, hd, hnone⟩ h
  have hfield : d.field ∈ t.fields := List.mem_map_of_mem hd
  have hc := (hexact h).2 hlegible
  obtain ⟨got, hgot, hname⟩ := List.mem_map.1
    (hc.names.subset (List.mem_map_of_mem (f := Field.name) hfield))
  have htype := hc.type d.field hfield got hgot hname.symm
  rw [hnone] at htype
  cases htype

/-! ## A mirrored message -/

def noSpace : Blank := ⟨[], by simp⟩

def oneSpace : Gap := ⟨⟨[32], by simp [isSpace, newline]⟩, by decide⟩

def twoSpaces : Blank := ⟨[32, 32], by simp [isSpace, newline]⟩

/-- A field as it is commonly laid out. -/
def declare (type : TypeText) (name : FieldName) (n : ℕ) : Item :=
  .member (.field
    { indent := twoSpaces, type := type, name := name, beforeEquals := oneSpace.toBlank
      afterEquals := oneSpace.toBlank, number := .decimal n, beforeEnd := noSpace
      ending := .plain (.blank noSpace) })

/-- `int32 reader = 1;` -/
def readerField : Item :=
  declare
    (.singular ⟨105, text "nt32", by decide, List.all_eq_true.1 (by decide)⟩
      (by intro l; cases l <;> decide) oneSpace)
    ⟨114, text "eader", by decide, List.all_eq_true.1 (by decide)⟩ 1

/-- `bytes keys = 2;` -/
def keysField : Item :=
  declare
    (.singular ⟨98, text "ytes", by decide, List.all_eq_true.1 (by decide)⟩
      (by intro l; cases l <;> decide) oneSpace)
    ⟨107, text "eys", by decide, List.all_eq_true.1 (by decide)⟩ 2

/-- `map<string, string> labels = 3;` -/
def labelsField : Item :=
  declare (.map noSpace (text "string, string") (by decide) oneSpace.toBlank)
    ⟨108, text "abels", by decide, List.all_eq_true.1 (by decide)⟩ 3

/-- `KeypadEntry`, and `KeypadEntry` with a map. -/
def keypadEntry : MessageText :=
  { gap := oneSpace, name := ⟨75, text "eypadEntry", by decide, List.all_eq_true.1 (by decide)⟩
    beforeBrace := oneSpace.toBlank, remark := .blank noSpace, body := [readerField, keysField]
    closeRemark := .blank noSpace, names := by decide, numbers := by decide }

def keypadEntryWithMap : MessageText :=
  { keypadEntry with
    body := [readerField, keysField, labelsField], names := by decide, numbers := by decide }

def protoPath : Octets := text "osdp/event/v1/payloads.proto"

def fbsPath : Octets := text "payloads.fbs"

def keypadProto (t : MessageText) : Octets := contentWith [text "package osdp.event.v1;"] t []

def keypadFBS : Octets :=
  [newline].intercalate [text "// source: osdp/event/v1/payloads.proto",
    text "namespace osdp.event.v1;", text "table KeypadEntry \x7b", text "  reader:int (id: 0);",
    text "  keys:[ubyte] (id: 1);", text "\x7d"]

def keypadLock : Octets :=
  [newline].intercalate [text "messages:", text "  - message: osdp.event.v1.KeypadEntry",
    text "    fields:", text "      - number: 1", text "        ordinal: 0", text "        name: reader",
    text "      - number: 2", text "        ordinal: 1", text "        name: keys"]

/-- The files the gate finds. -/
def keypadTree (t : MessageText) (path : Octets) : Option Octets :=
  if path = protoPath then some (keypadProto t) else if path = fbsPath then some keypadFBS else none

def keypadQualified : Octets := text "osdp.event.v1.KeypadEntry"

/-- The message and the table as they are parsed, the map or not. -/
def keypadMessage : Message :=
  { name := text "KeypadEntry"
    fields := [⟨text "reader", text "int32", 1⟩, ⟨text "keys", text "bytes", 2⟩]
    file := protoPath, line := 2 }

def keypadTable : Message :=
  { name := text "KeypadEntry"
    fields := [⟨text "reader", text "int", 1⟩, ⟨text "keys", text "[ubyte]", 2⟩]
    file := fbsPath, line := 3 }

def keypadFile : ProtoFile :=
  { path := protoPath, package := text "osdp.event.v1", messages := [keypadMessage] }

/-- The sample is legible. -/
theorem keypadEntry_legible : keypadEntry.Legible := by
  constructor
  · intro d hd
    have hmem : d ∈ readerField.declarations ++ keysField.declarations := hd
    rcases List.mem_append.1 hmem with h | h
    · rw [List.mem_singleton.1 h]
      exact ⟨by decide, rfl, show 1 < 2 ^ 63 by decide⟩
    · rw [List.mem_singleton.1 h]
      exact ⟨by decide, rfl, show 2 < 2 ^ 63 by decide⟩
  · simp [keypadEntry, readerField, keysField, declare, Item.closes]

/-- It does not drift. -/
theorem keypad_compare :
    compare keypadMessage keypadTable keypadQualified (parseLedger keypadLock) keypadFile.enums = [] := by
  decide +kernel

/-- `KeypadEntry` without the map, its table and its ledger. -/
theorem gate_sees_legible_keypad :
    ∃ f, parseProto protoPath (keypadProto keypadEntry) = .ok f ∧ ∃ m ∈ f.messages, m.line = 2 ∧
      compare m keypadTable keypadQualified (parseLedger keypadLock) f.enums = [] ∧
      Corresponds keypadEntry.fields keypadTable keypadQualified (parseLedger keypadLock) f.enums := by
  have hparse : parseProto protoPath (keypadProto keypadEntry) = .ok keypadFile := by decide +kernel
  obtain ⟨m, hm, -, hline, -, hgate⟩ :=
    gate_sees_legible (t := keypadEntry) (by decide) (by decide) hparse
  obtain rfl : m = keypadMessage := List.mem_singleton.1 hm
  refine ⟨keypadFile, hparse, keypadMessage, hm, hline, keypad_compare, ?_⟩
  exact ((hgate keypadTable keypadQualified (parseLedger keypadLock) (by decide)).1 keypad_compare).2
    keypadEntry_legible

/-- **A map is passed over.** The message has grown a field of a type without a mapping that neither the
table nor the ledger knows, and the gate reports one table checked and no drift. -/
theorem map_passed_over :
    keypadEntryWithMap.lines =
      [text "message KeypadEntry \x7b", text "  int32 reader = 1;", text "  bytes keys = 2;",
        text "  map<string, string> labels = 3;", text "\x7d"] ∧
    verify (keypadTree keypadEntryWithMap) id fbsPath (parseLedger keypadLock) = .ok (1, []) ∧
    ∃ f m, parseProto protoPath (keypadProto keypadEntryWithMap) = .ok f ∧ m ∈ f.messages ∧
      m.line = 2 ∧ compare m keypadTable keypadQualified (parseLedger keypadLock) f.enums = [] ∧
      (∃ d ∈ keypadEntryWithMap.declarations, expectedType f.enums d.field.type = none) ∧
      ¬ Corresponds keypadEntryWithMap.fields keypadTable keypadQualified (parseLedger keypadLock)
        f.enums := by
  have hparse : parseProto protoPath (keypadProto keypadEntryWithMap) = .ok keypadFile := by
    decide +kernel
  refine ⟨by decide +kernel, by decide +kernel, keypadFile, keypadMessage, hparse,
    List.mem_cons_self, rfl, keypad_compare, by decide +kernel, fun h => ?_⟩
  exact absurd h.names.length_eq (by decide)

end SchemaDrift

end Osdp
