import Osdp.Analysis.ProtoReading

/-!
# The parser over a file

A line of a message opens and closes nothing (`Inert`), except for its first line, its last, and the
end of a `oneof` in the first column. Over inert lines the parser appends the fields it reads to the
message that is open (`feed_inert`), so over the lines of a message it puts exactly one message into
the file, with the fields `MessageText.read` (`feed_lines`). The messages of a file stand in the order
of their first lines (`feed_ordered`), which tells them apart.
-/

set_option autoImplicit false

namespace Osdp

namespace SchemaDrift

open Encoding Pattern

open Service (text)

/-! ## Lines that open and close nothing -/

structure Inert (line : Octets) : Prop where
  package : find protoPackage line = none
  enum : find protoEnum line = none
  message : find protoMessage line = none
  brace : ¬ [closing] <+: line

/-- The pattern of a package from its name on. -/
def packageTail : Pattern UInt8 := cat [group 1 (plus isDotted), many isSpace, lit (text ";")]

/-- The pattern of a message or an enum from its name on. -/
def braceTail : Pattern UInt8 :=
  cat [group 1 (word isIdentStart isIdentPart), many isSpace, lit (text "\x7b")]

/-- The pattern of a package without the spaces in front. -/
def packageBody : Pattern UInt8 := seq (lit (text "package")) (seq (plus isSpace) packageTail)

/-- The pattern of a header, from its keyword on. -/
theorem protoMessage_eq : protoMessage = seq (lit (text "message")) (seq (plus isSpace) braceTail) :=
  rfl

/-- A package's name does not begin with white space. -/
theorem packageTail_avoids : Avoids packageTail isSpace := avoids_space rfl (by decide)

/-- Nor does a message's name. -/
theorem braceTail_avoids : Avoids braceTail isSpace := avoids_space rfl (by decide)

/-- Nor does the keyword. -/
theorem packageBody_avoids : Avoids packageBody isSpace := avoids_space rfl (by decide)

/-- The indentation is skipped. -/
theorem run_protoPackage (b : Blank) {s : Octets} (hs : Stops isSpace s) :
    run protoPackage (b.octets ++ s) = run packageBody s := run_many_blank packageBody_avoids b hs

/-- An indented line is inert unless it declares a package. -/
theorem inert_of_indented {b : Blank} (hb : b.octets ≠ []) {s : Octets} (hs : Stops isSpace s)
    (hpackage : run packageBody s = []) : Inert (b.octets ++ s) := by
  have henum : Avoids protoEnum isSpace := avoids_space rfl (by decide)
  have hmessage : Avoids protoMessage isSpace := avoids_space rfl (by decide)
  have hline : run protoPackage (b.octets ++ s) = [] := by rw [run_protoPackage b hs, hpackage]
  obtain ⟨c, rest, hc⟩ := List.exists_cons_of_ne_nil hb
  have hspace : isSpace c = true := b.all_space c (by rw [hc]; exact List.mem_cons_self)
  refine ⟨find_eq_none.2 hline, ?_, ?_, ?_⟩
  · rw [find_eq_none, hc]
    exact henum.run_cons hspace _
  · rw [find_eq_none, hc]
    exact hmessage.run_cons hspace _
  · rw [hc]
    intro h
    exact ne_of_mem hspace (by decide) (List.cons_prefix_cons.1 h).1.symm

/-- Spaces in front of an inert line change nothing. -/
theorem Inert.indent {s : Octets} (h : Inert s) (b : Blank) (hs : Stops isSpace s) :
    Inert (b.octets ++ s) := by
  by_cases hb : b.octets = []
  · rw [hb]
    exact h
  · refine inert_of_indented hb hs ?_
    have hline := run_protoPackage ⟨[], by simp⟩ hs
    rw [← hline]
    exact find_eq_none.1 h.package

/-- A line that begins with a character none of the three patterns can begin with. -/
theorem inert_cons {c : UInt8} (hpackage : takes c protoPackage = false)
    (henum : takes c protoEnum = false) (hmessage : takes c protoMessage = false) (hc : c ≠ closing)
    (s : Octets) : Inert (c :: s) :=
  ⟨find_eq_none.2 (run_cons_eq_nil rfl hpackage s), find_eq_none.2 (run_cons_eq_nil rfl henum s),
    find_eq_none.2 (run_cons_eq_nil rfl hmessage s),
    fun h => hc (List.cons_prefix_cons.1 h).1.symm⟩

/-- A remark opens and closes nothing. -/
theorem inert_remark (r : Remark) : Inert r.octets := by
  have hnil : Inert [] := ⟨rfl, rfl, rfl, by decide⟩
  cases r with
  | blank gap =>
    have h := hnil.indent gap (stops_nil _)
    rwa [List.append_nil] at h
  | comment gap rest _ =>
    have hslash : Inert (47 :: 47 :: rest) :=
      inert_cons (by decide) (by decide) (by decide) (by decide) _
    exact hslash.indent gap (stops_cons.2 (by decide))

/-- Nor does the head of a `oneof`. -/
theorem inert_oneof (o : Oneof) : Inert o.header := by
  have hheader : Inert (text "oneof" ++ (o.gap.octets ++ (o.name.octets ++ (o.beforeBrace.octets ++
      123 :: o.remark.octets)))) :=
    inert_cons (by decide) (by decide) (by decide) (by decide) _
  exact hheader.indent o.indent (stops_cons.2 (by decide))

/-- Nor does its end, if it is indented. -/
theorem inert_close {o : Oneof} (h : o.closeIndent.octets ≠ []) : Inert o.close :=
  inert_of_indented h (stops_cons.2 (by decide)) (run_cons_eq_nil rfl (by decide) _)

/-! ## Declarations -/

/-- A field's name could be a type. -/
theorem FieldName.all_dotted (w : FieldName) : ∀ c ∈ w.octets, isDotted c = true := by
  intro c hc
  rcases List.mem_cons.1 hc with rfl | hc
  · exact isDotted_of_isNameStart _ w.first_mem
  · exact isDotted_of_isNamePart c (w.rest_mem c hc)

/-- The spaces and the sign after a name. -/
def signTail (sign : Octets) : Pattern UInt8 := cat [many isSpace, lit sign]

/-- A sign is no part of a type. -/
theorem signTail_avoids {sign : Octets} (hne : sign ≠ []) (h : sign.any isDotted = false) :
    Avoids (signTail sign) isDotted :=
  avoids_seq_many isSpace_of_isDotted (avoids_seq_lit hne h _)

/-- A brace is no part of an identifier. -/
theorem braceSign_avoids : Avoids (signTail (text "\x7b")) isIdentPart :=
  (signTail_avoids (by decide) (by decide)).mono isDotted_of_isIdentPart

/-- A blank before a sign is skipped. -/
theorem run_signTail {sign : Octets} (hne : sign ≠ []) (h : sign.any isSpace = false) (b : Blank)
    {s : Octets} (hs : Stops isSpace s) : run (signTail sign) (b.octets ++ s) = run (cat [lit sign]) s :=
  run_many_blank (avoids_seq_lit hne h _) b hs

namespace Declaration

variable (d : Declaration)

/-- The equals sign after the name is no other sign. -/
theorem run_signTail_eq_nil {k : Octets} (hne : k ≠ []) (h : k.any isSpace = false)
    (hequals : ∀ s, ¬ k <+: 61 :: s) :
    run (signTail k) (d.beforeEquals.octets ++ 61 :: (d.afterEquals.octets ++ d.fromNumber)) = [] := by
  rw [run_signTail hne h d.beforeEquals (stops_cons.2 (by decide)), cat, run_seq_lit_eq_nil (hequals _)]

/-- An equals sign does not end a package. -/
theorem run_packageTail : run packageTail d.fromName = [] := by
  have hafter : Avoids (signTail (text ";")) isDotted := signTail_avoids (by decide) (by decide)
  have hnone := d.run_signTail_eq_nil (k := text ";") (by decide) (by decide)
    (fun s h => absurd (List.cons_prefix_cons.1 h).1 (by decide))
  have hname := run_seq_group_plus hafter 1 d.name.ne_nil (FieldName.all_dotted d.name)
    (d.stops_beforeEquals (by decide) (by decide))
  rw [hnone, tag_empty] at hname
  exact hname

/-- Nor does it open a message or an enum. -/
theorem run_braceTail : run braceTail d.fromName = [] := by
  have hnone := d.run_signTail_eq_nil (k := text "\x7b") (by decide) (by decide)
    (fun s h => absurd (List.cons_prefix_cons.1 h).1 (by decide))
  have hname := run_seq_group_word braceSign_avoids 1
    (isIdentStart_of_isNameStart _ d.name.first_mem)
    (fun c hc => isIdentPart_of_isNamePart c (d.name.rest_mem c hc))
    (d.stops_beforeEquals (by decide) (by decide))
  rw [hnone, tag_empty] at hname
  exact hname

/-- A declaration is not a keyword's line. -/
theorem run_keyword_eq_nil {l : Octets} (hl : l.any isSpace = false)
    (hlabel : ∀ label : Label, label.octets ≠ l) (hmap : ∀ s, run (lit l) (text "map" ++ s) = [])
    {q : Pattern UInt8} (hq : Avoids q isSpace) (hname : run q d.fromName = []) :
    run (seq (lit l) (seq (plus isSpace) q)) (d.type.octets ++ d.fromName) = [] := by
  have hstop : Stops isSpace d.fromName := FieldName.stops d.name _
  cases d.type with
  | singular type _ gap =>
    rw [TypeText.octets, List.append_assoc,
      run_keyword (forall_of_any hl) (TypeName.no_space type) hq gap hstop, hname, ite_self]
  | labelled label gap type gap' =>
    simp only [TypeText.octets, List.append_assoc]
    rw [run_keyword (forall_of_any hl) label.no_space hq gap (TypeName.stops type _), if_neg (hlabel label)]
  | map gap inside _ gap' =>
    rw [TypeText.octets, List.append_assoc, run_seq_eq_nil _ (hmap _)]

/-- A declaration opens and closes nothing. -/
theorem inert : Inert d.octets := by
  have hpackage : run packageBody (d.type.octets ++ d.fromName) = [] :=
    d.run_keyword_eq_nil (by decide) (by intro l; cases l <;> decide) (fun _ => rfl) packageTail_avoids
      d.run_packageTail
  have henum : run protoEnum (d.type.octets ++ d.fromName) = [] :=
    d.run_keyword_eq_nil (by decide) (by intro l; cases l <;> decide) (fun _ => rfl) braceTail_avoids
      d.run_braceTail
  have hmessage : run protoMessage (d.type.octets ++ d.fromName) = [] :=
    d.run_keyword_eq_nil (by decide) (by intro l; cases l <;> decide) (fun _ => rfl) braceTail_avoids
      d.run_braceTail
  have hbrace : ¬ [closing] <+: d.type.octets ++ d.fromName := by
    intro h
    cases htype : d.type with
    | singular type _ gap =>
      rw [htype] at h
      exact ne_of_mem type.first_mem (by decide) (List.cons_prefix_cons.1 h).1.symm
    | labelled label gap type gap' =>
      rw [htype] at h
      cases label <;> exact absurd (List.cons_prefix_cons.1 h).1 (by decide)
    | map gap inside _ gap' =>
      rw [htype] at h
      exact absurd (List.cons_prefix_cons.1 h).1 (by decide)
  have hstops := d.type.stops d.fromName
  have hunindented : run protoPackage (d.type.octets ++ d.fromName) = [] :=
    (run_protoPackage ⟨[], by simp⟩ hstops).trans hpackage
  have hinert : Inert (d.type.octets ++ d.fromName) :=
    ⟨find_eq_none.2 hunindented, find_eq_none.2 henum, find_eq_none.2 hmessage, hbrace⟩
  exact hinert.indent d.indent hstops

end Declaration

/-! ## Lines without a field -/

/-- Where the pattern has no match no field is read. -/
theorem parseProtoField_eq_none {line : Octets} (h : run protoField line = []) :
    parseProtoField line = none := by
  rw [parseProtoField, find_eq_none.2 h]

/-- Spaces, and what is no type. -/
theorem parseProtoField_blank (b : Blank) {s : Octets} (hs : Stops isSpace s)
    (hnone : run (seq (opt protoLabel) typeTail) s = []) : parseProtoField (b.octets ++ s) = none := by
  apply parseProtoField_eq_none
  by_cases hb : b.octets = []
  · rw [hb, List.nil_append, protoField_eq, plus, run_seq_word_stop hs]
  · rw [protoField_eq, run_seq_plus labelTail_avoids hb b.all_space hs, hnone]

/-- A remark is no field. -/
theorem parseProtoField_remark (r : Remark) : parseProtoField r.octets = none := by
  cases r with
  | blank gap =>
    have h := parseProtoField_blank gap (stops_nil isSpace) rfl
    rwa [List.append_nil] at h
  | comment gap rest _ =>
    exact parseProtoField_blank gap (stops_cons.2 (by decide)) (run_cons_eq_nil (by decide) (by decide) _)

/-- Nor is the end of a `oneof`. -/
theorem parseProtoField_close (o : Oneof) : parseProtoField o.close = none :=
  parseProtoField_blank o.closeIndent (stops_cons.2 (by decide))
    (run_cons_eq_nil (by decide) (by decide) _)

/-- An identifier could be a type. -/
theorem Ident.all_dotted (w : Ident) : ∀ c ∈ w.octets, isDotted c = true := by
  intro c hc
  rcases List.mem_cons.1 hc with rfl | hc
  · exact isDotted_of_isIdentStart _ w.first_mem
  · exact isDotted_of_isIdentPart c (w.rest_mem c hc)

/-- The first line of a `oneof` reads like a field up to the brace. -/
theorem parseProtoField_oneof (o : Oneof) : parseProtoField o.header = none := by
  have hname : Stops isSpace (o.name.octets ++ (o.beforeBrace.octets ++ 123 :: o.remark.octets)) :=
    stops_cons.2 (isSpace_of_isDotted _ (Ident.all_dotted o.name _ List.mem_cons_self))
  have hnone : run nameTail (o.name.octets ++ (o.beforeBrace.octets ++ 123 :: o.remark.octets)) = [] :=
    run_nameTail_eq_nil (Ident.all_dotted o.name)
      (o.beforeBrace.stops (forall_space (by decide)) (stops_cons.2 (by decide)))
      (run_equalsTail_eq_nil o.beforeBrace (by decide) (by decide) _)
  have hlabel : ∀ l : Label, text "oneof" ≠ l.octets := by
    intro l
    cases l <;> decide
  refine parseProtoField_blank o.indent (stops_cons.2 (by decide)) ?_
  rw [run_seq_opt, run_protoLabel_eq_nil (forall_of_any (by decide)) hlabel o.gap hname, List.nil_append,
    run_typeTail (by decide) (List.all_eq_true.1 (by decide)) o.gap hname, hnone, tag_empty]

/-! ## One line -/

namespace ProtoScan

/-- Fields appended to the message that is open. -/
def extend (s : ProtoScan) (fields : List Field) : ProtoScan :=
  { s with current := s.current.map fun m => { m with fields := m.fields ++ fields } }

/-- The message that is open goes to the file. -/
def close (s : ProtoScan) : ProtoScan := { file := s.flush, current := none }

/-- No fields extend nothing. -/
theorem extend_nil (s : ProtoScan) : s.extend [] = s := by
  obtain ⟨file, current⟩ := s
  cases current <;> simp [extend]

/-- Fields are added one after the other. -/
theorem extend_extend (s : ProtoScan) (fields fields' : List Field) :
    (s.extend fields).extend fields' = s.extend (fields ++ fields') := by
  simp [extend, Function.comp_def]

/-- Outside a message fields are dropped. -/
theorem extend_of_none {s : ProtoScan} (h : s.current = none) (fields : List Field) :
    s.extend fields = s := by
  obtain ⟨file, current⟩ := s
  cases h
  rfl

/-- There is nothing to close there. -/
theorem close_of_none {s : ProtoScan} (h : s.current = none) : s.close = s := by
  obtain ⟨file, current⟩ := s
  cases h
  simp [close, flush]

end ProtoScan

variable {s : ProtoScan}

/-- An inert line adds the field it declares. -/
theorem parseProtoLine_inert {l : Octets} (h : Inert l) (k : ℕ) :
    parseProtoLine s (l, k) = s.extend (parseProtoField l).toList := by
  obtain ⟨file, current⟩ := s
  simp only [parseProtoLine, h.package, h.enum, h.message, if_neg h.brace]
  cases current with
  | none => rfl
  | some m =>
    cases parseProtoField l with
    | none => exact (ProtoScan.extend_nil _).symm
    | some field => rfl

/-- A brace in the first column closes the message. -/
theorem parseProtoLine_closing (rest : Octets) (k : ℕ) :
    parseProtoLine s (closing :: rest, k) = s.close := by
  have hpackage : find protoPackage (closing :: rest) = none :=
    find_eq_none.2 (run_cons_eq_nil rfl (by decide) rest)
  have henum : find protoEnum (closing :: rest) = none :=
    find_eq_none.2 (run_cons_eq_nil rfl (by decide) rest)
  have hmessage : find protoMessage (closing :: rest) = none :=
    find_eq_none.2 (run_cons_eq_nil rfl (by decide) rest)
  have hprefix : [closing] <+: closing :: rest := ⟨rest, rfl⟩
  simp only [parseProtoLine, hpackage, henum, hmessage, if_pos hprefix]
  rfl

/-- A header opens a message. -/
theorem parseProtoLine_header (t : MessageText) (k : ℕ) :
    parseProtoLine s (t.header, k) =
      { file := s.flush
        current := some { name := t.name.octets, file := s.file.path, line := k + 1 } } := by
  have hpackage : find protoPackage t.header = none :=
    find_eq_none.2 (run_cons_eq_nil rfl (by decide) _)
  have henum : find protoEnum t.header = none := find_eq_none.2 (run_cons_eq_nil rfl (by decide) _)
  have hmessage : find protoMessage t.header = some [(1, t.name.octets)] := by
    have hname : Stops isSpace (t.name.octets ++ (t.beforeBrace.octets ++ 123 :: t.remark.octets)) :=
      stops_cons.2 (isSpace_of_isDotted _ (Ident.all_dotted t.name _ List.mem_cons_self))
    have hstop : Stops isIdentPart (t.beforeBrace.octets ++ 123 :: t.remark.octets) :=
      t.beforeBrace.stops (forall_space (by decide)) (stops_cons.2 (by decide))
    have hbrace : run (signTail (text "\x7b")) (t.beforeBrace.octets ++ 123 :: t.remark.octets) =
        [([], t.remark.octets)] :=
      (run_signTail (by decide) (by decide) t.beforeBrace (stops_cons.2 (by decide))).trans
        (run_seq_lit_append (text "\x7b") empty t.remark.octets)
    have hword := run_seq_group_word braceSign_avoids 1 t.name.first_mem t.name.rest_mem hstop
    rw [hbrace] at hword
    rw [find, protoMessage_eq, MessageText.header,
      run_keyword (forall_of_any (by decide)) (forall_of_any (by decide)) braceTail_avoids t.gap hname,
      if_pos rfl]
    exact congrArg (fun ns => ns.head?.map Prod.fst) hword
  simp only [parseProtoLine, hpackage, henum, hmessage]
  rfl

/-! ## Runs of lines -/

/-- The parser over some lines, the first with an index. -/
def feed (s : ProtoScan) (ls : List Octets) (k : ℕ) : ProtoScan :=
  (ls.zipIdx k).foldl parseProtoLine s

/-- Line by line. -/
theorem feed_cons (l : Octets) (ls : List Octets) (k : ℕ) :
    feed s (l :: ls) k = feed (parseProtoLine s (l, k)) ls (k + 1) := rfl

/-- Lines are fed one after the other. -/
theorem feed_append (ls ls' : List Octets) (k : ℕ) :
    feed s (ls ++ ls') k = feed (feed s ls k) ls' (k + ls.length) := by
  rw [feed, List.zipIdx_append, List.foldl_append]
  rfl

/-- **Over inert lines the parser reads fields.** -/
theorem feed_inert {ls : List Octets} (h : ∀ l ∈ ls, Inert l) (k : ℕ) :
    feed s ls k = s.extend (ls.filterMap parseProtoField) := by
  induction ls generalizing s k with
  | nil => exact s.extend_nil.symm
  | cons l ls ih =>
    rw [feed_cons, parseProtoLine_inert (h l List.mem_cons_self),
      ih fun x hx => h x (List.mem_cons_of_mem _ hx), ProtoScan.extend_extend]
    cases hl : parseProtoField l with
    | none => rw [List.filterMap_cons_none hl]; rfl
    | some field => rw [List.filterMap_cons_some hl]; rfl

/-- A member of a `oneof` is inert. -/
theorem Member.inert (m : Member) : Inert m.octets := by
  cases m with
  | field d => exact d.inert
  | remark r => exact inert_remark r

/-- The fields read from the members. -/
theorem filterMap_members (ms : List Member) :
    (ms.map Member.octets).filterMap parseProtoField =
      (ms.filterMap Member.declaration?).filterMap Declaration.read := by
  rw [List.filterMap_map, List.filterMap_filterMap]
  congr 1
  funext m
  cases m with
  | field d => exact d.parseProtoField_octets
  | remark r => exact parseProtoField_remark r

namespace Item

/-- An item that closes nothing adds its fields. -/
theorem feed_lines_open {item : Item} (h : item.closes = false) (k : ℕ) :
    feed s item.lines k = s.extend (item.declarations.filterMap Declaration.read) := by
  cases item with
  | member m =>
    have hinert : ∀ l ∈ [m.octets], Inert l := by
      intro l hl
      rw [List.mem_singleton.1 hl]
      exact m.inert
    have hread := filterMap_members [m]
    rw [List.map_singleton] at hread
    rw [lines, feed_inert hinert, hread]
    cases m <;> rfl
  | oneof o =>
    have hclose : o.closeIndent.octets ≠ [] := fun hnil => by
      rw [closes, hnil] at h
      cases h
    have hinert : ∀ l ∈ o.lines, Inert l := by
      intro l hl
      rcases List.mem_cons.1 hl with rfl | hl
      · exact inert_oneof o
      rcases List.mem_append.1 hl with hl | hl
      · obtain ⟨m, -, rfl⟩ := List.mem_map.1 hl
        exact m.inert
      · rw [List.mem_singleton.1 hl]
        exact inert_close hclose
    rw [lines, feed_inert hinert, Oneof.lines, List.filterMap_cons_none (parseProtoField_oneof o),
      List.filterMap_append, filterMap_members,
      List.filterMap_cons_none (parseProtoField_close o), List.filterMap_nil, List.append_nil]
    rfl

/-- One that closes the message adds them first. -/
theorem feed_lines_closes {item : Item} (h : item.closes = true) (k : ℕ) :
    feed s item.lines k = (s.extend (item.declarations.filterMap Declaration.read)).close := by
  cases item with
  | member m => cases h
  | oneof o =>
    have hclose : o.close = closing :: o.closeRemark.octets := by
      rw [Oneof.close, List.isEmpty_iff.1 h, List.nil_append]
    have hinert : ∀ l ∈ o.header :: o.members.map Member.octets, Inert l := by
      intro l hl
      rcases List.mem_cons.1 hl with rfl | hl
      · exact inert_oneof o
      · obtain ⟨m, -, rfl⟩ := List.mem_map.1 hl
        exact m.inert
    rw [lines, Oneof.lines, ← List.cons_append, feed_append, feed_inert hinert,
      List.filterMap_cons_none (parseProtoField_oneof o), filterMap_members, hclose, feed_cons,
      parseProtoLine_closing]
    rfl

end Item

/-- **The body of a message and its last line.** -/
theorem feed_body (body : List Item) (rest : Octets) (k : ℕ) :
    feed s (body.flatMap Item.lines ++ [closing :: rest]) k = (s.extend (readBody body)).close := by
  induction body generalizing s k with
  | nil =>
    rw [List.flatMap_nil, List.nil_append, feed_cons, parseProtoLine_closing, readBody,
      ProtoScan.extend_nil]
    rfl
  | cons item body ih =>
    rw [List.flatMap_cons, List.append_assoc, feed_append, readBody]
    by_cases hcloses : item.closes = true
    · have hnone : ∀ s : ProtoScan, s.close.current = none := fun _ => rfl
      rw [Item.feed_lines_closes hcloses, ih, if_pos hcloses, List.append_nil,
        ProtoScan.extend_of_none (hnone _), ProtoScan.close_of_none (hnone _)]
    · rw [Item.feed_lines_open (Bool.of_not_eq_true hcloses), ih, if_neg hcloses,
        ProtoScan.extend_extend]

/-- The message the parser makes of a text. -/
def MessageText.parsed (t : MessageText) (path : Octets) (line : ℕ) : Message :=
  { name := t.name.octets, fields := t.read, file := path, line := line }

/-- **The lines of a message put one message into the file**, the fields read in it. -/
theorem feed_lines (t : MessageText) (k : ℕ) :
    feed s t.lines k =
      { file := { s.flush with
          messages := s.flush.messages ++ [t.parsed s.file.path (k + 1)] }
        current := none } := by
  rw [MessageText.lines, feed_cons, parseProtoLine_header, MessageText.close, feed_body]
  simp [ProtoScan.close, ProtoScan.extend, ProtoScan.flush, MessageText.parsed, MessageText.read]

/-! ## The order of the messages -/

/-- The messages begun so far. -/
def ProtoScan.begun (s : ProtoScan) : List Message := s.file.messages ++ s.current.toList

/-- The first lines of the messages begun before an index increase. -/
def Ordered (s : ProtoScan) (k : ℕ) : Prop :=
  (s.begun.map Message.line).Pairwise (· < ·) ∧ ∀ m ∈ s.begun, m.line ≤ k

/-- **What a line does to the messages begun**: nothing to where they begin, or one more. -/
theorem begun_parseProtoLine (l : Octets) (k : ℕ) :
    (parseProtoLine s (l, k)).begun.map Message.line = s.begun.map Message.line ∨
      (parseProtoLine s (l, k)).begun.map Message.line = s.begun.map Message.line ++ [k + 1] := by
  simp only [parseProtoLine]
  split
  · exact .inl rfl
  split
  · exact .inl rfl
  split
  · exact .inr (by simp [ProtoScan.begun, ProtoScan.flush])
  split
  · exact .inl (by simp [ProtoScan.begun, ProtoScan.flush])
  split
  · rename_i m field hm _
    exact .inl (by simp [ProtoScan.begun, hm])
  · exact .inl rfl

/-- A line keeps the messages in order. -/
theorem Ordered.step {k : ℕ} (h : Ordered s k) (l : Octets) :
    Ordered (parseProtoLine s (l, k)) (k + 1) := by
  have hbound : ∀ n ∈ s.begun.map Message.line, n ≤ k := by
    intro n hn
    obtain ⟨m, hm, rfl⟩ := List.mem_map.1 hn
    exact h.2 m hm
  rcases begun_parseProtoLine (s := s) l k with heq | heq
  · refine ⟨heq ▸ h.1, fun m hm => ?_⟩
    have hmem : m.line ∈ s.begun.map Message.line := heq ▸ List.mem_map_of_mem hm
    exact (hbound _ hmem).trans (Nat.le_succ k)
  · constructor
    · rw [heq, List.pairwise_append]
      refine ⟨h.1, List.pairwise_singleton _ _, fun n hn n' hn' => ?_⟩
      rw [List.mem_singleton.1 hn']
      exact Nat.lt_succ_of_le (hbound n hn)
    · intro m hm
      have hmem : m.line ∈ s.begun.map Message.line ++ [k + 1] := heq ▸ List.mem_map_of_mem hm
      rcases List.mem_append.1 hmem with hmem | hmem
      · exact (hbound _ hmem).trans (Nat.le_succ k)
      · exact (List.mem_singleton.1 hmem).le

/-- So do all of them. -/
theorem feed_ordered {k : ℕ} (h : Ordered s k) (ls : List Octets) :
    Ordered (feed s ls k) (k + ls.length) := by
  induction ls generalizing s k with
  | nil => exact h
  | cons l ls ih =>
    have hrest := ih (h.step l)
    rw [feed_cons, List.length_cons, Nat.add_comm ls.length, ← Nat.add_assoc]
    exact hrest

/-- A line keeps the messages of the file, and the path. -/
theorem file_parseProtoLine (l : Octets × ℕ) :
    s.file.messages <+: (parseProtoLine s l).file.messages ∧
      (parseProtoLine s l).file.path = s.file.path := by
  have hflush : s.file.messages <+: s.flush.messages := ⟨s.current.toList, rfl⟩
  simp only [parseProtoLine]
  split
  · exact ⟨List.prefix_rfl, rfl⟩
  split
  · exact ⟨List.prefix_rfl, rfl⟩
  split
  · exact ⟨hflush, rfl⟩
  split
  · exact ⟨hflush, rfl⟩
  split
  · exact ⟨List.prefix_rfl, rfl⟩
  · exact ⟨List.prefix_rfl, rfl⟩

/-- Messages that were read stay. -/
theorem file_feed (ls : List Octets) (k : ℕ) :
    s.file.messages <+: (feed s ls k).file.messages ∧ (feed s ls k).file.path = s.file.path := by
  induction ls generalizing s k with
  | nil => exact ⟨List.prefix_rfl, rfl⟩
  | cons l ls ih =>
    obtain ⟨hmessages, hpath⟩ := file_parseProtoLine (s := s) (l, k)
    obtain ⟨hmessages', hpath'⟩ := ih (s := parseProtoLine s (l, k)) (k := k + 1)
    exact ⟨hmessages.trans hmessages', hpath'.trans hpath⟩

/-! ## Files -/

/-- A file with a message among other lines. -/
def contentWith (before : List Octets) (t : MessageText) (after : List Octets) : Octets :=
  [newline].intercalate (before ++ t.lines ++ after)

/-- A file that parses is what its lines leave. -/
theorem parseProto_ok {path content : Octets} {f : ProtoFile} (h : parseProto path content = .ok f) :
    (feed { file := { path := path } } (content.splitOn newline) 0).file = f ∧
      (feed { file := { path := path } } (content.splitOn newline) 0).current = none := by
  rw [parseProto] at h
  split at h
  · cases h
  · rename_i hnone
    exact ⟨Except.ok.inj h, hnone⟩

/-- **What the parser makes of a message in a file.** -/
theorem parseProto_contentWith {path : Octets} {before after : List Octets} {t : MessageText}
    (hbefore : ∀ l ∈ before, newline ∉ l) (hafter : ∀ l ∈ after, newline ∉ l) {f : ProtoFile}
    (h : parseProto path (contentWith before t after) = .ok f) :
    t.parsed path (before.length + 1) ∈ f.messages ∧
      ∀ m ∈ f.messages, m.line = before.length + 1 → m = t.parsed path (before.length + 1) := by
  have hnewline : ∀ l ∈ before ++ t.lines ++ after, newline ∉ l := by
    intro l hl
    rcases List.mem_append.1 hl with hl | hl
    · rcases List.mem_append.1 hl with hl | hl
      · exact hbefore l hl
      · exact t.newline_notMem l hl
    · exact hafter l hl
  have hne : before ++ t.lines ++ after ≠ [] := by simp [MessageText.lines]
  obtain ⟨rfl, hclosed⟩ := parseProto_ok h
  rw [contentWith, List.splitOn_intercalate newline hnewline hne] at hclosed ⊢
  have hstart : Ordered { file := { path := path } } 0 := ⟨List.Pairwise.nil, by simp [ProtoScan.begun]⟩
  have hordered := feed_ordered hstart (before ++ t.lines ++ after)
  have hmem : t.parsed path (before.length + 1) ∈
      (feed { file := { path := path } } (before ++ t.lines ++ after) 0).file.messages := by
    rw [List.append_assoc, feed_append, feed_append]
    obtain ⟨-, hpath⟩ := file_feed (s := { file := { path := path } }) before 0
    refine (file_feed after _).1.subset ?_
    rw [feed_lines, hpath, Nat.zero_add]
    exact List.mem_append_right _ List.mem_cons_self
  refine ⟨hmem, fun m hm hline => ?_⟩
  have hnodup : ((feed { file := { path := path } } (before ++ t.lines ++ after) 0).file.messages.map
      Message.line).Nodup := by
    have hbegun := hordered.1
    rw [ProtoScan.begun, hclosed, Option.toList_none, List.append_nil] at hbegun
    exact hbegun.imp ne_of_lt
  exact List.inj_on_of_nodup_map hnodup hm hmem hline

end SchemaDrift

end Osdp
