import Osdp.Analysis.ProtoText

/-!
# What the parser reads of a message

The pattern of a field is run over a declaration from its end to its front: the number, the equals sign,
the name, the type and the indentation. Every repetition in it is followed by something that none of its
characters can begin (`Avoids`), so each part matches in one way or in none, although the pattern may
back up. A label is the one place with two ways, and the second comes to nothing (`run_fromType`). What
the line then gives is `Declaration.read` (`parseProtoField_octets`).
-/

set_option autoImplicit false

namespace Osdp

namespace SchemaDrift

open Encoding Pattern

open Service (text)

/-! ## Classes -/

variable {l s w : Octets} {p : UInt8 → Bool} {c : UInt8} {q : Pattern UInt8}

/-- A test no octet of a list passes fails on each. -/
theorem forall_of_any (h : l.any p = false) (c : UInt8) (hc : c ∈ l) :
    p c = false := Bool.of_not_eq_true (List.any_eq_false.1 h c hc)

/-- The octets `\s` matches. -/
theorem isSpace_iff (c : UInt8) : isSpace c = true ↔ c ∈ ([9, 10, 12, 13, 32] : Octets) := by
  simp [isSpace, or_assoc]

/-- A class with none of the five spaces in it. -/
theorem forall_space (h : ([9, 10, 12, 13, 32] : Octets).any p = false) (c : UInt8)
    (hc : isSpace c = true) : p c = false := forall_of_any h c ((isSpace_iff c).1 hc)

/-- No octet of a type is white space. -/
theorem isSpace_of_isDotted (c : UInt8) (h : isDotted c = true) : isSpace c = false := by
  by_contra hspace
  have hdotted : isDotted c = false := forall_space (by decide) c (Bool.of_not_eq_false hspace)
  rw [hdotted] at h
  cases h

/-- A character of a class is not one outside of it. -/
theorem ne_of_mem {k : UInt8} (hc : p c = true) (hk : p k = false) : c ≠ k := by
  rintro rfl
  rw [hk] at hc
  cases hc

/-- What an identifier goes on with may stand in a type. -/
theorem isDotted_of_isIdentPart (c : UInt8) (h : isIdentPart c = true) : isDotted c = true := by
  rw [isDotted, h, Bool.true_or]

/-- So may what it starts with. -/
theorem isDotted_of_isIdentStart (c : UInt8) (h : isIdentStart c = true) : isDotted c = true :=
  isDotted_of_isIdentPart c (by rw [isIdentPart, h, Bool.true_or])

/-- So may a digit. -/
theorem isDotted_of_isDigit (c : UInt8) (h : isDigit c = true) : isDotted c = true :=
  isDotted_of_isIdentPart c (by rw [isIdentPart, h, Bool.or_true])

/-- What a field's name starts with starts an identifier. -/
theorem isIdentStart_of_isNameStart (c : UInt8) (h : isNameStart c = true) :
    isIdentStart c = true := by
  rcases Bool.or_eq_true_iff.1 h with hc | hc
  · rw [isIdentStart, isLetter, hc, Bool.true_or, Bool.true_or]
  · rw [isIdentStart, hc, Bool.or_true]

/-- What it goes on with continues one. -/
theorem isIdentPart_of_isNamePart (c : UInt8) (h : isNamePart c = true) : isIdentPart c = true := by
  rcases Bool.or_eq_true_iff.1 h with hc | hc
  · rw [isIdentPart, isIdentStart_of_isNameStart c hc, Bool.true_or]
  · rw [isIdentPart, hc, Bool.or_true]

/-- The start of a field's name may stand in a type. -/
theorem isDotted_of_isNameStart (c : UInt8) (h : isNameStart c = true) : isDotted c = true :=
  isDotted_of_isIdentStart c (isIdentStart_of_isNameStart c h)

/-- So may the rest of it. -/
theorem isDotted_of_isNamePart (c : UInt8) (h : isNamePart c = true) : isDotted c = true :=
  isDotted_of_isIdentPart c (isIdentPart_of_isNamePart c h)

/-- The two ends of a number are neither spaces nor in words. -/
theorem isFieldEnd_spec (h : isFieldEnd c = true) : isSpace c = false ∧ isDotted c = false := by
  rcases Bool.or_eq_true_iff.1 h with hc | hc
  · rw [beq_iff_eq.1 hc]
    decide
  · rw [beq_iff_eq.1 hc]
    decide

/-- A pattern that cannot begin with white space avoids it; five octets are tried. -/
theorem avoids_space {r : Pattern UInt8} (hskip : skips r = false)
    (h : ([9, 10, 12, 13, 32] : Octets).any (takes · r) = false) : Avoids r isSpace :=
  ⟨hskip, forall_space h⟩

/-! ## Spaces -/

/-- A blank is white space. -/
theorem Blank.all_space (b : Blank) : ∀ c ∈ b.octets, isSpace c = true :=
  fun c hc => (b.spaces c hc).1

/-- A blank stops what white space stops. -/
theorem Blank.stops (b : Blank) (hp : ∀ c, isSpace c = true → p c = false) (hs : Stops p s) :
    Stops p (b.octets ++ s) := by
  cases hb : b.octets with
  | nil => exact hs
  | cons c rest => exact stops_cons.2 (hp c (b.all_space c (by rw [hb]; exact List.mem_cons_self)))

/-- `\s*` takes a whole blank. -/
theorem run_many_blank (hq : Avoids q isSpace) (b : Blank) (hs : Stops isSpace s) :
    run (seq (many isSpace) q) (b.octets ++ s) = run q s :=
  run_seq_many hq b.all_space hs

/-- `\s+` takes a whole gap. -/
theorem run_plus_gap (hq : Avoids q isSpace) (g : Gap) (hs : Stops isSpace s) :
    run (seq (plus isSpace) q) (g.octets ++ s) = run q s :=
  run_seq_plus hq g.nonempty g.all_space hs

/-- A word and the spaces after it, matched against a keyword. -/
theorem run_keyword (hl : ∀ c ∈ l, isSpace c = false) (hw : ∀ c ∈ w, isSpace c = false)
    (hq : Avoids q isSpace) (g : Gap) (hs : Stops isSpace s) :
    run (seq (lit l) (seq (plus isSpace) q)) (w ++ (g.octets ++ s)) =
      if w = l then run q s else [] := by
  have hgap := run_plus_gap hq g hs
  obtain ⟨c, rest, hg⟩ := List.exists_cons_of_ne_nil g.nonempty
  have hc := g.all_space c (by rw [hg]; exact List.mem_cons_self)
  rw [hg, List.cons_append] at hgap ⊢
  rw [run_seq_lit_plus hl hw hc, hgap]

/-! ## The pattern of a field, from its end -/

/-- The pattern from the number on. -/
def numberTail : Pattern UInt8 := cat [group 4 (plus isDigit), many isSpace, one isFieldEnd]

/-- The pattern after the name. -/
def equalsTail : Pattern UInt8 :=
  seq (many isSpace) (seq (lit (text "=")) (seq (many isSpace) numberTail))

/-- The pattern from the name on. -/
def nameTail : Pattern UInt8 := seq (group 3 (word isNameStart isNamePart)) equalsTail

/-- The pattern from the type on. -/
def typeTail : Pattern UInt8 := seq (group 2 (plus isDotted)) (seq (plus isSpace) nameTail)

/-- The pattern of a field, from its label on. -/
theorem protoField_eq : protoField = seq (plus isSpace) (seq (opt protoLabel) typeTail) := rfl

/-- A name does not begin with white space. -/
theorem nameTail_avoids : Avoids nameTail isSpace := avoids_space rfl (by decide)

/-- Nor does a type. -/
theorem typeTail_avoids : Avoids typeTail isSpace := avoids_space rfl (by decide)

/-- Nor does a label or a type. -/
theorem labelTail_avoids : Avoids (seq (opt protoLabel) typeTail) isSpace := avoids_space rfl (by decide)

/-- The equals sign is no part of a name or type. -/
theorem equalsTail_avoids : Avoids equalsTail isDotted :=
  avoids_seq_many isSpace_of_isDotted (avoids_seq_lit (by decide) (by decide) _)

/-- Nor is the gap before a name. -/
theorem gapTail_avoids : Avoids (seq (plus isSpace) nameTail) isDotted :=
  avoids_seq_word isSpace_of_isDotted _ _

/-- The spaces and the end after a number. -/
theorem endTail_avoids : Avoids (cat [many isSpace, one isFieldEnd]) isDigit := by
  have hend : ∀ c, isDigit c = true → isFieldEnd c = false := by
    intro c hc
    by_contra h
    have hdotted := (isFieldEnd_spec (Bool.of_not_eq_false h)).2
    rw [isDotted_of_isDigit c hc] at hdotted
    cases hdotted
  exact avoids_seq_many (fun c hc => isSpace_of_isDotted c (isDotted_of_isDigit c hc))
    (avoids_seq_one hend _)

/-- Digits, spaces and the end of the number. -/
theorem run_numberTail {digits : Octets} (hne : digits ≠ []) (hdigits : ∀ c ∈ digits, isDigit c = true)
    (b : Blank) {e : UInt8} (he : isFieldEnd e = true) (s : Octets) :
    run numberTail (digits ++ (b.octets ++ e :: s)) = [([(4, digits)], s)] := by
  have hdigit : isDigit e = false := by
    by_contra h
    have hdotted := isDotted_of_isDigit e (Bool.of_not_eq_false h)
    rw [(isFieldEnd_spec he).2] at hdotted
    cases hdotted
  have hlast : Avoids (cat [one isFieldEnd]) isSpace := avoids_space rfl (by decide)
  rw [numberTail, cat, run_seq_group_plus endTail_avoids 4 hne hdigits
      (b.stops (forall_space (by decide)) (stops_cons.2 hdigit)), cat,
    run_many_blank hlast b (stops_cons.2 (isFieldEnd_spec he).1), cat, run_seq_one, if_pos he]
  rfl

/-- A number that goes on after its digits is none. -/
theorem run_numberTail_eq_nil {d : UInt8} (hd : isDigit d = true) (hc : isDigit c = false)
    (hspace : isSpace c = false) (hend : isFieldEnd c = false) (s : Octets) :
    run numberTail (d :: c :: s) = [] := by
  have hdigits : ∀ x ∈ [d], isDigit x = true := fun x hx => by rwa [List.mem_singleton.1 hx]
  have hnone : run (cat [many isSpace, one isFieldEnd]) (c :: s) = [] :=
    run_cons_eq_nil rfl (by simp [cat, takes, skips, hspace, hend]) s
  have hstop : Stops isDigit (c :: s) := stops_cons.2 hc
  have h := run_seq_group_plus endTail_avoids 4 (List.cons_ne_nil d []) hdigits hstop
  rw [hnone] at h
  exact h

/-- The rest of the pattern after the spaces behind a name. -/
theorem equals_avoids : Avoids (seq (lit (text "=")) (seq (many isSpace) numberTail)) isSpace :=
  avoids_space rfl (by decide)

/-- The equals sign is read with the blanks around it. -/
theorem run_equalsTail (b b' : Blank) (hs : Stops isSpace s) :
    run equalsTail (b.octets ++ 61 :: (b'.octets ++ s)) = run numberTail s := by
  have hnumber : Avoids numberTail isSpace := avoids_space rfl (by decide)
  have hlit := run_seq_lit_append (text "=") (seq (many isSpace) numberTail) (b'.octets ++ s)
  rw [equalsTail, run_many_blank equals_avoids b (stops_cons.2 rfl)]
  exact hlit.trans (run_many_blank hnumber b' hs)

/-- Without one there is no match. -/
theorem run_equalsTail_eq_nil (b : Blank) (hspace : isSpace c = false) (hc : c ≠ 61) (s : Octets) :
    run equalsTail (b.octets ++ c :: s) = [] := by
  have hlit : ¬ text "=" <+: c :: s := by
    intro h
    exact hc (List.cons_prefix_cons.1 h).1.symm
  rw [equalsTail, run_many_blank equals_avoids b (stops_cons.2 hspace), run_seq_lit_eq_nil hlit]

/-- The name of a field is read whole. -/
theorem run_nameTail (name : FieldName) (hs : Stops isNamePart s) :
    run nameTail (name.octets ++ s) = tag [(3, name.octets)] (run equalsTail s) := by
  exact run_seq_group_word (equalsTail_avoids.mono isDotted_of_isNamePart) 3 name.first_mem
    name.rest_mem hs

/-- A word that is not followed by an equals sign is not the name of a field. -/
theorem run_nameTail_eq_nil (hw : ∀ c ∈ w, isDotted c = true) (hs : Stops isNamePart s)
    (hnone : run equalsTail s = []) : run nameTail (w ++ s) = [] := by
  cases w with
  | nil =>
    have hstop : Stops isNameStart s := by
      intro c hc
      by_contra htrue
      have hpart := hs c hc
      rw [isNamePart, Bool.of_not_eq_false htrue] at hpart
      cases hpart
    exact run_seq_group_word_stop hstop 3 isNamePart equalsTail
  | cons c w =>
    by_cases hc : isNameStart c = true
    · -- the name ends inside the word, or where the word ends
      have hsplit : w ++ s = w.takeWhile isNamePart ++ (w.dropWhile isNamePart ++ s) := by
        rw [← List.append_assoc, List.takeWhile_append_dropWhile]
      have hrest : Stops isNamePart (w.dropWhile isNamePart ++ s) ∧
          run equalsTail (w.dropWhile isNamePart ++ s) = [] := by
        cases hdrop : w.dropWhile isNamePart with
        | nil => exact ⟨hs, hnone⟩
        | cons d rest =>
          have hmem : d ∈ w := (List.dropWhile_suffix _).subset (hdrop ▸ List.mem_cons_self)
          have hfalse : isNamePart d = false := by
            have hhead := List.head?_dropWhile_not isNamePart w
            rw [hdrop] at hhead
            simpa using hhead
          exact ⟨stops_cons.2 hfalse,
            equalsTail_avoids.run_cons (hw d (List.mem_cons_of_mem _ hmem)) _⟩
      rw [List.cons_append, hsplit, nameTail,
        run_seq_group_word (equalsTail_avoids.mono isDotted_of_isNamePart) 3 hc
          (fun x hx => List.mem_takeWhile_imp hx) hrest.1, hrest.2, tag_empty]
    · exact run_seq_group_word_stop (stops_cons.2 (Bool.of_not_eq_true hc)) 3 isNamePart equalsTail

/-- The type of a field is read whole. -/
theorem run_typeTail (hne : w ≠ []) (hw : ∀ c ∈ w, isDotted c = true) (g : Gap)
    (hs : Stops isSpace s) :
    run typeTail (w ++ (g.octets ++ s)) = tag [(2, w)] (run nameTail s) := by
  obtain ⟨c, rest, hg⟩ := List.exists_cons_of_ne_nil g.nonempty
  have hstop : Stops isDotted (g.octets ++ s) := by
    rw [hg]
    exact stops_cons.2 (forall_space (by decide) c
      (g.all_space c (by rw [hg]; exact List.mem_cons_self)))
  rw [typeTail, run_seq_group_plus gapTail_avoids 2 hne hw hstop, run_plus_gap nameTail_avoids g hs]

/-! ## Labels -/

/-- A label has no white space. -/
theorem Label.no_space (l : Label) : ∀ c ∈ l.octets, isSpace c = false :=
  forall_of_any (by cases l <;> decide)

/-- A label could be the beginning of a type. -/
theorem Label.all_dotted (l : Label) : ∀ c ∈ l.octets, isDotted c = true :=
  List.all_eq_true.1 (by cases l <;> decide)

/-- A label is not empty. -/
theorem Label.ne_nil (l : Label) : l.octets ≠ [] := by
  cases l <;> decide

/-- A label is `repeated`, or else `optional`. -/
theorem run_protoLabel_eq (q : Pattern UInt8) (s : Octets) :
    run (seq protoLabel q) s =
      tag [(1, Label.repeated.octets)]
        (run (seq (lit Label.repeated.octets) (seq (plus isSpace) q)) s) ++
      tag [(1, Label.optional.octets)]
        (run (seq (lit Label.optional.octets) (seq (plus isSpace) q)) s) := by
  rw [protoLabel, run_seq_assoc, run_seq_group_alt, run_seq_group_lit, run_seq_group_lit]
  rfl

/-- A label is read as one. -/
theorem run_protoLabel (l : Label) (g : Gap) (hs : Stops isSpace s) :
    run (seq protoLabel typeTail) (l.octets ++ (g.octets ++ s)) =
      tag [(1, l.octets)] (run typeTail s) := by
  rw [run_protoLabel_eq, run_keyword (Label.no_space _) l.no_space typeTail_avoids g hs,
    run_keyword (Label.no_space _) l.no_space typeTail_avoids g hs]
  cases l with
  | repeated => rw [if_pos rfl, if_neg (by decide), tag_empty, List.append_nil]
  | optional => rw [if_pos rfl, if_neg (by decide), tag_empty, List.nil_append]

/-- Another word is not. -/
theorem run_protoLabel_eq_nil (hw : ∀ c ∈ w, isSpace c = false) (hne : ∀ l : Label, w ≠ l.octets)
    (g : Gap) (hs : Stops isSpace s) :
    run (seq protoLabel typeTail) (w ++ (g.octets ++ s)) = [] := by
  rw [run_protoLabel_eq, run_keyword (Label.no_space _) hw typeTail_avoids g hs,
    run_keyword (Label.no_space _) hw typeTail_avoids g hs, if_neg (hne _), if_neg (hne _), tag_empty,
    tag_empty, List.append_nil]

/-! ## Declarations -/

/-- The field made of the captures of a line. -/
theorem parseProtoField_of_find {line : Octets} {m : Captures UInt8}
    (h : find protoField line = some m) :
    parseProtoField line =
      if decimalValue (m.get 4) < 2 ^ 63 then
        some { name := m.get 3
               type := if m.get 1 = text "repeated" then text "repeated " ++ m.get 2 else m.get 2
               slot := decimalValue (m.get 4) }
      else none := by
  simp only [parseProtoField, h, atoi]
  by_cases hlt : decimalValue (m.get 4) < 2 ^ 63
  · have hmin : min (decimalValue (m.get 4) : ℤ) (2 ^ 63 - 1) = decimalValue (m.get 4) := by omega
    simp only [hlt, decide_true, Bool.true_eq_false, if_false, if_true, hmin]
  · simp only [hlt, decide_false, if_true, if_false]

/-- A word is not empty. -/
theorem Word.ne_nil {q : UInt8 → Bool} (w : Word p q) : w.octets ≠ [] := List.cons_ne_nil _ _

/-- A type name is made of what may stand in a type. -/
theorem TypeName.all_dotted (w : TypeName) : ∀ c ∈ w.octets, isDotted c = true := by
  intro c hc
  rcases List.mem_cons.1 hc with rfl | hc
  · exact w.first_mem
  · exact w.rest_mem c hc

/-- A type name has no white space. -/
theorem TypeName.no_space (w : TypeName) : ∀ c ∈ w.octets, isSpace c = false :=
  fun c hc => isSpace_of_isDotted c (TypeName.all_dotted w c hc)

/-- A type name ends a run of white space. -/
theorem TypeName.stops (w : TypeName) (s : Octets) : Stops isSpace (w.octets ++ s) :=
  stops_cons.2 (isSpace_of_isDotted _ w.first_mem)

/-- So does a field's name. -/
theorem FieldName.stops (w : FieldName) (s : Octets) : Stops isSpace (w.octets ++ s) :=
  stops_cons.2 (isSpace_of_isDotted _ (isDotted_of_isNameStart _ w.first_mem))

/-- So does the text of a type. -/
theorem TypeText.stops (t : TypeText) (s : Octets) : Stops isSpace (t.octets ++ s) := by
  cases t with
  | singular type _ gap => exact stops_cons.2 (isSpace_of_isDotted _ type.first_mem)
  | labelled label gap type gap' => cases label <;> exact stops_cons.2 (by decide)
  | map gap inside _ gap' => exact stops_cons.2 (by decide)

/-- A number begins with a digit. -/
theorem Numeral.octets_cons (n : Numeral) : ∃ d s, n.octets = d :: s ∧ isDigit d = true := by
  cases n with
  | decimal n =>
    obtain ⟨d, s, h⟩ := List.exists_cons_of_ne_nil (formatUint_ne_nil n)
    exact ⟨d, s, h, digits_isDigit n d (h ▸ List.mem_cons_self)⟩
  | octal digits => exact ⟨_, _, rfl, by decide⟩
  | hexadecimal digit digits => exact ⟨_, _, rfl, by decide⟩

/-- What follows the number begins with `;` or `[`. -/
theorem Ending.octets_cons (e : Ending) : ∃ c s, e.octets = c :: s ∧ isFieldEnd c = true := by
  cases e with
  | plain remark => exact ⟨_, _, rfl, by decide⟩
  | options inside _ gap remark => exact ⟨_, _, rfl, by decide⟩

namespace Declaration

variable (d : Declaration)

/-- The number ends a run of white space. -/
theorem fromNumber_stops : Stops isSpace d.fromNumber := by
  obtain ⟨c, s, hn, hc⟩ := d.number.octets_cons
  rw [fromNumber, hn]
  exact stops_cons.2 (isSpace_of_isDotted c (isDotted_of_isDigit c hc))

/-- **A declaration from its number on.** -/
theorem run_fromNumber :
    (run numberTail d.fromNumber).head?.map Prod.fst =
      if d.number.octets.all isDigit = true then some [(4, d.number.octets)] else none := by
  obtain ⟨e, s, hend, he⟩ := d.ending.octets_cons
  rw [fromNumber, hend]
  split
  · rename_i hdigits
    obtain ⟨c, s', hn, hc⟩ := d.number.octets_cons
    rw [run_numberTail (hn ▸ List.cons_ne_nil c s') (List.all_eq_true.1 hdigits) _ he]
    rfl
  · rename_i hdigits
    cases hn : d.number with
    | decimal n =>
      rw [hn, Numeral.octets, List.all_eq_true] at hdigits
      exact absurd (digits_isDigit n) hdigits
    | octal digits =>
      refine absurd ?_ hdigits
      rw [hn, Numeral.octets, List.all_cons, List.all_map]
      have hall : ∀ n : Fin 8, isDigit (UInt8.ofNat (48 + n.val)) = true := by decide
      simp only [Bool.and_eq_true, List.all_eq_true, Function.comp_apply]
      exact ⟨by decide, fun x _ => hall x⟩
    | hexadecimal digit digits =>
      rw [Numeral.octets, List.cons_append, List.cons_append,
        run_numberTail_eq_nil (by decide) (by decide) (by decide) (by decide)]
      rfl

/-- What is neither white space nor `=` stops before the equals sign. -/
theorem stops_beforeEquals {p : UInt8 → Bool}
    (hspace : ([9, 10, 12, 13, 32] : Octets).any p = false) (hp : p 61 = false) :
    Stops p (d.beforeEquals.octets ++ 61 :: (d.afterEquals.octets ++ d.fromNumber)) :=
  d.beforeEquals.stops (forall_space hspace) (stops_cons.2 hp)

/-- From the name on, the name is captured and the number is left. -/
theorem run_fromName :
    run nameTail d.fromName = tag [(3, d.name.octets)] (run numberTail d.fromNumber) := by
  rw [fromName, run_nameTail d.name (d.stops_beforeEquals (by decide) (by decide)),
    run_equalsTail _ _ d.fromNumber_stops]

/-- The line after its indentation. -/
theorem run_fromType :
    run (seq (opt protoLabel) typeTail) (d.type.octets ++ d.fromName) =
      match d.type with
      | .singular type _ _ => tag [(2, type.octets)] (run nameTail d.fromName)
      | .labelled label _ type _ =>
        tag [(1, label.octets)] (tag [(2, type.octets)] (run nameTail d.fromName))
      | .map _ _ _ _ => [] := by
  have hname : Stops isSpace d.fromName := FieldName.stops d.name _
  rw [run_seq_opt]
  cases d.type with
  | singular type unlabelled gap =>
    rw [TypeText.octets, List.append_assoc,
      run_protoLabel_eq_nil (TypeName.no_space type) unlabelled gap hname, List.nil_append,
      run_typeTail type.ne_nil (TypeName.all_dotted type) gap hname]
  | labelled label gap type gap' =>
    simp only [TypeText.octets, List.append_assoc]
    have htype : Stops isSpace (type.octets ++ (gap'.octets ++ d.fromName)) := TypeName.stops type _
    -- the label taken for a type leaves a word that no equals sign follows
    have hother : run typeTail (label.octets ++ (gap.octets ++ (type.octets ++
        (gap'.octets ++ d.fromName)))) = [] := by
      have hnone : run equalsTail (gap'.octets ++ d.fromName) = [] :=
        run_equalsTail_eq_nil gap'.toBlank
          (isSpace_of_isDotted _ (isDotted_of_isNameStart _ d.name.first_mem))
          (ne_of_mem d.name.first_mem (by decide)) _
      have hstop : Stops isNamePart (gap'.octets ++ d.fromName) := by
        obtain ⟨c, rest, hg⟩ := List.exists_cons_of_ne_nil gap'.nonempty
        rw [hg]
        exact stops_cons.2 (forall_space (by decide) c
          (gap'.all_space c (by rw [hg]; exact List.mem_cons_self)))
      rw [run_typeTail label.ne_nil label.all_dotted gap htype,
        run_nameTail_eq_nil (TypeName.all_dotted type) hstop hnone, tag_empty]
    rw [run_protoLabel label gap htype, hother, List.append_nil,
      run_typeTail type.ne_nil (TypeName.all_dotted type) gap' hname]
  | map gap inside _ gap' =>
    simp only [TypeText.octets, List.append_assoc]
    have hlabel : ∀ s, run (seq protoLabel typeTail) (text "map" ++ s) = [] := fun s =>
      run_cons_eq_nil (by decide) (by decide) _
    have hafter : ∀ s, run (seq (plus isSpace) nameTail) (gap.octets ++ 60 :: s) = [] := by
      intro s
      cases hg : gap.octets with
      | nil => exact run_cons_eq_nil (by decide) (by decide) _
      | cons c rest =>
        have hrun := run_plus_gap nameTail_avoids
          { gap with nonempty := by rw [hg]; exact List.cons_ne_nil c rest }
          (s := 60 :: s) (stops_cons.2 (by decide))
        rw [← hg]
        exact hrun.trans (run_cons_eq_nil (by decide) (by decide) _)
    rw [hlabel, List.nil_append, List.cons_append, typeTail,
      run_seq_group_plus gapTail_avoids 2 (by decide) (List.all_eq_true.1 (by decide))
        (gap.stops (forall_space (by decide)) (stops_cons.2 (by decide))), hafter, tag_empty]

/-- The captures of a declaration, if the pattern matches it. -/
theorem find_protoField :
    find protoField d.octets =
      if d.indent.octets = [] ∨ d.number.octets.all isDigit = false then none
      else
        match d.type with
        | .singular type _ _ =>
          some [(2, type.octets), (3, d.name.octets), (4, d.number.octets)]
        | .labelled label _ type _ =>
          some [(1, label.octets), (2, type.octets), (3, d.name.octets), (4, d.number.octets)]
        | .map _ _ _ _ => none := by
  by_cases hindent : d.indent.octets = []
  · rw [if_pos (.inl hindent), find_eq_none, octets, hindent, List.nil_append, protoField_eq, plus,
      run_seq_word_stop (d.type.stops d.fromName)]
  have hrun : run protoField d.octets =
      run (seq (opt protoLabel) typeTail) (d.type.octets ++ d.fromName) :=
    run_seq_plus labelTail_avoids hindent d.indent.all_space (d.type.stops d.fromName)
  have hnumber := d.run_fromNumber
  rw [find, hrun, d.run_fromType, d.run_fromName]
  by_cases hdigits : d.number.octets.all isDigit = true
  · rw [if_pos hdigits] at hnumber
    rw [if_neg (by rw [hdigits]; simp [hindent])]
    cases d.type with
    | singular type unlabelled gap => simp only [head?_tag, hnumber, Option.map_some]; rfl
    | labelled label gap type gap' => simp only [head?_tag, hnumber, Option.map_some]; rfl
    | map gap inside _ gap' => rfl
  · rw [if_neg hdigits] at hnumber
    rw [if_pos (.inr (Bool.of_not_eq_true hdigits))]
    cases d.type with
    | singular type unlabelled gap => simp only [head?_tag, hnumber, Option.map_none]
    | labelled label gap type gap' => simp only [head?_tag, hnumber, Option.map_none]
    | map gap inside _ gap' => rfl

/-- The field of a declaration whose number is spelled in digits, with a type. -/
def ofDigits (kind : Octets) : Option Field :=
  if decimalValue d.number.octets < 2 ^ 63 then
    some { name := d.name.octets, type := kind, slot := decimalValue d.number.octets }
  else none

/-- An indented declaration with digits for its number, not a map, is read as it says. -/
theorem read_eq (hindent : d.indent.octets ≠ []) (hdigits : d.number.octets.all isDigit = true)
    (hmap : d.type.isMap = false) : d.read = d.ofDigits d.type.declared := by
  rw [read, if_neg (by simp [hindent, hmap]), Numeral.read, ofDigits]
  by_cases hlt : decimalValue d.number.octets < 2 ^ 63
  · rw [if_pos ⟨hdigits, hlt⟩, if_pos hlt, Option.map_some]
  · rw [if_neg fun h => hlt h.2, if_neg hlt, Option.map_none]

/-- **What the parser reads of a declaration.** -/
theorem parseProtoField_octets : parseProtoField d.octets = d.read := by
  have hfind := d.find_protoField
  by_cases hindent : d.indent.octets = []
  · rw [if_pos (.inl hindent)] at hfind
    rw [parseProtoField, hfind, read, if_pos (.inl hindent)]
  by_cases hdigits : d.number.octets.all isDigit = true
  · rw [if_neg (by simp [hindent, hdigits])] at hfind
    have hread := d.read_eq hindent hdigits
    cases htype : d.type with
    | singular type unlabelled gap =>
      rw [htype] at hfind hread
      have hkind : (if ([] : Octets) = text "repeated" then text "repeated " ++ type.octets
          else type.octets) = type.octets := if_neg (by decide)
      rw [parseProtoField_of_find hfind, hread rfl]
      exact congrArg d.ofDigits hkind
    | labelled label gap type gap' =>
      rw [htype] at hfind hread
      have hkind : (if label.octets = text "repeated" then text "repeated " ++ type.octets
          else type.octets) = (TypeText.labelled label gap type gap').declared := by
        cases label with
        | repeated => exact if_pos rfl
        | optional => exact if_neg (by decide)
      rw [parseProtoField_of_find hfind, hread rfl]
      exact congrArg d.ofDigits hkind
    | map gap inside _ gap' =>
      rw [htype] at hfind
      rw [parseProtoField, hfind, read, if_pos (.inr (by rw [htype]; rfl))]
  · have htest : ¬ (d.number.octets.all isDigit = true ∧ decimalValue d.number.octets < 2 ^ 63) :=
      fun h => hdigits h.1
    rw [if_pos (.inr (Bool.of_not_eq_true hdigits))] at hfind
    rw [parseProtoField, hfind, read, Numeral.read, if_neg htest, Option.map_none, ite_self]

end Declaration

end SchemaDrift

end Osdp
