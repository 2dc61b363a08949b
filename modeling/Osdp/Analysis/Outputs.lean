import Osdp.Analysis.PdSpec

/-!
# What an `osdp_OUT` does

`applyOutputs` goes over its payload twice, once to check the entries and once to act on them. The
payload is the entries at every fourth octet (`outputEntries_eq`), and one outcome of
`outputActionFor` serves both passes, so a payload is either refused as a whole or carried out entry
by entry (`applyOutputs_of_accepts`, `applyOutputs_of_not_accepts`). Carried out, an output stands
as the last entry left it that says anything about it (`getElem?_foldl_applyOutput`).
-/

set_option autoImplicit false

namespace Osdp

/-- The control codes the specification defines. -/
def OutputControl.defined : List OutputControl :=
  [nop, offAbort, onAbort, offAfterTimer, onAfterTimer, timedOn, timedOff]

/-- The state a control code gives an output; `osdp_OUT_NOP` and what nobody defined give none. -/
def OutputControl.gives (c : OutputControl) : Option Bool :=
  if c ∈ [offAbort, offAfterTimer, timedOff] then some false
  else if c ∈ [onAbort, onAfterTimer, timedOn] then some true
  else none

namespace Pd

/-! ## Entries -/

/-- The entry that starts at octet `4 * k`. -/
def entryAt (data : Octets) (k : ℕ) : UInt8 × UInt8 :=
  (data.getD (outputEntrySize * k) 0, data.getD (outputEntrySize * k + 1) 0)

/-- The entries, by position. -/
theorem outputEntries_eq (data : Octets) :
    outputEntries data = (List.range (data.length / outputEntrySize)).map (entryAt data) := by
  induction data using outputEntries.induct with
  | case1 n c t u rest ih =>
    have hlen : (n :: c :: t :: u :: rest).length / outputEntrySize =
        rest.length / outputEntrySize + 1 := by
      simp only [List.length_cons, outputEntrySize]
      omega
    have hstep : ∀ k, entryAt (n :: c :: t :: u :: rest) (k + 1) = entryAt rest k := fun _ => rfl
    rw [outputEntries, hlen, List.range_succ_eq_map, List.map_cons, List.map_map, ih]
    simp only [List.cons.injEq, List.map_inj_left, Function.comp_apply, Nat.succ_eq_add_one, hstep,
      implies_true, and_true]
    rfl
  | case2 data hno =>
    have hlen : data.length / outputEntrySize = 0 := by
      rcases data with _ | ⟨n, _ | ⟨c, _ | ⟨t, _ | ⟨u, rest⟩⟩⟩⟩
      · rfl
      · exact Nat.div_eq_of_lt (show 1 < 4 by decide)
      · exact Nat.div_eq_of_lt (show 2 < 4 by decide)
      · exact Nat.div_eq_of_lt (show 3 < 4 by decide)
      · exact absurd rfl (hno n c t u rest)
    rw [hlen]
    unfold outputEntries
    split
    · rename_i n c t u rest
      exact absurd rfl (hno n c t u rest)
    · rfl

/-- What was put in is read back. -/
theorem outputEntries_outputCommand (os : List Output) :
    outputEntries (outputCommand os).data = os.map fun o => (o.number, o.control) := by
  induction os with
  | nil => rfl
  | cons o os ih =>
    rw [List.map_cons, ← ih]
    rfl

/-- Each output takes four octets of the command. -/
theorem length_outputCommand (os : List Output) :
    (outputCommand os).data.length = outputEntrySize * os.length := by
  induction os with
  | nil => rfl
  | cons o os ih =>
    have hcons : (outputCommand (o :: os)).data.length = (outputCommand os).data.length + 4 := by
      simp [outputCommand]
    rw [hcons, ih, List.length_cons]
    rfl

/-! ## One entry -/

/-- The state an action puts the output in, if any. -/
def OutputAction.gives : OutputAction → Option Bool
  | .deenergise => some false
  | .energise => some true
  | .leave | .unknown => none

/-- The device knows a code exactly when it is defined, and does what the code says. -/
theorem outputActionFor_spec (c : OutputControl) :
    (outputActionFor c = .unknown ↔ c ∉ OutputControl.defined) ∧
      (c ∈ OutputControl.defined → (c.gives = none ↔ c = OutputControl.nop)) ∧
      ∀ outputs n, applyOutput outputs (n, c) =
        match c.gives with
        | some b => outputs.set n.toNat b
        | none => outputs := by
  have hcodes : ∀ n : Fin 256, (outputActionFor (UInt8.ofNat n) = .unknown ↔
      UInt8.ofNat n ∉ OutputControl.defined) ∧
      (UInt8.ofNat n ∈ OutputControl.defined →
        (OutputControl.gives (UInt8.ofNat n) = none ↔ UInt8.ofNat n = OutputControl.nop)) ∧
      (outputActionFor (UInt8.ofNat n)).gives = OutputControl.gives (UInt8.ofNat n) := by
    decide +kernel
  obtain ⟨hknown, hnop, haction⟩ := hcodes ⟨c.toNat, c.toNat_lt⟩
  simp only [UInt8.ofNat_toNat] at hknown hnop haction
  refine ⟨hknown, hnop, ?_⟩
  intro outputs n
  rw [← haction, applyOutput]
  cases outputActionFor c <;> rfl

/-- An entry says something about output `i`. -/
def speaksOf (i : ℕ) (e : UInt8 × UInt8) : Bool :=
  decide (e.1.toNat = i) && (OutputControl.gives e.2).isSome

/-- An entry sets the output it speaks of. -/
theorem getElem?_applyOutput (outputs : List Bool) (e : UInt8 × UInt8) (i : ℕ) :
    (applyOutput outputs e)[i]? =
      if speaksOf i e then outputs[i]?.map fun _ => (OutputControl.gives e.2).getD false
      else outputs[i]? := by
  obtain ⟨n, c⟩ := e
  rw [(outputActionFor_spec c).2.2 outputs n]
  cases hg : OutputControl.gives c with
  | none => simp [speaksOf, hg]
  | some b =>
    by_cases hi : n.toNat = i
    · subst hi
      simp only [speaksOf, hg, decide_true, Option.isSome_some, Bool.and_self, if_true,
        Option.getD_some, List.getElem?_set_self']
      rfl
    · simp [speaksOf, hg, hi, List.getElem?_set_ne hi]

/-- **The last entry that speaks of an output decides its state.** -/
theorem getElem?_foldl_applyOutput (entries : List (UInt8 × UInt8)) (outputs : List Bool) (i : ℕ) :
    (entries.foldl applyOutput outputs)[i]? =
      match (entries.filter (speaksOf i)).getLast? with
      | some e => outputs[i]?.map fun _ => (OutputControl.gives e.2).getD false
      | none => outputs[i]? := by
  -- the entry carried out last is the last of the list
  induction entries using List.reverseRecOn with
  | nil => rfl
  | append_singleton entries e ih =>
    rw [List.foldl_append, List.foldl_cons, List.foldl_nil, getElem?_applyOutput, List.filter_append]
    cases he : speaksOf i e with
    | false => simpa [List.filter_cons, he] using ih
    | true =>
      simp only [List.filter_cons, he, if_true, List.filter_nil, List.getLast?_concat]
      rw [ih]
      cases (entries.filter (speaksOf i)).getLast? with
      | none => rfl
      | some w => rw [Option.map_map]; rfl

/-! ## The command -/

namespace Device

/-- A payload the device can carry out: whole entries, one at least, each for an output it has and
with a defined control code. -/
structure Accepts (d : Device) (data : Octets) : Prop where
  nonempty : data ≠ []
  whole : outputEntrySize ∣ data.length
  entry : ∀ k < data.length / outputEntrySize,
    (entryAt data k).1.toNat < d.outputs.length ∧ (entryAt data k).2 ∈ OutputControl.defined

/-- The check of the first pass, entry by entry. -/
theorem checks_iff (d : Device) (data : Octets) :
    (outputEntries data).any (fun e =>
        e.1.toNat ≥ d.outputs.length || outputActionFor e.2 == .unknown) = false ↔
      ∀ k < data.length / outputEntrySize,
        (entryAt data k).1.toNat < d.outputs.length ∧
          (entryAt data k).2 ∈ OutputControl.defined := by
  rw [outputEntries_eq, List.any_eq_false]
  simp only [List.mem_map, List.mem_range, forall_exists_index, and_imp, forall_apply_eq_imp_iff₂,
    Bool.or_eq_true, decide_eq_true_eq, beq_iff_eq, not_or, ge_iff_le, not_le,
    (outputActionFor_spec _).1, not_not]

/-- A command that is accepted is carried out whole. -/
theorem applyOutputs_of_accepts {d : Device} {data : Octets} (h : d.Accepts data) :
    d.applyOutputs data = (ack, { d with outputs := (outputEntries data).foldl applyOutput d.outputs }) := by
  have hlen : ¬ (data.length = 0 ∨ data.length % outputEntrySize ≠ 0) := by
    rintro (h0 | hmod)
    · exact h.nonempty (List.eq_nil_of_length_eq_zero h0)
    · exact hmod (Nat.mod_eq_zero_of_dvd h.whole)
  rw [applyOutputs, if_neg hlen]
  simp only [(d.checks_iff data).mpr h.entry, Bool.false_eq_true, if_false]

/-- Another is refused and changes nothing. -/
theorem applyOutputs_of_not_accepts {d : Device} {data : Octets} (h : ¬ d.Accepts data) :
    ∃ reason, d.applyOutputs data = (nak reason, d) := by
  unfold applyOutputs
  split
  · exact ⟨_, rfl⟩
  · rename_i hlen
    simp only [not_or, not_not] at hlen
    simp only
    split
    · exact ⟨_, rfl⟩
    · rename_i hany
      exact absurd ⟨fun hnil => hlen.1 (by rw [hnil]; rfl), Nat.dvd_of_mod_eq_zero hlen.2,
        (d.checks_iff data).mp (Bool.eq_false_iff.mpr hany)⟩ h

/-- The panel's builder writes what the device accepts. -/
theorem accepts_outputCommand {d : Device} {os : List Output} (hne : os ≠ [])
    (hos : ∀ o ∈ os, o.number.toNat < d.outputs.length ∧ o.control ∈ OutputControl.defined) :
    d.Accepts (outputCommand os).data := by
  have hlen := length_outputCommand os
  have hpos := List.length_pos_iff.mpr hne
  refine ⟨?_, ⟨_, hlen⟩, ?_⟩
  · intro hnil
    rw [hnil, outputEntrySize, List.length_nil] at hlen
    omega
  · rw [← d.checks_iff, outputEntries_outputCommand, List.any_eq_false]
    intro e he
    obtain ⟨o, ho, rfl⟩ := List.mem_map.mp he
    obtain ⟨hn, hc⟩ := hos o ho
    simp only [Bool.or_eq_true, decide_eq_true_eq, beq_iff_eq, not_or, ge_iff_le, not_le,
      (outputActionFor_spec _).1, not_not]
    exact ⟨hn, hc⟩

/-- What is left of a list of entries that speak of an output. -/
theorem filter_speaksOf {os : List Output} (hos : ∀ o ∈ os, o.control ∈ OutputControl.defined)
    (i : ℕ) :
    (os.map fun o => (o.number, o.control)).filter (speaksOf i) =
      (os.filter fun o => o.number.toNat = i ∧ o.control ≠ OutputControl.nop).map
        fun o => (o.number, o.control) := by
  rw [List.filter_map]
  congr 1
  refine List.filter_congr fun o ho => ?_
  have hgives := (outputActionFor_spec o.control).2.1 (hos o ho)
  simp only [Function.comp_apply, speaksOf, Bool.decide_and, decide_not]
  congr 1
  rw [Bool.eq_iff_iff, Option.isSome_iff_ne_none, Bool.not_eq_true', decide_eq_false_iff_not]
  exact not_congr hgives

/-- **An `osdp_OUT` is carried out whole or not at all, and means the same at both ends.** -/
theorem outputs_all_or_nothing (d : Device) :
    (∀ data, (∃ reason, d.applyOutputs data = (nak reason, d)) ∨
      d.applyOutputs data = (ack, { d with
        outputs := (List.range (data.length / outputEntrySize)).foldl
          (fun outputs k => applyOutput outputs (entryAt data k)) d.outputs })) ∧
    (∀ data, (d.applyOutputs data).1 = ack ↔ data ≠ [] ∧ outputEntrySize ∣ data.length ∧
      ∀ k < data.length / outputEntrySize, (entryAt data k).1.toNat < d.outputs.length ∧
        (entryAt data k).2 ∈ OutputControl.defined) ∧
    ∀ os : List Output, os ≠ [] →
      (∀ o ∈ os, o.number.toNat < d.outputs.length ∧ o.control ∈ OutputControl.defined) →
      ∀ secured, let r := d.dispatch (outputCommand os).code (outputCommand os).data secured
        r.1 = ack ∧ r.2 = { d with outputs := r.2.outputs } ∧
        ∀ i, r.2.outputs[i]? =
          match (os.filter fun o => o.number.toNat = i ∧ o.control ≠ OutputControl.nop).getLast? with
          | some o => OutputControl.gives o.control
          | none => d.outputs[i]? := by
  have hwhole : ∀ data, d.Accepts data → d.applyOutputs data = (ack, { d with
      outputs := (List.range (data.length / outputEntrySize)).foldl
        (fun outputs k => applyOutput outputs (entryAt data k)) d.outputs }) := by
    intro data h
    rw [applyOutputs_of_accepts h, outputEntries_eq, List.foldl_map]
  refine ⟨?_, ?_, ?_⟩
  · intro data
    by_cases h : d.Accepts data
    · exact .inr (hwhole data h)
    · exact .inl (applyOutputs_of_not_accepts h)
  · intro data
    constructor
    · intro hack
      by_contra h
      have hno : ¬ d.Accepts data := fun ha => h ⟨ha.nonempty, ha.whole, ha.entry⟩
      obtain ⟨reason, hnak⟩ := applyOutputs_of_not_accepts hno
      rw [hnak] at hack
      exact absurd (congrArg Message.code hack) (show Code.nak ≠ Code.ack by decide)
    · rintro ⟨hne, hwh, hentry⟩
      rw [hwhole data ⟨hne, hwh, hentry⟩]
  · intro os hne hos secured r
    have hr : r = (ack, { d with
        outputs := (os.map fun o => (o.number, o.control)).foldl applyOutput d.outputs }) := by
      show d.dispatch Code.out (outputCommand os).data secured = _
      rw [dispatch_out, applyOutputs_of_accepts (accepts_outputCommand hne hos),
        outputEntries_outputCommand]
    rw [hr]
    refine ⟨rfl, rfl, ?_⟩
    intro i
    rw [getElem?_foldl_applyOutput, filter_speaksOf (fun o ho => (hos o ho).2), List.getLast?_map]
    cases hlast : (os.filter fun o =>
      o.number.toNat = i ∧ o.control ≠ OutputControl.nop).getLast? with
    | none => rfl
    | some o =>
      have hmem := List.mem_of_getLast? hlast
      rw [List.mem_filter, decide_eq_true_eq] at hmem
      obtain ⟨ho, rfl, hnop⟩ := hmem
      obtain ⟨hn, hc⟩ := hos o ho
      obtain ⟨b, hb⟩ := Option.ne_none_iff_exists'.mp
        (mt ((outputActionFor_spec o.control).2.1 hc).mp hnop)
      simp [List.getElem?_eq_getElem hn, hb]

/-- Of three entries for two outputs, the last for each counts. -/
theorem outputs_all_or_nothing_pair :
    let d : Device := { cfg := { outputs := 2 }, address := 1, outputs := [true, false] }
    let r := d.dispatch Code.out (outputCommand
      [⟨1, OutputControl.timedOn, 5 * 10 ^ 9⟩, ⟨0, OutputControl.offAbort, 0⟩,
        ⟨1, OutputControl.nop, 0⟩]).data false
    r.1 = ack ∧ r.2.outputs[0]? = some false ∧ r.2.outputs[1]? = some true := by
  intro d r
  obtain ⟨-, -, hboth⟩ := outputs_all_or_nothing d
  obtain ⟨hack, -, hout⟩ := hboth
    [⟨1, OutputControl.timedOn, 5 * 10 ^ 9⟩, ⟨0, OutputControl.offAbort, 0⟩,
      ⟨1, OutputControl.nop, 0⟩] (by simp) (by decide) false
  exact ⟨hack, (hout 0).trans (by decide), (hout 1).trans (by decide)⟩

end Device

end Pd

end Osdp
