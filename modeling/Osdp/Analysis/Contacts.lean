import Osdp.Analysis.BusRun
import Osdp.Library.Delta

/-!
# Status changes add up to the status

A status reply reports each contact of a kind once. The bus compares it with the last state it has
of each contact, keeps the report, and passes on the entries that are news. `contact` is that last
state as a map from contacts to states, a contact never reported counting as inactive;
`applyReport_spec` says that the loop over a report is `Delta.apply` on this map and that what it
passes on is what differs, or everything for a kind not heard of before. So the entries passed on,
applied in order to a map of inactive contacts, give the map of the bus (`Mirrors`), after any run.
-/

set_option autoImplicit false

namespace Osdp

/-- The contact an entry is about. -/
def StatusChange.contact (r : StatusChange) : StatusKind × ℕ := (r.kind, r.index)

/-- What the entries of a list, applied in order, make of these contacts. -/
def applyChanges (v : StatusKind × ℕ → Bool) (changes : List StatusChange) :
    StatusKind × ℕ → Bool :=
  Delta.apply StatusChange.contact StatusChange.active v changes

/-- The number of contacts of a kind that a list of entries speaks of. -/
def contactCount (kind : StatusKind) (reported : List StatusChange) : ℕ :=
  reported.foldl (fun n r => if r.kind = kind then max n (r.index + 1) else n) 0

variable {reported : List StatusChange}

/-- Entries of other kinds do not count. -/
theorem foldl_count_other {kind : StatusKind} (h : ∀ r ∈ reported, r.kind ≠ kind) (n : ℕ) :
    reported.foldl (fun n r => if r.kind = kind then max n (r.index + 1) else n) n = n := by
  induction reported with
  | nil => rfl
  | cons r rs ih =>
    rw [List.foldl_cons, if_neg (h r List.mem_cons_self)]
    exact ih fun e he => h e (List.mem_cons_of_mem _ he)

/-- One entry for each octet of a payload, active where the octet is not zero. -/
def octetEntries (kind : StatusKind) (data : Octets) : List StatusChange :=
  (List.range data.length).map fun i => ⟨kind, i, data.getD i 0 != 0⟩

/-- The report a message carries, octet by octet: `osdp_LSTATR` has tamper and power in its first
two octets, the others a contact in each. -/
def Message.reports (m : Message) : Option (List StatusChange) :=
  if m.code = Code.iStatR then some (octetEntries .input m.data)
  else if m.code = Code.oStatR then some (octetEntries .output m.data)
  else if m.code = Code.lStatR then
    if 2 ≤ m.data.length then
      some [⟨.tamper, 0, m.data.getD 0 0 != 0⟩, ⟨.power, 0, m.data.getD 1 0 != 0⟩]
    else none
  else if m.code = Code.rStatR then some (octetEntries .local m.data)
  else none

/-- The parser of a payload of contacts reads it octet by octet. -/
theorem parseContacts_eq (kind : StatusKind) (data : Octets) :
    parseContacts kind data = octetEntries kind data := by
  refine List.ext_getElem (by simp [parseContacts, octetEntries]) fun i h₁ h₂ => ?_
  have hi : i < data.length := by simpa [parseContacts] using h₁
  simp [parseContacts, octetEntries, hi]

/-- That of a local status reads the first two octets. -/
theorem parseLocalStatus_eq (data : Octets) :
    parseLocalStatus data = if 2 ≤ data.length then
      some [⟨.tamper, 0, data.getD 0 0 != 0⟩, ⟨.power, 0, data.getD 1 0 != 0⟩]
      else none := by
  unfold parseLocalStatus
  split
  · simp
  · rename_i hshort
    rw [if_neg]
    intro hlen
    obtain ⟨t, p, rest, rfl⟩ : ∃ t p rest, data = t :: p :: rest := by
      cases data with
      | nil => simp at hlen
      | cons t rest =>
        cases rest with
        | nil => simp at hlen
        | cons p rest => exact ⟨t, p, rest, rfl⟩
    exact hshort t p rest rfl

/-- A payload speaks of each contact once. -/
theorem octetEntries_nodup (kind : StatusKind) (data : Octets) :
    ((octetEntries kind data).map StatusChange.contact).Nodup := by
  rw [octetEntries, List.map_map]
  exact List.nodup_range.map fun i j h => (Prod.mk.inj h).2

/-- A report speaks of each contact once. -/
theorem Message.reports_nodup {m : Message} (h : m.reports = some reported) :
    (reported.map StatusChange.contact).Nodup := by
  unfold Message.reports at h
  split at h
  · cases h
    exact octetEntries_nodup _ _
  split at h
  · cases h
    exact octetEntries_nodup _ _
  split at h
  · split at h
    · cases h
      simp [StatusChange.contact]
    · cases h
  split at h
  · cases h
    exact octetEntries_nodup _ _
  · cases h

namespace Bus

open Osdp.Secure (Rnd)

namespace Device

/-! ## The loop over a report -/

/-- The contacts of one kind, none before a report. -/
def contactsOf (status : StatusKind → Option Contacts) (kind : StatusKind) : Contacts :=
  (status kind).getD {}

/-- The last state of each contact. -/
def contact (status : StatusKind → Option Contacts) (k : StatusKind × ℕ) : Bool :=
  (contactsOf status k.1).state.getD k.2 false

/-- An entry the bus passes on. -/
def isNews (status : StatusKind → Option Contacts) (r : StatusChange) : Bool :=
  !(contactsOf status r.kind).known || contact status r.contact != r.active

/-- Contacts never reported count as inactive. -/
theorem extend_getD (state : List Bool) (i j : ℕ) :
    (extend state i).getD j false = state.getD j false := by
  simp only [extend, List.getD_eq_getElem?_getD]
  rcases Nat.lt_or_ge j state.length with hj | hj
  · rw [List.getElem?_append_left hj]
  · rw [List.getElem?_append_right hj, List.getElem?_eq_none hj]
    cases hg : (List.replicate (i + 1 - state.length) false)[j - state.length]? with
    | none => rfl
    | some b =>
      obtain ⟨-, rfl⟩ := List.mem_replicate.mp (List.mem_of_getElem? hg)
      rfl

/-- The list reaches to the contact. -/
theorem length_extend (state : List Bool) (i : ℕ) :
    (extend state i).length = max state.length (i + 1) := by
  simp only [extend, List.length_append, List.length_replicate]
  omega

/-- One entry sets one contact, and is news if it says something new. -/
theorem applyStatus_spec (status : StatusKind → Option Contacts) (r : StatusChange) :
    (applyStatus status r).2 = isNews status r ∧
      contact (applyStatus status r).1 = Function.update (contact status) r.contact r.active ∧
      ∀ kind, (contactsOf (applyStatus status r).1 kind).known = (contactsOf status kind).known ∧
        (contactsOf (applyStatus status r).1 kind).state.length =
          if r.kind = kind then max (contactsOf status kind).state.length (r.index + 1)
          else (contactsOf status kind).state.length := by
  have hother : ∀ kind, r.kind ≠ kind →
      contactsOf (applyStatus status r).1 kind = contactsOf status kind := by
    intro kind hne
    simp only [applyStatus, contactsOf, Function.update_of_ne (Ne.symm hne)]
  have hsame : contactsOf (applyStatus status r).1 r.kind =
      { contactsOf status r.kind with
        state := (extend (contactsOf status r.kind).state r.index).set r.index r.active } := by
    simp only [applyStatus, contactsOf, Function.update_self, Option.getD_some]
  refine ⟨?_, ?_, ?_⟩
  · simp only [applyStatus, isNews, contact, StatusChange.contact, extend_getD]
    rfl
  · funext ⟨kind, i⟩
    by_cases hk : r.kind = kind
    · subst hk
      by_cases hi : r.index = i
      · subst hi
        rw [show (r.kind, r.index) = r.contact from rfl, Function.update_self]
        simp only [contact, StatusChange.contact, hsame, List.getD_eq_getElem?_getD]
        rw [List.getElem?_set_self (by rw [length_extend]; omega), Option.getD_some]
      · rw [Function.update_of_ne (by simp [StatusChange.contact, Ne.symm hi])]
        simp only [contact, hsame, List.getD_eq_getElem?_getD, List.getElem?_set_ne hi]
        simp only [← List.getD_eq_getElem?_getD, extend_getD]
    · rw [Function.update_of_ne (by simp [StatusChange.contact, Ne.symm hk])]
      simp only [contact, hother kind hk]
  · intro kind
    by_cases hk : r.kind = kind
    · subst hk
      rw [hsame]
      simp only [List.length_set, length_extend, if_true, true_and]
    · rw [hother kind hk, if_neg hk]
      exact ⟨rfl, rfl⟩

variable {reported : List StatusChange}

/-- **The loop over a report** that speaks of each contact once. -/
theorem applyReport_spec (hkeys : (reported.map StatusChange.contact).Nodup)
    (status : StatusKind → Option Contacts) :
    (applyReport status reported).2 = reported.filter (isNews status) ∧
      contact (applyReport status reported).1 = applyChanges (contact status) reported ∧
      ∀ kind, (contactsOf (applyReport status reported).1 kind).known =
          (contactsOf status kind).known ∧
        (contactsOf (applyReport status reported).1 kind).state.length =
          reported.foldl (fun n r => if r.kind = kind then max n (r.index + 1) else n)
            (contactsOf status kind).state.length := by
  induction reported generalizing status with
  | nil => exact ⟨rfl, rfl, fun _ => ⟨rfl, rfl⟩⟩
  | cons r rs ih =>
    rw [List.map_cons, List.nodup_cons] at hkeys
    obtain ⟨hnews, hcontact, hkind⟩ := applyStatus_spec status r
    obtain ⟨hrest, hmap, hlen⟩ := ih hkeys.2 (applyStatus status r).1
    -- the rest of the report is compared with a state that differs at this contact only
    have hsame : rs.filter (isNews (applyStatus status r).1) = rs.filter (isNews status) := by
      refine List.filter_congr fun e he => ?_
      have hne : e.contact ≠ r.contact := fun heq => hkeys.1 (heq ▸ List.mem_map_of_mem he)
      simp only [isNews, (hkind e.kind).1, hcontact, Function.update_of_ne hne]
    refine ⟨?_, ?_, ?_⟩
    · simp only [applyReport, hnews, hrest, hsame, List.filter_cons]
    · simp only [applyReport, hmap, hcontact]
      rfl
    · intro kind
      simp only [applyReport, (hlen kind).1, (hlen kind).2, (hkind kind).1, (hkind kind).2,
        List.foldl_cons, true_and]

/-- Marking the kinds of a report as heard changes nothing else. -/
theorem markKnown_spec (status : StatusKind → Option Contacts) (reported : List StatusChange)
    (kind : StatusKind) :
    (contactsOf (markKnown status reported) kind).state = (contactsOf status kind).state ∧
      ((∀ r ∈ reported, (status r.kind).isSome = true) →
        (contactsOf (markKnown status reported) kind).known =
          ((contactsOf status kind).known || reported.any fun r => r.kind == kind)) := by
  induction reported generalizing status with
  | nil => simp [markKnown]
  | cons r rs ih =>
    obtain ⟨hstate, hknown⟩ := ih (Function.update status r.kind
      ((status r.kind).map fun c => { c with known := true }))
    have hcons : markKnown status (r :: rs) = markKnown (Function.update status r.kind
      ((status r.kind).map fun c => { c with known := true })) rs := rfl
    rw [hcons]
    by_cases hk : r.kind = kind
    · subst hk
      refine ⟨?_, fun hall => ?_⟩
      · rw [hstate]
        simp only [contactsOf, Function.update_self]
        cases status r.kind <;> rfl
      · obtain ⟨c, hc⟩ := Option.isSome_iff_exists.mp (hall r List.mem_cons_self)
        rw [hknown ?_]
        · simp [contactsOf, hc]
        · intro e he
          by_cases hek : e.kind = r.kind
          · simp [hek, hc]
          · rw [Function.update_of_ne hek]
            exact hall e (List.mem_cons_of_mem _ he)
    · have hsame : contactsOf (Function.update status r.kind
          ((status r.kind).map fun c => { c with known := true })) kind = contactsOf status kind := by
        simp only [contactsOf, Function.update_of_ne (Ne.symm hk)]
      refine ⟨by rw [hstate, hsame], fun hall => ?_⟩
      rw [hknown ?_, hsame]
      · rw [List.any_cons, beq_false_of_ne hk, Bool.false_or]
      · intro e he
        by_cases hek : e.kind = r.kind
        · rw [hek, Function.update_self, Option.isSome_map]
          exact hall r List.mem_cons_self
        · rw [Function.update_of_ne hek]
          exact hall e (List.mem_cons_of_mem _ he)

/-- Every kind a report covers has its contacts. -/
theorem applyReport_isSome (status : StatusKind → Option Contacts) (reported : List StatusChange) :
    (∀ kind, (status kind).isSome = true → ((applyReport status reported).1 kind).isSome = true) ∧
      ∀ r ∈ reported, ((applyReport status reported).1 r.kind).isSome = true := by
  induction reported generalizing status with
  | nil => exact ⟨fun _ h => h, by simp⟩
  | cons r rs ih =>
    obtain ⟨hkeep, hall⟩ := ih (applyStatus status r).1
    have hstep : ∀ kind, (status kind).isSome = true ∨ kind = r.kind →
        ((applyStatus status r).1 kind).isSome = true := by
      intro kind h
      simp only [applyStatus]
      by_cases hk : kind = r.kind
      · rw [hk, Function.update_self]
        rfl
      · rw [Function.update_of_ne hk]
        exact h.resolve_right hk
    refine ⟨fun kind h => hkeep kind (hstep kind (.inl h)), ?_⟩
    intro e he
    rcases List.mem_cons.mp he with rfl | he
    · exact hkeep _ (hstep _ (.inr rfl))
    · exact hall e he

/-- **A report processed by the bus.** -/
theorem statusChanges_spec (hkeys : (reported.map StatusChange.contact).Nodup) (d : Device) :
    (d.statusChanges reported).1 = reported.filter (isNews d.status) ∧
      contact (d.statusChanges reported).2.status = applyChanges (contact d.status) reported ∧
      ∀ kind, (contactsOf (d.statusChanges reported).2.status kind).known =
          ((contactsOf d.status kind).known || reported.any fun r => r.kind == kind) ∧
        (contactsOf (d.statusChanges reported).2.status kind).state.length =
          reported.foldl (fun n r => if r.kind = kind then max n (r.index + 1) else n)
            (contactsOf d.status kind).state.length := by
  obtain ⟨hnews, hcontact, hkind⟩ := applyReport_spec hkeys d.status
  have hmark := markKnown_spec (applyReport d.status reported).1 reported
  refine ⟨hnews, ?_, ?_⟩
  · rw [← hcontact]
    funext k
    simp only [contact, statusChanges, (hmark k.1).1]
  · intro kind
    refine ⟨?_, ?_⟩
    · rw [← (hkind kind).1]
      exact (hmark kind).2 (applyReport_isSome d.status reported).2
    · rw [← (hkind kind).2]
      exact congrArg List.length (hmark kind).1

/-- The status of a kind, if it is known. -/
theorem statusOf_eq (d : Device) (kind : StatusKind) :
    d.statusOf kind = if (contactsOf d.status kind).known then
      ((contactsOf d.status kind).state, true) else ([], false) := by
  unfold statusOf contactsOf
  cases d.status kind <;> rfl

end Device

variable {reported : List StatusChange} {d : Device} {c : Call}

/-- A report of one kind leaves the others alone. -/
theorem Device.statusChanges_apart (hkeys : (reported.map StatusChange.contact).Nodup) (d : Device)
    {kind : StatusKind} (h : ∀ r ∈ reported, r.kind ≠ kind) :
    (d.statusChanges reported).2.statusOf kind = d.statusOf kind := by
  obtain ⟨-, hcontact, hkind⟩ := statusChanges_spec hkeys d
  obtain ⟨hknown, hlength⟩ := hkind kind
  rw [foldl_count_other h] at hlength
  have hany : reported.any (fun r => r.kind == kind) = false := by
    rw [List.any_eq_false]
    exact fun r hr => by simpa using h r hr
  rw [hany, Bool.or_false] at hknown
  have hstate : (contactsOf (d.statusChanges reported).2.status kind).state =
      (contactsOf d.status kind).state := by
    refine List.ext_getElem hlength fun i h₁ h₂ => ?_
    have hi : contact (d.statusChanges reported).2.status (kind, i) = contact d.status (kind, i) := by
      rw [hcontact]
      refine Delta.apply_of_notMem _ _ fun hmem => ?_
      obtain ⟨r, hr, heq⟩ := List.mem_map.mp hmem
      exact h r hr (congrArg Prod.fst heq)
    simpa only [contact, List.getD_eq_getElem?_getD, List.getElem?_eq_getElem h₁,
      List.getElem?_eq_getElem h₂, Option.getD_some] using hi
  rw [statusOf_eq, statusOf_eq, hknown, hstate]

/-! ## Calls -/

/-- What a status reply comes to. -/
theorem onStatus_reports (d : Device) (parse : Octets → Option (List StatusChange)) (data : Octets) :
    match parse data with
    | some reported => onStatus d parse data =
        (.ok (if (d.statusChanges reported).1 = [] then .none
          else .statusChange (d.statusChanges reported).1), (d.statusChanges reported).2)
    | none => (onStatus d parse data).2.status = d.status ∧
        ∀ changed, (onStatus d parse data).1 ≠ .ok (.statusChange changed) := by
  unfold onStatus
  cases parse data with
  | none => exact ⟨rfl, fun _ h => by cases h⟩
  | some reported =>
    simp only [List.length_eq_zero_iff]
    split <;> rfl

/-- No other reply touches a contact or is passed on as a change. -/
theorem dispatch_unreported (b : Bus) (d : Device) {m : Message} (hm : m.code ∉ statusCodes) :
    (dispatch b d m).2.status = d.status ∧
      ∀ changed, (dispatch b d m).1 ≠ .ok (.statusChange changed) := by
  apply dispatch_rows b d m (motive := fun r => r.2.status = d.status ∧
    ∀ changed, r.1 ≠ .ok (.statusChange changed))
  case malformed => exact fun _ => ⟨rfl, fun _ h => by cases h⟩
  case identified => exact fun _ _ _ => ⟨rfl, fun _ h => by cases h⟩
  case capabilities =>
    intro report e _ _ he
    obtain ⟨st, se, de, heq⟩ := afterCapabilities_eq b { d with caps := report }
    refine ⟨by rw [heq], fun changed h => ?_⟩
    cases h
    obtain h | ⟨h, -⟩ := he <;> cases h
  case status => exact fun _ _ hcode => absurd hcode hm
  case cryptogram =>
    intro _
    obtain ⟨st, se, pe, de, heq⟩ := onCryptogram_eq d m.data
    refine ⟨by rw [heq], fun changed h => ?_⟩
    obtain hc | ⟨s, t, out, -, -, hc⟩ := onCryptogram_cases d m.data
    · rw [hc] at h
      cases h
    · rw [hc] at h
      cases h
  case initialRMAC =>
    intro _
    obtain ⟨st, se, pe, de, heq⟩ := onInitialRMAC_eq d m.data
    refine ⟨by rw [heq], fun changed h => ?_⟩
    obtain hc | ⟨s, t, out, -, -, hc⟩ := onInitialRMAC_cases d m.data
    · rw [hc] at h
      cases h
    · rw [hc] at h
      cases h
  case card => exact fun _ _ _ => ⟨rfl, fun _ h => by cases h⟩
  case keypad => exact fun _ _ _ => ⟨rfl, fun _ h => by cases h⟩
  case refused => exact fun _ _ => ⟨rfl, fun _ h => by cases h⟩
  case manufacturer => exact fun _ _ _ => ⟨rfl, fun _ h => by cases h⟩
  case moved => exact fun _ _ _ => ⟨by simp [Device.resync_eq], fun _ h => by cases h⟩
  case busy =>
    intro _
    refine ⟨?_, fun _ h => by cases h⟩
    rw [Device.reclaim_eq]
    split <;> rfl
  case installed => exact fun _ _ _ _ => ⟨rfl, fun _ h => by cases h⟩
  case answer =>
    intro _
    obtain ⟨-, h⟩ | ⟨-, h⟩ := onAnswer_cases d <;> rw [h] <;> exact ⟨rfl, fun _ h => by cases h⟩

/-- A status report is what the dispatcher makes of it, and no other message is one. -/
theorem dispatch_reports (b : Bus) (d : Device) (m : Message) :
    match m.reports with
    | some reported => dispatch b d m =
        (.ok (if (d.statusChanges reported).1 = [] then .none
          else .statusChange (d.statusChanges reported).1), (d.statusChanges reported).2)
    | none => (dispatch b d m).2.status = d.status ∧
        ∀ changed, (dispatch b d m).1 ≠ .ok (.statusChange changed) := by
  by_cases hi : m.code = Code.iStatR
  · have hd : dispatch b d m = onStatus d parseInputStatus m.data := by
      simp [dispatch, hi, Code.iStatR, Code.pdID, Code.pdCap]
    rw [hd, Message.reports, if_pos hi]
    simpa only [parseInputStatus, parseContacts_eq] using onStatus_reports d parseInputStatus m.data
  by_cases ho : m.code = Code.oStatR
  · have hd : dispatch b d m = onStatus d parseOutputStatus m.data := by
      simp [dispatch, ho, Code.oStatR, Code.iStatR, Code.pdID, Code.pdCap]
    rw [hd, Message.reports, if_neg hi, if_pos ho]
    simpa only [parseOutputStatus, parseContacts_eq] using onStatus_reports d parseOutputStatus m.data
  by_cases hl : m.code = Code.lStatR
  · have hd : dispatch b d m = onStatus d parseLocalStatus m.data := by
      simp [dispatch, hl, Code.lStatR, Code.oStatR, Code.iStatR, Code.pdID, Code.pdCap]
    rw [hd, Message.reports, if_neg hi, if_neg ho, if_pos hl]
    simpa only [parseLocalStatus_eq] using onStatus_reports d parseLocalStatus m.data
  by_cases hr : m.code = Code.rStatR
  · have hd : dispatch b d m = onStatus d parseReaderStatus m.data := by
      simp [dispatch, hr, Code.rStatR, Code.lStatR, Code.oStatR, Code.iStatR, Code.pdID, Code.pdCap]
    rw [hd, Message.reports, if_neg hi, if_neg ho, if_neg hl, if_pos hr]
    simpa only [parseReaderStatus, parseContacts_eq] using onStatus_reports d parseReaderStatus m.data
  rw [Message.reports, if_neg hi, if_neg ho, if_neg hl, if_neg hr]
  exact dispatch_unreported b d (by simp [statusCodes, hi, ho, hl, hr])

/-- The report a call delivers: that of a reply the bus lets through. -/
def Device.reports (d : Device) : Call → Option (List StatusChange)
  | .reply f => (d.hears f).bind Message.reports
  | _ => none

/-- A report names a contact once. -/
theorem Device.reports_nodup (h : d.reports c = some reported) :
    (reported.map StatusChange.contact).Nodup := by
  cases c with
  | reply f =>
    obtain ⟨m, -, hm⟩ := Option.bind_eq_some_iff.mp h
    exact Message.reports_nodup hm
  | _ => cases h

/-- Choosing and composing a command leaves the contacts alone. -/
theorem transact_status (b : Bus) (d : Device) (rndA : Rnd) :
    (transact b d rndA).2.status = d.status := by
  have hchosen : (commandFor d rndA).2.2.status = d.status := by
    obtain ⟨m, -, he⟩ | ⟨-, -, he⟩ | ⟨-, -, he⟩ | ⟨-, -, he⟩ | ⟨-, -, he⟩ := commandFor_cases d rndA
    · rw [he]
    · rw [he]
    · rw [he]
    · rw [he]
      unfold handshakeCommand
      split
      · rfl
      · split
        · rfl
        · split <;> rfl
    · rw [he]
  obtain ⟨q, r, s, he⟩ :=
    compose_device b (commandFor d rndA).2.2 (commandFor d rndA).1 (commandFor d rndA).2.1
  simp only [transact, he, hchosen]

/-- What a report does depends on the contacts alone. -/
theorem statusChanges_congr {e : Device} (h : e.status = d.status) (reported : List StatusChange) :
    (e.statusChanges reported).1 = (d.statusChanges reported).1 ∧
      (e.statusChanges reported).2.status = (d.statusChanges reported).2.status := by
  simp only [Device.statusChanges, h, true_and]

/-- **A call reports the contacts' changes, or leaves the contacts alone.** -/
theorem call_reports (b : Bus) (d : Device) (c : Call) :
    match d.reports c with
    | some reported => (call b d c).1 = .event (if (d.statusChanges reported).1 = [] then .none
          else .statusChange (d.statusChanges reported).1) ∧
        (call b d c).2.status = (d.statusChanges reported).2.status
    | none => (call b d c).2.status = d.status ∧
        ∀ changed, (call b d c).1 ≠ .event (.statusChange changed) := by
  cases c with
  | send m =>
    simp only [Device.reports, call, send]
    split <;> exact ⟨rfl, fun _ h => by cases h⟩
  | installKey key =>
    simp only [Device.reports, call, installKey]
    split <;> exact ⟨rfl, fun _ h => by cases h⟩
  | next rndA =>
    refine ⟨transact_status b d rndA, fun changed h => ?_⟩
    simp only [call, Outcome.ofNext] at h
    split at h <;> cases h
  | timeout =>
    simp only [Device.reports, call]
    obtain ⟨-, he⟩ | ⟨-, -, he⟩ := timeout_cases d
    · rw [he, Device.retransmit_eq]
      exact ⟨rfl, fun _ h => by cases h⟩
    · rw [he, Device.resync_eq]
      exact ⟨rfl, fun _ h => by cases h⟩
  | reply f =>
    simp only [Device.reports, call]
    obtain ⟨hforeign, e, he⟩ | ⟨hr, ha, ⟨hz, he⟩ | ⟨hz, ⟨err, ho⟩, he⟩ | ⟨hz, data, s, ho, he⟩⟩ :=
      reply_cases b d f
    · rw [he, Device.hears_of_foreign hforeign]
      exact ⟨rfl, fun _ h => by cases h⟩
    · have hdeaf : d.hears f = none := by simp [Device.hears, hz]
      rw [he, hdeaf, Device.resync_eq]
      exact ⟨rfl, fun _ h => by cases h⟩
    · rw [he, Device.hears_of_closed ho, Device.resync_eq]
      exact ⟨rfl, fun _ h => by cases h⟩
    · rw [he, Device.hears_eq hr ha hz ho, Option.bind_some]
      have hsame : ({ d with misses := 0, session := s }.delivered).status = d.status := by
        rw [Device.delivered_eq]
      have hdisp := dispatch_reports b { d with misses := 0, session := s }.delivered
        { code := f.code, isReply := f.isReply, data := data }
      revert hdisp
      cases Message.reports { code := f.code, isReply := f.isReply, data := data } with
      | none =>
        rintro ⟨hstatus, hevent⟩
        refine ⟨hstatus.trans hsame, fun changed h => hevent changed ?_⟩
        revert h
        cases (dispatch b { d with misses := 0, session := s }.delivered
          { code := f.code, isReply := f.isReply, data := data }).1 with
        | error err => exact fun h => by cases h
        | ok ev => exact fun h => by cases h; rfl
      | some reported =>
        intro hdisp
        obtain ⟨hchanges, hafter⟩ := statusChanges_congr hsame reported
        simp only [hdisp, hchanges, hafter, Outcome.ofReply, and_self]

/-! ## Over a run of the bus -/

/-- What a device has reported, and what of it was passed on. -/
structure StatusLog where
  reported : List StatusChange := []
  news : List StatusChange := []

/-- The entries of a status change. -/
def Outcome.statusEntries : Outcome → List StatusChange
  | .event (.statusChange changed) => changed
  | _ => []

/-- The log after a call. -/
def StatusLog.after (g : StatusLog) (b : Bus) (d : Device) (c : Call) : StatusLog :=
  { reported := g.reported ++ (d.reports c).getD []
    news := g.news ++ (call b d c).1.statusEntries }

/-- The device's contacts are what its log adds up to. -/
structure Mirrors (d : Device) (g : StatusLog) : Prop where
  contact : Device.contact d.status = applyChanges (fun _ => false) g.news
  known : ∀ kind, (Device.contactsOf d.status kind).known = g.reported.any fun r => r.kind == kind
  length : ∀ kind, (Device.contactsOf d.status kind).state.length = contactCount kind g.reported

/-- A new device mirrors an empty log. -/
theorem mirrors_new (addr : Address) : Mirrors (Device.new addr) {} :=
  ⟨rfl, fun _ => rfl, fun _ => rfl⟩

/-- The entries of the event for what changed. -/
theorem statusEntries_event (changed : List StatusChange) :
    (Outcome.event (if changed = [] then .none else .statusChange changed)).statusEntries =
      changed := by
  split
  · rename_i h
    rw [h]
    rfl
  · rfl

/-- Other outcomes have none. -/
theorem statusEntries_of_quiet {o : Outcome} (h : ∀ changed, o ≠ .event (.statusChange changed)) :
    o.statusEntries = [] := by
  unfold Outcome.statusEntries
  split
  · rename_i changed
    exact absurd rfl (h changed)
  · rfl

/-- **Every call** keeps the status mirrored. -/
theorem mirrors_call (b : Bus) (d : Device) (c : Call) (g : StatusLog) (h : Mirrors d g) :
    Mirrors (call b d c).2 (g.after b d c) := by
  have hcall := call_reports b d c
  unfold StatusLog.after
  cases hrep : d.reports c with
  | none =>
    rw [hrep] at hcall
    obtain ⟨hstatus, hevent⟩ := hcall
    rw [statusEntries_of_quiet hevent, Option.getD_none, List.append_nil, List.append_nil]
    exact ⟨by rw [hstatus]; exact h.contact, by rw [hstatus]; exact h.known,
      by rw [hstatus]; exact h.length⟩
  | some reported =>
    rw [hrep] at hcall
    obtain ⟨hevent, hstatus⟩ := hcall
    have hkeys := Device.reports_nodup hrep
    obtain ⟨hnews, hcontact, hkind⟩ := Device.statusChanges_spec hkeys d
    rw [hevent, statusEntries_event, hnews, Option.getD_some]
    refine ⟨?_, ?_, ?_⟩
    · -- what is left out says what the contacts say already
      have hskip : ∀ r ∈ reported, Device.isNews d.status r = false →
          Device.contact d.status r.contact = r.active := by
        intro r _ hr
        simp only [Device.isNews, Bool.or_eq_false_iff, bne_eq_false_iff_eq] at hr
        exact hr.2
      rw [hstatus, hcontact, applyChanges, applyChanges, Delta.apply_append,
        ← Delta.apply_filter StatusChange.contact StatusChange.active hkeys hskip, h.contact]
      rfl
    · intro kind
      rw [hstatus, (hkind kind).1, h.known, List.any_append]
    · intro kind
      rw [hstatus, (hkind kind).2, h.length, contactCount, contactCount, List.foldl_append]

variable {g : StatusLog}

/-- What `Status` returns of a device that mirrors its log. -/
theorem Mirrors.statusOf (h : Mirrors d g) (kind : StatusKind) :
    d.statusOf kind = if g.reported.any (fun r => r.kind == kind) then
      ((List.range (contactCount kind g.reported)).map fun i =>
        applyChanges (fun _ => false) g.news (kind, i), true) else ([], false) := by
  rw [Device.statusOf_eq, h.known]
  split
  · refine Prod.ext ?_ rfl
    refine List.ext_getElem (by simp [h.length]) fun i h₁ h₂ => ?_
    have hi : Device.contact d.status (kind, i) = (Device.contactsOf d.status kind).state[i] := by
      simp only [Device.contact, List.getD_eq_getElem?_getD, List.getElem?_eq_getElem h₁,
        Option.getD_some]
    simp only [List.getElem_map, List.getElem_range]
    rw [← hi, h.contact]
  · rfl

/-- A kind that was not heard of has no contacts. -/
theorem Mirrors.contact_eq (h : Mirrors d g) (k : StatusKind × ℕ) :
    Device.contact d.status k = (d.statusOf k.1).1.getD k.2 false := by
  rw [Device.statusOf_eq, Device.contact]
  cases hk : (Device.contactsOf d.status k.1).known with
  | true => rfl
  | false =>
    have hnone : contactCount k.1 g.reported = 0 := by
      have hany := h.known k.1
      rw [hk, eq_comm, List.any_eq_false] at hany
      exact foldl_count_other (fun r hr => by simpa using hany r hr) 0
    have hempty := h.length k.1
    rw [hnone, List.length_eq_zero_iff] at hempty
    simp [hempty]

/-- What is passed on of a report, to a device that was `d` and is `e` now: an event if there is
news; everything of a kind not heard of before, and of the others what differs from the last state;
and other kinds are as they were. -/
structure PassesOn (d e : Device) (o : Outcome) (reported : List StatusChange) : Prop where
  event : o = .event (if o.statusEntries = [] then .none else .statusChange o.statusEntries)
  ordered : o.statusEntries.Sublist reported
  whole : ∀ kind, (d.statusOf kind).2 = false →
    (o.statusEntries.filter fun r => r.kind = kind) = reported.filter fun r => r.kind = kind
  differs : ∀ r ∈ reported, (d.statusOf r.kind).2 = true →
    (r ∈ o.statusEntries ↔ (d.statusOf r.kind).1.getD r.index false ≠ r.active)
  apart : ∀ kind, (∀ r ∈ reported, r.kind ≠ kind) → e.statusOf kind = d.statusOf kind

/-- And passes a report on by the rule. -/
theorem passesOn_call {b : Bus} (h : Mirrors d g) (hrep : d.reports c = some reported) :
    PassesOn d (call b d c).2 (call b d c).1 reported := by
  have hcall := call_reports b d c
  rw [hrep] at hcall
  obtain ⟨hevent, hstatus⟩ := hcall
  have hkeys := Device.reports_nodup hrep
  have hnews := (Device.statusChanges_spec hkeys d).1
  have hentries : (call b d c).1.statusEntries = reported.filter (Device.isNews d.status) := by
    rw [hevent, statusEntries_event, hnews]
  have hknown : ∀ kind, (d.statusOf kind).2 = (Device.contactsOf d.status kind).known := by
    intro kind
    rw [Device.statusOf_eq]
    split
    · rename_i hk
      exact hk.symm
    · rename_i hk
      exact (Bool.eq_false_iff.mpr hk).symm
  refine ⟨?_, ?_, ?_, ?_, ?_⟩
  · rw [hentries, ← hnews]
    exact hevent
  · rw [hentries]
    exact List.filter_sublist
  · intro kind hk
    rw [hknown] at hk
    rw [hentries, List.filter_filter]
    refine List.filter_congr fun r _ => ?_
    by_cases hr : r.kind = kind
    · simp [Device.isNews, hr, hk]
    · simp [hr]
  · intro r hr hk
    rw [hknown] at hk
    have hlast : Device.contact d.status r.contact = (d.statusOf r.kind).1.getD r.index false :=
      h.contact_eq r.contact
    rw [hentries, List.mem_filter, ← hlast]
    simp [hr, Device.isNews, hk]
  · intro kind hother
    rw [← d.statusChanges_apart hkeys hother, Device.statusOf, Device.statusOf, hstatus]

/-- **Every run** does both. -/
theorem mirrors_run (addrs : List Address) (scheme : Scheme) (secure : Option SecureChannel)
    (ops : List Op) :
    let start := Shadowed.new ({} : StatusLog) addrs scheme secure
    (∀ p ∈ Run.trace (Shadowed.step StatusLog.after) start ops, p.1.Each Mirrors) ∧
      (ops.foldl (Shadowed.step StatusLog.after) start).Each Mirrors :=
  Run.invariant_of_trace (I := Shadowed.Each Mirrors) (C := fun _ _ => True)
    (fun _ op h _ => Shadowed.each_step mirrors_call h op)
    (Shadowed.each_new mirrors_new addrs scheme secure) ops (fun _ _ => trivial)

/-- **Status changes reconstruct the status.** After any run of the bus, `Status` of a device returns
for each kind the states that the entries of all its status changes, applied in order to inactive
contacts, give to the contacts of that kind reported so far; each report is passed on as `PassesOn`
says; and nothing but a report changes a contact or is passed on as a change. -/
theorem status_reconstructed (addrs : List Address) (scheme : Scheme)
    (secure : Option SecureChannel) (ops : List Op) :
    let start := Shadowed.new ({} : StatusLog) addrs scheme secure
    (∀ i d, (ops.foldl (Shadowed.step StatusLog.after) start).bus.devices[i]? = some d →
      let g := (ops.foldl (Shadowed.step StatusLog.after) start).shadow i
      ∀ kind, d.statusOf kind = if g.reported.any (fun r => r.kind == kind) then
        ((List.range (contactCount kind g.reported)).map fun j =>
          applyChanges (fun _ => false) g.news (kind, j), true) else ([], false)) ∧
    ∀ p ∈ Run.trace (Shadowed.step StatusLog.after) start ops, ∀ i c d,
      p.1.bus.callOf p.2 = some (i, c) → p.1.bus.devices[i]? = some d →
      (∀ reported, d.reports c = some reported →
        PassesOn d (call p.1.bus d c).2 (call p.1.bus d c).1 reported) ∧
      (d.reports c = none → (call p.1.bus d c).1.statusEntries = [] ∧
        ∀ kind, (call p.1.bus d c).2.statusOf kind = d.statusOf kind) := by
  intro start
  obtain ⟨htrace, hend⟩ := mirrors_run addrs scheme secure ops
  refine ⟨fun i d hd kind => (hend i d hd).statusOf kind, ?_⟩
  intro p hp i c d _ hd
  have hmirrors := htrace p hp i d hd
  refine ⟨fun reported hrep => passesOn_call hmirrors hrep, ?_⟩
  intro hrep
  have hcall := call_reports p.1.bus d c
  rw [hrep] at hcall
  obtain ⟨hstatus, hevent⟩ := hcall
  exact ⟨statusEntries_of_quiet hevent, fun kind => by rw [Device.statusOf, Device.statusOf, hstatus]⟩

/-- Two inputs are reported, the second active, and then the first one as well. -/
def contactOps : List Op :=
  [.next Secure.zeroRnd, .reply 0 (plainReply 1 1 Code.iStatR [0, 1]), .next Secure.zeroRnd,
   .reply 0 (plainReply 1 2 Code.iStatR [2, 1])]

/-- The whole of the first report and the change in the second add up to the status. -/
theorem status_reconstructed_inputs :
    let t := contactOps.foldl (Shadowed.step StatusLog.after)
      (Shadowed.new {} [1] .checksum none)
    (t.shadow 0).news = [⟨.input, 0, false⟩, ⟨.input, 1, true⟩, ⟨.input, 0, true⟩] ∧
      ∃ d, t.bus.devices[0]? = some d ∧ d.statusOf .input = ([true, true], true) := by
  have hnews : ((contactOps.foldl (Shadowed.step StatusLog.after)
      (Shadowed.new {} [1] .checksum none)).shadow 0).news =
      [⟨.input, 0, false⟩, ⟨.input, 1, true⟩, ⟨.input, 0, true⟩] := by decide +kernel
  have hreported : ((contactOps.foldl (Shadowed.step StatusLog.after)
      (Shadowed.new {} [1] .checksum none)).shadow 0).reported =
      [⟨.input, 0, false⟩, ⟨.input, 1, true⟩, ⟨.input, 0, true⟩, ⟨.input, 1, true⟩] := by
    decide +kernel
  have hdevice : ((contactOps.foldl (Shadowed.step StatusLog.after)
      (Shadowed.new {} [1] .checksum none)).bus.devices[0]?).isSome = true := by decide +kernel
  obtain ⟨d, hd⟩ := Option.isSome_iff_exists.mp hdevice
  have hstatus := (status_reconstructed [1] .checksum none contactOps).1 0 d hd .input
  refine ⟨hnews, d, hd, hstatus.trans ?_⟩
  rw [hnews, hreported]
  decide

end Bus

end Osdp
