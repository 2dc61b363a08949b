import Osdp.Analysis.Retention

/-!
# Resource names and their grammar

Splitting a text at the slashes and joining the parts again gives the text back, so the two parsers
accept a text exactly when it is what `eventName` or `deviceName` writes for the parts they return
(`parseEventName_ok_iff`, `parseParent_ok_iff`). An append names its record after a device the
second parser returned and a number in hexadecimal, and both are parts the first one takes.
-/

set_option autoImplicit false

namespace Osdp

namespace Service

open Encoding Ring

variable {α : Type*}

/-- What a segment of a name is. -/
theorem segment_iff (s : Octets) : Segment s ↔ s ≠ [] ∧ slash ∉ s ∧ s ≠ wildcard := by
  constructor
  · rintro ⟨hslash, hvalid⟩
    have h := of_decide_eq_true hvalid
    exact ⟨h.1, hslash, h.2⟩
  · rintro ⟨hne, hslash, hwild⟩
    exact ⟨hslash, decide_eq_true ⟨hne, hwild⟩⟩

/-- A text is its parts with slashes between them. -/
theorem eq_of_splitOn {s : Octets} {parts : List Octets} (h : s.splitOn slash = parts) :
    s = [slash].intercalate parts := by
  rw [← h, List.intercalate_splitOn]

/-- **An event's name is accepted by its grammar and by nothing else.** -/
theorem parseEventName_ok_iff (s d e : Octets) :
    parseEventName s = .ok (d, e) ↔ s = eventName d e ∧ Segment d ∧ Segment e := by
  constructor
  · intro h
    have hmem := fun part => @notMem_of_mem_splitOn _ _ slash s part
    unfold parseEventName at h
    split at h
    · rename_i first device third event hsplit
      split at h
      · cases h
      · rename_i hok
        cases h
        simp only [not_or, not_not, Bool.not_eq_false] at hok
        obtain ⟨rfl, rfl, hd, he⟩ := hok
        rw [hsplit] at hmem
        refine ⟨?_, ⟨hmem d (by simp), hd⟩, ⟨hmem e (by simp), he⟩⟩
        rw [eq_of_splitOn hsplit]
        simp [eventName, List.intercalate, List.intersperse]
    · cases h
  · rintro ⟨rfl, hd, he⟩
    exact parseEventName_eventName hd he

/-- **So is a parent's**, the wildcard included. -/
theorem parseParent_ok_iff (s d : Octets) :
    parseParent s = .ok d ↔ s = deviceName d ∧ d ≠ [] ∧ slash ∉ d := by
  constructor
  · intro h
    have hmem := fun part => @notMem_of_mem_splitOn _ _ slash s part
    unfold parseParent at h
    split at h
    · rename_i first device hsplit
      split at h
      · cases h
      · rename_i hok
        split at h
        · cases h
        · cases h
          simp only [not_or, not_not] at hok
          obtain ⟨rfl, hne⟩ := hok
          rw [hsplit] at hmem
          refine ⟨?_, hne, hmem d (by simp)⟩
          rw [eq_of_splitOn hsplit]
          simp [deviceName, List.intercalate, List.intersperse]
    · cases h
  · rintro ⟨rfl, hne, hslash⟩
    have hsplit : (deviceName d).splitOn slash = [devicesCollection, d] := by
      have hparts : ∀ part ∈ [devicesCollection, d], slash ∉ part := by
        simp only [List.mem_cons, List.not_mem_nil, or_false, forall_eq_or_imp, forall_eq]
        exact ⟨by decide, hslash⟩
      rw [← List.splitOn_intercalate slash hparts (by simp)]
      simp [deviceName, List.intercalate, List.intersperse]
    rw [parseParent, hsplit]
    simp only
    rw [if_neg (by simp [hne]), if_neg]
    rintro ⟨hwild, hvalid⟩
    exact absurd ⟨hne, hwild⟩ (of_decide_eq_false hvalid)

/-! ## The names an append allocates -/

namespace MemoryStore

/-- An append that succeeds was told a device, and inserts for it. -/
theorem call_ok {s s' : MemoryStore α} {c : AppendCall α} {stored : Event α}
    (h : s.call c = (.ok stored, s')) :
    ∃ device ev, parseParent c.parent = .ok device ∧ Segment device ∧
      stored = (s.insert device ev).1 ∧ s' = (s.insert device ev).2 := by
  unfold call append at h
  split at h
  · cases h
  · split at h
    · cases h
    · rename_i device hp
      split at h
      · cases h
      · rename_i hwild
        split at h
        · cases h
        · cases h
          exact ⟨device, _, hp, parseParent_ok hp hwild, rfl, rfl⟩

/-- An event is found under its name. -/
theorem byName_insert (s : MemoryStore α) (device : Octets) (ev : Event α) :
    (s.insert device ev).2.byName (s.insert device ev).1.name = some (s.fresh device ev) :=
  Function.update_self ..

/-- What an append returns can be fetched, from whatever store. -/
theorem call_fetched {s s' : MemoryStore α} {c : AppendCall α} {stored : Event α}
    (h : s.call c = (.ok stored, s')) :
    ∃ device, parseParent c.parent = .ok device ∧
      parseEventName stored.name = .ok (device, hex 16 s.seq.toNat) ∧
      s'.get none stored.name = .ok stored := by
  obtain ⟨device, ev, hp, hseg, rfl, rfl⟩ := call_ok h
  have hparse : parseEventName (s.insert device ev).1.name = .ok (device, hex 16 s.seq.toNat) :=
    parseEventName_eventName hseg (hex_segment _)
  refine ⟨device, hp, hparse, ?_⟩
  rw [get, hparse]
  simp only [byName_insert]
  rfl

end MemoryStore

namespace Logged

/-- The index of a store of fewer than 2^64 slots, however many records have gone through it. -/
theorem indexed_run {N : ℕ} (hN : 0 < N) (hlt : N < 2 ^ 64) (calls : List (AppendCall α)) :
    ∃ es, Recorded N (run N calls) es ∧
      Indexes (run N calls).store.byName MemoryStore.nameOf (es.rtake N) := by
  refine Run.invariant (I := fun l : Logged α => ∃ es, Recorded N l es ∧
    Indexes l.store.byName MemoryStore.nameOf (es.rtake N)) ?_ ?_ calls
  · rintro l c ⟨es, hrec, hindex⟩
    obtain ⟨more, hrec', hindex'⟩ := recorded_step hrec c
    exact ⟨es ++ more, hrec', hindex' hindex (.inr hlt)⟩
  · exact ⟨[], ⟨rfl, MemoryStore.retains_make hN⟩, fun k x => by simp [MemoryStore.make]⟩

/-- Whatever the store holds is fetched by its name. -/
theorem held_fetched {N : ℕ} (hN : 0 < N) (hlt : N < 2 ^ 64) (calls : List (AppendCall α)) :
    ∀ i < (run N calls).store.count, ∃ e, (run N calls).store.atPos i = some e ∧
      parseEventName e.ev.name = .ok (e.device, hex 16 e.seq.toNat) ∧
      (run N calls).store.get none e.ev.name = .ok e.ev := by
  intro i hi
  obtain ⟨es, ⟨-, hret⟩, hindex⟩ := indexed_run hN hlt calls
  obtain ⟨e, he⟩ : ∃ e, (es.rtake N)[i]? = some e := by
    refine ⟨_, List.getElem?_eq_getElem ?_⟩
    rw [length_rtake, ← hret.count_eq]
    exact hi
  exact ⟨e, by rw [hret.atPos_eq hi, he], hret.get_held hindex (List.mem_of_getElem? he)⟩

end Logged

/-- **Names are parsed by exactly their grammar, and what a store names it finds.** The capacity of a
store is an `int`, and any number of appends may have been made. -/
theorem names_by_grammar :
    (∀ s d e, parseEventName s = .ok (d, e) ↔ s = eventName d e ∧
      (d ≠ [] ∧ slash ∉ d ∧ d ≠ wildcard) ∧ (e ≠ [] ∧ slash ∉ e ∧ e ≠ wildcard)) ∧
    (∀ s d, parseParent s = .ok d ↔ s = deviceName d ∧ d ≠ [] ∧ slash ∉ d) ∧
    (∀ (s s' : MemoryStore α) (c : AppendCall α) stored, s.call c = (.ok stored, s') →
      ∃ d, parseParent c.parent = .ok d ∧ stored.name = eventName d (hex 16 s.seq.toNat) ∧
        parseEventName stored.name = .ok (d, hex 16 s.seq.toNat) ∧
        s'.get none stored.name = .ok stored) ∧
    ∀ (capacity : ℤ) (s : MemoryStore α), capacity < 2 ^ 63 → MemoryStore.new capacity = .ok s →
      ∀ calls : List (AppendCall α), let t := (calls.foldl Logged.step { store := s }).store
        ∀ i < t.count, ∃ e, t.atPos i = some e ∧
          parseEventName e.ev.name = .ok (e.device, hex 16 e.seq.toNat) ∧
          t.get none e.ev.name = .ok e.ev := by
  refine ⟨?_, parseParent_ok_iff, ?_, ?_⟩
  · intro s d e
    rw [parseEventName_ok_iff, segment_iff, segment_iff]
  · intro s s' c stored h
    obtain ⟨d, hp, hparse, hget⟩ := MemoryStore.call_fetched h
    exact ⟨d, hp, ((parseEventName_ok_iff _ _ _).mp hparse).1, hparse, hget⟩
  · intro capacity s hlt hnew calls
    unfold MemoryStore.new at hnew
    split at hnew
    · cases hnew
    · rename_i hpos
      cases hnew
      exact Logged.held_fetched (by omega) (by omega) calls

/-- A store of one slot finds the second of two records by its name. -/
theorem names_by_grammar_second :
    let s := ([Logged.readerCall 5, Logged.readerCall 6].foldl Logged.step
      { store := MemoryStore.make 1 }).store
    s.count = 1 ∧ ∃ e, s.atPos 0 = some e ∧ s.get none e.ev.name = .ok e.ev := by
  intro s
  have hcount : s.count = 1 := by decide +kernel
  obtain ⟨-, -, -, hheld⟩ := names_by_grammar (α := Unit)
  obtain ⟨e, he, -, hget⟩ := hheld 1 (MemoryStore.make 1) (by decide) rfl
    [Logged.readerCall 5, Logged.readerCall 6] 0 (by rw [hcount]; decide)
  exact ⟨hcount, e, he, hget⟩

end Service

end Osdp
