import Osdp.Library.Run
import Osdp.Model.Store

/-!
# The store keeps the last events

A store of capacity `N` against the history of all that was appended to it: its ring holds the last
`N` entries of the history, its counter is the history's length, and its index finds exactly the
entries it holds. `Retains` is that correspondence without the index, which holds of every history;
the index needs the names to be distinct, and so a history that the counter of 64 bits can number.
-/

set_option autoImplicit false

namespace Osdp

namespace Service

open Encoding Ring

variable {α : Type*}

/-! ## Names -/

/-- What may stand as a device in a name. -/
structure Segment (device : Octets) : Prop where
  noSlash : slash ∉ device
  valid : validSegment device = true

variable {device : Octets}

/-- A parent that is no wildcard names a device. -/
theorem parseParent_ok {parent : Octets} (h : parseParent parent = .ok device)
    (hd : device ≠ wildcard) : Segment device := by
  have hmem := fun part => @notMem_of_mem_splitOn _ _ slash parent part
  unfold parseParent at h
  split at h
  · rename_i first d hsplit
    rw [hsplit] at hmem
    split at h
    · cases h
    · split at h
      · cases h
      · rename_i hvalid
        cases h
        refine ⟨hmem device (by simp), ?_⟩
        by_contra hno
        exact hvalid ⟨hd, Bool.eq_false_iff.2 hno⟩
  · cases h

/-- A number in hexadecimal is a segment. -/
theorem hex_segment (n : ℕ) : Segment (hex 16 n) := by
  have hlen : (hex 16 n).length = 16 := length_hex 16 n
  refine ⟨?_, ?_⟩
  · intro hmem
    have hdigits : ∀ d : Fin 16, slash ≠ hexDigit d := by decide
    obtain ⟨d, hd, heq⟩ := mem_hex hmem
    exact hdigits ⟨d, hd⟩ heq
  · refine decide_eq_true ⟨?_, ?_⟩
    · intro hnil
      rw [hnil] at hlen
      cases hlen
    · intro hwild
      rw [hwild] at hlen
      exact absurd hlen (by decide)

/-- The name of an event is read back. -/
theorem parseEventName_eventName {event : Octets} (hd : Segment device) (he : Segment event) :
    parseEventName (eventName device event) = .ok (device, event) := by
  have hsplit : (eventName device event).splitOn slash =
      [devicesCollection, device, eventsCollection, event] := by
    have hparts : ∀ part ∈ [devicesCollection, device, eventsCollection, event], slash ∉ part := by
      simp only [List.mem_cons, List.not_mem_nil, or_false, forall_eq_or_imp, forall_eq]
      exact ⟨by decide, hd.noSlash, by decide, he.noSlash⟩
    rw [← List.splitOn_intercalate slash hparts (by simp)]
    simp [eventName, List.intercalate, List.intersperse]
  rw [parseEventName, hsplit]
  simp only
  rw [if_neg]
  simp [hd.valid, he.valid]

/-- Names tell events apart. -/
theorem eventName_inj {d d' e e' : Octets} (hd : Segment d) (hd' : Segment d') (he : Segment e)
    (he' : Segment e') (h : eventName d e = eventName d' e') : e = e' := by
  have hparse := parseEventName_eventName hd he
  rw [h, parseEventName_eventName hd' he'] at hparse
  cases hparse
  rfl

/-! ## The ring and the history -/

/-- The entry that was appended as number `i`. -/
structure Entry.Numbered (e : Entry α) (i : ℕ) : Prop where
  seq : e.seq = UInt64.ofNat i
  name : e.ev.name = eventName e.device (hex 16 e.seq.toNat)
  segment : Segment e.device

/-- A name tells the number of its event, as far as the counter does. -/
theorem Entry.Numbered.mod_eq {e e' : Entry α} {i j : ℕ} (h : e.Numbered i) (h' : e'.Numbered j)
    (hname : e.ev.name = e'.ev.name) : i % 2 ^ 64 = j % 2 ^ 64 := by
  rw [h.name, h'.name] at hname
  have hhex := eventName_inj h.segment h'.segment (hex_segment _) (hex_segment _) hname
  rw [h.seq, h'.seq, UInt64.toNat_ofNat', UInt64.toNat_ofNat'] at hhex
  exact hex_inj (by omega) (by omega) hhex

namespace MemoryStore

def buffer (s : MemoryStore α) : Buffer (Entry α) := ⟨s.ring, s.next, s.count⟩

variable {s : MemoryStore α} {es : List (Entry α)} {N i : ℕ} {device : Octets} {e : Entry α}

/-- The two remainders of the source are one index around the ring. -/
theorem atPos_eq_get (h : s.buffer.Holds es) (i : ℕ) : s.atPos i = s.buffer.get i := by
  have hnext : s.next < s.ring.length := h.next_lt
  have hcount : s.count ≤ s.ring.length := by
    have hlen : s.count = es.length := h.count_eq
    rw [hlen]
    exact h.length_le
  have hindex : (((s.next : ℤ) - s.count + i) % s.ring.length).toNat =
      (s.next + (s.ring.length - s.count) + i) % s.ring.length := by
    rw [← Int.add_emod_right, show (s.next : ℤ) - s.count + i + s.ring.length =
      ((s.next + (s.ring.length - s.count) + i : ℕ) : ℤ) by omega, ← Int.natCast_mod,
      Int.toNat_natCast]
  rw [atPos]
  simp only [Buffer.tmod_add_tmod (show (0 : ℤ) < s.ring.length by omega), hindex]
  rfl

/-- The store of capacity `N` after these entries were appended to it. -/
structure Retains (N : ℕ) (s : MemoryStore α) (es : List (Entry α)) : Prop where
  cap : s.ring.length = N
  holds : s.buffer.Holds (es.rtake N)
  seq : s.seq = UInt64.ofNat es.length
  numbered : ∀ (i : ℕ) (e : Entry α), es[i]? = some e → e.Numbered i

/-- A new store retains nothing. -/
theorem retains_make (hN : 0 < N) : (make N : MemoryStore α).Retains N [] := by
  refine ⟨List.length_replicate, ?_, rfl, by simp⟩
  rw [List.rtake_nil]
  exact Buffer.holds_empty hN

/-- A store has room. -/
theorem Retains.pos (h : s.Retains N es) : 0 < N := by
  have hnext : s.next < s.ring.length := h.holds.next_lt
  have hcap := h.cap
  omega

/-- The count of what is kept. -/
theorem Retains.count_eq (h : s.Retains N es) : s.count = min es.length N := by
  have hcount : s.count = (es.rtake N).length := h.holds.count_eq
  rw [hcount, length_rtake]

/-- The logical positions hold the last entries, the oldest first. -/
theorem Retains.atPos_eq (h : s.Retains N es) (hi : i < s.count) :
    s.atPos i = (es.rtake N)[i]? := by
  rw [atPos_eq_get h.holds]
  refine h.holds.get_eq i ?_
  rw [length_rtake, ← h.count_eq]
  exact hi

/-- The buffer holds the last events in order. -/
theorem Retains.map_atPos (h : s.Retains N es) :
    (List.range s.count).map s.atPos = (es.rtake N).map some := by
  have hlen : (es.rtake N).length = s.count := by
    rw [length_rtake, ← h.count_eq]
  refine List.ext_getElem? fun i => ?_
  rw [List.getElem?_map, List.getElem?_map]
  rcases Nat.lt_or_ge i s.count with hi | hi
  · rw [List.getElem?_range hi, Option.map_some, h.atPos_eq hi,
      List.getElem?_eq_getElem (by omega), Option.map_some]
  · rw [List.getElem?_eq_none (by simpa using hi), List.getElem?_eq_none (by omega)]
    rfl

/-- The entry an insertion makes. -/
def fresh (s : MemoryStore α) (device : Octets) (ev : Event α) : Entry α :=
  { seq := s.seq, device := device, ev := (s.insert device ev).1 }

/-- An insertion pushes one entry. -/
theorem buffer_insert (s : MemoryStore α) (device : Octets) (ev : Event α) :
    (s.insert device ev).2.buffer = s.buffer.push (s.fresh device ev) := rfl

/-- And retains it. -/
theorem insert_retains (h : s.Retains N es) (hd : Segment device) (ev : Event α) :
    (s.insert device ev).2.Retains N (es ++ [s.fresh device ev]) := by
  have hslots : s.buffer.slots.length = N := h.cap
  refine ⟨?_, ?_, ?_, ?_⟩
  · rw [← h.cap]
    exact List.length_set
  · have hpush := h.holds.push (s.fresh device ev)
    rw [hslots, rtake_concat h.pos] at hpush
    rw [buffer_insert]
    exact hpush
  · have hseq : (s.insert device ev).2.seq = s.seq + 1 := rfl
    rw [hseq, h.seq, List.length_append, List.length_singleton, UInt64.ofNat_add]
    rfl
  · intro i e he
    rcases Nat.lt_or_ge i es.length with hold | hnew
    · rw [List.getElem?_append_left hold] at he
      exact h.numbered i e he
    · obtain ⟨hlt, -⟩ := List.getElem?_eq_some_iff.1 he
      rw [List.length_append, List.length_singleton] at hlt
      have hi : i = es.length := by omega
      rw [hi, List.getElem?_concat_length, Option.some.injEq] at he
      rw [← he, hi]
      exact ⟨h.seq, rfl, hd⟩

/-! ## The index -/

def nameOf (e : Entry α) : Octets := e.ev.name

/-- The names of the last 2^64 entries are distinct. -/
theorem names_nodup (h : ∀ (i : ℕ) (e : Entry α), es[i]? = some e → e.Numbered i) {n : ℕ}
    (hn : min es.length n ≤ 2 ^ 64) : ((es.rtake n).map nameOf).Nodup := by
  rw [List.Nodup, List.pairwise_map, List.pairwise_iff_getElem]
  intro i j hi hj hij hname
  rw [length_rtake] at hi hj
  have hnum : ∀ k (hk : k < (es.rtake n).length), ((es.rtake n)[k]).Numbered (es.length - n + k) := by
    intro k hk
    refine h _ _ ?_
    rw [← getElem?_rtake, List.getElem?_eq_getElem hk]
  have heq := (hnum i (by rw [length_rtake]; exact hi)).mod_eq
    (hnum j (by rw [length_rtake]; exact hj)) hname
  omega

/-- All names ever allocated are distinct, while the counter has not come round. -/
theorem all_names_nodup (h : ∀ (i : ℕ) (e : Entry α), es[i]? = some e → e.Numbered i)
    (hlen : es.length ≤ 2 ^ 64) : (es.map nameOf).Nodup := by
  have hnodup := names_nodup h (n := es.length) (by omega)
  rwa [List.rtake, Nat.sub_self, List.drop_zero] at hnodup

/-- A full ring loses the entry in its next slot, its oldest. -/
theorem Retains.evicted (h : s.Retains N es) (hfull : s.count = s.ring.length) :
    ∃ old rest, es.rtake N = old :: rest ∧ s.ring[s.next]?.join = some old := by
  have hnext : s.next < s.ring.length := h.holds.next_lt
  have hlen : (es.rtake N).length = s.count := by
    rw [length_rtake, ← h.count_eq]
  obtain ⟨old, rest, heq⟩ : ∃ old rest, es.rtake N = old :: rest := by
    refine List.exists_cons_of_length_pos ?_
    omega
  refine ⟨old, rest, heq, ?_⟩
  have hget := h.holds.get_eq 0 (by omega)
  have hslot : s.buffer.slot 0 = s.next := by
    show (s.next + (s.ring.length - s.count) + 0) % s.ring.length = s.next
    rw [hfull, Nat.sub_self, Nat.add_zero, Nat.mod_eq_of_lt hnext]
  rw [Buffer.get, hslot, heq] at hget
  exact hget

/-- And indexes it. -/
theorem insert_indexes (h : s.Retains N es) (hindex : Indexes s.byName nameOf (es.rtake N))
    (hlen : min es.length N < 2 ^ 64) (hd : Segment device) (ev : Event α) :
    Indexes (s.insert device ev).2.byName nameOf ((es ++ [s.fresh device ev]).rtake N) := by
  have hnodup : ((es.rtake N ++ [s.fresh device ev]).map nameOf).Nodup := by
    rw [← List.rtake_concat_succ]
    exact names_nodup (insert_retains h hd ev).numbered
      (by rw [List.length_append, List.length_singleton]; omega)
  have hlast : (es ++ [s.fresh device ev]).rtake N =
      (es.rtake N ++ [s.fresh device ev]).rtake N := (rtake_concat h.pos _ _).symm
  have hcount := h.count_eq
  have hcap := h.cap
  by_cases hfull : s.count = s.ring.length
  · -- the oldest entry leaves the index with its slot
    obtain ⟨old, rest, heq, hold⟩ := h.evicted hfull
    have hlen' : (old :: rest).length = N := by
      rw [← heq, length_rtake]
      omega
    rw [heq] at hindex hnodup hlast
    rw [List.cons_append, List.map_cons, List.nodup_cons, List.map_append, List.mem_append,
      not_or] at hnodup
    have hrest : (old :: rest ++ [s.fresh device ev]).rtake N = rest ++ [s.fresh device ev] := by
      rw [List.rtake, List.length_append, List.length_singleton, hlen', Nat.add_sub_cancel_left]
      rfl
    have hbyName : (s.insert device ev).2.byName =
        Function.update (Function.update s.byName (nameOf old) none)
          (nameOf (s.fresh device ev)) (some (s.fresh device ev)) := by
      simp only [insert, hfull, hold, if_true]
      rfl
    rw [hlast, hrest, hbyName]
    refine (hindex.tail hnodup.1.1).concat ?_
    exact (List.disjoint_of_nodup_append hnodup.2 · (by simp))
  · have hroom : (es.rtake N ++ [s.fresh device ev]).rtake N =
        es.rtake N ++ [s.fresh device ev] := by
      have hzero : (es.rtake N ++ [s.fresh device ev]).length - N = 0 := by
        rw [List.length_append, length_rtake, List.length_singleton]
        omega
      rw [List.rtake, hzero, List.drop_zero]
    have hbyName : (s.insert device ev).2.byName =
        Function.update s.byName (nameOf (s.fresh device ev)) (some (s.fresh device ev)) := by
      simp only [insert, hfull, if_false]
      rfl
    rw [hlast, hroom, hbyName]
    rw [List.map_append] at hnodup
    exact hindex.concat (List.disjoint_of_nodup_append hnodup · (by simp))

/-! ## Sequence numbers and lookups -/

/-- Sequence numbers increase. -/
theorem seqs_increasing (h : ∀ (i : ℕ) (e : Entry α), es[i]? = some e → e.Numbered i)
    (hlen : es.length ≤ 2 ^ 64) : (es.map Entry.seq).Pairwise (· < ·) := by
  rw [List.pairwise_map, List.pairwise_iff_getElem]
  intro i j hi hj hij
  rw [(h i _ (List.getElem?_eq_getElem hi)).seq, (h j _ (List.getElem?_eq_getElem hj)).seq,
    UInt64.lt_iff_toNat_lt, UInt64.toNat_ofNat_of_lt' (show i < 2 ^ 64 by omega),
    UInt64.toNat_ofNat_of_lt' (show j < 2 ^ 64 by omega)]
  exact hij

/-- An entry that the ring holds is found by its name. -/
theorem Retains.get_held (h : s.Retains N es) (hindex : Indexes s.byName nameOf (es.rtake N))
    (he : e ∈ es.rtake N) :
    parseEventName e.ev.name = .ok (e.device, hex 16 e.seq.toNat) ∧
      s.get none e.ev.name = .ok e.ev := by
  obtain ⟨i, hi⟩ := List.mem_iff_getElem?.1 (List.mem_of_mem_drop he)
  have hnum := h.numbered i e hi
  have hparse : parseEventName e.ev.name = .ok (e.device, hex 16 e.seq.toNat) := by
    rw [hnum.name]
    exact parseEventName_eventName hnum.segment (hex_segment _)
  have hfound : s.byName e.ev.name = some e := (hindex (nameOf e) e).2 ⟨he, rfl⟩
  refine ⟨hparse, ?_⟩
  rw [MemoryStore.get, hparse]
  simp only [hfound]

/-- An appended event is found by its name exactly while it is among the last. -/
theorem Retains.get_eq (h : s.Retains N es) (hindex : Indexes s.byName nameOf (es.rtake N))
    (hlen : es.length ≤ 2 ^ 64) (he : es[i]? = some e) :
    s.get none e.ev.name =
      if es.length ≤ i + N then .ok e.ev else .error (.notFound e.ev.name) := by
  have hnum := h.numbered i e he
  obtain ⟨hi, -⟩ := List.getElem?_eq_some_iff.1 he
  by_cases hheld : es.length ≤ i + N
  · have hmem : e ∈ es.rtake N := by
      refine List.mem_of_getElem? (i := i - (es.length - N)) ?_
      rw [getElem?_rtake, ← he]
      congr 1
      omega
    rw [if_pos hheld]
    exact (h.get_held hindex hmem).2
  · have hnone : s.byName e.ev.name = none := by
      rw [Option.eq_none_iff_forall_ne_some]
      intro x hx
      obtain ⟨hmem, hname⟩ := (hindex _ x).1 hx
      obtain ⟨j, hj⟩ := List.mem_iff_getElem?.1 hmem
      rw [getElem?_rtake] at hj
      obtain ⟨hlt, -⟩ := List.getElem?_eq_some_iff.1 hj
      have heq := (h.numbered _ x hj).mod_eq hnum hname
      omega
    have hparse : parseEventName e.ev.name = .ok (e.device, hex 16 e.seq.toNat) := by
      rw [hnum.name]
      exact parseEventName_eventName hnum.segment (hex_segment _)
    rw [MemoryStore.get, hparse, if_neg hheld]
    simp only [hnone]

end MemoryStore

/-! ## Runs of appends -/

/-- The arguments of one `Append` and what the clock says at it. -/
structure AppendCall (α : Type*) where
  ctx : Option ContextError
  parent : Octets
  ev : Option (Event α)
  now : ℤ

namespace MemoryStore

def call (s : MemoryStore α) (c : AppendCall α) : Except Error (Event α) × MemoryStore α :=
  s.append c.ctx c.parent c.ev c.now

/-- An append fails and changes nothing, or inserts a record for one device. -/
theorem call_cases (s : MemoryStore α) (c : AppendCall α) :
    (∃ err, s.call c = (.error err, s)) ∨
      ∃ device ev, Segment device ∧
        s.call c = (.ok (s.insert device ev).1, (s.insert device ev).2) := by
  unfold call append
  cases c.ctx with
  | some cause => exact .inl ⟨_, rfl⟩
  | none =>
    cases hp : parseParent c.parent with
    | error err => exact .inl ⟨_, rfl⟩
    | ok device =>
      by_cases hw : device = wildcard
      · exact .inl ⟨_, if_pos hw⟩
      · cases c.ev with
        | none => exact .inl ⟨_, if_neg hw⟩
        | some ev => exact .inr ⟨device, _, parseParent_ok hp hw, if_neg hw⟩

end MemoryStore

/-- A store and the records its appends have returned, in order. -/
structure Logged (α : Type*) where
  store : MemoryStore α
  log : List (Event α) := []

namespace Logged

def step (l : Logged α) (c : AppendCall α) : Logged α :=
  { store := (l.store.call c).2
    log := match (l.store.call c).1 with
      | .ok ev => l.log ++ [ev]
      | .error _ => l.log }

/-- The entries behind the log: the store is what appending them left. -/
def Recorded (N : ℕ) (l : Logged α) (es : List (Entry α)) : Prop :=
  es.map Entry.ev = l.log ∧ l.store.Retains N es

variable {N : ℕ} {l : Logged α}

/-- An append adds at most one entry behind the others, and the index follows. -/
theorem recorded_step {es : List (Entry α)} (h : Recorded N l es) (c : AppendCall α) :
    ∃ more, Recorded N (l.step c) (es ++ more) ∧
      (Indexes l.store.byName MemoryStore.nameOf (es.rtake N) →
        ((es ++ more).length ≤ 2 ^ 64 ∨ N < 2 ^ 64) →
        Indexes (l.step c).store.byName MemoryStore.nameOf ((es ++ more).rtake N)) := by
  obtain ⟨hlog, hret⟩ := h
  rcases l.store.call_cases c with ⟨err, hfail⟩ | ⟨device, ev, hd, hok⟩
  · have hsame : l.step c = l := by
      rw [step, hfail]
    rw [hsame]
    exact ⟨[], by rw [List.append_nil]; exact ⟨hlog, hret⟩, by
      rw [List.append_nil]; exact fun hindex _ => hindex⟩
  · rw [step, hok]
    refine ⟨[l.store.fresh device ev], ⟨?_, MemoryStore.insert_retains hret hd ev⟩, ?_⟩
    · rw [List.map_append, hlog]
      rfl
    · intro hindex hlen
      rw [List.length_append, List.length_singleton] at hlen
      exact MemoryStore.insert_indexes hret hindex (by omega) hd ev

/-- The store holds the last of the records its appends returned. -/
def Kept (N : ℕ) (l : Logged α) : Prop :=
  ∃ es, Recorded N l es ∧
    (es.length ≤ 2 ^ 64 → Indexes l.store.byName MemoryStore.nameOf (es.rtake N))

/-- A new store is kept. -/
theorem kept_make (hN : 0 < N) : Kept N { store := (MemoryStore.make N : MemoryStore α) } :=
  ⟨[], ⟨rfl, MemoryStore.retains_make hN⟩, fun _ k x => by simp [MemoryStore.make]⟩

/-- Every call keeps it. -/
theorem kept_step (h : Kept N l) (c : AppendCall α) : Kept N (l.step c) := by
  obtain ⟨es, hrec, hindex⟩ := h
  obtain ⟨more, hrec', hindex'⟩ := recorded_step hrec c
  refine ⟨es ++ more, hrec', fun hlen => hindex' (hindex ?_) (.inl hlen)⟩
  rw [List.length_append] at hlen
  omega

/-- A new store of capacity `N` after these appends. -/
def run (N : ℕ) (calls : List (AppendCall α)) : Logged α :=
  calls.foldl step { store := MemoryStore.make N }

/-- So does every run. -/
theorem kept_run (hN : 0 < N) (calls : List (AppendCall α)) : Kept N (run N calls) :=
  Run.invariant (I := Kept N) (fun _ c h => kept_step h c) (kept_make hN) calls

/-- **The store is the last `N` events.** After any appends to a store of capacity `N`, fewer than
2^64 of them successful, its logical positions hold the last records returned, in order and with
increasing sequence numbers; the index finds these and no others; no name was given twice; a record
is found by its name until `N` more were appended, and not from then on; and an append that fails
changes nothing. -/
theorem store_refines_last {N : ℕ} (hN : 1 ≤ N) (calls : List (AppendCall α))
    (hlen : (run N calls).log.length < 2 ^ 64) :
    let s := (run N calls).store
    let log := (run N calls).log
    (MemoryStore.new N : Except Error (MemoryStore α)) = .ok (MemoryStore.make N) ∧
    (∃ held : List (Entry α), (List.range s.count).map s.atPos = held.map some ∧
      held.map Entry.ev = log.rtake N ∧ (held.map Entry.seq).Pairwise (· < ·) ∧
      ∀ name e, s.byName name = some e ↔ e ∈ held ∧ e.ev.name = name) ∧
    s.count = min log.length N ∧ s.ring.length = N ∧ s.next < N ∧
    (log.map Event.name).Nodup ∧
    (∀ i ev, log[i]? = some ev →
      s.get none ev.name = if log.length ≤ i + N then .ok ev else .error (.notFound ev.name)) ∧
    ∀ c err, (s.call c).1 = .error err → (s.call c).2 = s := by
  intro s log
  obtain ⟨es, ⟨hlog, hret⟩, hindex⟩ : Kept N { store := s, log := log } := kept_run hN calls
  replace hlog : es.map Entry.ev = log := hlog
  replace hret : s.Retains N es := hret
  have hes : es.length = log.length := by
    rw [← List.length_map Entry.ev, hlog]
  have hlen' : es.length ≤ 2 ^ 64 := by
    rw [hes]
    exact le_of_lt hlen
  have hcount : s.count = min log.length N := hes ▸ hret.count_eq
  refine ⟨?_, ⟨es.rtake N, hret.map_atPos, ?_, ?_, hindex hlen'⟩, hcount, hret.cap, ?_, ?_, ?_, ?_⟩
  · rw [MemoryStore.new, if_neg (by omega), Int.toNat_natCast]
  · show (es.rtake N).map Entry.ev = log.rtake N
    rw [List.rtake, List.map_drop, hlog, hes, List.rtake]
  · exact (MemoryStore.seqs_increasing hret.numbered hlen').sublist
      ((List.drop_sublist _ _).map _)
  · have hnext : s.next < s.ring.length := hret.holds.next_lt
    rw [hret.cap] at hnext
    exact hnext
  · show (log.map Event.name).Nodup
    have hnames := MemoryStore.all_names_nodup hret.numbered hlen'
    rw [← hlog, List.map_map]
    exact hnames
  · intro i ev hev
    rw [← hlog, List.getElem?_map, Option.map_eq_some_iff] at hev
    obtain ⟨e, he, rfl⟩ := hev
    rw [← hes]
    exact hret.get_eq (hindex hlen') hlen' he
  · intro c err herr
    rcases s.call_cases c with ⟨err', hfail⟩ | ⟨device, ev, -, hok⟩
    · rw [hfail]
    · rw [hok] at herr
      cases herr

/-- A record for one reader, written at `now`. -/
def readerCall (now : ℤ) : AppendCall Unit :=
  { ctx := none
    parent := text "devices/reader"
    ev := some { name := [], eventTime := none, createTime := none, body := () }
    now := now }

/-- A store for one event, after two. -/
theorem store_refines_last_pair :
    (run 1 [readerCall 5, readerCall 6]).log.length = 2 ∧
      (run 1 [readerCall 5, readerCall 6]).store.get none
        (eventName (text "reader") (text "0000000000000000")) =
        .error (.notFound (eventName (text "reader") (text "0000000000000000"))) := by
  have hlen : (run 1 [readerCall 5, readerCall 6]).log.length = 2 := by decide +kernel
  obtain ⟨-, -, -, -, -, -, hget, -⟩ :=
    store_refines_last le_rfl [readerCall 5, readerCall 6] (by rw [hlen]; decide)
  refine ⟨hlen, ?_⟩
  have hfirst := hget 0
    ⟨eventName (text "reader") (text "0000000000000000"), some 5, some 5, ()⟩ (by decide +kernel)
  rw [if_neg (by rw [hlen]; decide)] at hfirst
  exact hfirst

end Logged

end Service

end Osdp
