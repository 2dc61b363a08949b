import Osdp.Analysis.Cursors
import Osdp.Analysis.Retention

/-!
# Pages of the store

A listing follows cursors through a store that is appended to, and evicts, between its calls. What
is still ahead of a cursor is `ahead`: the entries the store holds below the cursor's number, newest
first. A page is the first of them (`Retains.list_eq`), and an append takes from what is ahead only
at its far end (`ahead_append`), so a listing walks down one list that was fixed at its first call.
-/

set_option autoImplicit false

namespace Osdp

namespace Service

open Encoding Ring

variable {α : Type*}

/-! ## One page -/

namespace MemoryStore

/-- The entries held, the oldest first. -/
def held (s : MemoryStore α) : List (Entry α) := (List.range s.count).filterMap s.atPos

/-- The events held that a listing of this device, or of all, shows: newest first. -/
def matching (s : MemoryStore α) (device : Octets) : List (Event α) :=
  (s.held.filter (shows device)).reverse.map Entry.ev

/-- What is ahead of a cursor in these entries. -/
def ahead (device : Octets) (upper : UInt64) (xs : List (Entry α)) : List (Entry α) :=
  (xs.filter fun e => decide (e.seq < upper) && shows device e).reverse

variable {xs es : List (Entry α)} {N : ℕ} {s : MemoryStore α}

/-- What lies ahead of a cursor. -/
theorem mem_ahead {device : Octets} {upper : UInt64} {e : Entry α} :
    e ∈ ahead device upper xs ↔ e ∈ xs ∧ e.seq < upper ∧ shows device e = true := by
  simp [ahead]

/-- What a store holds are the last events. -/
theorem Retains.held_eq (h : s.Retains N es) : s.held = es.rtake N := by
  have hmap : (List.range s.count).filterMap s.atPos =
      ((List.range s.count).map s.atPos).filterMap id := by
    rw [List.filterMap_map]
    rfl
  rw [held, hmap, h.map_atPos, List.filterMap_map]
  exact List.filterMap_some

/-- A page is the newest events shown, from a position down. -/
theorem pageFrom_eq (device : Octets) (want : ℕ) {i : ℕ} (hxs : ∀ j < i, s.atPos j = xs[j]?)
    (hi : i ≤ xs.length) (out : List (Entry α)) (hout : out.length ≤ want) :
    s.pageFrom device want i out =
      (out ++ ((xs.take i).filter (shows device)).reverse).take want := by
  induction i generalizing out with
  | zero => rw [pageFrom, List.take_zero, List.filter_nil, List.reverse_nil, List.append_nil,
      List.take_of_length_le hout]
  | succ i ih =>
    have hlt : i < xs.length := by omega
    have hget : xs[i]? = some (xs.get ⟨i, hlt⟩) := List.getElem?_eq_getElem hlt
    have ih := ih (fun j hj => hxs j (by omega)) (by omega)
    rw [pageFrom, hxs i (by omega), hget, List.take_add_one, hget, Option.toList_some,
      List.filter_append, List.reverse_append]
    split
    · rename_i hroom
      simp only
      cases hshow : shows device (xs.get ⟨i, hlt⟩) with
      | true =>
        rw [if_pos rfl, ih _ (by simp; omega), List.filter_cons_of_pos hshow, List.filter_nil,
          List.reverse_singleton, List.append_assoc]
      | false =>
        rw [if_neg (by decide), ih _ hout, List.filter_cons_of_neg (Bool.eq_false_iff.1 hshow),
          List.filter_nil, List.reverse_nil, List.nil_append]
    · rw [List.take_append_of_le_length (by omega), List.take_of_length_le hout]

/-- A page is the first of what is ahead of its cursor. -/
theorem Retains.page_eq (h : s.Retains N es) (hlen : es.length ≤ 2 ^ 64) (device : Octets)
    (upper : UInt64) (want : ℕ) :
    s.page device upper want = (ahead device upper (es.rtake N)).take want := by
  have hcount : (es.rtake N).length = s.count := by
    rw [length_rtake, ← h.count_eq]
  have hsorted : (es.rtake N).Pairwise fun a b =>
      decide (b.seq < upper) = true → decide (a.seq < upper) = true := by
    have hinc := (seqs_increasing h.numbered hlen).sublist
      ((List.drop_sublist (es.length - N) es).map Entry.seq)
    rw [List.pairwise_map] at hinc
    refine hinc.imp ?_
    intro a b hab hb
    simp only [decide_eq_true_eq, UInt64.lt_iff_toNat_lt] at hab hb ⊢
    omega
  have hcut : (es.rtake N).take (Ring.search s.count fun i =>
      (s.atPos i).any fun e => upper ≤ e.seq) =
      (es.rtake N).filter fun e => decide (e.seq < upper) := by
    rw [← hcount]
    refine take_search hsorted ?_
    intro i x hx
    obtain ⟨hi, -⟩ := List.getElem?_eq_some_iff.1 hx
    rw [h.atPos_eq (by omega), hx, Option.any_some, ← decide_not, decide_eq_decide,
      UInt64.le_iff_toNat_le, UInt64.lt_iff_toNat_lt]
    omega
  have hbound := search_le s.count fun i => (s.atPos i).any fun e => upper ≤ e.seq
  rw [page, pageFrom_eq device want (fun j hj => h.atPos_eq (by omega)) (by omega) []
    (Nat.zero_le _), hcut, List.nil_append, List.filter_filter, ahead]
  simp only [Bool.and_comm]

end MemoryStore

/-- The token of a page of this size, when this was ahead. -/
def tokenAfter (parent : Octets) (size : ℕ) (entries : List (Entry α)) : Octets :=
  if size < entries.length then
    match entries[size - 1]? with
    | some last => encodeCursor parent last.seq
    | none => []
  else []

variable {parent token : Octets} {size N : ℕ} {entries es : List (Entry α)} {l : Logged α}
  {s : MemoryStore α}

/-- A token names the last event of its page. -/
theorem tokenAfter_of_ne_nil (h : tokenAfter parent size entries ≠ []) :
    ∃ e, entries[size - 1]? = some e ∧ tokenAfter parent size entries = encodeCursor parent e.seq := by
  unfold tokenAfter at h ⊢
  split at h
  · cases hget : entries[size - 1]? with
    | some last => exact ⟨last, rfl, by rw [if_pos ‹_›]⟩
    | none => simp [hget] at h
  · exact absurd rfl h

/-- There is none exactly if the page holds all. -/
theorem tokenAfter_eq_nil_iff : tokenAfter parent size entries = [] ↔ entries.length ≤ size := by
  unfold tokenAfter
  split
  · rename_i hmore
    have hget := List.getElem?_eq_getElem (show size - 1 < entries.length by omega)
    rw [hget]
    simp only [encodeCursor_ne_nil, false_iff, Nat.not_le]
    exact hmore
  · rename_i hlast
    simp only [true_iff]
    omega

namespace MemoryStore

variable {N : ℕ} {s : MemoryStore α} {es xs : List (Entry α)} {device : Octets} {upper : UInt64}
  {e : Entry α}

/-- **What one call lists.** -/
theorem Retains.list_eq (h : s.Retains N es) (hlen : es.length ≤ 2 ^ 64) {q : Query}
    (hparent : parseParent q.parent = .ok device) (hupper : q.upper = .ok upper) :
    s.list none q = .ok
      { events := ((ahead device upper (es.rtake N)).take (cappedSize q.pageSize)).map Entry.ev
        nextPageToken :=
          tokenAfter q.parent (cappedSize q.pageSize) (ahead device upper (es.rtake N)) } := by
  rw [list, hparent, hupper]
  simp only
  rw [h.page_eq hlen]
  generalize ahead device upper (es.rtake N) = entries
  generalize cappedSize q.pageSize = size
  rw [List.length_take, tokenAfter]
  by_cases hmore : size < entries.length
  · have hlast := List.getElem?_eq_getElem (show size - 1 < entries.length by omega)
    simp only [if_pos (show size < min (size + 1) entries.length by omega), if_pos hmore,
      List.take_take, Nat.min_eq_left (Nat.le_add_right size 1),
      List.getElem?_take_of_lt (show size - 1 < size + 1 by omega), hlast]
  · rw [if_neg (by omega), if_neg hmore, List.take_of_length_le (by omega),
      List.take_of_length_le (by omega)]

/-! ## What is ahead, from call to call -/

/-- Pages run from new to old. -/
theorem ahead_decreasing (h : (xs.map Entry.seq).Pairwise (· < ·)) (device : Octets)
    (upper : UInt64) :
    (ahead device upper xs).Pairwise fun a b => decide (b.seq < a.seq) = true := by
  rw [ahead, List.pairwise_reverse]
  rw [List.pairwise_map] at h
  exact (h.sublist List.filter_sublist).imp fun hab => decide_eq_true hab

/-- A cursor at an entry ahead leaves ahead what followed that entry. -/
theorem ahead_cursor (h : (xs.map Entry.seq).Pairwise (· < ·)) {i : ℕ}
    (he : (ahead device upper xs)[i]? = some e) :
    ahead device e.seq xs = (ahead device upper xs).drop (i + 1) := by
  have hasymm : ∀ a b : Entry α, decide (b.seq < a.seq) = true → decide (a.seq < b.seq) = false := by
    intro a b hab
    simp only [decide_eq_true_eq, decide_eq_false_iff_not, UInt64.lt_iff_toNat_lt] at hab ⊢
    omega
  have hbelow : e.seq < upper := (mem_ahead.1 (List.mem_of_getElem? he)).2.1
  rw [drop_eq_filter hasymm (ahead_decreasing h device upper) he, ahead, ahead,
    List.filter_reverse, List.filter_filter]
  congr 1
  refine List.filter_congr fun x _ => ?_
  rw [← Bool.and_assoc]
  congr 1
  rw [← Bool.decide_and, decide_eq_decide]
  simp only [UInt64.lt_iff_toNat_lt] at hbelow ⊢
  omega

/-- Appends take from what is ahead of a cursor at its far end only. -/
theorem ahead_append {more : List (Entry α)}
    (h : ∀ (i : ℕ) (e : Entry α), (es ++ more)[i]? = some e → e.Numbered i)
    (hlen : (es ++ more).length ≤ 2 ^ 64) (hupper : more = [] ∨ upper.toNat ≤ es.length)
    (device : Octets) :
    ahead device upper ((es ++ more).rtake N) <+: ahead device upper (es.rtake N) := by
  rcases hupper with rfl | hupper
  · rw [List.append_nil]
  have hlater : ∀ e ∈ more, ¬ e.seq < upper := by
    intro e he hlt
    obtain ⟨j, hj⟩ := List.mem_iff_getElem?.1 he
    obtain ⟨hjlt, -⟩ := List.getElem?_eq_some_iff.1 hj
    rw [List.length_append] at hlen
    have hnum := h (es.length + j) e (by
      rw [List.getElem?_append_right (Nat.le_add_right _ _), Nat.add_sub_cancel_left, hj])
    rw [hnum.seq, UInt64.lt_iff_toNat_lt,
      UInt64.toNat_ofNat_of_lt' (show es.length + j < 2 ^ 64 by omega)] at hlt
    omega
  have hcut : ((es ++ more).rtake N).filter (fun e => decide (e.seq < upper) && shows device e) =
      (es.drop ((es ++ more).length - N)).filter
        fun e => decide (e.seq < upper) && shows device e := by
    rw [List.rtake, List.drop_append, List.filter_append]
    refine List.append_right_eq_self.2 (List.filter_eq_nil_iff.2 ?_)
    intro e he
    have hno := hlater e (List.mem_of_mem_drop he)
    simp [hno]
  rw [ahead, ahead, hcut, List.reverse_prefix, List.rtake]
  refine List.IsSuffix.filter _ ?_
  rw [show (es ++ more).length - N =
    es.length - N + ((es ++ more).length - N - (es.length - N)) by
      rw [List.length_append]; omega, ← List.drop_drop]
  exact List.drop_suffix _ _

/-- Entries with one record are one entry. -/
theorem eq_of_ev (h : ∀ (i : ℕ) (e : Entry α), es[i]? = some e → e.Numbered i)
    (hlen : es.length ≤ 2 ^ 64) {e' : Entry α} (he : e ∈ es) (he' : e' ∈ es) (hev : e.ev = e'.ev) :
    e = e' := by
  obtain ⟨i, hi⟩ := List.mem_iff_getElem?.1 he
  obtain ⟨j, hj⟩ := List.mem_iff_getElem?.1 he'
  obtain ⟨hilt, -⟩ := List.getElem?_eq_some_iff.1 hi
  obtain ⟨hjlt, -⟩ := List.getElem?_eq_some_iff.1 hj
  have hmod := (h i e hi).mod_eq (h j e' hj) (congrArg Event.name hev)
  have heq : i = j := by omega
  rw [heq, hj] at hi
  exact (Option.some.inj hi).symm

/-- A matching event is held under its own entry. -/
theorem Retains.mem_matching (h : s.Retains N es) (hlen : es.length ≤ 2 ^ 64) (he : e ∈ es) :
    e.ev ∈ s.matching device ↔ e ∈ es.rtake N ∧ shows device e = true := by
  rw [matching, h.held_eq]
  constructor
  · intro hmem
    obtain ⟨e', he', hev⟩ := List.mem_map.1 hmem
    rw [List.mem_reverse, List.mem_filter] at he'
    have heq := eq_of_ev h.numbered hlen he (List.mem_of_mem_drop he'.1) hev.symm
    rw [heq]
    exact he'
  · intro hheld
    exact List.mem_map_of_mem (List.mem_reverse.2 (List.mem_filter.2 hheld))

end MemoryStore

/-! ## Following the tokens -/

/-- A page cut from the front of `first`, the events still to visit, by a call that found the store
at `l`. -/
structure Cut (device : Octets) (cap : ℕ) (first : List (Event α)) (l : Logged α) (p : Page α) :
    Prop where
  front : p.events <+: first
  size : p.events.length ≤ cap
  complete : ∀ ev ∈ first.take cap, ev ∈ l.store.matching device → ev ∈ p.events
  token : p.nextPageToken = [] ↔
    ∀ ev ∈ first.drop p.events.length, ev ∉ l.store.matching device
  full : p.nextPageToken ≠ [] → p.events.length = cap

/-- The page of what is ahead now is cut from what was ahead at first, when that was lost from only
at its far end. -/
theorem cut_of_front {device : Octets} {first now : List (Entry α)} (hfront : now <+: first)
    (hnodup : first.Nodup) (hheld : ∀ e ∈ first, e.ev ∈ l.store.matching device ↔ e ∈ now) :
    Cut device size (first.map Entry.ev) l
      { events := (now.take size).map Entry.ev, nextPageToken := tokenAfter parent size now } := by
  obtain ⟨lost, rfl⟩ := hfront
  have hlost : ∀ e ∈ lost, e ∉ now := fun e he hnow => List.disjoint_of_nodup_append hnodup hnow he
  have hlength : ((now.take size).map Entry.ev).length = min size now.length := by
    rw [List.length_map, List.length_take]
  refine ⟨?_, ?_, ?_, ?_, ?_⟩
  · exact ((List.take_prefix size now).trans (List.prefix_append now lost)).map Entry.ev
  · rw [hlength]
    exact Nat.min_le_left _ _
  · intro ev hev hmatch
    rw [← List.map_take] at hev
    obtain ⟨e, he, rfl⟩ := List.mem_map.1 hev
    have hnow := (hheld e (List.mem_of_mem_take he)).1 hmatch
    rw [List.take_append, List.mem_append] at he
    rcases he with he | he
    · exact List.mem_map_of_mem he
    · exact absurd hnow (hlost e (List.mem_of_mem_take he))
  · rw [tokenAfter_eq_nil_iff, hlength, ← List.map_drop]
    constructor
    · intro hlast ev hev hmatch
      obtain ⟨e, he, rfl⟩ := List.mem_map.1 hev
      rw [Nat.min_eq_right hlast, List.drop_left] at he
      exact hlost e he ((hheld e (List.mem_append_right _ he)).1 hmatch)
    · intro hnone
      by_contra hmore
      have hlt : size < now.length := by omega
      have hmem : now.get ⟨size, hlt⟩ ∈ (now ++ lost).drop (min size now.length) := by
        rw [Nat.min_eq_left (by omega), List.drop_append_of_le_length (by omega)]
        refine List.mem_append_left _ (List.mem_of_getElem? (i := 0) ?_)
        rw [List.getElem?_drop, Nat.add_zero]
        exact List.getElem?_eq_getElem hlt
      refine hnone _ (List.mem_map_of_mem hmem) ((hheld _ (List.mem_of_mem_drop hmem)).2 ?_)
      exact List.get_mem now ⟨size, hlt⟩
  · intro htoken
    rw [hlength]
    have hmore := mt tokenAfter_eq_nil_iff.2 htoken
    omega

/-- The calls of a listing: each finds the store as the appends since the one before left it, and
passes the token of the page before. -/
def follow (parent : Octets) (size : ℤ) :
    Logged α → Octets → List (List (AppendCall α)) → List (Logged α × Except Error (Page α))
  | l, token, [] => [(l, l.store.list none ⟨parent, size, token⟩)]
  | l, token, gap :: gaps =>
    (l, l.store.list none ⟨parent, size, token⟩) ::
      match l.store.list none ⟨parent, size, token⟩ with
      | .error _ => []
      | .ok p =>
        if p.nextPageToken = [] then []
        else follow parent size (gap.foldl Logged.step l) p.nextPageToken gaps

section Listing

variable {N : ℕ} {es more : List (Entry α)} {l : Logged α} {parent device : Octets} {upper : UInt64}

/-- What was there at first is in order. -/
theorem first_increasing (hrec : Logged.Recorded N l (es ++ more))
    (hlen : (es ++ more).length ≤ 2 ^ 64) : ((es.rtake N).map Entry.seq).Pairwise (· < ·) :=
  (MemoryStore.seqs_increasing hrec.2.numbered hlen).sublist
    (((List.drop_sublist _ _).trans (List.sublist_append_left es more)).map Entry.seq)

/-- **One call of a listing** that began when the entries were `es`. -/
theorem list_cut (hrec : Logged.Recorded N l (es ++ more)) (hlen : (es ++ more).length ≤ 2 ^ 64)
    (hparent : parseParent parent = .ok device) {size : ℤ}
    (hupper : (Query.mk parent size token).upper = .ok upper)
    (hbound : more = [] ∨ upper.toNat ≤ es.length) :
    ∃ p, l.store.list none ⟨parent, size, token⟩ = .ok p ∧
      Cut device (cappedSize size) ((MemoryStore.ahead device upper (es.rtake N)).map Entry.ev) l p ∧
      (p.nextPageToken ≠ [] → ∃ e,
        (MemoryStore.ahead device upper (es.rtake N))[cappedSize size - 1]? = some e ∧
          p.nextPageToken = encodeCursor parent e.seq) := by
  have hret := hrec.2
  have hfront := MemoryStore.ahead_append (N := N) hret.numbered hlen hbound device
  have hnodup : (MemoryStore.ahead device upper (es.rtake N)).Nodup := by
    refine (MemoryStore.ahead_decreasing (first_increasing hrec hlen) device upper).imp ?_
    rintro a b hlt rfl
    simp at hlt
  have hheld : ∀ e ∈ MemoryStore.ahead device upper (es.rtake N),
      e.ev ∈ l.store.matching device ↔
        e ∈ MemoryStore.ahead device upper ((es ++ more).rtake N) := by
    intro e he
    obtain ⟨hmem, hlt, hshow⟩ := MemoryStore.mem_ahead.1 he
    rw [hret.mem_matching hlen (List.mem_append_left _ (List.mem_of_mem_drop hmem)),
      MemoryStore.mem_ahead]
    exact ⟨fun h => ⟨h.1, hlt, h.2⟩, fun h => ⟨h.1, h.2.2⟩⟩
  refine ⟨_, hret.list_eq hlen hparent hupper, cut_of_front hfront hnodup hheld, ?_⟩
  intro htoken
  obtain ⟨e, he, hcursor⟩ := tokenAfter_of_ne_nil htoken
  obtain ⟨hlt, -⟩ := List.getElem?_eq_some_iff.1 he
  obtain ⟨lost, hlost⟩ := hfront
  refine ⟨e, ?_, hcursor⟩
  rw [← hlost, List.getElem?_append_left hlt]
  exact he

/-- The pages of a listing, each cut from what the ones before left to visit. -/
def Visits (device : Octets) (cap : ℕ) : List (Event α) → List (Logged α × Page α) → Prop
  | _, [] => True
  | first, (l, p) :: rest =>
    Cut device cap first l p ∧ (rest ≠ [] → p.nextPageToken ≠ []) ∧
      Visits device cap (first.drop p.events.length) rest

/-- The log grows. -/
theorem log_length_le (l : Logged α) (calls : List (AppendCall α)) :
    l.log.length ≤ (calls.foldl Logged.step l).log.length := by
  induction calls generalizing l with
  | nil => exact le_rfl
  | cons c calls ih =>
    refine le_trans ?_ (ih (l.step c))
    rw [Logged.step]
    cases (l.store.call c).1 with
    | ok ev => simp
    | error err => exact le_rfl

/-- Later calls add to the record. -/
theorem recorded_foldl (hrec : Logged.Recorded N l es) (calls : List (AppendCall α)) :
    ∃ more, Logged.Recorded N (calls.foldl Logged.step l) (es ++ more) := by
  induction calls generalizing l es with
  | nil => exact ⟨[], by rw [List.append_nil]; exact hrec⟩
  | cons c calls ih =>
    obtain ⟨more, hmore, -⟩ := Logged.recorded_step hrec c
    obtain ⟨more', hmore'⟩ := ih hmore
    exact ⟨more ++ more', by rw [← List.append_assoc]; exact hmore'⟩

/-- **A listing that began when the entries were `es`.** -/
theorem follow_visits {size : ℤ} (hsize : 0 < cappedSize size)
    (hparent : parseParent parent = .ok device) (gaps : List (List (AppendCall α)))
    (hrec : Logged.Recorded N l (es ++ more))
    (hlen : (gaps.flatten.foldl Logged.step l).log.length ≤ 2 ^ 64)
    (hupper : (Query.mk parent size token).upper = .ok upper)
    (hbound : more = [] ∨ upper.toNat ≤ es.length) :
    ∃ pages, follow parent size l token gaps = pages.map (fun p => (p.1, .ok p.2)) ∧
      Visits device (cappedSize size)
        ((MemoryStore.ahead device upper (es.rtake N)).map Entry.ev) pages ∧
      (pages.length ≤ gaps.length → ∃ last ∈ pages.getLast?, last.2.nextPageToken = []) := by
  induction gaps generalizing l more token upper with
  | nil =>
    have hlen' : (es ++ more).length ≤ 2 ^ 64 := by
      rw [← List.length_map Entry.ev, hrec.1]
      exact hlen
    obtain ⟨p, hlist, hcut, -⟩ := list_cut hrec hlen' hparent hupper hbound
    refine ⟨[(l, p)], ?_, ⟨hcut, fun h => absurd rfl h, trivial⟩, fun h => absurd h (by simp)⟩
    rw [follow, hlist]
    rfl
  | cons gap gaps ih =>
    have hlen' : (es ++ more).length ≤ 2 ^ 64 := by
      rw [← List.length_map Entry.ev, hrec.1]
      exact (log_length_le l _).trans hlen
    obtain ⟨p, hlist, hcut, hnext⟩ := list_cut hrec hlen' hparent hupper hbound
    by_cases htoken : p.nextPageToken = []
    · refine ⟨[(l, p)], ?_, ⟨hcut, fun h => absurd rfl h, trivial⟩, fun _ => ⟨(l, p), rfl, htoken⟩⟩
      rw [follow, hlist]
      simp only [htoken, if_true]
      rfl
    · obtain ⟨e, he, hcursor⟩ := hnext htoken
      obtain ⟨later, hlater⟩ := recorded_foldl hrec gap
      rw [List.append_assoc] at hlater
      -- the cursor is at an entry that was there at the first call
      have hupper' : (Query.mk parent size p.nextPageToken).upper = .ok e.seq := by
        rw [Query.upper, if_neg htoken, hcursor]
        exact decodeCursor_encodeCursor parent e.seq
      have hbound' : e.seq.toNat ≤ es.length := by
        have hmem := (MemoryStore.mem_ahead.1 (List.mem_of_getElem? he)).1
        obtain ⟨i, hi⟩ := List.mem_iff_getElem?.1 (List.mem_of_mem_drop hmem)
        obtain ⟨hilt, -⟩ := List.getElem?_eq_some_iff.1 hi
        rw [List.length_append] at hlen'
        rw [(hrec.2.numbered i e (by rw [List.getElem?_append_left hilt, hi])).seq,
          UInt64.toNat_ofNat_of_lt' (show i < 2 ^ 64 by omega)]
        exact hilt.le
      obtain ⟨pages, hpages, hvisits, hstop⟩ := ih hlater
        (by rw [← List.foldl_append]; exact hlen) hupper' (.inr hbound')
      have hrest : (MemoryStore.ahead device e.seq (es.rtake N)).map Entry.ev =
          ((MemoryStore.ahead device upper (es.rtake N)).map Entry.ev).drop p.events.length := by
        rw [MemoryStore.ahead_cursor (first_increasing hrec hlen') he, hcut.full htoken,
          Nat.sub_add_cancel hsize, List.map_drop]
      rw [hrest] at hvisits
      refine ⟨(l, p) :: pages, ?_, ⟨hcut, fun _ => htoken, hvisits⟩, ?_⟩
      · rw [follow, hlist, List.map_cons, ← hpages]
        simp only [htoken, if_false]
      · intro hshort
        obtain ⟨last, hlast, hend⟩ := hstop (by simpa using hshort)
        exact ⟨last, by rw [List.getLast?_cons, hlast]; rfl, hend⟩

/-! ## The whole listing -/

variable {cap : ℕ} {first : List (Event α)} {pages : List (Logged α × Page α)}

/-- Pages show the first events in order. -/
theorem Visits.front (h : Visits device cap first pages) :
    (pages.flatMap fun p => p.2.events) <+: first := by
  induction pages generalizing first with
  | nil => exact List.nil_prefix
  | cons page pages ih =>
    obtain ⟨hcut, -, hrest⟩ := h
    obtain ⟨left, hleft⟩ := hcut.front
    have hdrop : first.drop page.2.events.length = left := by
      rw [← hleft, List.drop_left]
    rw [List.flatMap_cons, ← hleft, List.prefix_append_right_inj, ← hdrop]
    exact ih hrest

/-- Each page is cut from what was left. -/
theorem Visits.cut (h : Visits device cap first pages) {before after : List (Logged α × Page α)}
    {p : Page α} (hsplit : pages = before ++ (l, p) :: after) :
    Cut device cap (first.drop (before.flatMap fun p => p.2.events).length) l p := by
  induction before generalizing first pages with
  | nil =>
    rw [hsplit] at h
    exact h.1
  | cons page before ih =>
    rw [hsplit] at h
    have hcut := ih h.2.2 rfl
    rw [List.drop_drop] at hcut
    rw [List.flatMap_cons, List.length_append]
    exact hcut

/-- All pages but the last are full. -/
theorem Visits.length_mul_le (h : Visits device cap first pages) :
    (pages.length - 1) * cap ≤ first.length := by
  induction pages generalizing first with
  | nil => simp
  | cons page pages ih =>
    obtain ⟨hcut, hmore, hrest⟩ := h
    cases pages with
    | nil => simp
    | cons next pages =>
      have hfull := hcut.full (hmore (by simp))
      have hlen := hcut.front.length_le
      have htail := ih hrest
      rw [List.length_drop] at htail
      simp only [List.length_cons, Nat.add_sub_cancel] at htail ⊢
      rw [Nat.add_mul, Nat.one_mul]
      omega

end Listing

/-- A page size is capped. -/
theorem cappedSize_of_pos {size : ℤ} (hsize : 0 < size) :
    cappedSize size = min size.toNat maxPageSize := by
  rw [cappedSize, if_neg (by omega)]

/-- While the counter has not come round, no number reaches the bound of a call with no token. -/
theorem matching_eq_ahead (h : s.Retains N es) (hlen : es.length < 2 ^ 64) (device : Octets) :
    s.matching device =
      (MemoryStore.ahead device (UInt64.ofNat (2 ^ 64 - 1)) (es.rtake N)).map Entry.ev := by
  rw [MemoryStore.matching, h.held_eq, MemoryStore.ahead]
  congr 2
  refine List.filter_congr fun e he => ?_
  obtain ⟨i, hi⟩ := List.mem_iff_getElem?.1 (List.mem_of_mem_drop he)
  obtain ⟨hilt, -⟩ := List.getElem?_eq_some_iff.1 hi
  have hlt : e.seq < UInt64.ofNat (2 ^ 64 - 1) := by
    rw [(h.numbered i e hi).seq, UInt64.lt_iff_toNat_lt,
      UInt64.toNat_ofNat_of_lt' (show i < 2 ^ 64 by omega), UInt64.toNat_ofNat_of_lt' (by decide)]
    omega
  rw [decide_eq_true hlt, Bool.true_and]

/-- No event is shown twice. -/
theorem matching_nodup (h : s.Retains N es) (hlen : es.length ≤ 2 ^ 64) (device : Octets) :
    (s.matching device).Nodup := by
  have hnames := MemoryStore.all_names_nodup h.numbered hlen
  rw [show (MemoryStore.nameOf : Entry α → Octets) = Event.name ∘ Entry.ev from rfl,
    ← List.map_map] at hnames
  have hevents : (es.map Entry.ev).Nodup := hnames.of_map Event.name
  rw [MemoryStore.matching, h.held_eq, List.map_reverse, List.nodup_reverse]
  exact hevents.sublist ((List.filter_sublist.trans (List.drop_sublist _ _)).map Entry.ev)

/-- **Paging visits each event once.** A listing of a valid parent begins at a store that any
appends left, and any appends come between its calls, fewer than 2^64 successful ones in all. Every
call succeeds; the pages together are the front of the newest-first list of what the store held at
the first call, with nothing twice; a page has at most the size asked for and the cap; it has what
is next in that list and still held; its token is empty exactly when nothing older in that list is
still held; and the tokens come to an end. -/
theorem paging_visits_each_once {N : ℕ} (hN : 1 ≤ N) (calls : List (AppendCall α))
    {parent device : Octets} (hparent : parseParent parent = .ok device) {size : ℤ}
    (hsize : 0 < size) (gaps : List (List (AppendCall α)))
    (hlen : (Logged.run N (calls ++ gaps.flatten)).log.length < 2 ^ 64) :
    let first := (Logged.run N calls).store.matching device
    let cap := min size.toNat maxPageSize
    ∃ pages : List (Logged α × Page α),
      follow parent size (Logged.run N calls) [] gaps = pages.map (fun p => (p.1, .ok p.2)) ∧
      (pages.flatMap fun p => p.2.events) <+: first ∧
      (pages.flatMap fun p => p.2.events).Nodup ∧
      (∀ p ∈ pages, p.2.events.length ≤ cap) ∧
      (∀ before l p after, pages = before ++ (l, p) :: after →
        let left := first.drop (before.flatMap fun p => p.2.events).length
        (∀ ev ∈ left.take cap, ev ∈ l.store.matching device → ev ∈ p.events) ∧
        (p.nextPageToken = [] ↔
          ∀ ev ∈ left.drop p.events.length, ev ∉ l.store.matching device)) ∧
      (pages.length - 1) * cap ≤ first.length ∧
      (first.length < gaps.length → ∃ last ∈ pages.getLast?, last.2.nextPageToken = []) := by
  intro first cap
  obtain ⟨es, hrec, -⟩ := Logged.kept_run hN calls
  have hrun : Logged.run N (calls ++ gaps.flatten) =
      gaps.flatten.foldl Logged.step (Logged.run N calls) := List.foldl_append
  rw [hrun] at hlen
  have hes : es.length < 2 ^ 64 := by
    rw [← List.length_map Entry.ev, hrec.1]
    exact (log_length_le _ _).trans_lt hlen
  have hfirst : first = _ := matching_eq_ahead hrec.2 hes device
  have hcap : cappedSize size = cap := cappedSize_of_pos hsize
  have hcappos : 0 < cap := by
    have hmax : 0 < maxPageSize := by decide
    have htoNat : 0 < size.toNat := by omega
    exact Nat.lt_min.2 ⟨htoNat, hmax⟩
  have hrec' : Logged.Recorded N (Logged.run N calls) (es ++ []) := by
    rw [List.append_nil]
    exact hrec
  have hupper : (Query.mk parent size []).upper = .ok (UInt64.ofNat (2 ^ 64 - 1)) := rfl
  obtain ⟨pages, hpages, hvisits, hstop⟩ :=
    follow_visits (hcap ▸ hcappos) hparent gaps hrec' hlen.le hupper (.inl rfl)
  rw [hcap, ← hfirst] at hvisits
  have hnodup : first.Nodup := matching_nodup hrec.2 hes.le device
  refine ⟨pages, hpages, hvisits.front, hnodup.sublist hvisits.front.sublist, ?_, ?_,
    hvisits.length_mul_le, ?_⟩
  · rintro ⟨l, p⟩ hp
    obtain ⟨before, after, hsplit⟩ := List.append_of_mem hp
    exact (hvisits.cut hsplit).size
  · intro before l p after hsplit
    exact ⟨(hvisits.cut hsplit).complete, (hvisits.cut hsplit).token⟩
  · intro hgaps
    have hlength := hvisits.length_mul_le
    have hone := Nat.le_mul_of_pos_right (pages.length - 1) hcappos
    exact hstop (by omega)

/-- Two events, listed by pages of one, the store of capacity two losing the older between the
calls. -/
theorem paging_visits_each_once_pair :
    parseParent (text "devices/-") = .ok wildcard ∧
    ∃ pages : List (Logged Unit × Page Unit),
      follow (text "devices/-") 1 (Logged.run 2 [Logged.readerCall 5, Logged.readerCall 6]) []
        [[Logged.readerCall 7]] = pages.map (fun p => (p.1, .ok p.2)) ∧
      (pages.flatMap fun p => p.2.events) <+:
        (Logged.run 2 [Logged.readerCall 5, Logged.readerCall 6]).store.matching wildcard := by
  have hparent : parseParent (text "devices/-") = .ok wildcard := by decide +kernel
  obtain ⟨pages, hpages, hfront, -⟩ := paging_visits_each_once (show 1 ≤ 2 by decide)
    [Logged.readerCall 5, Logged.readerCall 6] hparent (show (0 : ℤ) < 1 by decide)
    [[Logged.readerCall 7]] (by decide +kernel)
  exact ⟨hparent, pages, hpages, hfront⟩

/-! ## When the counter comes round -/

/-- Each call of the sample adds one event. -/
theorem log_length_replicate (l : Logged Unit) (n : ℕ) :
    ((List.replicate n (Logged.readerCall 0)).foldl Logged.step l).log.length =
      l.log.length + n := by
  induction n generalizing l with
  | zero => rfl
  | succ n ih =>
    have hparent : parseParent (text "devices/reader") = .ok (text "reader") := by decide +kernel
    have hdevice : text "reader" ≠ wildcard := by decide
    obtain ⟨ev, hok⟩ : ∃ ev, (l.store.call (Logged.readerCall 0)).1 = .ok ev := by
      simp only [MemoryStore.call, MemoryStore.append, Logged.readerCall, hparent, if_neg hdevice]
      exact ⟨_, rfl⟩
    have hstep : (l.step (Logged.readerCall 0)).log.length = l.log.length + 1 := by
      rw [Logged.step, hok, List.length_append, List.length_singleton]
    rw [List.replicate_succ, List.foldl_cons, ih, hstep]
    omega

/-- The bound of a call with no token is exclusive, so the event that has the greatest number is
held and not listed. -/
theorem last_number_unlisted :
    let s := (Logged.run 1 (List.replicate (2 ^ 64) (Logged.readerCall 0))).store
    (s.matching wildcard).length = 1 ∧
      s.list none ⟨text "devices/-", 1, []⟩ = .ok { events := [], nextPageToken := [] } := by
  intro s
  obtain ⟨es, hrec, -⟩ := Logged.kept_run (show 0 < 1 by decide)
    (List.replicate (2 ^ 64) (Logged.readerCall 0))
  have hlen : es.length = 2 ^ 64 := by
    rw [← List.length_map Entry.ev, hrec.1, Logged.run, log_length_replicate]
    exact Nat.zero_add _
  have hret : s.Retains 1 es := hrec.2
  obtain ⟨e, he⟩ : ∃ e, es.rtake 1 = [e] := by
    rw [← List.length_eq_one_iff, length_rtake, hlen]
    decide
  have hseq : e.seq = UInt64.ofNat (2 ^ 64 - 1) := by
    have hget := getElem?_rtake 1 0 es
    rw [he, hlen] at hget
    exact (hret.numbered _ e hget.symm).seq
  have hparent : parseParent (text "devices/-") = .ok wildcard := by decide +kernel
  have hnone : MemoryStore.ahead wildcard (UInt64.ofNat (2 ^ 64 - 1)) (es.rtake 1) = [] := by
    rw [he, MemoryStore.ahead, List.filter_cons_of_neg (by rw [hseq]; simp)]
    rfl
  constructor
  · rw [MemoryStore.matching, hret.held_eq, he]
    rfl
  · rw [hret.list_eq hlen.le hparent rfl, hnone]
    rfl

end Service

end Osdp
