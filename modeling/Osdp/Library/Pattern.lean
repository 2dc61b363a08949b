import Mathlib.Data.List.Basic
import Mathlib.Tactic.Common

/-!
# Patterns

Regular expressions that are matched from the start of a text and repeat only classes of characters.
`run` lists the ways a pattern matches in the order a backtracking matcher prefers them: the first
alternative before the second, and of a repetition the longest run first. What `find` returns are the
captures of the first.

Where what follows a repetition cannot begin with a character of the repeated class, backtracking into
it is in vain: the repetition takes all it can, and the rest of the pattern is matched after it
(`run_seq_many`, `run_seq_group_word`). Whether a pattern can begin with a character is read off its
syntax (`run_cons_eq_nil`).
-/

set_option autoImplicit false

inductive Pattern (α : Type*) where
  | empty
  | one (p : α → Bool)
  | many (p : α → Bool)
  | seq (r q : Pattern α)
  | alt (r q : Pattern α)
  | group (i : ℕ) (r : Pattern α)
  | atEnd

namespace Pattern

variable {α : Type*}

/-- What the groups of a match hold. -/
abbrev Captures (α : Type*) := List (ℕ × List α)

/-- The text a group holds; a group that took no part in the match holds none. -/
def Captures.get (m : Captures α) (i : ℕ) : List α := (m.lookup i).getD []

/-- What may follow a run of a class, after the longest run first. -/
def rests (p : α → Bool) : List α → List (List α)
  | [] => [[]]
  | c :: s => if p c then rests p s ++ [c :: s] else [c :: s]

/-- Some captures in front of those of each match. -/
def tag (m : Captures α) (ns : List (Captures α × List α)) : List (Captures α × List α) :=
  ns.map fun n => (m ++ n.1, n.2)

/-- The matches of a pattern at the start of a text, with what is left of the text. -/
def run : Pattern α → List α → List (Captures α × List α)
  | empty, s => [([], s)]
  | one p, s =>
    match s with
    | [] => []
    | c :: t => if p c then [([], t)] else []
  | many p, s => (rests p s).map fun t => ([], t)
  | seq r q, s => (run r s).flatMap fun m => tag m.1 (run q m.2)
  | alt r q, s => run r s ++ run q s
  | group i r, s => (run r s).map fun m => ((i, s.take (s.length - m.2.length)) :: m.1, m.2)
  | atEnd, s => if s.isEmpty then [([], s)] else []

/-- The captures of the preferred match. -/
def find (r : Pattern α) (s : List α) : Option (Captures α) := (run r s).head?.map Prod.fst

variable {r q : Pattern α} {s l a b : List α} {p p' : α → Bool} {c : α}

/-- Nothing is found exactly when there is no match. -/
theorem find_eq_none : find r s = none ↔ run r s = [] := by
  rw [find, Option.map_eq_none_iff, List.head?_eq_none_iff]

/-! ## The usual abbreviations -/

def cat : List (Pattern α) → Pattern α
  | [] => empty
  | r :: rs => seq r (cat rs)

def lit [DecidableEq α] (l : List α) : Pattern α := cat (l.map fun c => one (· == c))

/-- A character of one class and any number of another. -/
def word (p q : α → Bool) : Pattern α := seq (one p) (many q)

def plus (p : α → Bool) : Pattern α := word p p

def opt (r : Pattern α) : Pattern α := alt r empty

/-! ## Sequences -/

/-- Adding no captures changes nothing. -/
@[simp] theorem tag_nil (ns : List (Captures α × List α)) : tag [] ns = ns := by
  simp [tag]

/-- No matches stay none. -/
@[simp] theorem tag_empty (m : Captures α) : tag m [] = [] := rfl

/-- Captures are added one after the other. -/
theorem tag_tag (m n : Captures α) (ns : List (Captures α × List α)) :
    tag m (tag n ns) = tag (m ++ n) ns := by
  simp [tag, Function.comp_def]

/-- The first match, with the captures added. -/
theorem head?_tag (m : Captures α) (ns : List (Captures α × List α)) :
    (tag m ns).head?.map Prod.fst = (ns.head?.map Prod.fst).map (m ++ ·) := by
  cases ns <;> rfl

/-- One pattern after the other. -/
theorem run_seq (r q : Pattern α) (s : List α) :
    run (seq r q) s = (run r s).flatMap fun m => tag m.1 (run q m.2) := rfl

/-- The matches of the left come first. -/
theorem run_alt (r q : Pattern α) (s : List α) : run (alt r q) s = run r s ++ run q s := rfl

/-- One symbol, if it passes the test. -/
theorem run_one_cons (p : α → Bool) (c : α) (s : List α) :
    run (one p) (c :: s) = if p c then [([], s)] else [] := rfl

/-- As many as pass, the longest run first. -/
theorem run_many (p : α → Bool) (s : List α) :
    run (many p) s = (rests p s).map fun t => ([], t) := rfl

/-- A group captures what it consumed. -/
theorem run_group (i : ℕ) (r : Pattern α) (s : List α) :
    run (group i r) s =
      (run r s).map fun m => ((i, s.take (s.length - m.2.length)) :: m.1, m.2) := rfl

/-- Sequence is associative. -/
theorem run_seq_assoc (a b c : Pattern α) (s : List α) :
    run (seq (seq a b) c) s = run (seq a (seq b c)) s := by
  rw [run_seq, run_seq, List.flatMap_assoc, run_seq]
  refine List.flatMap_congr fun m _ => ?_
  rw [run_seq, tag, tag, List.map_flatMap, List.flatMap_map]
  refine List.flatMap_congr fun n _ => ?_
  rw [← tag, tag_tag]

/-- The empty pattern consumes nothing. -/
@[simp] theorem run_seq_empty (q : Pattern α) (s : List α) : run (seq empty q) s = run q s := by
  rw [run_seq, run, List.flatMap_singleton, tag_nil]

/-- An alternative is tried with what follows it. -/
theorem run_seq_alt (a b q : Pattern α) (s : List α) :
    run (seq (alt a b) q) s = run (seq a q) s ++ run (seq b q) s := by
  rw [run_seq, run_alt, List.flatMap_append, run_seq, run_seq]

/-- An option is taken first, then left out. -/
theorem run_seq_opt (r q : Pattern α) (s : List α) :
    run (seq (opt r) q) s = run (seq r q) s ++ run q s := by
  rw [opt, run_seq_alt, run_seq_empty]

/-- One symbol and what follows. -/
theorem run_seq_one (p : α → Bool) (q : Pattern α) (c : α) (s : List α) :
    run (seq (one p) q) (c :: s) = if p c then run q s else [] := by
  rw [run_seq, run_one_cons]
  split
  · rw [List.flatMap_singleton, tag_nil]
  · rfl

/-- No match of the first is none of the sequence. -/
theorem run_seq_eq_nil (q : Pattern α) (h : run r s = []) : run (seq r q) s = [] := by
  rw [run_seq, h, List.flatMap_nil]

/-- A group of alternatives is an alternative of groups. -/
theorem run_seq_group_alt (i : ℕ) (a b q : Pattern α) (s : List α) :
    run (seq (group i (alt a b)) q) s = run (seq (group i a) q) s ++ run (seq (group i b) q) s := by
  rw [run_seq, run_group, run_alt, List.map_append, List.flatMap_append, run_seq, run_seq, run_group,
    run_group]

/-! ## What a pattern can begin with -/

/-- May it match without taking a character of a text that has one? -/
def skips : Pattern α → Bool
  | empty => true
  | one _ => false
  | many _ => true
  | seq r q => skips r && skips q
  | alt r q => skips r || skips q
  | group _ r => skips r
  | atEnd => false

/-- May it match by taking this character first? -/
def takes (c : α) : Pattern α → Bool
  | empty => false
  | one p => p c
  | many p => p c
  | seq r q => takes c r || (skips r && takes c q)
  | alt r q => takes c r || takes c q
  | group _ r => takes c r
  | atEnd => false

/-- What is left of a run is all of it, or its first symbol passes. -/
theorem mem_rests {t : List α} (h : t ∈ rests p (c :: s)) : t = c :: s ∨ p c = true := by
  rw [rests] at h
  split at h
  · rename_i hc
    exact .inr hc
  · exact .inl (List.mem_singleton.1 h)

/-- A match consumes nothing, or a symbol the pattern takes. -/
theorem mem_run_cons {m : Captures α × List α} (h : m ∈ run r (c :: s)) :
    (m.2 = c :: s ∧ skips r = true) ∨ takes c r = true := by
  induction r generalizing m with
  | empty =>
    rw [run, List.mem_singleton] at h
    exact .inl ⟨by rw [h], rfl⟩
  | one p =>
    rw [run_one_cons] at h
    split at h
    · rename_i hc
      exact .inr hc
    · cases h
  | many p =>
    obtain ⟨t, ht, rfl⟩ := List.mem_map.1 h
    rcases mem_rests ht with heq | hc
    · exact .inl ⟨heq, rfl⟩
    · exact .inr hc
  | seq r q ihr ihq =>
    rw [run_seq] at h
    obtain ⟨m', hm', hm⟩ := List.mem_flatMap.1 h
    obtain ⟨n, hn, rfl⟩ := List.mem_map.1 hm
    simp only [takes, skips, Bool.or_eq_true, Bool.and_eq_true]
    rcases ihr hm' with ⟨hrest, hskip⟩ | htake
    · rw [hrest] at hn
      rcases ihq hn with ⟨hrest', hskip'⟩ | htake'
      · exact .inl ⟨hrest', hskip, hskip'⟩
      · exact .inr (.inr ⟨hskip, htake'⟩)
    · exact .inr (.inl htake)
  | alt r q ihr ihq =>
    simp only [takes, skips, Bool.or_eq_true]
    rcases List.mem_append.1 h with h | h
    · exact (ihr h).imp (And.imp_right .inl) .inl
    · exact (ihq h).imp (And.imp_right .inr) .inr
  | group i r ih =>
    obtain ⟨m', hm', rfl⟩ := List.mem_map.1 h
    exact @ih m' hm'
  | atEnd => cases h

/-- **A text that begins with a character the pattern cannot begin with is not matched.** -/
theorem run_cons_eq_nil (hskip : skips r = false) (htake : takes c r = false) (s : List α) :
    run r (c :: s) = [] := by
  rw [List.eq_nil_iff_forall_not_mem]
  intro m hm
  rcases mem_run_cons hm with ⟨-, h⟩ | h
  · rw [hskip] at h
    cases h
  · rw [htake] at h
    cases h

/-- A pattern that takes a character first, but none of this class. -/
def Avoids (r : Pattern α) (p : α → Bool) : Prop :=
  skips r = false ∧ ∀ c, p c = true → takes c r = false

/-- A pattern that avoids a symbol has no match at it. -/
theorem Avoids.run_cons (h : Avoids r p) (hc : p c = true) (s : List α) :
    run r (c :: s) = [] := run_cons_eq_nil h.1 (h.2 c hc) s

/-- It avoids fewer symbols as well. -/
theorem Avoids.mono (h : Avoids r p) (hp : ∀ c, p' c = true → p c = true) :
    Avoids r p' := ⟨h.1, fun c hc => h.2 c (hp c hc)⟩

/-- A sequence avoids what its first symbol is not. -/
theorem avoids_seq_one (h : ∀ c, p' c = true → p c = false) (q : Pattern α) :
    Avoids (seq (one p) q) p' := by
  refine ⟨rfl, fun c hc => ?_⟩
  simp [takes, skips, h c hc]

/-- Many symbols and what follows avoid what both do. -/
theorem avoids_seq_many (h : ∀ c, p' c = true → p c = false) (hq : Avoids q p') :
    Avoids (seq (many p) q) p' := by
  refine ⟨by simp [skips, hq.1], fun c hc => ?_⟩
  simp [takes, skips, h c hc, hq.2 c hc]

/-- A word avoids what it cannot start with. -/
theorem avoids_seq_word (h : ∀ c, p' c = true → p c = false) (p'' : α → Bool) (q : Pattern α) :
    Avoids (seq (word p p'') q) p' := by
  refine ⟨rfl, fun c hc => ?_⟩
  simp [word, takes, skips, h c hc]

/-- A literal avoids what it does not begin with. -/
theorem avoids_seq_lit [DecidableEq α] (hne : l ≠ []) (h : l.any p = false) (q : Pattern α) :
    Avoids (seq (lit l) q) p := by
  obtain ⟨k, l, rfl⟩ := List.exists_cons_of_ne_nil hne
  refine ⟨rfl, fun c hc => ?_⟩
  have hk : c ≠ k := by
    rintro rfl
    exact List.any_eq_false.1 h c List.mem_cons_self hc
  simp [lit, cat, takes, skips, hk]

/-! ## Runs of a class -/

/-- A text that does not begin with this class. -/
def Stops (p : α → Bool) (s : List α) : Prop := ∀ c ∈ s.head?, p c = false

/-- A test stops at a symbol that fails it. -/
theorem stops_cons : Stops p (c :: s) ↔ p c = false := by
  simp [Stops]

/-- A test stops at the end. -/
theorem stops_nil (p : α → Bool) : Stops p [] := by simp [Stops]

/-- Nothing is taken where the test stops. -/
theorem rests_stop (h : Stops p s) : rests p s = [s] := by
  cases s with
  | nil => rfl
  | cons c s => rw [rests, stops_cons.1 h, if_neg Bool.false_ne_true]

/-- The longest run leaves what it stops at; a shorter one leaves a character of the class. -/
theorem rests_append (ha : ∀ c ∈ a, p c = true) (hb : Stops p b) :
    ∃ u, rests p (a ++ b) = b :: u ∧ ∀ t ∈ u, ∃ c s, p c = true ∧ t = c :: s := by
  induction a with
  | nil => exact ⟨[], by rw [List.nil_append, rests_stop hb], by simp⟩
  | cons c a ih =>
    have hc := ha c List.mem_cons_self
    obtain ⟨u, hu, hshort⟩ := ih fun x hx => ha x (List.mem_cons_of_mem _ hx)
    refine ⟨u ++ [c :: (a ++ b)], ?_, ?_⟩
    · rw [List.cons_append, rests, if_pos hc, hu, List.cons_append]
    · intro t ht
      rcases List.mem_append.1 ht with ht | ht
      · exact hshort t ht
      · exact ⟨c, a ++ b, hc, List.mem_singleton.1 ht⟩

/-- **Only the longest run counts** where what follows cannot begin with the class. -/
theorem flatMap_rests {β : Type*} (hq : Avoids q p) (ha : ∀ c ∈ a, p c = true) (hb : Stops p b)
    {f : List α → List β} (hf : ∀ t, run q t = [] → f t = []) :
    (rests p (a ++ b)).flatMap f = f b := by
  obtain ⟨u, hu, hshort⟩ := rests_append ha hb
  have htail : u.flatMap f = [] := by
    rw [List.flatMap_eq_nil_iff]
    intro t ht
    obtain ⟨c, s, hc, rfl⟩ := hshort t ht
    exact hf _ (hq.run_cons hc s)
  rw [hu, List.flatMap_cons, htail, List.append_nil]

/-- A run of symbols is taken whole. -/
theorem run_seq_many (hq : Avoids q p) (ha : ∀ c ∈ a, p c = true) (hb : Stops p b) :
    run (seq (many p) q) (a ++ b) = run q b := by
  rw [run_seq, run_many, List.flatMap_map]
  simp only [tag_nil]
  exact flatMap_rests hq ha hb fun t ht => ht

/-- A word is taken whole. -/
theorem run_seq_word (hq : Avoids q p') (hc : p c = true) (ha : ∀ x ∈ a, p' x = true)
    (hb : Stops p' b) : run (seq (word p p') q) (c :: (a ++ b)) = run q b := by
  rw [word, run_seq_assoc, run_seq_one, if_pos hc, run_seq_many hq ha hb]

/-- There is no word where none starts. -/
theorem run_seq_word_stop (h : Stops p s) (p' : α → Bool) (q : Pattern α) :
    run (seq (word p p') q) s = [] := by
  cases s with
  | nil => rfl
  | cons c s => rw [word, run_seq_assoc, run_seq_one, stops_cons.1 h, if_neg Bool.false_ne_true]

/-- A word is captured whole. -/
theorem run_seq_group_word (hq : Avoids q p') (i : ℕ) (hc : p c = true) (ha : ∀ x ∈ a, p' x = true)
    (hb : Stops p' b) :
    run (seq (group i (word p p')) q) (c :: (a ++ b)) = tag [(i, c :: a)] (run q b) := by
  have hword : run (word p p') (c :: (a ++ b)) = (rests p' (a ++ b)).map fun t => ([], t) := by
    rw [word, run_seq_one, if_pos hc, run_many]
  have hlen : (c :: (a ++ b)).length - b.length = (c :: a).length := by
    simp only [List.length_cons, List.length_append]
    omega
  rw [run_seq, run_group, hword, List.map_map, List.flatMap_map,
    flatMap_rests hq ha hb fun t ht => by rw [Function.comp_apply, ht, tag_empty]]
  simp only [Function.comp_apply]
  rw [hlen, ← List.cons_append, List.take_left]

/-- Nor is one captured. -/
theorem run_seq_group_word_stop (h : Stops p s) (i : ℕ) (p' : α → Bool) (q : Pattern α) :
    run (seq (group i (word p p')) q) s = [] := by
  have hword : run (word p p') s = [] := by
    cases s with
    | nil => rfl
    | cons c s => rw [word, run_seq_one, stops_cons.1 h, if_neg Bool.false_ne_true]
  rw [run_seq, run_group, hword, List.map_nil, List.flatMap_nil]

/-- A run that is not empty is taken whole. -/
theorem run_seq_plus (hq : Avoids q p) (hne : a ≠ []) (ha : ∀ x ∈ a, p x = true) (hb : Stops p b) :
    run (seq (plus p) q) (a ++ b) = run q b := by
  obtain ⟨c, a, rfl⟩ := List.exists_cons_of_ne_nil hne
  exact run_seq_word hq (ha c List.mem_cons_self) (fun x hx => ha x (List.mem_cons_of_mem _ hx)) hb

/-- And is captured. -/
theorem run_seq_group_plus (hq : Avoids q p) (i : ℕ) (hne : a ≠ []) (ha : ∀ x ∈ a, p x = true)
    (hb : Stops p b) : run (seq (group i (plus p)) q) (a ++ b) = tag [(i, a)] (run q b) := by
  obtain ⟨c, a, rfl⟩ := List.exists_cons_of_ne_nil hne
  exact run_seq_group_word hq i (ha c List.mem_cons_self)
    (fun x hx => ha x (List.mem_cons_of_mem _ hx)) hb

/-! ## Literals -/

section Literal

variable [DecidableEq α]

/-- A literal matches itself. -/
theorem run_lit_append (l s : List α) : run (lit l) (l ++ s) = [([], s)] := by
  induction l with
  | nil => rfl
  | cons c l ih =>
    rw [lit, List.map_cons, cat, List.cons_append, run_seq_one, if_pos (beq_self_eq_true c)]
    exact ih

/-- It matches nothing else. -/
theorem run_lit_eq_nil (h : ¬ l <+: s) : run (lit l) s = [] := by
  induction l generalizing s with
  | nil => exact absurd List.nil_prefix h
  | cons c l ih =>
    rw [lit, List.map_cons, cat]
    cases s with
    | nil => rfl
    | cons d s =>
      rw [run_seq_one]
      split
      · rename_i hd
        rw [beq_iff_eq] at hd
        refine ih fun hl => h ?_
        rw [hd, List.cons_prefix_cons]
        exact ⟨rfl, hl⟩
      · rfl

/-- A literal is consumed before what follows. -/
theorem run_seq_lit_append (l : List α) (q : Pattern α) (s : List α) :
    run (seq (lit l) q) (l ++ s) = run q s := by
  rw [run_seq, run_lit_append, List.flatMap_singleton, tag_nil]

/-- Without it there is no match. -/
theorem run_seq_lit_eq_nil (h : ¬ l <+: s) (q : Pattern α) :
    run (seq (lit l) q) s = [] := run_seq_eq_nil q (run_lit_eq_nil h)

/-- What a literal captures is the literal. -/
theorem run_seq_group_lit (i : ℕ) (l : List α) (q : Pattern α) (s : List α) :
    run (seq (group i (lit l)) q) s = tag [(i, l)] (run (seq (lit l) q) s) := by
  by_cases h : l <+: s
  · obtain ⟨t, rfl⟩ := h
    have hlen : (l ++ t).length - t.length = l.length := by
      rw [List.length_append, Nat.add_sub_cancel]
    rw [run_seq_lit_append, run_seq, run_group, run_lit_append, List.map_singleton,
      List.flatMap_singleton]
    dsimp only
    rw [hlen, List.take_left]
  · rw [run_seq_lit_eq_nil h, run_seq, run_group, run_lit_eq_nil h, List.map_nil, List.flatMap_nil,
      tag_empty]

/-- **A literal followed by a separator matches a word of its own only.** -/
theorem run_seq_lit_plus {w : List α} (hl : ∀ c ∈ l, p c = false) (hw : ∀ c ∈ w, p c = false)
    (hc : p c = true) (s : List α) (q : Pattern α) :
    run (seq (lit l) (seq (plus p) q)) (w ++ c :: s) =
      if w = l then run (seq (plus p) q) (c :: s) else [] := by
  induction l generalizing w with
  | nil =>
    rw [lit, List.map_nil, cat, run_seq_empty]
    cases w with
    | nil => rw [if_pos rfl, List.nil_append]
    | cons d w =>
      rw [if_neg (List.cons_ne_nil _ _), List.cons_append, plus,
        run_seq_word_stop (stops_cons.2 (hw d List.mem_cons_self))]
  | cons k l ih =>
    have hk := hl k List.mem_cons_self
    rw [lit, List.map_cons, cat, run_seq_assoc]
    cases w with
    | nil =>
      have hne : (c == k) = false := by
        rw [beq_eq_false_iff_ne]
        rintro rfl
        rw [hc] at hk
        cases hk
      rw [List.nil_append, run_seq_one, hne, if_neg Bool.false_ne_true,
        if_neg (List.cons_ne_nil _ _).symm]
    | cons d w =>
      rw [List.cons_append, run_seq_one]
      by_cases hd : d = k
      · have htail := ih (fun x hx => hl x (List.mem_cons_of_mem _ hx))
          (fun x hx => hw x (List.mem_cons_of_mem _ hx))
        rw [hd, if_pos (beq_self_eq_true k)]
        simp only [List.cons.injEq, true_and]
        exact htail
      · rw [beq_eq_false_iff_ne.2 hd, if_neg Bool.false_ne_true,
          if_neg fun h => hd (List.cons.inj h).1]

end Literal

end Pattern
