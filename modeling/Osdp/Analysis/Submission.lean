import Osdp.Analysis.Receipts
import Osdp.Library.Run

/-!
# What callers of the panel are told

A request is in one of three standings: not handed over, in the channel, or received; a receipt
exists exactly in the third. The answer `nil` is given only in the third, and `ErrNotRunning` in
any: the second `select` finds `stopped` closed and the answer in its slot, and may take either.
-/

set_option autoImplicit false

namespace Osdp

namespace Panel

namespace Observed

/-! ## Where each request is -/

def receiptsOf (w : Observed) (k : ℕ) : List Receipt := w.receipts.filter fun r => r.caller = k

/-- The caller has left its `select` by another branch. -/
def Left (w : Observed) (c : Caller) : Prop :=
  (c.place = .returned .notRunning ∧ w.runtime.stopped = true) ∨ c.place = .returned .context

/-- The receipt a request that is answered `v` has: its one command on the first device at its
address, or nothing anywhere. -/
def Answers (c : Caller) (r : Receipt) (v : Verdict) : Prop :=
  (v = .nil ∧ ∃ i, r.first = some i ∧ r.puts = [(i, [c.req.command])]) ∨
    (v ≠ .nil ∧ v ≠ .notRunning ∧ r.puts = [])

variable {c c' : Caller} {w w' : Observed} {k : ℕ}

/-- The run loop itself never says that it is not running. -/
theorem Answers.ne_notRunning {r : Receipt} {v : Verdict} (h : Answers c r v) :
    v ≠ .notRunning := by
  rcases h with ⟨rfl, -⟩ | ⟨-, hno, -⟩
  · exact nofun
  · exact hno

/-- A request is not handed over, or in the channel, or received. -/
inductive Standing (w : Observed) (k : ℕ) (c : Caller) : Prop where
  | apart (hreceipts : w.receiptsOf k = []) (hdone : c.done = none)
      (hrequests : k ∉ w.runtime.requests) (hplace : c.place = .offering ∨ w.Left c)
  | queued (hreceipts : w.receiptsOf k = []) (hdone : c.done = none)
      (hrequests : k ∈ w.runtime.requests) (hplace : c.place = .waiting ∨ w.Left c)
  | received (r : Receipt) (v : Verdict) (hreceipts : w.receiptsOf k = [r])
      (hrequests : k ∉ w.runtime.requests) (hanswers : Answers c r v)
      (hplace : (c.place = .waiting ∧ c.done = some v) ∨ c.place = .returned v ∨ w.Left c)

structure Sound (w : Observed) : Prop where
  standing : ∀ (k : ℕ) (c : Caller), w.runtime.callers[k]? = some c → w.Standing k c
  nodup : w.runtime.requests.Nodup
  requests_lt : ∀ k ∈ w.runtime.requests, k < w.runtime.callers.length
  receipts_lt : ∀ r ∈ w.receipts, r.caller < w.runtime.callers.length

/-- A new runtime is sound. -/
theorem sound_new (b : Bus) (buffer : ℕ) : (new b buffer).Sound :=
  ⟨by simp [new, Runtime.new], List.nodup_nil, by simp [new, Runtime.new], by simp [new]⟩

/-- A standing depends on this much of the record and of the caller. -/
theorem Standing.congr (h : w.Standing k c) (hreceipts : w'.receiptsOf k = w.receiptsOf k)
    (hrequests : k ∈ w'.runtime.requests ↔ k ∈ w.runtime.requests)
    (hstopped : w.runtime.stopped = true → w'.runtime.stopped = true) (hplace : c'.place = c.place)
    (hdone : c'.done = c.done) (hreq : c'.req = c.req) : w'.Standing k c' := by
  have hleft : w.Left c → w'.Left c' := by
    rintro (⟨hp, hs⟩ | hp)
    · exact .inl ⟨hplace.trans hp, hstopped hs⟩
    · exact .inr (hplace.trans hp)
  cases h with
  | apart hr hd hq hp =>
    exact .apart (hreceipts.trans hr) (hdone.trans hd) (mt hrequests.1 hq)
      (hp.imp (hplace.trans ·) hleft)
  | queued hr hd hq hp =>
    exact .queued (hreceipts.trans hr) (hdone.trans hd) (hrequests.2 hq)
      (hp.imp (hplace.trans ·) hleft)
  | received r v hr hq ha hp =>
    refine .received r v (hreceipts.trans hr) (mt hrequests.1 hq) ?_ ?_
    · rw [Answers, hreq]
      exact ha
    · exact hp.imp (fun h => ⟨hplace.trans h.1, hdone.trans h.2⟩)
        (Or.imp (hplace.trans ·) hleft)

/-- A caller that left neither offers nor waits. -/
theorem Left.closed (h : w.Left c) : c.place ≠ .offering ∧ c.place ≠ .waiting := by
  rcases h with ⟨h, -⟩ | h
  · rw [h]
    exact ⟨nofun, nofun⟩
  · rw [h]
    exact ⟨nofun, nofun⟩

/-- A caller in its first `select` has nothing anywhere. -/
theorem Standing.offering (h : w.Standing k c) (hplace : c.place = .offering) :
    c.done = none ∧ w.receiptsOf k = [] ∧ k ∉ w.runtime.requests := by
  cases h with
  | apart hr hd hq _ => exact ⟨hd, hr, hq⟩
  | queued _ _ _ hp =>
    rcases hp with hp | hp
    · rw [hplace] at hp
      cases hp
    · exact absurd hplace hp.closed.1
  | received r v _ _ _ hp =>
    rcases hp with ⟨hp, -⟩ | hp | hp
    · rw [hplace] at hp
      cases hp
    · rw [hplace] at hp
      cases hp
    · exact absurd hplace hp.closed.1

/-- What is in the slot of a caller that has not returned, and what it says of the receipts. -/
theorem Standing.slot (h : w.Standing k c) (hopen : c.place = .offering ∨ c.place = .waiting) :
    (c.done = none ∧ w.receiptsOf k = []) ∨
      ∃ r v, c.place = .waiting ∧ c.done = some v ∧ w.receiptsOf k = [r] ∧
        k ∉ w.runtime.requests ∧ Answers c r v := by
  cases h with
  | apart hr hd _ _ => exact .inl ⟨hd, hr⟩
  | queued hr hd _ _ => exact .inl ⟨hd, hr⟩
  | received r v hr hq ha hp =>
    rcases hp with ⟨hp, hd⟩ | hp | hp
    · exact .inr ⟨r, v, hp, hd, hr, hq, ha⟩
    · rw [hp] at hopen
      rcases hopen with hopen | hopen <;> cases hopen
    · exact absurd hopen (not_or.2 hp.closed)

/-- A caller may leave in any standing. -/
theorem Standing.leave (h : w.Standing k c) (hreceipts : w'.receiptsOf k = w.receiptsOf k)
    (hrequests : w'.runtime.requests = w.runtime.requests) (hleft : w'.Left c')
    (hdone : c'.done = c.done) (hreq : c'.req = c.req) : w'.Standing k c' := by
  cases h with
  | apart hr hd hq _ =>
    exact .apart (hreceipts.trans hr) (hdone.trans hd) (hrequests ▸ hq) (.inr hleft)
  | queued hr hd hq _ =>
    exact .queued (hreceipts.trans hr) (hdone.trans hd) (hrequests ▸ hq) (.inr hleft)
  | received r v hr hq ha _ =>
    refine .received r v (hreceipts.trans hr) (hrequests ▸ hq) ?_ (.inr (.inr hleft))
    rw [Answers, hreq]
    exact ha

end Observed

/-! ## What a step does to the callers -/

/-- Publishing does not touch the callers. -/
theorem published_callers (s : Runtime) :
    s.published.callers = s.callers ∧ s.published.requests = s.requests ∧
      (s.phase = .returned → s.published.phase = .returned) := by
  unfold Runtime.published
  split
  · rename_i h
    exact ⟨rfl, rfl, fun hr => by rw [hr] at h; cases h.1⟩
  · exact ⟨rfl, rfl, id⟩

/-- The run loop leaves the callers and the channel alone beside taking requests, and once it has
returned it stays so. -/
theorem loop_callers (s : Runtime) (op : LoopOp) :
    (s.loop op).callers = s.callers ∧ (s.loop op).requests = s.requests ∧
      (s.phase = .returned → (s.loop op).phase = .returned) := by
  cases op with
  | cancel => exact ⟨rfl, rfl, id⟩
  | receive => exact published_callers _
  | transact x =>
    simp only [Runtime.loop]
    split
    · rename_i hphase
      split
      · refine ⟨(published_callers _).1, (published_callers _).2.1, fun hr => ?_⟩
        rw [hr] at hphase
        cases hphase
      · exact ⟨rfl, rfl, fun _ => rfl⟩
    · exact ⟨rfl, rfl, id⟩
  | publish =>
    simp only [Runtime.loop]
    split
    · exact published_callers _
    · exact ⟨rfl, rfl, id⟩
  | abandon =>
    simp only [Runtime.loop]
    split
    · exact ⟨rfl, rfl, fun _ => rfl⟩
    · exact ⟨rfl, rfl, id⟩
  | run =>
    simp only [Runtime.loop]
    split
    · rename_i hphase
      exact ⟨rfl, rfl, fun hr => by rw [hr] at hphase; cases hphase⟩
    · exact ⟨rfl, rfl, id⟩
  | look =>
    simp only [Runtime.loop]
    split
    · rename_i hphase
      exact ⟨rfl, rfl, fun hr => by rw [hr] at hphase; cases hphase⟩
    · exact ⟨rfl, rfl, id⟩

variable {c : Caller} {s : Runtime} {k : ℕ}

/-- A caller that has not returned offers or waits. -/
theorem open_of_not_returned (h : ∀ v, c.place = .returned v → False) :
    c.place = .offering ∨ c.place = .waiting := by
  cases hp : c.place with
  | offering => exact .inl rfl
  | waiting => exact .inr rfl
  | returned v => exact (h v hp).elim

/-- What a `select` can do. -/
theorem select_cases (s : Runtime) (k : ℕ) (branch : Branch) :
    s.select k branch = s ∨ ∃ c, s.callers[k]? = some c ∧
      ((c.place = .offering ∧ s.select k branch =
          { s with
            requests := s.requests ++ [k]
            callers := s.callers.set k { c with place := .waiting } }) ∨
        (c.place = .waiting ∧ ∃ v, c.done = some v ∧
          s.select k branch = s.returns k { c with done := none } v) ∨
        ((c.place = .offering ∨ c.place = .waiting) ∧ branch = .stopped ∧ s.stopped = true ∧
          s.select k branch = s.returns k c .notRunning) ∨
        ((c.place = .offering ∨ c.place = .waiting) ∧
          s.select k branch = s.returns k c .context)) := by
  unfold Runtime.select
  split
  · exact .inl rfl
  · rename_i c hc
    split
    · exact .inl rfl
    · rename_i hp
      split
      · exact .inr ⟨c, hc, .inl ⟨hp, rfl⟩⟩
      · exact .inl rfl
    · rename_i hp
      split
      · rename_i v hv
        exact .inr ⟨c, hc, .inr (.inl ⟨hp, v, hv, rfl⟩)⟩
      · exact .inl rfl
    · rename_i hopen
      split
      · rename_i hstopped
        exact .inr ⟨c, hc, .inr (.inr (.inl ⟨open_of_not_returned hopen, rfl, hstopped, rfl⟩))⟩
      · exact .inl rfl
    · rename_i hopen
      split
      · exact .inr ⟨c, hc, .inr (.inr (.inr ⟨open_of_not_returned hopen, rfl⟩))⟩
      · exact .inl rfl

namespace Observed

variable {w w' : Observed} {k : ℕ} {c : Caller}

/-- A step that receives no request and changes at most the caller at `k`. -/
theorem sound_of_set {c' : Caller} (h : w.Sound) (hc : w.runtime.callers[k]? = some c)
    (hcallers : w'.runtime.callers = w.runtime.callers.set k c')
    (hreceipts : w'.receipts = w.receipts) (hnodup : w'.runtime.requests.Nodup)
    (hrequests : ∀ j, j ≠ k → (j ∈ w'.runtime.requests ↔ j ∈ w.runtime.requests))
    (hstopped : w.runtime.stopped = true → w'.runtime.stopped = true) (hstanding : w'.Standing k c') :
    w'.Sound := by
  obtain ⟨hlt, -⟩ := List.getElem?_eq_some_iff.1 hc
  refine ⟨fun j x hx => ?_, hnodup, fun j hj => ?_, fun r hr => ?_⟩
  · rw [hcallers] at hx
    rcases eq_or_ne k j with rfl | hkj
    · rw [List.getElem?_set_self hlt] at hx
      cases hx
      exact hstanding
    · rw [List.getElem?_set_ne hkj] at hx
      exact (h.standing j x hx).congr (by rw [receiptsOf, receiptsOf, hreceipts])
        (hrequests j (Ne.symm hkj)) hstopped rfl rfl rfl
  · rw [hcallers, List.length_set]
    rcases eq_or_ne j k with rfl | hjk
    · exact hlt
    · exact h.requests_lt j ((hrequests j hjk).1 hj)
  · rw [hcallers, List.length_set]
    exact h.receipts_lt r (hreceipts ▸ hr)

/-- A step that leaves the callers, the channel and the receipts as they are. -/
theorem sound_of_same (h : w.Sound) (hcallers : w'.runtime.callers = w.runtime.callers)
    (hrequests : w'.runtime.requests = w.runtime.requests) (hreceipts : w'.receipts = w.receipts)
    (hstopped : w.runtime.stopped = true → w'.runtime.stopped = true) : w'.Sound := by
  refine ⟨fun j x hx => ?_, hrequests ▸ h.nodup, ?_, ?_⟩
  · exact (h.standing j x (hcallers ▸ hx)).congr (by rw [receiptsOf, receiptsOf, hreceipts])
      (by rw [hrequests]) hstopped rfl rfl rfl
  · rw [hrequests, hcallers]
    exact h.requests_lt
  · rw [hreceipts, hcallers]
    exact h.receipts_lt

/-- A caller returns. -/
theorem sound_of_returns {x : Caller} {v : Verdict} (h : w.Sound)
    (hc : w.runtime.callers[k]? = some c) (hrun : w'.runtime = w.runtime.returns k x v)
    (hreceipts : w'.receipts = w.receipts)
    (hstanding : w'.Standing k { x with place := .returned v }) : w'.Sound := by
  have hrequests : w'.runtime.requests = w.runtime.requests := by
    rw [hrun]
    rfl
  refine sound_of_set h hc (by rw [hrun]; rfl) hreceipts ?_ ?_ ?_ hstanding
  · rw [hrequests]
    exact h.nodup
  · intro j _
    rw [hrequests]
  · rw [hrun]
    exact id

/-- A caller's choice keeps the runtime sound. -/
theorem sound_select (h : w.Sound) (k : ℕ) (branch : Branch) :
    (w.step (.select k branch)).Sound := by
  have hreceipts : (w.step (.select k branch)).receipts = w.receipts := step_of_taking_none rfl
  have hof : (w.step (.select k branch)).receiptsOf k = w.receiptsOf k := by
    rw [receiptsOf, receiptsOf, hreceipts]
  have hrun : (w.step (.select k branch)).runtime = w.runtime.select k branch := rfl
  rcases select_cases w.runtime k branch with hsame | ⟨c, hc, hcase⟩
  · rw [hsame] at hrun
    exact sound_of_same h (by rw [hrun]) (by rw [hrun]) hreceipts (by rw [hrun]; exact id)
  · have hstanding := h.standing k c hc
    rcases hcase with ⟨hplace, heq⟩ | ⟨hplace, v, hdone, heq⟩ | ⟨-, -, hstopped, heq⟩ | ⟨-, heq⟩
    · -- handed over
      rw [heq] at hrun
      obtain ⟨hd, hr, hq⟩ := hstanding.offering hplace
      refine sound_of_set h hc (by rw [hrun]) hreceipts ?_ ?_ (by rw [hrun]; exact id) ?_
      · rw [hrun]
        refine List.nodup_append.2 ⟨h.nodup, List.nodup_singleton k, ?_⟩
        intro a ha b hb hab
        rw [hab, List.mem_singleton.1 hb] at ha
        exact hq ha
      · intro j hj
        simp [hrun, hj]
      · exact .queued (hof.trans hr) hd (by rw [hrun]; simp) (.inl rfl)
    · -- answered
      rw [heq] at hrun
      refine sound_of_returns h hc hrun hreceipts ?_
      rcases hstanding.slot (.inr hplace) with ⟨hnone, -⟩ | ⟨r, v', -, hd, hr, hq, ha⟩
      · rw [hdone] at hnone
        cases hnone
      · rw [hdone, Option.some.injEq] at hd
        subst hd
        exact .received r v (hof.trans hr) (by rw [hrun]; exact hq) ha (.inr (.inl rfl))
    · rw [heq] at hrun
      refine sound_of_returns h hc hrun hreceipts ?_
      exact hstanding.leave hof (by rw [hrun]; rfl) (.inl ⟨rfl, by rw [hrun]; exact hstopped⟩) rfl
        rfl
    · rw [heq] at hrun
      refine sound_of_returns h hc hrun hreceipts ?_
      exact hstanding.leave hof (by rw [hrun]; rfl) (.inr rfl) rfl rfl

/-- So does taking a submission. -/
theorem sound_take (h : w.Sound) {op : Submit} (htake : w.runtime.taking op = some (k, c)) :
    (w.step op).Sound := by
  obtain ⟨-, hphase, rest, hrequests, hc, hstep⟩ := taking_eq_some htake
  obtain ⟨-, hreceipts⟩ := step_of_taking htake
  have hrun : (w.step op).runtime = Runtime.take { w.runtime with requests := rest } k c := hstep
  have hrest : (w.step op).runtime.requests = rest := by rw [hrun]; rfl
  have hcallers : (w.step op).runtime.callers = w.runtime.callers.set k
      { c with done := some (.ofQueue (queue w.bus c.addr c.req).1) } := by rw [hrun]; rfl
  obtain ⟨hlt, -⟩ := List.getElem?_eq_some_iff.1 hc
  have hnodup := h.nodup
  rw [hrequests, List.nodup_cons] at hnodup
  have hrunning : w.runtime.stopped = false := by
    rw [Runtime.stopped, hphase]
    rfl
  refine ⟨fun j x hx => ?_, by rw [hrest]; exact hnodup.2, fun j hj => ?_, fun r hr => ?_⟩
  · rw [hcallers] at hx
    rcases eq_or_ne k j with rfl | hkj
    · rw [List.getElem?_set_self hlt] at hx
      cases hx
      cases h.standing k c hc with
      | apart _ _ hq _ => exact absurd (by rw [hrequests]; exact List.mem_cons_self) hq
      | received _ _ _ hq _ _ => exact absurd (by rw [hrequests]; exact List.mem_cons_self) hq
      | queued hr _ _ hp =>
        refine .received (Receipt.of w.bus (queue w.bus c.addr c.req).2 k c)
          (.ofQueue (queue w.bus c.addr c.req).1) ?_ (by rw [hrest]; exact hnodup.1) ?_ ?_
        · rw [receiptsOf, hreceipts, List.filter_append]
          rw [receiptsOf] at hr
          rw [hr]
          simp [Receipt.of]
        · rcases queue_cases w.bus c.addr c.req with ⟨hnil, i, hi, hgives⟩ | ⟨hne, hnr, hsame⟩
          · exact .inl ⟨hnil, i, hi, puts_of_gives hgives⟩
          · exact .inr ⟨hne, hnr, puts_of_devices hsame⟩
        · rcases hp with hp | ⟨-, hs⟩ | hp
          · exact .inl ⟨hp, rfl⟩
          · rw [hrunning] at hs
            cases hs
          · exact .inr (.inr (.inr hp))
    · rw [List.getElem?_set_ne hkj] at hx
      refine (h.standing j x hx).congr ?_ ?_ ?_ rfl rfl rfl
      · rw [receiptsOf, receiptsOf, hreceipts, List.filter_append]
        simp [Receipt.of, hkj]
      · rw [hrest, hrequests, List.mem_cons]
        exact ⟨.inr, fun hj => hj.resolve_left (Ne.symm hkj)⟩
      · rw [hrunning]
        rintro ⟨⟩
  · rw [hcallers, List.length_set]
    rw [hrest] at hj
    exact h.requests_lt j (by rw [hrequests]; exact List.mem_cons_of_mem k hj)
  · rw [hcallers, List.length_set]
    rw [hreceipts, List.mem_append, List.mem_singleton] at hr
    rcases hr with hr | rfl
    · exact h.receipts_lt r hr
    · exact hlt

/-- A turn of `drainRequests` that receives nothing. -/
theorem drain_callers {s : Runtime} (h : s.taking .drain = none) :
    s.drain.callers = s.callers ∧ s.drain.requests = s.requests ∧
      (s.phase = .returned → s.drain.phase = .returned) := by
  unfold Runtime.drain
  split
  · rename_i hphase
    split
    · exact ⟨rfl, rfl, fun hr => by rw [hr] at hphase; cases hphase⟩
    · rename_i k rest hrequests
      split
      · rename_i c hc
        simp [Runtime.taking, hphase, hrequests, hc] at h
      · exact ⟨rfl, rfl, id⟩
  · exact ⟨rfl, rfl, id⟩

/-- So does a new call. -/
theorem sound_call (h : w.Sound) (addr : Address) (req : Request) :
    (w.step (.call addr req)).Sound := by
  have hreceipts : (w.step (.call addr req)).receipts = w.receipts := step_of_taking_none rfl
  have hcallers : (w.step (.call addr req)).runtime.callers =
      w.runtime.callers ++ [{ addr := addr, req := req }] := rfl
  refine ⟨fun j x hx => ?_, h.nodup, fun j hj => ?_, fun r hr => ?_⟩
  · rw [hcallers] at hx
    rcases Nat.lt_or_ge j w.runtime.callers.length with hj | hj
    · rw [List.getElem?_append_left hj] at hx
      exact (h.standing j x hx).congr (by rw [receiptsOf, receiptsOf, hreceipts]) Iff.rfl id rfl rfl
        rfl
    · obtain ⟨hlt, -⟩ := List.getElem?_eq_some_iff.1 hx
      rw [List.length_append, List.length_singleton] at hlt
      have heq : j = w.runtime.callers.length := by omega
      rw [heq, List.getElem?_concat_length, Option.some.injEq] at hx
      rw [← hx]
      refine .apart ?_ rfl ?_ (.inl rfl)
      · rw [receiptsOf, hreceipts, List.filter_eq_nil_iff]
        intro r hr
        have hlt := h.receipts_lt r hr
        simp only [decide_eq_true_eq]
        omega
      · intro hmem
        have hlt := h.requests_lt j hmem
        omega
  · rw [hcallers, List.length_append]
    exact Nat.lt_add_right _ (h.requests_lt j hj)
  · rw [hcallers, List.length_append]
    exact Nat.lt_add_right _ (h.receipts_lt r (hreceipts ▸ hr))

/-- **So does every step.** -/
theorem sound_step (h : w.Sound) (op : Submit) : (w.step op).Sound := by
  cases htake : w.runtime.taking op with
  | some kc => exact sound_take h htake
  | none =>
    have hreceipts := step_of_taking_none htake
    cases op with
    | loop op =>
      obtain ⟨hcallers, hrequests, hreturned⟩ := loop_callers w.runtime op
      refine sound_of_same h hcallers hrequests hreceipts fun hs => ?_
      exact decide_eq_true (hreturned (of_decide_eq_true hs))
    | drain =>
      obtain ⟨hcallers, hrequests, hreturned⟩ := drain_callers htake
      refine sound_of_same h hcallers hrequests hreceipts fun hs => ?_
      exact decide_eq_true (hreturned (of_decide_eq_true hs))
    | call addr req => exact sound_call h addr req
    | cancel k =>
      cases hc : w.runtime.callers[k]? with
      | none =>
        have hrun : (w.step (.cancel k)).runtime = w.runtime := by
          simp only [step, Runtime.step, hc]
        exact sound_of_same h (by rw [hrun]) (by rw [hrun]) hreceipts (by rw [hrun]; exact id)
      | some c =>
        have hrun : (w.step (.cancel k)).runtime = { w.runtime with
            callers := w.runtime.callers.set k { c with cancelled := true } } := by
          simp only [step, Runtime.step, hc]
        refine sound_of_set h hc (by rw [hrun]) hreceipts (by rw [hrun]; exact h.nodup)
          (fun j _ => by rw [hrun]) (by rw [hrun]; exact id) ?_
        exact (h.standing k c hc).congr (by rw [receiptsOf, receiptsOf, hreceipts])
          (by rw [hrun]) (by rw [hrun]; exact id) rfl rfl rfl
    | select k branch => exact sound_select h k branch

/-- Whatever a transaction took to send was put on an outbox by a request that was received. -/
def Accounted (w : Observed) : Prop :=
  ∀ k ∈ w.transmitted, ∃ r ∈ w.receipts, r.caller = k ∧ r.puts ≠ []

/-- And keeps every receipt accounted for. -/
theorem accounted_step {start : Bus} (h : w.Accounted) (hordered : Ordered start w) (op : Submit) :
    (w.step op).Accounted := by
  have hgrows : ∀ r ∈ w.receipts, r ∈ (w.step op).receipts := fun r hr => List.mem_append_left _ hr
  intro k hk
  rcases List.mem_append.1 hk with hk | hk
  · obtain ⟨r, hr, hputs⟩ := h k hk
    exact ⟨r, hgrows r hr, hputs⟩
  · -- the tag of the command it took is the caller of a receipt
    obtain ⟨i, d, hd, htag⟩ : ∃ i d, w.bus.devices[i]? = some d ∧ some k ∈ w.tags i := by
      cases op with
      | loop op =>
        cases op with
        | transact x =>
          simp only [transmits] at hk
          split at hk
          · rw [Option.mem_toList, Option.bind_eq_some_iff] at hk
            obtain ⟨d, hd, hk⟩ := hk
            split at hk
            · rw [Option.join_eq_some_iff] at hk
              exact ⟨_, d, hd, List.mem_of_getElem? hk⟩
            · cases hk
          · cases hk
        | _ => cases hk
      | _ => cases hk
    obtain ⟨hlen, hsuffix⟩ := hordered.tagged i d hd
    obtain ⟨j, hj⟩ := List.mem_iff_getElem?.1 htag
    obtain ⟨hlt, -⟩ := List.getElem?_eq_some_iff.1 hj
    have hpair : (some k, d.outstanding.get ⟨j, by omega⟩) ∈ (w.tags i).zip d.outstanding := by
      refine List.mem_of_getElem? (i := j) ?_
      rw [List.getElem?_zip_eq_some]
      exact ⟨hj, List.getElem?_eq_getElem _⟩
    have harr := hsuffix.subset hpair
    rw [arrivals, List.mem_append] at harr
    rcases harr with harr | harr
    · obtain ⟨m, -, hm⟩ := List.mem_map.1 harr
      cases hm
    · obtain ⟨r, hr, hm⟩ := List.mem_flatMap.1 harr
      obtain ⟨m, hm, heq⟩ := List.mem_map.1 hm
      rw [Prod.mk.injEq, Option.some.injEq] at heq
      refine ⟨r, hgrows r hr, heq.1, fun hnone => ?_⟩
      simp [Receipt.onto, hnone] at hm

end Observed

/-! ## Answers -/

/-- How a caller can move on. -/
def Moves (s : Runtime) (op : Submit) (k : ℕ) (c : Caller) (place : Place) : Prop :=
  (c.place = .offering ∨ c.place = .waiting) ∧
    (place = .waiting ∨ (∃ v, c.done = some v ∧ place = .returned v) ∨
      (op = .select k .stopped ∧ s.stopped = true ∧ place = .returned .notRunning) ∨
      place = .returned .context)

/-- A caller stays where it is or moves on by its `select`. -/
theorem callers_step (h : s.callers[k]? = some c) (op : Submit) :
    ∃ c', (s.step op).callers[k]? = some c' ∧ (c'.place = c.place ∨ Moves s op k c c'.place) := by
  obtain ⟨hlt, -⟩ := List.getElem?_eq_some_iff.1 h
  -- one caller is set
  have hset : ∀ {j : ℕ} {x x' : Caller}, s.callers[j]? = some x →
      (j = k → x'.place = x.place ∨ Moves s op k x x'.place) →
      ∃ c', (s.callers.set j x')[k]? = some c' ∧ (c'.place = c.place ∨ Moves s op k c c'.place) := by
    intro j x x' hx hplace
    rcases eq_or_ne j k with rfl | hjk
    · rw [h] at hx
      cases hx
      exact ⟨x', List.getElem?_set_self hlt, hplace rfl⟩
    · exact ⟨c, by rw [List.getElem?_set_ne hjk]; exact h, .inl rfl⟩
  cases op with
  | loop op => exact ⟨c, by rw [Runtime.step, (loop_callers s op).1]; exact h, .inl rfl⟩
  | drain =>
    cases htake : s.taking .drain with
    | none => exact ⟨c, by rw [Runtime.step, (Observed.drain_callers htake).1]; exact h, .inl rfl⟩
    | some jx =>
      obtain ⟨-, -, rest, -, hx, hstep⟩ := taking_eq_some htake
      rw [hstep]
      exact hset hx fun _ => .inl rfl
  | call addr req =>
    exact ⟨c, by simp only [Runtime.step]; rw [List.getElem?_append_left hlt]; exact h, .inl rfl⟩
  | cancel j =>
    cases hx : s.callers[j]? with
    | none => exact ⟨c, by simp only [Runtime.step, hx]; exact h, .inl rfl⟩
    | some x =>
      simp only [Runtime.step, hx]
      exact hset hx fun _ => .inl rfl
  | select j branch =>
    rw [Runtime.step]
    rcases select_cases s j branch with hsame | ⟨x, hx, hcase⟩
    · exact ⟨c, by rw [hsame]; exact h, .inl rfl⟩
    · rcases hcase with ⟨hp, heq⟩ | ⟨hp, v, hv, heq⟩ | ⟨hopen, rfl, hs, heq⟩ | ⟨hopen, heq⟩
      · rw [heq]
        exact hset hx fun _ => .inr ⟨.inl hp, .inl rfl⟩
      · rw [heq]
        exact hset hx fun _ => .inr ⟨.inr hp, .inr (.inl ⟨v, hv, rfl⟩)⟩
      · rw [heq]
        exact hset hx fun hjk => .inr ⟨hopen, .inr (.inr (.inl ⟨by rw [hjk], hs, rfl⟩))⟩
      · rw [heq]
        exact hset hx fun _ => .inr ⟨hopen, .inr (.inr (.inr rfl))⟩

/-- Callers come by calling, into their first `select`. -/
theorem offering_of_new {op : Submit} (hnone : s.callers[k]? = none)
    (h : (s.step op).callers[k]? = some c) : c.place = .offering := by
  rw [List.getElem?_eq_none_iff] at hnone
  obtain ⟨hlt, -⟩ := List.getElem?_eq_some_iff.1 h
  -- a step that brings no caller
  have hsame : (s.step op).callers.length = s.callers.length → c.place = .offering := by
    intro hlen
    omega
  cases op with
  | call addr req =>
    simp only [Runtime.step] at h hlt
    rw [List.length_append, List.length_singleton] at hlt
    rw [show k = s.callers.length by omega, List.getElem?_concat_length, Option.some.injEq] at h
    rw [← h]
  | loop op => exact hsame (by rw [Runtime.step, (loop_callers s op).1])
  | drain =>
    refine hsame ?_
    cases htake : s.taking .drain with
    | none => rw [Runtime.step, (Observed.drain_callers htake).1]
    | some jx =>
      obtain ⟨-, -, rest, -, -, hstep⟩ := taking_eq_some htake
      rw [hstep]
      exact List.length_set
  | cancel j =>
    refine hsame ?_
    simp only [Runtime.step]
    split
    · exact List.length_set
    · rfl
  | select j branch =>
    refine hsame ?_
    rw [Runtime.step]
    rcases select_cases s j branch with hstay | ⟨x, -, hcase⟩
    · rw [hstay]
    · rcases hcase with ⟨-, heq⟩ | ⟨-, v, -, heq⟩ | ⟨-, -, -, heq⟩ | ⟨-, heq⟩ <;> rw [heq] <;>
        exact List.length_set

/-- A caller that waits leaves by `stopped` with nil in its slot. -/
def Disowns (s : Runtime) (op : Submit) : Prop :=
  ∃ k c, op = .select k .stopped ∧ s.stopped = true ∧ s.callers[k]? = some c ∧
    c.place = .waiting ∧ c.done = some .nil

namespace Observed

/-- No caller that was told `ErrNotRunning` has put a command on an outbox or had one sent. -/
def Refused (w : Observed) : Prop :=
  ∀ (k : ℕ) (c : Caller), w.runtime.callers[k]? = some c → c.place = .returned .notRunning →
    (∀ r ∈ w.receipts, r.caller = k → r.puts = []) ∧ k ∉ w.transmitted

/-- Everything the record knows. -/
structure Kept (start : Bus) (w : Observed) : Prop where
  sound : w.Sound
  ordered : Ordered start w
  accounted : w.Accounted

/-- A new runtime is kept. -/
theorem kept_new (b : Bus) (buffer : ℕ) : Kept b (new b buffer) :=
  ⟨sound_new b buffer, ordered_new b buffer, fun k hk => by simp [new] at hk⟩

variable {start : Bus} {w : Observed} {k : ℕ} {c : Caller} {op : Submit}

/-- Every step keeps it. -/
theorem kept_step (h : Kept start w) (op : Submit) : Kept start (w.step op) :=
  ⟨sound_step h.sound op, ordered_step h.ordered op, accounted_step h.accounted h.ordered op⟩

/-- The receipts of one caller. -/
theorem mem_receiptsOf {r : Receipt} : r ∈ w.receiptsOf k ↔ r ∈ w.receipts ∧ r.caller = k := by
  simp [receiptsOf]

/-- The panel says it is not running only when `Run` has returned. -/
theorem Standing.stopped (h : w.Standing k c) (hplace : c.place = .returned .notRunning) :
    w.runtime.stopped = true := by
  have hleft : w.Left c → w.runtime.stopped = true := by
    rintro (⟨-, hs⟩ | hp)
    · exact hs
    · rw [hplace] at hp
      cases hp
  cases h with
  | apart _ _ _ hp =>
    refine hleft (hp.resolve_left fun hp => ?_)
    rw [hplace] at hp
    cases hp
  | queued _ _ _ hp =>
    refine hleft (hp.resolve_left fun hp => ?_)
    rw [hplace] at hp
    cases hp
  | received r v _ _ ha hp =>
    rcases hp with ⟨hp, -⟩ | hp | hp
    · rw [hplace] at hp
      cases hp
    · rw [hplace, Place.returned.injEq] at hp
      exact absurd hp.symm ha.ne_notRunning
    · exact hleft hp

/-- A caller that leaves by `stopped` leaves a command behind only with nil in its slot. -/
theorem refused_step (hkept : Kept start w) (hrefused : w.Refused) (hop : ¬ Disowns w.runtime op) :
    (w.step op).Refused := by
  have hkept' := kept_step hkept op
  intro k c' hc' hplace'
  have hputs : ∀ r ∈ (w.step op).receipts, r.caller = k → r.puts = [] := by
    intro r hr hcaller
    cases hc : w.runtime.callers[k]? with
    | none =>
      have hoffering := offering_of_new hc hc'
      rw [hplace'] at hoffering
      cases hoffering
    | some c =>
      have hstanding := hkept.sound.standing k c hc
      obtain ⟨c'', hc'', hmove⟩ := callers_step hc op
      rw [show (w.runtime.step op).callers[k]? = some c' from hc', Option.some.injEq] at hc''
      subst hc''
      rw [hplace'] at hmove
      rcases hmove with hsame | ⟨hopen, hwaiting | ⟨v, hv, hreturned⟩ | ⟨rfl, hstopped, -⟩ | hctx⟩
      · -- it was told before: the loop has returned and received nothing since
        have hstopped := hstanding.stopped hsame.symm
        have hnone : w.runtime.taking op = none := by
          cases htake : w.runtime.taking op with
          | none => rfl
          | some jx =>
            obtain ⟨-, hphase, -⟩ := taking_eq_some htake
            rw [Runtime.stopped, hphase] at hstopped
            cases hstopped
        rw [step_of_taking_none hnone] at hr
        exact (hrefused k c hc hsame.symm).1 r hr hcaller
      · cases hwaiting
      · cases hreturned
        rcases hstanding.slot hopen with ⟨hnone, -⟩ | ⟨r₀, v, -, hd, -, -, ha⟩
        · rw [hv] at hnone
          cases hnone
        · rw [hv, Option.some.injEq] at hd
          exact absurd hd.symm ha.ne_notRunning
      · rw [step_of_taking_none rfl] at hr
        have hmem := mem_receiptsOf.2 ⟨hr, hcaller⟩
        rcases hstanding.slot hopen with ⟨-, hnone⟩ | ⟨r₀, v, hp, hd, hone, -, ha⟩
        · rw [hnone] at hmem
          cases hmem
        · rw [hone, List.mem_singleton] at hmem
          rw [hmem]
          rcases ha with ⟨rfl, -⟩ | ⟨-, -, hputs⟩
          · exact absurd ⟨k, c, rfl, hstopped, hc, hp, hd⟩ hop
          · exact hputs
      · cases hctx
  refine ⟨hputs, fun hk => ?_⟩
  obtain ⟨r, hr, hcaller, hne⟩ := hkept'.accounted k hk
  exact hne (hputs r hr hcaller)

/-- A caller was told `ErrNotRunning` of a command that is on record as put on an outbox. -/
def Disowned (w : Observed) : Prop :=
  ∃ (k : ℕ) (c : Caller), w.runtime.callers[k]? = some c ∧ c.place = .returned .notRunning ∧
    ∃ r ∈ w.receipts, r.caller = k ∧ r.puts ≠ []

/-- A step that disowns a submission leaves it disowned. -/
theorem disowned_of_disowns (hkept : Kept start w) (h : Disowns w.runtime op) :
    (w.step op).Disowned := by
  obtain ⟨k, c, rfl, hstopped, hc, hplace, hdone⟩ := h
  obtain ⟨hlt, -⟩ := List.getElem?_eq_some_iff.1 hc
  rcases (hkept.sound.standing k c hc).slot (.inr hplace) with ⟨hnone, -⟩ | ⟨r, v, -, hd, hone, -, ha⟩
  · rw [hdone] at hnone
    cases hnone
  · rw [hdone, Option.some.injEq] at hd
    subst hd
    have hr := mem_receiptsOf.1 (show r ∈ w.receiptsOf k by rw [hone]; exact List.mem_singleton_self r)
    refine ⟨k, { c with place := .returned .notRunning }, ?_, rfl, r, List.mem_append_left _ hr.1,
      hr.2, ?_⟩
    · simp only [step, Runtime.step, Runtime.select, hc, hplace, hstopped, if_true]
      exact List.getElem?_set_self hlt
    · rcases ha with ⟨-, i, -, hputs⟩ | ⟨hno, -⟩
      · rw [hputs]
        exact List.cons_ne_nil _ _
      · exact absurd rfl hno

/-- It stays so: an answer is final and receipts are kept. -/
theorem disowned_step (h : w.Disowned) (op : Submit) : (w.step op).Disowned := by
  obtain ⟨k, c, hc, hplace, r, hr, hputs⟩ := h
  obtain ⟨c', hc', hmove⟩ := callers_step hc op
  refine ⟨k, c', hc', ?_, r, List.mem_append_left _ hr, hputs⟩
  rcases hmove with hsame | ⟨hopen, -⟩
  · exact hsame.trans hplace
  · rw [hplace] at hopen
    rcases hopen with hopen | hopen <;> cases hopen

/-- A call returns nil only when its request was received and its command queued. -/
theorem Standing.accepted (h : w.Standing k c) (hplace : c.place = .returned .nil) :
    ∃ i, w.receiptsOf k = [⟨k, some i, [(i, [c.req.command])]⟩] := by
  have hleft : ¬ w.Left c := by
    rintro (⟨hp, -⟩ | hp) <;> (rw [hplace] at hp; cases hp)
  cases h with
  | apart _ _ _ hp =>
    rcases hp with hp | hp
    · rw [hplace] at hp
      cases hp
    · exact absurd hp hleft
  | queued _ _ _ hp =>
    rcases hp with hp | hp
    · rw [hplace] at hp
      cases hp
    · exact absurd hp hleft
  | received r v hr _ ha hp =>
    rcases hp with ⟨hp, -⟩ | hp | hp
    · rw [hplace] at hp
      cases hp
    · rw [hplace, Place.returned.injEq] at hp
      subst hp
      rcases ha with ⟨-, i, hfirst, hputs⟩ | ⟨hno, -⟩
      · have hcaller := (mem_receiptsOf.1 (show r ∈ w.receiptsOf k by rw [hr]; simp)).2
        refine ⟨i, ?_⟩
        rw [hr, ← hfirst, ← hputs, ← hcaller]
      · exact absurd rfl hno
    · exact absurd hp hleft

/-- A device's queue without the names. -/
theorem Ordered.queue_suffix (h : Ordered start w) {i : ℕ} {d₀ d : Bus.Device}
    (hd₀ : start.devices[i]? = some d₀) (hd : w.bus.devices[i]? = some d) :
    d.outstanding <:+ d₀.outstanding ++ w.receipts.flatMap fun r => r.onto i := by
  obtain ⟨hlen, hsuffix⟩ := h.tagged i d hd
  have hmap := hsuffix.map Prod.snd
  rw [List.map_snd_zip (by omega), arrivals, hd₀, List.map_append, List.map_flatMap] at hmap
  simpa using hmap

/-- **What callers are told.** In every run of a panel and any callers from any bus:
a call that has returned nil was received once, and that put its one command on the outbox of the
first device at its address; every device's queue is the end of what it had and was given, in the
order the loop received it; and no call that has returned `ErrNotRunning` has put anything on an
outbox or had anything sent, exactly when no caller that waits left by `stopped` with nil in its
slot. -/
theorem refusal_unqueued_iff (b : Bus) (buffer : ℕ) (ops : List Submit) :
    let w := ops.foldl step (new b buffer)
    (∀ (k : ℕ) (c : Caller), w.runtime.callers[k]? = some c → c.place = .returned .nil →
      ∃ i, w.receiptsOf k = [⟨k, some i, [(i, [c.req.command])]⟩]) ∧
    (∀ (i : ℕ) (d₀ d : Bus.Device), b.devices[i]? = some d₀ → w.bus.devices[i]? = some d →
      d.outstanding <:+ d₀.outstanding ++ w.receipts.flatMap fun r => r.onto i) ∧
    ((∀ (k : ℕ) (c : Caller), w.runtime.callers[k]? = some c → c.place = .returned .notRunning →
        (∀ r ∈ w.receipts, r.caller = k → r.puts = []) ∧ k ∉ w.transmitted) ↔
      ∀ p ∈ Run.trace step (new b buffer) ops, ¬ Disowns p.1.runtime p.2) := by
  intro w
  have hkept : Kept b w := Run.invariant (I := Kept b) (fun _ op h => kept_step h op)
    (kept_new b buffer) ops
  refine ⟨fun k c hc hplace => ?_, fun i d₀ d hd₀ hd => ?_, ?_⟩
  · exact (hkept.sound.standing k c hc).accepted hplace
  · exact hkept.ordered.queue_suffix hd₀ hd
  · constructor
    · rintro hrefused ⟨t, op⟩ hp hdisowns
      obtain ⟨before, after, rfl, rfl⟩ := (Run.mem_trace step).1 hp
      have hbefore : Kept b (before.foldl step (new b buffer)) :=
        Run.invariant (I := Kept b) (fun _ op h => kept_step h op) (kept_new b buffer) before
      have hend := Run.invariant (I := Disowned) (fun _ op h => disowned_step h op)
        (disowned_of_disowns hbefore hdisowns) after
      obtain ⟨k, c, hc, hplace, r, hr, hcaller, hputs⟩ := hend
      have hw : w = after.foldl step ((before.foldl step (new b buffer)).step op) := by
        show (before ++ op :: after).foldl step (new b buffer) = _
        rw [List.foldl_append, List.foldl_cons]
      rw [← hw] at hc hr
      exact hputs ((hrefused k c hc hplace).1 r hr hcaller)
    · intro hnone
      have h := Run.invariant_of_trace (I := fun w => Kept b w ∧ w.Refused)
        (C := fun w op => ¬ Disowns w.runtime op)
        (fun w op hw hop => ⟨kept_step hw.1 op, refused_step hw.1 hw.2 hop⟩)
        ⟨kept_new b buffer, fun k c hc => by simp [new, Runtime.new] at hc⟩ ops hnone
      exact h.2.2

/-! ## A release that went out -/

/-- A transaction whose read delivers these octets. -/
def answered (wire : Octets) : Submit := .loop (.transact { port := ⟨wire, [wire.length]⟩ })

/-- A relay on for five seconds. -/
def release : Message := { code := 0x68, data := [0, 2, 50, 0] }

/-- The device says what it is and what it can do; the application asks for the release, which is
received, sent and acknowledged; the context is cancelled and `Run` returns; the caller's second
`select` takes `stopped`. -/
def releaseOps : List Submit :=
  [.loop .run, .loop .look, .drain,
    answered [0x53, 0x81, 0x13, 0x00, 0x01, 0x45, 0x00, 0x06, 0x8E, 0x01, 0x01, 0x00, 0x00, 0x00,
      0x07, 0x01, 0x00, 0x00, 0x35],
    .loop .publish, .loop .look, .drain,
    answered [0x53, 0x81, 0x0A, 0x00, 0x02, 0x46, 0x04, 0x04, 0x01, 0xD1], .loop .publish,
    .call 1 (.send release), .select 0 .channel, .loop .look, .drain, .drain,
    answered [0x53, 0x81, 0x07, 0x00, 0x03, 0x40, 0xE2], .loop .publish, .loop .cancel,
    .loop .look, .select 0 .stopped]

/-- A release that was sent and is reported as not running. -/
theorem sent_release_disowned :
    let w := releaseOps.foldl step (new (Bus.new [1] .checksum none) 16)
    w.runtime.callers.map Caller.place = [.returned .notRunning] ∧
      w.receipts = [⟨0, some 0, [(0, [release])]⟩] ∧ w.transmitted = [0] := by
  decide +kernel

end Observed

end Panel

end Osdp
