import Osdp.Analysis.QueueGrowth

/-!
# Requests the run loop received

A run of the panel and its callers, with a record beside it that nothing of the panel reads: for
each request the run loop received, the first device at its address and what it added to which
outbox (`Receipt`), whose commands are outstanding at each device, and whose commands a transaction
took to send. The queue of each device is the end of what it was given, in the order of the
receipts (`Observed.Ordered`).
-/

set_option autoImplicit false

namespace Osdp

namespace Panel

/-! ## The record -/

/-- What a device's outbox has gained. -/
def added (b b' : Bus) (i : ℕ) : List Message :=
  match b.devices[i]?, b'.devices[i]? with
  | some d, some e => e.outbox.drop d.outbox.length
  | _, _ => []

/-- What the outboxes have gained, by device. -/
def puts (b b' : Bus) : List (ℕ × List Message) :=
  ((List.range b.devices.length).filter fun i => added b b' i ≠ []).map fun i => (i, added b b' i)

/-- A request the run loop received: its caller, the first device at its address then, and what it
put on which outbox. -/
structure Receipt where
  caller : ℕ
  first : Option ℕ
  puts : List (ℕ × List Message)
  deriving DecidableEq

/-- The receipt of a request that takes the bus from `b` to `b'`. -/
def Receipt.of (b b' : Bus) (k : ℕ) (c : Caller) : Receipt :=
  { caller := k
    first := b.devices.findIdx? fun d => d.address == c.addr
    puts := Panel.puts b b' }

/-- What a request put on the outbox of the device at `i`. -/
def Receipt.onto (r : Receipt) (i : ℕ) : List Message :=
  (r.puts.filter fun p => p.1 = i).flatMap Prod.snd

/-- The caller whose request an operation receives. -/
def Runtime.taking (s : Runtime) : Submit → Option (ℕ × Caller)
  | .drain =>
    if s.phase = .draining then s.requests.head?.bind fun k => s.callers[k]?.map fun c => (k, c)
    else none
  | _ => none

/-- How many commands a device has outstanding. -/
def queueLength (b : Bus) (i : ℕ) : ℕ := (b.devices[i]?.map fun d => d.outstanding.length).getD 0

/-- Whose commands are outstanding, when there were `n` of them and there are `m`. -/
def retag (n m : ℕ) (source : Option ℕ) (tags : List (Option ℕ)) : List (Option ℕ) :=
  if m ≤ n then tags.drop (n - m) else tags ++ List.replicate (m - n) source

/-- The runtime and the record: the receipts in order, by device whose commands are outstanding
(nobody's, for those that were there at the start), and whose commands a transaction took to send. -/
structure Observed where
  runtime : Runtime
  receipts : List Receipt := []
  tags : ℕ → List (Option ℕ)
  transmitted : List ℕ := []

namespace Observed

def new (b : Bus) (buffer : ℕ) : Observed :=
  { runtime := Runtime.new b buffer, tags := fun i => List.replicate (queueLength b i) none }

def bus (w : Observed) : Bus := w.runtime.panel.bus

/-- Whose command the transaction an operation begins takes off its outbox. -/
def transmits (w : Observed) : Submit → Option ℕ
  | .loop (.transact _) =>
    if w.runtime.phase = .transacting then
      w.bus.devices[w.bus.current]?.bind fun d =>
        if d.takes.isSome then (w.tags w.bus.current)[d.inflight.toList.length]?.join else none
    else none
  | _ => none

def step (w : Observed) (op : Submit) : Observed :=
  let next := w.runtime.step op
  { runtime := next
    receipts := w.receipts ++
      (w.runtime.taking op).toList.map fun p => Receipt.of w.bus next.panel.bus p.1 p.2
    tags := fun i => retag (queueLength w.bus i) (queueLength next.panel.bus i)
      ((w.runtime.taking op).map Prod.fst) (w.tags i)
    transmitted := w.transmitted ++ (w.transmits op).toList }

end Observed

/-! ## What a step does to the bus -/

variable {s : Runtime} {op : Submit} {b b' : Bus} {i : ℕ} {tags : List (Option ℕ)}
  {before : List Message}

/-- A submission is taken by draining, from the front. -/
theorem taking_eq_some {k : ℕ} {c : Caller} (h : s.taking op = some (k, c)) :
    op = .drain ∧ s.phase = .draining ∧ ∃ rest, s.requests = k :: rest ∧ s.callers[k]? = some c ∧
      s.step op = Runtime.take { s with requests := rest } k c := by
  cases op with
  | drain =>
    simp only [Runtime.taking] at h
    split at h
    · rename_i hphase
      cases hreq : s.requests with
      | nil => simp [hreq] at h
      | cons j rest =>
        rw [hreq, List.head?_cons, Option.bind_some, Option.map_eq_some_iff] at h
        obtain ⟨c', hc, heq⟩ := h
        cases heq
        refine ⟨rfl, hphase, rest, rfl, hc, ?_⟩
        simp only [Runtime.step, Runtime.drain, hphase, if_true, hreq, hc]
    · cases h
  | _ => cases h

/-- Publishing does not touch the bus. -/
theorem published_bus (s : Runtime) : s.published.panel.bus = s.panel.bus := by
  unfold Runtime.published
  split <;> rfl

/-- Nor does receiving. -/
theorem receive_bus (p : Panel) : p.receive.2.bus = p.bus := by
  unfold receive
  split <;> rfl

/-- Nor does emitting. -/
theorem emit_bus (p : Panel) : p.emit.bus = p.bus := by
  unfold emit
  split
  · rfl
  · split <;> rfl

/-- The loop adds nothing to the queues. -/
theorem loop_shrinks (s : Runtime) (op : LoopOp) :
    s.panel.bus.Shrinks (s.loop op).panel.bus := by
  have hkeeps : ∀ t : Runtime, t.panel.bus = s.panel.bus → s.panel.bus.Shrinks t.panel.bus :=
    fun t ht => Bus.Shrinks.of_devices (by rw [ht])
  cases op with
  | transact x =>
    have h := exchange_shrinks s.panel x
    simp only [Runtime.loop]
    split
    · split
      · rw [published_bus]
        exact h
      · exact h
    · exact Bus.Shrinks.refl _
  | publish =>
    simp only [Runtime.loop]
    split
    · refine hkeeps _ ?_
      rw [published_bus, emit_bus]
    · exact Bus.Shrinks.refl _
  | receive =>
    refine hkeeps _ ?_
    simp only [Runtime.loop]
    rw [published_bus, receive_bus]
  | cancel => exact Bus.Shrinks.refl _
  | _ =>
    refine hkeeps _ ?_
    simp only [Runtime.loop]
    split <;> rfl

/-- A caller's choice does not touch the panel. -/
theorem select_bus (s : Runtime) (k : ℕ) (branch : Branch) :
    (s.select k branch).panel = s.panel := by
  unfold Runtime.select Runtime.returns
  split
  · rfl
  · split
    · rfl
    · split <;> rfl
    · split <;> rfl
    · split <;> rfl
    · split <;> rfl

/-- Only a request that is received gives a device a command. -/
theorem step_shrinks (h : s.taking op = none) : s.panel.bus.Shrinks (s.step op).panel.bus := by
  cases op with
  | loop op => exact loop_shrinks s op
  | drain =>
    refine Bus.Shrinks.of_devices ?_
    simp only [Runtime.step, Runtime.drain]
    split
    · rename_i hphase
      split
      · rfl
      · rename_i k rest hreq
        split
        · rename_i c hc
          simp [Runtime.taking, hphase, hreq, hc] at h
        · rfl
    · rfl
  | call addr req => exact Bus.Shrinks.refl _
  | cancel k =>
    refine Bus.Shrinks.of_devices ?_
    simp only [Runtime.step]
    split <;> rfl
  | select k branch =>
    refine Bus.Shrinks.of_devices ?_
    rw [Runtime.step, select_bus]

/-- The same devices, nothing put. -/
theorem puts_of_devices (h : b'.devices = b.devices) : puts b b' = [] := by
  have hnone : ∀ i, added b b' i = [] := by
    intro i
    rw [added, h]
    cases b.devices[i]? with
    | none => rfl
    | some d => exact List.drop_length
  rw [puts, List.map_eq_nil_iff, List.filter_eq_nil_iff]
  intro i _
  simp [hnone i]

/-- What one submission puts. -/
theorem puts_of_gives {m : Message} (h : b.Gives b' i m) : puts b b' = [(i, [m])] := by
  obtain ⟨d, e, hd, hset, hout, -⟩ := h.device
  obtain ⟨hlt, -⟩ := List.getElem?_eq_some_iff.1 hd
  have hself : added b b' i = [m] := by
    rw [added, hset, hd, List.getElem?_set_self hlt]
    simp only [hout, List.drop_left]
  have hother : ∀ j, j ≠ i → added b b' j = [] := by
    intro j hj
    rw [added, hset, List.getElem?_set_ne (Ne.symm hj)]
    cases b.devices[j]? with
    | none => rfl
    | some d => exact List.drop_length
  have honly : (List.range b.devices.length).filter (fun j => added b b' j ≠ []) = [i] := by
    rw [List.filter_congr (q := fun j => j == i)]
    · rw [List.filter_beq, List.count_eq_one_of_mem List.nodup_range (List.mem_range.2 hlt)]
      rfl
    · intro j _
      rcases eq_or_ne j i with rfl | hj
      · simp [hself]
      · simp [hother j hj, hj]
  rw [puts, honly, List.map_singleton, hself]

/-! ## The order of the queues -/

/-- What a device had outstanding at the start and was given since, with whose it is. -/
def arrivals (start : Bus) (receipts : List Receipt) (i : ℕ) : List (Option ℕ × Message) :=
  ((start.devices[i]?.map Bus.Device.outstanding).getD []).map (fun m => (none, m)) ++
    receipts.flatMap fun r => (r.onto i).map fun m => (some r.caller, m)

/-- The length of a device's queue. -/
theorem queueLength_eq {d : Bus.Device} (h : b.devices[i]? = some d) :
    queueLength b i = d.outstanding.length := by
  rw [queueLength, h]
  rfl

/-- Messages of no caller. -/
theorem zip_replicate_none (ms : List Message) :
    (List.replicate ms.length (none : Option ℕ)).zip ms = ms.map fun m => (none, m) := by
  induction ms with
  | nil => rfl
  | cons m ms ih => rw [List.length_cons, List.replicate_succ, List.zip_cons_cons, ih, List.map_cons]

/-- Dropping from the front of both. -/
theorem zip_retag_suffix {after : List Message} (hlen : tags.length = before.length)
    (h : after <:+ before) (source : Option ℕ) :
    (retag before.length after.length source tags).length = after.length ∧
      (retag before.length after.length source tags).zip after <:+ tags.zip before := by
  have hle := h.length_le
  rw [retag, if_pos hle]
  refine ⟨by rw [List.length_drop]; omega, ?_⟩
  have hafter : after = before.drop (before.length - after.length) :=
    List.suffix_iff_eq_drop.1 h
  nth_rewrite 2 [hafter]
  rw [List.zip, ← List.drop_zipWith]
  exact List.drop_suffix _ _

/-- Adding one to the end of both. -/
theorem zip_retag_concat (hlen : tags.length = before.length) (m : Message) (source : Option ℕ) :
    (retag before.length (before ++ [m]).length source tags).length = (before ++ [m]).length ∧
      (retag before.length (before ++ [m]).length source tags).zip (before ++ [m]) =
        tags.zip before ++ [(source, m)] := by
  have hone : (before ++ [m]).length - before.length = 1 := by simp
  rw [retag, if_neg (by simp), hone]
  refine ⟨by simp [hlen], ?_⟩
  rw [List.zip_append hlen]
  rfl

namespace Observed

/-- The queue of each device is the end of what it was given, in order. -/
structure Ordered (start : Bus) (w : Observed) : Prop where
  length : w.bus.devices.length = start.devices.length
  tagged : ∀ (i : ℕ) (d : Bus.Device), w.bus.devices[i]? = some d →
    (w.tags i).length = d.outstanding.length ∧
      (w.tags i).zip d.outstanding <:+ arrivals start w.receipts i

/-- A new runtime is in order. -/
theorem ordered_new (b : Bus) (buffer : ℕ) : Ordered b (new b buffer) := by
  refine ⟨rfl, fun i d hd => ?_⟩
  replace hd : b.devices[i]? = some d := hd
  have htags : (new b buffer).tags i = List.replicate d.outstanding.length none := by
    rw [← queueLength_eq hd]
    rfl
  rw [htags]
  refine ⟨List.length_replicate, ?_⟩
  rw [zip_replicate_none, arrivals, hd]
  exact ⟨[], by simp [new]⟩

variable {w : Observed} {op : Submit}

/-- What the record gains when no request is received. -/
theorem step_of_taking_none (h : w.runtime.taking op = none) :
    (w.step op).receipts = w.receipts := by
  simp [step, h]

/-- A submission that is taken leaves a receipt. -/
theorem step_of_taking {k : ℕ} {c : Caller} (h : w.runtime.taking op = some (k, c)) :
    (w.step op).bus = (queue w.bus c.addr c.req).2 ∧
      (w.step op).receipts =
        w.receipts ++ [Receipt.of w.bus (queue w.bus c.addr c.req).2 k c] := by
  obtain ⟨-, -, rest, -, -, hstep⟩ := taking_eq_some h
  have hbus : (w.runtime.step op).panel.bus = (queue w.bus c.addr c.req).2 := by
    rw [hstep]
    rfl
  refine ⟨hbus, ?_⟩
  simp only [step, h, hbus]
  rfl

/-- **Every step** keeps the receipts in order. -/
theorem ordered_step {start : Bus} (h : Ordered start w) (op : Submit) :
    Ordered start (w.step op) := by
  -- a device whose queue is what is left of it, with nothing new on record for it
  have hleft : ∀ {i : ℕ} {d e : Bus.Device}, w.bus.devices[i]? = some d →
      (w.step op).bus.devices[i]? = some e → e.outstanding <:+ d.outstanding →
      arrivals start (w.step op).receipts i = arrivals start w.receipts i →
      ((w.step op).tags i).length = e.outstanding.length ∧
        ((w.step op).tags i).zip e.outstanding <:+ arrivals start (w.step op).receipts i := by
    intro i d e hd he hsuffix harr
    obtain ⟨hlen, hzip⟩ := h.tagged i d hd
    have htags : (w.step op).tags i = retag d.outstanding.length e.outstanding.length
        ((w.runtime.taking op).map Prod.fst) (w.tags i) := by
      rw [← queueLength_eq hd, ← queueLength_eq he]
      rfl
    obtain ⟨hlen', hzip'⟩ := zip_retag_suffix hlen hsuffix ((w.runtime.taking op).map Prod.fst)
    rw [htags, harr]
    exact ⟨hlen', hzip'.trans hzip⟩
  cases htake : w.runtime.taking op with
  | none =>
    have hshrink : w.bus.Shrinks (w.step op).bus := step_shrinks htake
    refine ⟨hshrink.1.trans h.length, fun i e he => ?_⟩
    obtain ⟨hlt, -⟩ := List.getElem?_eq_some_iff.1 he
    have hd := List.getElem?_eq_getElem (show i < w.bus.devices.length by rw [← hshrink.1]; exact hlt)
    obtain ⟨e', he', hsuffix⟩ := hshrink.2 i _ hd
    rw [he] at he'
    cases he'
    exact hleft hd he hsuffix (by rw [step_of_taking_none htake])
  | some kc =>
    obtain ⟨k, c⟩ := kc
    obtain ⟨hbus, hreceipts⟩ := step_of_taking htake
    rcases queue_cases w.bus c.addr c.req with ⟨-, i₀, -, hgives⟩ | ⟨-, -, hsame⟩
    · obtain ⟨d₀, e₀, hd₀, hset, hout, hinflight⟩ := hgives.device
      obtain ⟨hlt₀, -⟩ := List.getElem?_eq_some_iff.1 hd₀
      rw [← hbus] at hset
      refine ⟨by rw [hset, List.length_set]; exact h.length, fun i e he => ?_⟩
      have hrecord : arrivals start (w.step op).receipts i =
          arrivals start w.receipts i ++ if i = i₀ then [(some k, c.req.command)] else [] := by
        rw [arrivals, hreceipts, List.flatMap_append, ← List.append_assoc, Receipt.of,
          puts_of_gives hgives]
        congr 1
        rcases eq_or_ne i i₀ with rfl | hi
        · simp [Receipt.onto]
        · simp [Receipt.onto, hi, Ne.symm hi]
      rcases eq_or_ne i i₀ with rfl | hi
      · rw [hset, List.getElem?_set_self hlt₀] at he
        cases he
        obtain ⟨hlen, hzip⟩ := h.tagged i d₀ hd₀
        have hqueue : e₀.outstanding = d₀.outstanding ++ [c.req.command] := by
          simp [Bus.Device.outstanding, hout, hinflight]
        have htags : (w.step op).tags i = retag d₀.outstanding.length e₀.outstanding.length
            (some k) (w.tags i) := by
          rw [← queueLength_eq hd₀, ← queueLength_eq (b := (w.step op).bus) (i := i)
            (by rw [hset, List.getElem?_set_self hlt₀])]
          simp only [step, htake]
          rfl
        obtain ⟨hlen', hzip'⟩ := zip_retag_concat hlen c.req.command (some k)
        rw [htags, hqueue]
        refine ⟨hlen', ?_⟩
        rw [hzip', hrecord, if_pos rfl]
        obtain ⟨gone, hgone⟩ := hzip
        exact ⟨gone, by rw [← hgone, List.append_assoc]⟩
      · rw [hset, List.getElem?_set_ne (Ne.symm hi)] at he
        refine hleft he (by rw [hset, List.getElem?_set_ne (Ne.symm hi)]; exact he)
          List.suffix_rfl ?_
        rw [hrecord, if_neg hi, List.append_nil]
    · have hdevices : (w.step op).bus.devices = w.bus.devices := by rw [hbus, hsame]
      refine ⟨by rw [hdevices]; exact h.length, fun i e he => ?_⟩
      rw [hdevices] at he
      refine hleft he (by rw [hdevices]; exact he) List.suffix_rfl ?_
      rw [hreceipts, arrivals, List.flatMap_append, Receipt.of, puts_of_devices hsame]
      simp [Receipt.onto, arrivals]

end Observed

end Panel

end Osdp
