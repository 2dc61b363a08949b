import Osdp.Analysis.PlainLine

/-!
# Acknowledgements over a lossy line

Whether a reply that releases a command was made for that command. The device recognises a
repeat by its number alone, and the panel advances its number on a poll nobody answered:
after two of them a command it sends for the first time bears the number of the reply in
the device's cache, and is answered with that reply (`Journal.collides`). `Truthful` is what
holds of every run without such an exchange.
-/

set_option autoImplicit false

namespace Osdp

open Osdp.Secure (Rnd)

namespace Journal

/-- The property at one step: a command that is released was run by the device, and the reply that
released it was made for it. -/
def Honest (b : Bus) (j : Journal) (op : LineOp) : Prop :=
  ∀ x k, op = .exchange x → j.released b x = some k →
    Entry.ran k ∈ (j.step b op).log ∧ (j.step b op).origin = some k

/-- Both frames of an exchange get through, and a command the panel sends for the first time bears
the number of the reply the device has cached. A cached `osdp_BUSY` does no harm. -/
def collides (j : Journal) : LineOp → Bool
  | .exchange x =>
    x.fate == .delivered && j.line.panel.takes.any (fun m => !m.isReply) &&
      !j.line.panel.repeatSequence && j.line.device.cachedValid &&
      Bus.Device.rotate j.line.panel.seq == j.line.device.cachedSeq &&
      j.line.device.addressed j.line.panel.address && j.line.device.cached.code != Code.busy
  | _ => false

/-- What holds between the exchanges of a run in plaintext in which no command collided. -/
structure Truthful (j : Journal) : Prop where
  plain : j.line.Plain
  aligned : j.line.panel.outbox <:+ j.accepted
  past : ∀ k, j.origin = some k →
    k ≤ j.cursor ∧ ∃ m, j.accepted[k]? = some m ∧ m.code ≠ Code.keySet
  repeating : j.line.panel.repeatSequence = true → j.line.panel.takes.isSome = true ∧
    (j.line.device.cachedSeq = j.line.panel.seq →
      j.origin = some j.cursor ∧ Entry.ran j.cursor ∈ j.log)
  /-- A reply to the first waiting command that the panel did not hear of in time is not far
  behind. -/
  resting : j.line.panel.repeatSequence = false → j.line.panel.state = .online →
    j.origin = some j.cursor → ∃ g, g ≤ (if j.line.panel.deferCommands then 0 else 1) ∧
      j.line.panel.seq = Bus.Device.rotate^[g] j.line.device.cachedSeq

/-! ## The waiting commands -/

variable {p e : Bus.Device} {m : Message} {r : Option Frame} {d : Pd.Device} {j : Journal}
  {op : LineOp}

/-- In plaintext a command that is taken is not an `osdp_KEYSET`. -/
theorem takes_code (hp : p.Plain) (h : p.takes = some m) : m.code ≠ Code.keySet := by
  obtain ⟨-, -, hw, rest, ho⟩ := Bus.Device.takes_eq_some h
  simpa [Bus.Device.withholdsKeySet, ho, Bus.Device.secureEstablished, hp.session] using hw

/-- What is waiting after an exchange is a tail of what was. -/
theorem outcome_outbox (h : Outcome p r e) :
    e.outbox = p.outbox ∨ (∃ m a, p.takes = some m ∧ r = some a ∧ a.address = p.address ∧
      a.code ≠ Code.busy ∧ p.outbox = m :: e.outbox ∧ Bus.Answered p.sent a e) := by
  have hsent : p.sent.inflight.toList ++ p.sent.outbox = p.outbox := by
    cases ht : p.takes with
    | none => simp [Bus.Device.sent, ht]
    | some m =>
      obtain ⟨-, -, -, rest, ho⟩ := Bus.Device.takes_eq_some ht
      simp [Bus.Device.sent, ht, ho]
  cases h with
  | unanswered hr h => exact .inl (h.outbox.trans hsent)
  | answered a hr ha h =>
    by_cases hb : a.code = Code.busy
    · left
      rw [h.outbox, if_pos hb, hsent]
    · cases ht : p.takes with
      | none =>
        left
        rw [h.outbox, if_neg hb]
        simp [Bus.Device.sent, ht]
      | some m =>
        right
        refine ⟨m, a, rfl, hr, ha, hb, ?_, h⟩
        rw [← hsent, h.outbox, if_neg hb]
        simp [Bus.Device.sent, ht]
  | strange a hr ha hp he hplain hout hrep => exact .inl hout

/-! ## What a step preserves -/

/-- While another silence would not end the exchange, a number sent for the first time is not the
cached one. -/
theorem number_ne_cachedSeq (h : InStep p d) (hc : IsNumber d.cachedSeq)
    (hrep : p.repeatSequence = false) (hm : p.misses + 1 < Bus.offlineThreshold) :
    p.number ≠ d.cachedSeq := by
  obtain ⟨g, hg, hs⟩ := h.gap
  have hnum : p.number = Bus.Device.rotate^[g + 1] d.cachedSeq := by
    rw [Function.iterate_succ_apply', ← hs]
    simp [Bus.Device.number, hrep]
  rw [hnum]
  have h3 : Bus.offlineThreshold = 3 := rfl
  exact Bus.rotate_iterate_ne hc (Nat.succ_pos g) (by omega)

/-- A command that is waiting is taken again after a silence. -/
theorem takes_unanswered (hp : p.Plain) (h : Bus.Unanswered p.sent e) (hoff : e.state ≠ .offline)
    (ht : p.takes = some m) : e.takes = some m := by
  obtain ⟨hs, hd, hw, rest, ho⟩ := Bus.Device.takes_eq_some ht
  obtain ⟨hst, -, -, -, -, hdefer, -⟩ := h.kept hoff
  have hout : e.outbox = m :: rest := by
    rw [h.outbox]
    simp [Bus.Device.sent, ht, ho]
  have honline : e.state = .online := by
    have hstate : e.state = p.state := hst
    rcases hs with hs | hs
    · exact hstate.trans hs
    · rcases hp.state with h' | h' | h' <;> rw [h'] at hs <;> cases hs
  have hdeferred : e.deferCommands = false := by
    rw [hdefer]
    have hst' : p.state = .online := hst.symm.trans honline
    simp [Bus.Device.sent, hst']
  have hcode := takes_code hp ht
  simp [Bus.Device.takes, honline, hdeferred, hout, Bus.Device.withholdsKeySet, hcode]

namespace Exchanged

variable {b : Bus} {j : Journal} {x : Exchange} {d : Pd.Device} {r : Option Frame} {ran : Bool}

/-- An exchange accepts nothing. -/
theorem accepted (hx : Exchanged b j x d r ran) :
    (j.step b (.exchange x)).accepted = j.accepted := by
  rw [hx.step]
  rfl

/-- What the cached reply answers, afterwards. -/
theorem origin (hx : Exchanged b j x d r ran) :
    (j.step b (.exchange x)).origin = if ran then j.taken else j.origin := by
  rw [hx.step]
  rfl

/-- The log grows. -/
theorem log_mem (hx : Exchanged b j x d r ran) {en : Entry} (h : en ∈ j.log) :
    en ∈ (j.step b (.exchange x)).log := by
  rw [hx.step]
  simp [noted, h]

/-- A command that ran is in the log. -/
theorem ran_mem (hx : Exchanged b j x d r true) {k : ℕ} (h : j.taken = some k) :
    Entry.ran k ∈ (j.step b (.exchange x)).log := by
  rw [hx.step]
  simp [noted, h]

/-- The number the frame bore. -/
theorem sequence (hp : j.line.Plain) :
    (Bus.plainFrame b j.line.panel j.line.panel.question).control.sequence = j.line.panel.number := by
  exact newControl_sequence hp.number.le _ _

/-- An exchange does nothing to the device or reaches it. -/
theorem reached (hx : Exchanged b j x d r ran) (hp : j.line.Plain) :
    (d = j.line.device ∧ r = none ∧ ran = false) ∨
      Turn.Reached j.line.device (Bus.plainFrame b j.line.panel j.line.panel.question) d r ran := by
  refine hx.turn.reached hp.device ?_
  rw [sequence hp]
  exact hp.number.ne_zero

/-- The device was not asked anything new. -/
theorem cachedSeq_of_not_ran (hx : Exchanged b j x d r false) (hp : j.line.Plain) :
    d.cachedSeq = j.line.device.cachedSeq := by
  rcases hx.reached hp with ⟨rfl, -, -⟩ | hreached
  · rfl
  · exact (hreached.again rfl).2.2.symm

/-- The cursor stays, or moves past the command that was in flight. -/
theorem cursor (hx : Exchanged b j x d r ran) (h : j.line.panel.outbox <:+ j.accepted) :
    ((j.step b (.exchange x)).line.panel.outbox = j.line.panel.outbox ∧
      (j.step b (.exchange x)).cursor = j.cursor) ∨
    ((∃ m, j.line.panel.takes = some m ∧
        j.line.panel.outbox = m :: (j.step b (.exchange x)).line.panel.outbox) ∧
      (∃ a, r = some a) ∧ (j.step b (.exchange x)).cursor = j.cursor + 1) := by
  rcases outcome_outbox hx.outcome with hout | ⟨m, a, ht, hr, -, -, hout, -⟩
  · exact .inl ⟨hout, by rw [Journal.cursor, Journal.cursor, hx.accepted, hout]⟩
  · refine .inr ⟨⟨m, ht, hout⟩, ⟨a, hr⟩, ?_⟩
    have hlen := (head_accepted h hout).2
    have hcur : (j.step b (.exchange x)).cursor =
        j.accepted.length - (j.step b (.exchange x)).line.panel.outbox.length := by
      rw [Journal.cursor, hx.accepted]
    omega

end Exchanged

section Preserved

variable {b : Bus} {j : Journal} {x : Exchange} {d : Pd.Device} {r : Option Frame} {ran : Bool}

/-- The cached reply stays one to the past. -/
theorem past_exchange (h : j.Truthful) (hx : Exchanged b j x d r ran) (k : ℕ)
    (hk : (j.step b (.exchange x)).origin = some k) :
    k ≤ (j.step b (.exchange x)).cursor ∧
      ∃ m, (j.step b (.exchange x)).accepted[k]? = some m ∧ m.code ≠ Code.keySet := by
  have hle : j.cursor ≤ (j.step b (.exchange x)).cursor := by
    rcases hx.cursor h.aligned with ⟨-, hcur⟩ | ⟨-, -, hcur⟩ <;> omega
  rw [hx.origin] at hk
  rw [hx.accepted]
  cases ran with
  | false =>
    obtain ⟨hpast, hm⟩ := h.past k hk
    exact ⟨hpast.trans hle, hm⟩
  | true =>
    obtain ⟨rfl, m, ht⟩ := taken_eq_some hk
    obtain ⟨-, -, -, rest, ho⟩ := Bus.Device.takes_eq_some ht
    exact ⟨hle, m, (head_accepted h.aligned ho).1, takes_code h.plain.panel ht⟩

/-- A command that is repeated is the one in flight. -/
theorem repeating_exchange (h : j.Truthful) (hx : Exchanged b j x d r ran)
    (hrep : (j.step b (.exchange x)).line.panel.repeatSequence = true) :
    (j.step b (.exchange x)).line.panel.takes.isSome = true ∧
      ((j.step b (.exchange x)).line.device.cachedSeq = (j.step b (.exchange x)).line.panel.seq →
        (j.step b (.exchange x)).origin = some (j.step b (.exchange x)).cursor ∧
          Entry.ran (j.step b (.exchange x)).cursor ∈ (j.step b (.exchange x)).log) := by
  have hoff : (j.step b (.exchange x)).line.panel.state ≠ .offline := by
    intro hoff
    rw [hx.plain.resting hoff] at hrep
    cases hrep
  -- only a silence makes the panel repeat itself
  cases hx.outcome with
  | answered a hr ha hans => rw [hans.repeatSequence] at hrep; cases hrep
  | strange a hr ha hp he hplain hout hno => exact absurd he hoff
  | unanswered hr hun =>
    obtain ⟨hst, hseq, hmiss, hlt, -, -, hrepeat⟩ := hun.kept hoff
    obtain ⟨m, ht⟩ : ∃ m, j.line.panel.takes = some m := by
      rw [hrepeat] at hrep
      simpa [Bus.Device.sent, Option.isSome_iff_exists] using hrep
    refine ⟨by rw [takes_unanswered h.plain.panel hun hoff ht]; rfl, fun hsame => ?_⟩
    have hcur : (j.step b (.exchange x)).cursor = j.cursor := by
      rcases hx.cursor h.aligned with ⟨-, hcur⟩ | ⟨-, ⟨a, ha⟩, -⟩
      · exact hcur
      · rw [hr] at ha
        cases ha
    have htaken : j.taken = some j.cursor := by simp [taken, ht]
    rw [hcur, hx.origin]
    cases ran with
    | true => exact ⟨htaken, hx.ran_mem htaken⟩
    | false =>
      have hnum : j.line.device.cachedSeq = j.line.panel.number := by
        rw [← hx.cachedSeq_of_not_ran h.plain, ← hx.device, hsame]
        exact hseq
      have hpoff : j.line.panel.state ≠ .offline := by
        rw [hst] at hoff
        exact hoff
      cases hagain : j.line.panel.repeatSequence with
      | false =>
        refine absurd hnum.symm (number_ne_cachedSeq (h.plain.inStep hpoff)
          (h.plain.cachedAt hpoff).number hagain ?_)
        exact hmiss ▸ hlt
      | true =>
        have hseq' : j.line.device.cachedSeq = j.line.panel.seq := by
          rw [hnum]
          simp [Bus.Device.number, hagain]
        obtain ⟨horigin, hlog⟩ := (h.repeating hagain).2 hseq'
        exact ⟨horigin, hx.log_mem hlog⟩

/-- A reply that is still to come is soon out of reach. -/
theorem resting_exchange (h : j.Truthful) (hx : Exchanged b j x d r ran)
    (hrep : (j.step b (.exchange x)).line.panel.repeatSequence = false)
    (hst : (j.step b (.exchange x)).line.panel.state = .online)
    (hk : (j.step b (.exchange x)).origin = some (j.step b (.exchange x)).cursor) :
    ∃ g, g ≤ (if (j.step b (.exchange x)).line.panel.deferCommands then 0 else 1) ∧
      (j.step b (.exchange x)).line.panel.seq =
        Bus.Device.rotate^[g] (j.step b (.exchange x)).line.device.cachedSeq := by
  have hoff : (j.step b (.exchange x)).line.panel.state ≠ .offline := by
    rw [hst]
    decide
  rw [hx.device]
  have hreached := hx.reached h.plain
  cases hx.outcome with
  | strange a hr ha hp he hplain hout hno => exact absurd he hoff
  | answered a hr ha hans =>
    rw [hr] at hreached
    have hseq := (hreached.resolve_left (by simp)).seq
    rw [Exchanged.sequence h.plain] at hseq
    exact ⟨0, Nat.zero_le _, (hans.kept hoff).1.trans hseq.symm⟩
  | unanswered hr hun =>
    obtain ⟨hst', hseq, -, -, -, hdefer, hrepeat⟩ := hun.kept hoff
    have ht : j.line.panel.takes = none := by
      rw [hrep] at hrepeat
      simpa [Bus.Device.sent] using hrepeat.symm
    have honline : j.line.panel.state = .online := hst'.symm.trans hst
    rcases hreached with ⟨rfl, -, rfl⟩ | hreached
    · -- the frame was lost, so it was the poll a deferred command waits for
      have hcur : (j.step b (.exchange x)).cursor = j.cursor := by
        rcases hx.cursor h.aligned with ⟨-, hcur⟩ | ⟨⟨m, hm, -⟩, -, -⟩
        · exact hcur
        · rw [ht] at hm
          cases hm
      rw [hx.origin, hcur] at hk
      have hagain : j.line.panel.repeatSequence = false := by
        by_contra hagain
        have := (h.repeating (by simpa using hagain)).1
        rw [ht] at this
        cases this
      obtain ⟨-, m, hm, hcode⟩ := h.past j.cursor hk
      have hdeferred : j.line.panel.deferCommands = true := by
        by_contra hd
        cases ho : j.line.panel.outbox with
        | nil =>
          have hlen : j.cursor = j.accepted.length := by simp [Journal.cursor, ho]
          rw [hlen, List.getElem?_eq_none (Nat.le_refl _)] at hm
          cases hm
        | cons m' rest =>
          have hhead := (head_accepted h.aligned ho).1
          rw [hm] at hhead
          cases hhead
          simp [Bus.Device.takes, honline, hd, Bus.Device.withholdsKeySet, ho, hcode] at ht
      obtain ⟨g, hg, hgap⟩ := h.resting hagain honline hk
      rw [hdeferred, if_pos rfl] at hg
      have hg0 : g = 0 := Nat.le_zero.mp hg
      subst hg0
      have hnotdefer : (j.step b (.exchange x)).line.panel.deferCommands = false := by
        rw [hdefer]
        simp [Bus.Device.sent, honline]
      refine ⟨1, by simp [hnotdefer], ?_⟩
      have hgap' : j.line.panel.seq = j.line.device.cachedSeq := hgap
      have hnum : j.line.panel.sent.seq = Bus.Device.rotate j.line.panel.seq := by
        simp [Bus.Device.sent, Bus.Device.number, hagain]
      rw [hseq, hnum, hgap']
      rfl
    · have hs := hreached.seq
      rw [Exchanged.sequence h.plain] at hs
      exact ⟨0, Nat.zero_le _, hseq.trans hs.symm⟩

end Preserved

/-- **An exchange** keeps the record truthful. -/
theorem truthful_exchange (b : Bus) (hb : b.secure = none) (h : j.Truthful) (x : Exchange) :
    (j.step b (.exchange x)).Truthful := by
  obtain ⟨hoff, -, hstep, hplain⟩ | ⟨d, r, ran, hx⟩ := exchange_plain b hb h.plain x
  · have htakes := Line.Plain.takes_none hoff
    have hout : j.line.panel.sent.outbox = j.line.panel.outbox := by
      simp [Bus.Device.sent, htakes]
    have hcur : (j.step b (.exchange x)).cursor = j.cursor := by
      rw [hstep]
      simp only [cursor, hout]
    refine ⟨hplain, ?_, ?_, ?_, ?_⟩
    · rw [hstep]
      exact hout ▸ h.aligned
    · rw [hcur, hstep]
      exact h.past
    · intro hrep
      rw [hstep] at hrep
      cases hrep
    · intro _ hst
      rw [hstep] at hst
      exact absurd (hoff.symm.trans hst) (by decide)
  · refine ⟨hx.plain, ?_, past_exchange h hx, repeating_exchange h hx, resting_exchange h hx⟩
    rw [hx.accepted]
    rcases hx.cursor h.aligned with ⟨hout, -⟩ | ⟨⟨m, -, hout⟩, -, -⟩
    · rw [hout]
      exact h.aligned
    · exact (List.suffix_cons m _).trans (hout ▸ h.aligned)

/-- **Every step keeps the invariant**, whether a command collided in it or not. -/
theorem truthful_step (b : Bus) (hb : b.secure = none) (h : j.Truthful) (op : LineOp) :
    (j.step b op).Truthful := by
  cases op with
  | send m =>
    rcases j.step_send b m with hstep | hstep
    · rw [hstep]
      exact h
    · have hcur : (j.step b (.send m)).cursor = j.cursor := by
        rw [hstep]
        simp only [cursor, Bus.Device.enqueue, List.length_append, List.length_singleton]
        omega
      refine ⟨?_, ?_, ?_, ?_, ?_⟩
      · rw [hstep]
        exact plain_enqueue h.plain m
      · rw [hstep]
        obtain ⟨gone, hgone⟩ := h.aligned
        exact ⟨gone, by simp [Bus.Device.enqueue, ← hgone]⟩
      · intro k hk
        rw [hcur]
        rw [hstep] at hk ⊢
        obtain ⟨hle, m', hm', hcode⟩ := h.past k hk
        exact ⟨hle, m', by
          rw [List.getElem?_append_left (List.getElem?_eq_some_iff.mp hm').1]; exact hm', hcode⟩
      · rw [hcur, hstep]
        intro hrep
        obtain ⟨htakes, hcached⟩ := h.repeating hrep
        obtain ⟨m', hm'⟩ := Option.isSome_iff_exists.mp htakes
        exact ⟨by simp [takes_enqueue hm' m], hcached⟩
      · rw [hcur, hstep]
        exact h.resting
  | installKey key =>
    rw [step_installKey_plain b h.plain key]
    exact h
  | report r =>
    obtain ⟨i, t, w, p, rs, hstep⟩ := j.step_report b r
    rw [hstep]
    exact ⟨plain_reported h.plain i t w p, h.aligned, h.past, h.repeating, h.resting⟩
  | exchange x => exact truthful_exchange b hb h x

/-! ## Releases -/

/-- What an exchange releases: the command in flight, on a reply from the device other than
`osdp_BUSY`. -/
theorem Exchanged.released_iff {b : Bus} (hb : b.secure = none) {x : Exchange} {ran : Bool}
    (hx : Exchanged b j x d r ran) (hp : j.line.Plain) (k : ℕ) :
    j.released b x = some k ↔ j.taken = some k ∧ ∃ a, r = some a ∧ a.code ≠ Code.busy := by
  rw [hx.released]
  cases r with
  | none => simp
  | some a =>
    have hreached := (hx.reached hp).resolve_left (by simp)
    cases htaken : j.taken with
    | none => simp
    | some k' =>
      obtain ⟨-, m, ht⟩ := taken_eq_some htaken
      have hoff : j.line.panel.state ≠ .offline := by
        intro hoff
        rw [Line.Plain.takes_none hoff] at ht
        cases ht
      have hcached := hx.device ▸ hx.plain.cached
      have hc := hcached hreached.valid
      have hcache := hreached.cached a rfl
      have haz : a.control.sequence ≠ 0 := by
        rw [← hcache, hc.sequence]
        exact hc.number.ne_zero
      obtain ⟨hans, -⟩ := Bus.reply_plain b hb (q := j.line.panel.sent) hp.panel.session hp.panel.state
        rfl (hcache ▸ hc.isReply) (reply_address hp hoff rfl hreached) haz
      have hfreed : (j.line.panel.sent.freed (Bus.reply b j.line.panel.sent a).2).isSome = true ↔
          a.code ≠ Code.busy := by
        have hinflight : j.line.panel.sent.inflight = some m := ht
        by_cases hbusy : a.code = Code.busy
        · have hout := hans.outbox
          rw [if_pos hbusy] at hout
          simp [Bus.Device.freed_requeued hout, hbusy]
        · have hout := hans.outbox
          rw [if_neg hbusy] at hout
          simp [Bus.Device.freed_released hans.plain.inflight hout, hbusy, hinflight]
      simp only [Option.bind_some, hfreed]
      by_cases hbusy : a.code = Code.busy <;> simp [hbusy]

/-- A command that does not collide is released by a reply made for it. -/
theorem honest_of_not_collides (b : Bus) (hb : b.secure = none) (h : j.Truthful)
    (hc : j.collides op = false) : j.Honest b op := by
  rintro x k rfl hk
  obtain ⟨-, hnone, -, -⟩ | ⟨d, r, ran, hx⟩ := exchange_plain b hb h.plain x
  · rw [hnone] at hk
    cases hk
  · obtain ⟨htaken, a, ha, hbusy⟩ := (hx.released_iff hb h.plain k).mp hk
    obtain ⟨rfl, m, ht⟩ := taken_eq_some htaken
    rw [hx.origin]
    cases ran with
    | true => exact ⟨hx.ran_mem htaken, htaken⟩
    | false =>
      -- the device said again what it had said last, so the panel must have been repeating itself
      obtain ⟨hfate, hheard, hvalid, hseq, hcode⟩ : x.fate = .delivered ∧
          j.line.device.heard (Bus.plainFrame b j.line.panel j.line.panel.question) = true ∧
          j.line.device.cachedValid = true ∧ j.line.panel.number = j.line.device.cachedSeq ∧
          j.line.device.cached.code ≠ Code.busy := by
        subst ha
        generalize hr : some a = r at hx
        cases hx.turn with
        | quiet => cases hr
        | again hf hh hv hs =>
          split at hr
          · cases hr
            exact ⟨by assumption, hh, hv, (Exchanged.sequence h.plain).symm.trans hs, hbusy⟩
          · cases hr
      have hrep : j.line.panel.repeatSequence = true := by
        by_contra hrep
        have hnum : j.line.panel.number = Bus.Device.rotate j.line.panel.seq := by
          simp [Bus.Device.number, hrep]
        have hq : j.line.panel.question = m := by simp [Bus.Device.question, ht]
        rw [heard_plainFrame, hq, Bool.and_eq_true] at hheard
        have hcollides : j.collides (.exchange x) = true := by
          simp [collides, hfate, ht, hrep, hvalid, ← hnum, hseq, hcode, hheard.2, hheard.1]
        rw [hc] at hcollides
        cases hcollides
      obtain ⟨horigin, hlog⟩ := (h.repeating hrep).2 (by
        rw [← hseq]
        simp [Bus.Device.number, hrep])
      exact ⟨hx.log_mem hlog, horigin⟩

/-- A command that collides is released by a reply that was made for another. -/
theorem not_honest_of_collides (b : Bus) (hb : b.secure = none) (h : j.Truthful)
    (hc : j.collides op = true) : ¬ j.Honest b op := by
  cases op with
  | exchange x =>
    simp only [collides, Bool.and_eq_true, beq_iff_eq, bne_iff_ne, ne_eq, Bool.not_eq_true'] at hc
    obtain ⟨⟨⟨⟨⟨⟨hfate, htakes⟩, hrep⟩, hvalid⟩, hnum⟩, haddr⟩, hbusy⟩ := hc
    obtain ⟨m, ht, hcmd⟩ : ∃ m, j.line.panel.takes = some m ∧ m.isReply = false := by
      cases ht : j.line.panel.takes with
      | none => simp [ht] at htakes
      | some m => exact ⟨m, rfl, by simpa [ht] using htakes⟩
    obtain ⟨hst, hdefer, -, rest, ho⟩ := Bus.Device.takes_eq_some ht
    have honline : j.line.panel.state = .online := by
      rcases h.plain.panel.state with hs | hs | hs
      · rw [hs] at hst; simp at hst
      · rw [hs] at hst; simp at hst
      · exact hs
    have hq : j.line.panel.question = m := by simp [Bus.Device.question, ht]
    have hheard : j.line.device.heard (Bus.plainFrame b j.line.panel j.line.panel.question) = true := by
      simp [heard_plainFrame, hq, hcmd, haddr]
    have hseq : j.line.panel.number = j.line.device.cachedSeq := by
      simp [Bus.Device.number, hrep, hnum]
    have htaken : j.taken = some j.cursor := by simp [taken, ht]
    obtain ⟨hoff, -, -, -⟩ | ⟨d, r, ran, hx⟩ := exchange_plain b hb h.plain x
    · rw [honline] at hoff
      cases hoff
    · -- the device can only say again what it said last
      obtain ⟨rfl, rfl⟩ : r = some j.line.device.cached ∧ ran = false := by
        cases hx.turn with
        | quiet hq =>
          rcases hq with hq | hq
          · rw [hfate] at hq; cases hq
          · rw [hheard] at hq; cases hq
        | again hf hh hv hs => exact ⟨if_pos hfate, rfl⟩
        | fresh a hf hh hs hr =>
          exact absurd ⟨hvalid, (Exchanged.sequence h.plain).trans hseq⟩ hs
      intro hhonest
      have hreleased := (hx.released_iff hb h.plain j.cursor).mpr ⟨htaken, _, rfl, hbusy⟩
      have horigin := (hhonest x j.cursor rfl hreleased).2
      rw [hx.origin] at horigin
      obtain ⟨g, hg, hgap⟩ := h.resting hrep honline horigin
      rw [hdefer] at hg
      have hback : Bus.Device.rotate^[g + 1] j.line.device.cachedSeq = j.line.device.cachedSeq := by
        rw [Function.iterate_succ_apply', ← hgap, hnum]
      have hoff : j.line.panel.state ≠ .offline := by
        rw [honline]
        decide
      exact Bus.rotate_iterate_ne (h.plain.cachedAt hoff).number (Nat.succ_pos g)
        (by simp at hg; omega) hback
  | send m => cases hc
  | installKey key => cases hc
  | report r => cases hc

/-- A new line is truthful. -/
theorem truthful_new (addr : Address) {addr' : Address} {cfg : Pd.Settings}
    (h : Pd.new addr' cfg = .ok d) (hstrict : cfg.strict = false) (ht : cfg.timeout = 0)
    (hsuite : cfg.suite = none) : (new addr d).Truthful :=
  ⟨plain_new addr h hstrict ht hsuite, List.nil_suffix, by simp [new], by simp [new, Bus.Device.new],
    by simp [new]⟩

/-- **No false acknowledgement, exactly when no command collides.** A panel and a device in
plaintext, the device lenient about numbers and without a communication timeout, over a channel
that may drop any frame: in every run, whatever is sent and reported, the commands that are
released were all run by the device and released by replies made for them, if and only if in no
exchange whose two frames get through the panel sends a waiting command for the first time under
the number of a reply, other than `osdp_BUSY`, that the device has cached. -/
theorem acknowledgements_honest_iff (b : Bus) (hb : b.secure = none) (addr addr' : Address)
    {cfg : Pd.Settings} {d : Pd.Device} (hnew : Pd.new addr' cfg = .ok d)
    (hstrict : cfg.strict = false) (ht : cfg.timeout = 0) (hsuite : cfg.suite = none)
    (ops : List LineOp) :
    (∀ p ∈ Run.trace (step b) (new addr d) ops, p.1.Honest b p.2) ↔
      ∀ p ∈ Run.trace (step b) (new addr d) ops, p.1.collides p.2 = false := by
  have hgood : ∀ (j : Journal) (op : LineOp), j.Truthful → True → j.collides op = false →
      j.Honest b op ∧ (j.step b op).Truthful :=
    fun j op h _ hc => ⟨honest_of_not_collides b hb h hc, truthful_step b hb h op⟩
  have hbad : ∀ (j : Journal) (op : LineOp), j.Truthful → True → ¬ j.collides op = false →
      ¬ j.Honest b op :=
    fun j op h _ hc => not_honest_of_collides b hb h (by simpa using hc)
  exact Run.trace_forall_iff hgood hbad (truthful_new addr hnew hstrict ht hsuite) ops
    fun _ _ => trivial

/-- A command answered at the second attempt. -/
theorem acknowledgements_honest_retried :
    ∃ d, Pd.new 1 plainSettings = .ok d ∧
      ∀ p ∈ Run.trace (step { scheme := .checksum }) (new 1 d) retriedOps,
        p.1.Honest { scheme := .checksum } p.2 :=
  ⟨_, rfl, (@acknowledgements_honest_iff { scheme := .checksum } rfl 1 1 plainSettings _ rfl rfl rfl rfl
    retriedOps).mpr (by decide)⟩

/-- The device is enrolled and polled, two polls are lost, and an `osdp_OUT` is sent. -/
def collidingOps : List LineOp :=
  [heardExchange, heardExchange, heardExchange, unheardExchange, unheardExchange, .send energise]

/-- The reply to the last poll that was heard releases the `osdp_OUT`, which the device never ran:
its output is as it was, and nothing is left at the panel to send. -/
theorem stale_reply_releases_command :
    ∃ d, Pd.new 1 plainSettings = .ok d ∧
      let j := collidingOps.foldl (step { scheme := .checksum }) (new 1 d)
      let j' := j.step { scheme := .checksum } heardExchange
      j.accepted = [energise] ∧ j.released { scheme := .checksum } { fate := .delivered } = some 0 ∧
      j'.log = [] ∧ j'.origin = none ∧ j'.line.device.outputs = [false] ∧
      j'.line.panel.outbox = [] ∧ j'.line.panel.inflight = none :=
  ⟨_, rfl, by decide⟩

end Journal

end Osdp
