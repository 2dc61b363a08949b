import Osdp.Analysis.LineSpec

/-!
# Sending again

A panel that hears nothing sends its queued command again under the number it had, and a device
answers that number from its cache. What the two ends keep for that, in plaintext or over a Secure
Channel: the device the reply, and the panel a record from which the same frame can be built.
-/

set_option autoImplicit false

namespace Osdp

open Osdp.Secure (Session Rnd)

/-! ## The device keeps its reply -/

namespace Pd.Device

variable {d e : Device} {m : Message} {seq : UInt8} {block : Option SecurityBlock} {err : Error}
  {f : Frame} {now : ℤ} {P : Code → Prop}

/-- A reply that cannot be built is not one that was not asked for, and changes nothing. -/
theorem encode_error {scheme : Scheme} (h : d.encode m seq scheme block = (.error err, e)) :
    err.isNoReply = false ∧ e = d := by
  unfold encode at h
  split at h
  · split at h <;> cases h
    exact ⟨rfl, rfl⟩
  · split at h
    · split at h <;> cases h
      exact ⟨rfl, rfl⟩
    · unfold sealReply at h
      split at h
      · cases h
        exact ⟨rfl, rfl⟩
      · simp only at h
        split at h
        · cases h
          exact ⟨rfl, rfl⟩
        · split at h
          · cases h
            exact ⟨rfl, rfl⟩
          · split at h <;> cases h
            exact ⟨rfl, rfl⟩

/-- Nor is one that cannot be emitted. -/
theorem emit_error (h : d.emit f seq m block = (.error err, e)) : err.isNoReply = false := by
  cases he : d.encode { m with isReply := true } seq f.control.scheme block with
  | mk r d' =>
    cases r with
    | error err' =>
      simp only [emit, he, Prod.mk.injEq, Except.error.injEq] at h
      rw [← h.1]
      exact (encode_error he).1
    | ok g => simp [emit, he] at h

/-- Adopting an address and a key leaves the cache alone. -/
theorem adopt_cache (d : Device) :
    d.adoptAddress.adoptKey.cached = d.cached ∧ d.adoptAddress.adoptKey.cachedSeq = d.cachedSeq ∧
      d.adoptAddress.adoptKey.cachedValid = d.cachedValid := by
  have haddr : d.adoptAddress.cached = d.cached ∧ d.adoptAddress.cachedSeq = d.cachedSeq ∧
      d.adoptAddress.cachedValid = d.cachedValid := by
    cases ha : d.adopting <;> simp [adoptAddress, ha]
  obtain ⟨h1, h2, h3⟩ := haddr
  rw [← h1, ← h2, ← h3]
  generalize d.adoptAddress = e
  cases hk : e.adoptingKey with
  | none => simp [adoptKey, hk]
  | some k =>
    simp only [adoptKey, hk, refreshCapabilities]
    split <;> exact ⟨rfl, rfl, rfl⟩

/-- What a reply to a command that was heard and not seen before has to do with the answer it
carries, and with the device it leaves. -/
structure Served (d : Device) (now : ℤ) (rndB : Rnd) (f r : Frame) (e : Device) : Prop where
  isReply : r.isReply = true
  address : r.address = d.address
  number : r.control.sequence = f.control.sequence
  code : r.code = ((d.opening now f).answerFor f f.control.sequence rndB).1.code
  security : r.security = ((d.opening now f).answerFor f f.control.sequence rndB).2.1
  plain : ((d.opening now f).answerFor f f.control.sequence rndB).2.1 = none →
    r.data = ((d.opening now f).answerFor f f.control.sequence rndB).1.data
  cached : e.cached = r
  cachedSeq : e.cachedSeq = f.control.sequence
  cachedValid : e.cachedValid = true

/-- **A command that is heard and not a repeat** is answered, unless no reply can be built. -/
theorem handle_served (hheard : d.heard f = true) (hrep : d.replays now f = false)
    (hn : IsNumber f.control.sequence) (rndB : Rnd) :
    (∃ err e, d.handle now rndB f = (.error err, e) ∧ err.isNoReply = false) ∨
      ∃ r e, d.handle now rndB f = (.ok r, e) ∧ d.Served now rndB f r e := by
  have hz := hn.ne_zero
  obtain ⟨h, -⟩ | ⟨-, h, -⟩ | ⟨-, -, hh⟩ := handle_cases d now rndB f
  · rw [hheard] at h
    cases h
  · rw [hrep] at h
    cases h
  · have haddr := (alike_answerFor d now rndB f).address
    rw [hh, replyTo]
    obtain ⟨err, s, he⟩ | ⟨g, s, he, -, hg⟩ :=
      emit_cases ((d.opening now f).answerFor f f.control.sequence rndB).2.2 f f.control.sequence
        ((d.opening now f).answerFor f f.control.sequence rndB).1
        ((d.opening now f).answerFor f f.control.sequence rndB).2.1
    · exact .inl ⟨err, _, he, emit_error he⟩
    · refine .inr ⟨g, _, he, ?_⟩
      obtain ⟨h1, h2, h3⟩ := adopt_cache ({ ((d.opening now f).answerFor f f.control.sequence
        rndB).2.2 with session := s }.stored f.control.sequence g)
      exact { isReply := hg.isReply, address := hg.address.trans haddr, number := hg.number hn.le,
              code := hg.code, security := hg.security, plain := hg.plain,
              cached := h1.trans (by simp [stored, hz]),
              cachedSeq := h2.trans (by simp [stored, hz]),
              cachedValid := h3.trans (by simp [stored, hz]) }

/-- The cache holds a reply that answers this number, from this address, and whose code
passes the test. -/
structure Holds (d : Device) (P : Code → Prop) (n : UInt8) (addr : Address) : Prop where
  valid : d.cachedValid = true
  seq : d.cachedSeq = n
  isReply : d.cached.isReply = true
  address : d.cached.address = addr
  number : d.cached.control.sequence = n
  code : P d.cached.code

/-- **A device that has run a command from the table** has its reply cached, unless it could not
build one. -/
theorem handle_dispatched {payload : Octets} {secured : Bool} (hn : IsNumber f.control.sequence)
    (hrun : d.dispatched now f = some (payload, secured)) (rndB : Rnd)
    (hcode : ∀ s, P ({ d.opening now f with session := s }.dispatch f.code payload secured).1.code) :
    d.heard f = true ∧
    ((∃ err e, d.handle now rndB f = (.error err, e) ∧ err.isNoReply = false) ∨
      ∃ e, d.handle now rndB f = (.ok e.cached, e) ∧ e.Holds P f.control.sequence d.address) := by
  obtain ⟨hheard, hrep⟩ : d.heard f = true ∧ d.replays now f = false := by
    unfold dispatched at hrun
    split at hrun
    · rename_i hc
      simpa using hc
    · cases hrun
  refine ⟨hheard, ?_⟩
  simp only [dispatched, hheard, hrep, Bool.not_false, Bool.and_self, if_true] at hrun
  obtain ⟨s, hans, -⟩ := answerFor_of_dispatchFor hrun rndB
  obtain h | ⟨r, e, hh, hr⟩ := handle_served hheard hrep hn rndB
  · exact .inl h
  · have hcached := hr.cached
    have hrcode := hr.code
    subst hcached
    rw [hans] at hrcode
    exact .inr ⟨e, hh, { valid := hr.cachedValid, seq := hr.cachedSeq, isReply := hr.isReply,
                         address := hr.address, number := hr.number,
                         code := hrcode ▸ hcode s }⟩

/-- A device that is not silent notices the time. -/
theorem observe_of_not_silent (h : d.silent now = false) : d.observe now = d.noticed now := by
  have hc : ¬ (d.seen = true ∧ d.cfg.timeout > 0 ∧ now - d.lastSeen > d.cfg.timeout) := by
    simpa [silent] using h
  simp only [observe, if_neg hc]
  rfl

/-- A device that holds the reply to a number says it again, unless it fell silent before. -/
theorem handle_held {n : UInt8} {addr : Address} (h : d.Holds P n addr)
    (hsilent : d.silent now = false) (hs : f.control.sequence = n) (hz : n ≠ 0) (rndB : Rnd)
    (hheard : d.heard f = true) :
    d.dispatched now f = none ∧ d.handle now rndB f = (.ok d.cached, d.noticed now) ∧
      (d.noticed now).Holds P n addr := by
  have hobs := observe_of_not_silent hsilent
  have hrep : d.replays now f = true := by
    simp [replays, hobs, noticed, h.valid, h.seq, hs, hz]
  refine ⟨by simp [dispatched, hrep], ?_, ⟨h.valid, h.seq, h.isReply, h.address, h.number, h.code⟩⟩
  obtain ⟨hh, -⟩ | ⟨-, -, he⟩ | ⟨-, hh, -⟩ := handle_cases d now rndB f
  · rw [hheard] at hh
    cases hh
  · rw [he, hobs]
    rfl
  · rw [hrep] at hh
    cases hh

end Pd.Device

/-! ## The panel sends it again -/

namespace Bus

/-- What a silence leaves of a record that has sent a queued command: the command is first in the
outbox again, under the number it had, and its frame can be built again. -/
structure Retried (b : Bus) (d : Device) (m : Message) (f : Frame) (e : Device) : Prop where
  inflight : e.inflight = none
  outbox : e.outbox = d.outbox
  takes : e.takes = some m
  repeatSequence : e.repeatSequence = true
  seq : e.seq = d.number
  address : e.address = d.address
  again : ∀ rndA, ∃ e', transact b e rndA = (.ok f, e') ∧ e'.session = e.session

variable {b : Bus} {d e : Device} {rndA : Rnd} {f : Frame} {m : Message}

/-- The record after a queued command was sent. -/
theorem transact_sent (ht : d.takes = some m) (h : transact b d rndA = (.ok f, e)) :
    ∃ s, e = { d with outbox := d.outbox.tail, inflight := some m, seq := d.number,
                      repeatSequence := false, session := s } := by
  obtain ⟨q, r, s, he⟩ := transact_of_takes b ht rndA
  rw [h] at he
  simp only at he
  have hc := transact_ok h
  have hseq : e.seq = d.number := hc.seq.trans (commandFor_number d rndA)
  have hrep := hc.repeatSequence
  refine ⟨s, ?_⟩
  rw [he] at hseq hrep ⊢
  simp only at hseq hrep
  rw [hseq, hrep]

/-- **After a timeout** the command is sent again. -/
theorem retried_of_timeout (ht : d.takes = some m) (hm : m.code ≠ Code.keySet)
    (h : transact b d rndA = (.ok f, e)) (hevent : (timeout e).1 ≠ .offline) :
    Retried b d m f (timeout e).2 := by
  obtain ⟨hs, hdefer, -, rest, ho⟩ := Device.takes_eq_some ht
  obtain ⟨s, he⟩ := transact_sent ht h
  obtain ⟨-, htime⟩ | ⟨-, -, htime⟩ := timeout_cases e
  · rw [htime]
    have hnew : { e with misses := e.misses + 1 }.retransmit =
        { d with seq := d.number, repeatSequence := true, session := s, inflight := none,
                 misses := e.misses + 1 } := by
      rw [Device.retransmit_eq, he]
      simp [ho]
    have htakes : ({ e with misses := e.misses + 1 }.retransmit).takes = some m := by
      rw [hnew]
      simp [Device.takes, hs, hdefer, Device.withholdsKeySet, ho, hm]
    refine { inflight := by rw [hnew], outbox := by rw [hnew], takes := htakes,
             repeatSequence := by rw [hnew], seq := by rw [hnew], address := by rw [hnew],
             again := fun rndA' =>
               ⟨_, transact_again ht h htakes (by rw [hnew]) (by rw [hnew]) ?_ ?_ rndA', ?_⟩ }
    · rw [hnew]
      simp [Device.number]
    · exact .inr (by rw [hnew, he])
    · rw [hnew, he]
  · rw [htime] at hevent
    exact absurd rfl hevent

end Bus

/-! ## One exchange -/

namespace Line

variable {l : Line} {P : Code → Prop} {n : UInt8} {addr : Address} {f : Frame}

/-- The device's turn, when it holds the reply to the number of the frame: it notices the frame or
not, and what comes back is the reply it holds. -/
theorem carry_again (h : l.device.Holds P n addr) (hz : n ≠ 0) (x : Exchange)
    (hs : f.control.sequence = n)
    (hsilent : l.serving = true → x.fate ≠ .commandLost → l.device.heard f = true →
      l.device.silent x.now = false) :
    ((l.carry x f).2.device = l.device ∨ (l.carry x f).2.device = l.device.noticed x.now) ∧
      ((l.carry x f).1 = none ∨ (l.carry x f).1 = some l.device.cached) := by
  have hserve : x.fate ≠ .commandLost →
      ((l.serve x f).2.device = l.device ∨ (l.serve x f).2.device = l.device.noticed x.now) ∧
        ((l.serve x f).1 = none ∨ (l.serve x f).1 = some l.device.cached) := by
    intro hfate
    unfold serve
    split
    · rename_i hserving
      cases hheard : l.device.heard f with
      | false =>
        obtain ⟨-, e, -, he⟩ | ⟨hh, -⟩ | ⟨hh, -⟩ := Pd.Device.handle_cases l.device x.now x.rndB f
        · rw [he]
          exact ⟨.inl rfl, .inl rfl⟩
        · rw [hheard] at hh
          cases hh
        · rw [hheard] at hh
          cases hh
      | true =>
        obtain ⟨-, he, -⟩ :=
          Pd.Device.handle_held h (hsilent hserving hfate hheard) hs hz x.rndB hheard
        rw [he]
        exact ⟨.inr rfl, .inr rfl⟩
    · exact ⟨.inl rfl, .inl rfl⟩
  unfold carry
  split
  · exact ⟨.inl rfl, .inl rfl⟩
  · rename_i hfate
    exact ⟨(hserve (by rw [hfate]; decide)).1, .inl rfl⟩
  · rename_i hfate
    exact hserve (by rw [hfate]; decide)

/-- The channel brings the held reply or none. -/
theorem carry_held (h : l.device.Holds P n addr) (hz : n ≠ 0) (x : Exchange)
    (hs : f.control.sequence = n)
    (hsilent : l.serving = true → x.fate ≠ .commandLost → l.device.heard f = true →
      l.device.silent x.now = false) :
    (l.carry x f).2.device.Holds P n addr ∧
      ((l.carry x f).1 = none ∨ (l.carry x f).1 = some (l.carry x f).2.device.cached) := by
  obtain ⟨hdevice, hr⟩ := carry_again h hz x hs hsilent
  rcases hdevice with he | he
  · rw [he]
    exact ⟨h, hr⟩
  · rw [he]
    exact ⟨⟨h.valid, h.seq, h.isReply, h.address, h.number, h.code⟩, hr⟩

/-- A device that is served no longer stays so. -/
theorem carry_unserved (h : l.serving = false) (x : Exchange) (f : Frame) :
    l.carry x f = (none, l) := by
  unfold carry
  split <;> simp [serve, h]

end Line

end Osdp
