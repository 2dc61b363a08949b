import Osdp.Analysis.ChannelSpec
import Osdp.Analysis.PlainLine
import Osdp.Analysis.Refusal

/-!
# The representation invariant of a device

`Device.WellFormed` is what a device built by `New` holds between any two calls, whatever
frames arrive. Several of its fields are broken by the command table and mended by `emit`,
so the invariant is carried through `Handle` in three pieces: what the table and the
handshake do to the session and the sizes, what a reply does to the cache, and what `emit`
adopts.
-/

set_option autoImplicit false

namespace Osdp

open Osdp.Secure (Session Block Rnd)

/-- The control octet has room for four sequence numbers. -/
theorem Control.sequence_cases (c : Control) : c.sequence = 0 ∨ IsNumber c.sequence := by
  have hall : ∀ n : Fin 256, (⟨UInt8.ofNat n⟩ : Control).sequence = 0 ∨
      (⟨UInt8.ofNat n⟩ : Control).sequence = 1 ∨ (⟨UInt8.ofNat n⟩ : Control).sequence = 2 ∨
      (⟨UInt8.ofNat n⟩ : Control).sequence = 3 := by decide +kernel
  have hlt : c.octet.toNat < 256 := c.octet.toNat_lt
  have hc : c = ⟨UInt8.ofNat (⟨c.octet.toNat, hlt⟩ : Fin 256)⟩ := by simp
  rw [hc]
  exact hall _

/-- A number has two bits. -/
theorem Control.sequence_le (c : Control) : c.sequence ≤ 3 := by
  obtain h | h := c.sequence_cases
  · rw [h]
    decide
  · exact h.le

namespace Pd.Device

/-! ## The session -/

/-- A session the device holds speaks for the device, and has been answered or established. -/
def Held (s : Option Session) : Prop :=
  ∀ t, s = some t → t.role = .pd ∧ (t.state = .cryptogram ∨ t.state = .established)

/-- No session is one that is held. -/
theorem held_none : Held none := by
  intro t ht
  cases ht

variable {f : Frame} {d : Device} {P : Session → Prop} {m : Message} {cfg : Settings}

/-- Opening a command commits its code to the chain and does nothing else to the session. -/
theorem openCommand_commit {t u : Session} {block : SecurityBlock} {plain : Octets}
    (h : openCommand t f block = .ok (plain, u)) : ∃ mac, u = t.commit true mac := by
  obtain ⟨-, hv, -⟩ := openCommand_ok h
  obtain ⟨-, mac, -, -, hu⟩ := Secure.Session.verify_ok hv
  exact ⟨mac, hu⟩

/-- What the device may say of its session: true of one it makes, and not lost by any step. -/
structure Carries (d : Device) (P : Session → Prop) : Prop where
  challenge : ∀ suite chlng rndB uid out t, d.cfg.suite = some suite →
    (Secure.newSession suite .pd d.key).answerChallenge chlng rndB uid = (.ok out, t) → P t
  cryptogram : ∀ t scrypt out u, P t → t.answerServerCryptogram scrypt = (.ok out, u) → P u
  commit : ∀ t isCommand mac, P t → P (t.commit isCommand mac)

/-- **Every answer keeps what was true of the session.** -/
theorem answerFor_session (hP : d.Carries P) (h : ∀ t, d.session = some t → P t) (f : Frame)
    (seq : UInt8) (rndB : Rnd) : ∀ t, (d.answerFor f seq rndB).2.2.session = some t → P t := by
  have hchallenge : ∀ suite chlng rndB, d.cfg.suite = some suite →
      ∀ t, (d.answerChallenge suite chlng rndB).2.2.session = some t → P t := by
    intro suite chlng rndB hsuite t ht
    unfold answerChallenge at ht
    simp only at ht
    split at ht
    · cases ht
    · rename_i out u hu
      cases ht
      exact hP.challenge suite chlng rndB _ out t hsuite hu
  have hcryptogram : ∀ scrypt t, (d.answerCryptogram scrypt).2.2.session = some t → P t := by
    intro scrypt t ht
    unfold answerCryptogram at ht
    split at ht
    · exact h t ht
    · rename_i s hs
      split at ht
      · cases ht
      · rename_i out u hu
        cases ht
        exact hP.cryptogram s scrypt out t (h s hs) hu
  have hestablished : ∀ block t, (d.answerEstablished f block).2.2.session = some t → P t := by
    intro block t ht
    unfold answerEstablished at ht
    split at ht
    · exact h t ht
    · rename_i s hs
      split at ht
      · exact h t ht
      · split at ht
        · cases ht
        · rename_i plain u hu
          obtain ⟨mac, rfl⟩ := openCommand_commit hu
          obtain ⟨p, o, a, k, hd⟩ :=
            dispatch_device { d with session := some (s.commit true mac) } f.code plain true
          simp only [hd] at ht
          cases ht
          exact hP.commit s true mac (h s hs)
  intro t ht
  unfold answerFor answer answerSecure at ht
  split at ht
  · exact h t ht
  · split at ht
    · split at ht
      · exact h t ht
      · rename_i suite hsuite
        split at ht
        · exact hchallenge suite _ _ hsuite t ht
        · split at ht
          · exact hcryptogram _ t ht
          · split at ht
            · exact hestablished _ t ht
            · exact h t ht
    · split at ht
      · cases ht
      · obtain ⟨p, o, a, k, hd⟩ := dispatch_device d f.code f.data false
        simp only [hd] at ht
        exact h t ht

/-- So does a reply: sealing commits its code to the chain. -/
theorem encode_session (hP : d.Carries P) (h : ∀ t, d.session = some t → P t) (m : Message)
    (seq : UInt8) (scheme : Scheme) (block : Option SecurityBlock) :
    ∀ t, (d.encode m seq scheme block).2.session = some t → P t := by
  cases he : d.encode m seq scheme block with
  | mk r e =>
    cases r with
    | error err =>
      rw [(encode_error he).2]
      exact h
    | ok g =>
      unfold encode at he
      split at he
      · split at he <;> cases he
        exact h
      · split at he
        · split at he <;> cases he
          exact h
        · obtain ⟨t, mac, ht, -, rfl⟩ := sealed_of_sealReply he
          rintro u hu
          cases hu
          exact hP.commit t false mac (h t ht)

/-- A session of the device's own is such a thing to say. -/
theorem carries_held (d : Device) :
    d.Carries fun t => t.role = .pd ∧ (t.state = .cryptogram ∨ t.state = .established) where
  challenge := by
    intro suite chlng rndB uid out t _ ht
    obtain ⟨hrole, keys, client, -, -, -, rfl⟩ := Secure.Session.answerChallenge_ok ht
    exact ⟨hrole, .inl rfl⟩
  cryptogram := by
    intro t scrypt out u h hu
    obtain ⟨-, expected, r, -, -, -, -, rfl⟩ := Secure.Session.answerServerCryptogram_eq hu
    exact ⟨h.1, .inr rfl⟩
  commit := by
    intro t isCommand mac h
    simpa using h

/-- An answer keeps the session held. -/
theorem answerFor_held (h : Held d.session) (f : Frame) (seq : UInt8) (rndB : Rnd) :
    Held (d.answerFor f seq rndB).2.2.session :=
  answerFor_session d.carries_held h f seq rndB

/-- So does building a reply. -/
theorem encode_held (h : Held d.session) (m : Message) (seq : UInt8) (scheme : Scheme)
    (block : Option SecurityBlock) : Held (d.encode m seq scheme block).2.session :=
  encode_session d.carries_held h m seq scheme block

/-! ## The reply -/

/-- A reply's error check holds and is of the scheme asked for. -/
theorem encode_checked {e : Device} {seq : UInt8} {scheme : Scheme} {block : Option SecurityBlock}
    (h : d.encode m seq scheme block = (.ok f, e)) :
    f.checkOK = true ∧ f.control.scheme = scheme := by
  unfold encode at h
  split at h
  · unfold Message.encode at h
    split at h
    · cases h
    · rename_i hf
      split at hf
      · cases hf
      · cases hf
        cases h
        exact ⟨Frame.checkOK_sealCheck _, newControl_scheme seq scheme false⟩
  · split at h
    · unfold Message.encodeSecure at h
      split at h
      · cases h
      · rename_i hf
        split at hf
        · cases hf
        · cases hf
          cases h
          exact ⟨Frame.checkOK_sealCheck _, newControl_scheme seq scheme true⟩
    · unfold sealReply Message.encodeSecure at h
      split at h
      · cases h
      · simp only at h
        split at h
        · cases h
        · split at h
          · cases h
          · rename_i hf
            split at hf
            · cases hf
            · cases hf
              split at h
              · cases h
              · cases h
                exact ⟨Frame.checkOK_sealCheck _, newControl_scheme seq scheme true⟩

/-! ## The invariant -/

/-- What a device holds between calls: an address of its own, as many contacts as it was
configured with, a queue within its depth, nothing waiting to be adopted, a session only of its
own making, and a cache that holds the reply to the number it is filed under. -/
structure WellFormed (cfg : Settings) (d : Device) : Prop where
  configured : d.cfg = cfg
  address : d.address < broadcastAddress
  inputs : d.inputs.length = cfg.inputs
  outputs : d.outputs.length = cfg.outputs
  pending : d.pending.length ≤ cfg.queue
  settled : d.adopting = none ∧ d.adoptingKey = none
  session : Held d.session
  keyed : d.session ≠ none → cfg.suite.isSome = true
  cached : d.cachedValid = true → IsNumber d.cachedSeq ∧ d.cached.isReply = true ∧
    d.cached.control.sequence = d.cachedSeq ∧ d.cached.checkOK = true

/-- An address that is not the broadcast one is below it. -/
theorem address_lt {a : Address} (hv : Address.valid a = true) (hb : a ≠ broadcastAddress) :
    a < broadcastAddress := by
  simp only [Address.valid, decide_eq_true_eq] at hv
  exact UInt8.lt_of_le_of_ne hv hb

/-- A new device is well formed. -/
theorem wellFormed_new {addr : Address} (h : new addr cfg = .ok d) : d.WellFormed cfg := by
  obtain ⟨hvalid, hunicast, -, c, rfl, -⟩ := new_ok h
  exact { configured := rfl, address := address_lt hvalid hunicast, inputs := List.length_replicate,
          outputs := List.length_replicate, pending := Nat.zero_le _,
          settled := ⟨rfl, rfl⟩, session := held_none, keyed := fun hs => absurd rfl hs,
          cached := by simp }

/-! ### Reports -/

/-- Replacing an event keeps their number. -/
theorem length_replaceFirst {ws ws' : List Message} (h : replaceFirst m ws = some ws') :
    ws'.length = ws.length := by
  induction ws generalizing ws' with
  | nil => cases h
  | cons w ws ih =>
    unfold replaceFirst at h
    split at h
    · cases h
      rfl
    · obtain ⟨us, hus, rfl⟩ := Option.map_eq_some_iff.mp h
      simp [ih hus]

/-- A queue of another content, within the depth. -/
theorem WellFormed.of_pending (h : d.WellFormed cfg) {p : List Message} (hp : p.length ≤ cfg.queue) :
    { d with pending := p }.WellFormed cfg :=
  { h with pending := hp }

/-- Queueing keeps a device well formed. -/
theorem queue_wellFormed (h : d.WellFormed cfg) (m : Message) : (d.queue m).2.WellFormed cfg := by
  unfold queue
  split
  · exact h
  · rename_i hfull
    refine h.of_pending ?_
    rw [h.configured] at hfull
    simp only [List.length_append, List.length_singleton]
    omega

/-- So does coalescing. -/
theorem coalesce_wellFormed (h : d.WellFormed cfg) (m : Message) :
    (d.coalesce m).2.WellFormed cfg := by
  unfold coalesce
  split
  · rename_i p hp
    refine h.of_pending ?_
    rw [length_replaceFirst hp]
    exact h.pending
  · exact queue_wellFormed h m

/-- So does a report. -/
theorem report_wellFormed (h : d.WellFormed cfg) (r : Report) : (d.report r).2.WellFormed cfg := by
  cases r with
  | cardRead c =>
    simp only [report, reportCardRead]
    split
    · exact h
    · exact queue_wellFormed h _
  | keypad k => exact queue_wellFormed h _
  | input index active =>
    simp only [report, setInput]
    split
    · exact h
    · refine coalesce_wellFormed ?_ _
      exact { h with inputs := by rw [List.length_set]; exact h.inputs }
  | tamper active => exact coalesce_wellFormed (d := { d with tamper := active }) { h with } _
  | power failure => exact coalesce_wellFormed (d := { d with powerFailure := failure }) { h with } _

/-! ### Commands -/

/-- What holds of a device half way through `Handle`: all of it but that nothing is waiting, and
an address that waits is one a device may have. -/
structure Answering (cfg : Settings) (d : Device) : Prop where
  settled : { d with adopting := none, adoptingKey := none }.WellFormed cfg
  adopting : ∀ a, d.adopting = some a → a < broadcastAddress

/-- A well-formed device can answer. -/
theorem WellFormed.answering (h : d.WellFormed cfg) : d.Answering cfg := by
  refine ⟨{ h with settled := ⟨rfl, rfl⟩ }, ?_⟩
  intro a ha
  rw [h.settled.1] at ha
  cases ha

/-- A restart keeps it well formed. -/
theorem restart_wellFormed (h : d.WellFormed cfg) : d.restart.WellFormed cfg :=
  { h with session := held_none, keyed := fun hs => absurd rfl hs, cached := by simp [restart, dropSession] }

/-- So does reading the clock. -/
theorem observe_wellFormed (h : d.WellFormed cfg) (now : ℤ) : (d.observe now).WellFormed cfg := by
  unfold observe
  simp only
  split
  · exact { restart_wellFormed h with }
  · exact { h with }

/-- An answer leaves a device that can answer. -/
theorem answerFor_answering (h : d.WellFormed cfg) (f : Frame) (seq : UInt8) (rndB : Rnd) :
    (d.answerFor f seq rndB).2.2.Answering cfg := by
  have hheld := answerFor_held h.session f seq rndB
  have hkeyed : (d.answerFor f seq rndB).2.2.session ≠ none → cfg.suite.isSome = true := by
    intro hs
    by_contra hsuite
    have hnone : d.cfg.suite = none := by
      rw [h.configured]
      simpa using hsuite
    have hs' : d.session = none := by
      by_contra hd
      exact hsuite (h.keyed hd)
    exact hs (answerFor_unkeyed hnone hs' f seq rndB)
  cases hdisp : d.dispatchFor f seq with
  | none =>
    obtain ⟨s, m, block, he, -⟩ := answerFor_of_none hdisp rndB
    rw [he] at hheld hkeyed ⊢
    exact WellFormed.answering { h with session := hheld, keyed := hkeyed }
  | some q =>
    obtain ⟨payload, secured⟩ := q
    obtain ⟨s, he, -⟩ := answerFor_of_dispatchFor hdisp rndB
    rw [he] at hheld hkeyed ⊢
    simp only [tableAnswer] at hheld hkeyed ⊢
    obtain ⟨hpending, houtputs⟩ := dispatch_sizes { d with session := s } f.code payload secured
    obtain ⟨hadopting, -⟩ := dispatch_adopting { d with session := s } f.code payload secured
    obtain ⟨p, o, a, k, hd⟩ := dispatch_device { d with session := s } f.code payload secured
    simp only [hd] at hheld hkeyed hpending houtputs hadopting ⊢
    refine ⟨{ h with outputs := houtputs.trans h.outputs,
                     pending := hpending.length_le.trans h.pending, settled := ⟨rfl, rfl⟩,
                     session := hheld, keyed := hkeyed }, ?_⟩
    intro a' ha'
    obtain hsame | ⟨a'', ha'', hv, hb⟩ := hadopting
    · rw [show a = some a' from ha', h.settled.1] at hsame
      cases hsame
    · rw [show a = some a' from ha'] at ha''
      cases ha''
      exact address_lt hv hb

/-- Adopting what was waiting completes the device. -/
theorem adopted_wellFormed (h : d.Answering cfg) : d.adoptAddress.adoptKey.WellFormed cfg := by
  have haddr : d.adoptAddress.Answering cfg ∧ d.adoptAddress.adopting = none := by
    unfold adoptAddress
    split
    · rename_i hnone
      exact ⟨h, hnone⟩
    · rename_i a ha
      exact ⟨⟨{ h.settled with address := h.adopting a ha }, by simp⟩, rfl⟩
  obtain ⟨hans, hnone⟩ := haddr
  generalize d.adoptAddress = e at hans hnone ⊢
  unfold adoptKey
  split
  · rename_i hkey
    exact { hans.settled with settled := ⟨hnone, hkey⟩ }
  · unfold refreshCapabilities
    split <;>
      exact { hans.settled with settled := ⟨hnone, rfl⟩, session := held_none,
                                keyed := fun hs => absurd rfl hs }

/-- What `Handle` owes a command it answers. -/
structure Answers (d : Device) (now : ℤ) (f r : Frame) : Prop where
  isReply : r.isReply = true
  number : r.control.sequence = f.control.sequence
  check : r.checkOK = true
  scheme : (d.replays now f = true ∧ r = (d.observe now).cached) ∨
    r.control.scheme = f.control.scheme

/-- **One reply.** `emit` completes the device, and what it returns is a reply to the command. -/
theorem emit_wellFormed (h : d.Answering cfg) (f : Frame) (m : Message)
    (block : Option SecurityBlock) :
    (d.emit f f.control.sequence m block).2.WellFormed cfg ∧
      ∀ r, (d.emit f f.control.sequence m block).1 = .ok r →
        r.isReply = true ∧ r.control.sequence = f.control.sequence ∧ r.checkOK = true ∧
          r.control.scheme = f.control.scheme := by
  have hheld := encode_held (d := d) h.settled.session { m with isReply := true }
    f.control.sequence f.control.scheme block
  obtain ⟨s, hs⟩ := encode_device d { m with isReply := true } f.control.sequence
    f.control.scheme block
  have hkeyed : (d.encode { m with isReply := true } f.control.sequence f.control.scheme
      block).2.session ≠ none → cfg.suite.isSome = true := fun hne =>
    h.settled.keyed fun hnone => hne (encode_unkeyed (d := d) hnone _ _ _ _)
  cases he : d.encode { m with isReply := true } f.control.sequence f.control.scheme block with
  | mk res e =>
    rw [he] at hs hkeyed hheld
    simp only at hs hkeyed hheld
    subst hs
    cases res with
    | error err =>
      simp only [emit, he]
      exact ⟨{ h.settled with session := hheld, keyed := hkeyed }, by simp⟩
    | ok g =>
      have hreplied := encode_ok rfl he
      have hnumber := hreplied.number (Control.sequence_le _)
      obtain ⟨hcheck, hscheme⟩ := encode_checked he
      simp only [emit, he]
      refine ⟨adopted_wellFormed ?_, ?_⟩
      · split
        · exact ⟨{ h.settled with session := hheld, keyed := hkeyed, cached := by simp },
            h.adopting⟩
        · rename_i hz
          refine ⟨{ h.settled with session := hheld, keyed := hkeyed, cached := ?_ }, h.adopting⟩
          intro _
          exact ⟨(Control.sequence_cases _).resolve_left hz, hreplied.isReply, hnumber, hcheck⟩
      · rintro r hr
        cases hr
        exact ⟨hreplied.isReply, hnumber, hcheck, hscheme⟩

/-- **One command.** -/
theorem handle_wellFormed (h : d.WellFormed cfg) (now : ℤ) (rndB : Rnd) (f : Frame) :
    (d.handle now rndB f).2.WellFormed cfg ∧
      ∀ r, (d.handle now rndB f).1 = .ok r → d.Answers now f r := by
  have hobs := observe_wellFormed h now
  obtain ⟨-, e, -, he⟩ | ⟨-, hrep, he⟩ | ⟨-, -, he⟩ := handle_cases d now rndB f
  · rw [he]
    exact ⟨h, by simp⟩
  · rw [he]
    refine ⟨hobs, ?_⟩
    rintro r hr
    cases hr
    have hrep' := hrep
    simp only [replays, Bool.and_eq_true, beq_iff_eq] at hrep'
    obtain ⟨-, hreply, hnumber, hcheck⟩ := hobs.cached hrep'.1.2
    exact { isReply := hreply, number := hnumber.trans hrep'.2.symm, check := hcheck,
            scheme := .inl ⟨hrep, rfl⟩ }
  · rw [he, replyTo]
    have hopen : (d.opening now f).WellFormed cfg := by
      unfold opening
      split
      · exact restart_wellFormed hobs
      · exact hobs
    have hans := answerFor_answering hopen f f.control.sequence rndB
    obtain ⟨hwf, hreply⟩ := emit_wellFormed hans f _
      ((d.opening now f).answerFor f f.control.sequence rndB).2.1
    refine ⟨hwf, fun r hr => ?_⟩
    obtain ⟨h1, h2, h3, h4⟩ := hreply r hr
    exact { isReply := h1, number := h2, check := h3, scheme := .inr h4 }

/-- **Every call** keeps a device well formed. -/
theorem wellFormed_step (h : d.WellFormed cfg) (op : Op) : (d.step op).WellFormed cfg := by
  cases op with
  | handle now rndB f => exact (handle_wellFormed h now rndB f).1
  | report r => exact report_wellFormed h r

end Pd.Device

/-- **The representation invariant of a device.** After every sequence of calls a device built by
`New` is well formed, and every frame `Handle` returned on the way is a reply to the command it
was given. -/
theorem device_representation {addr : Address} {cfg : Pd.Settings} {d : Pd.Device}
    (hnew : Pd.new addr cfg = .ok d) (ops : List Pd.Op) :
    (ops.foldl Pd.Device.step d).WellFormed cfg ∧
      ∀ p ∈ Run.trace Pd.Device.step d ops, ∀ now rndB f r, p.2 = .handle now rndB f →
        (p.1.handle now rndB f).1 = .ok r → p.1.Answers now f r := by
  have hwf := Pd.Device.wellFormed_new hnew
  have hstep : ∀ (e : Pd.Device) op, e.WellFormed cfg → (e.step op).WellFormed cfg :=
    fun e op h => Pd.Device.wellFormed_step h op
  refine ⟨Run.invariant (I := Pd.Device.WellFormed cfg) hstep hwf ops, ?_⟩
  intro p hp now rndB f r _ hr
  have hbefore : p.1.WellFormed cfg :=
    Run.invariant_trace (I := Pd.Device.WellFormed cfg) hstep hwf ops p hp
  exact (Pd.Device.handle_wellFormed hbefore now rndB f).2 r hr

/-- A device with a session established and a card waiting. -/
theorem device_representation_secured :
    ∃ d, Pd.new 1 Pd.secureSettings = .ok d ∧
      (Pd.waitingOps.foldl Pd.Device.step d).WellFormed Pd.secureSettings :=
  ⟨_, rfl, (@device_representation 1 Pd.secureSettings _ rfl Pd.waitingOps).1⟩

end Osdp
