import Osdp.Analysis.Journal
import Osdp.Analysis.PlainLine

/-!
# A line whatever its configuration

What holds between the exchanges of every line, in plaintext or over a Secure Channel,
strict or lenient, with a communication timeout or without. The panel repeats a number
only if it is one of the rotation; an enrolled device has an address of its own, because
it answered from one; and no exchange brings back a command the panel no longer owes.
-/

set_option autoImplicit false

namespace Osdp

open Osdp.Secure (Session Rnd)

/-! ## The panel -/

namespace Bus

/-- `Next` takes the number whose turn it is, or fails before it takes one. -/
theorem compose_number (b : Bus) (d : Device) (m : Message) (block : Option SecurityBlock) :
    ((compose b d m block).2.seq = d.number ∧ (compose b d m block).2.repeatSequence = false) ∨
    ((compose b d m block).2.seq = d.seq ∧
      (compose b d m block).2.repeatSequence = d.repeatSequence) := by
  unfold compose
  simp only [Device.nextSequence_eq]
  split
  · split <;> exact .inl ⟨rfl, rfl⟩
  · split
    · exact .inr ⟨rfl, rfl⟩
    · split
      · exact .inl ⟨rfl, rfl⟩
      · split
        · split
          · exact .inl ⟨rfl, rfl⟩
          · split <;> exact .inl ⟨rfl, rfl⟩
        · exact .inl ⟨rfl, rfl⟩

/-- A step of the handshake leaves the number. -/
theorem handshakeCommand_fields (d : Device) (rndA : Rnd) :
    (handshakeCommand d rndA).2.2.seq = d.seq ∧
      (handshakeCommand d rndA).2.2.repeatSequence = d.repeatSequence := by
  unfold handshakeCommand
  split
  · exact ⟨rfl, rfl⟩
  · split
    · exact ⟨rfl, rfl⟩
    · split <;> exact ⟨rfl, rfl⟩

/-- So does choosing a command. -/
theorem commandFor_fields (d : Device) (rndA : Rnd) :
    (commandFor d rndA).2.2.seq = d.seq ∧
      (commandFor d rndA).2.2.repeatSequence = d.repeatSequence := by
  obtain ⟨m, -, he⟩ | ⟨-, -, he⟩ | ⟨-, -, he⟩ | ⟨-, -, he⟩ | ⟨-, -, he⟩ := commandFor_cases d rndA
  · rw [he]
    exact ⟨rfl, rfl⟩
  · rw [he]
    exact ⟨rfl, rfl⟩
  · rw [he]
    exact ⟨rfl, rfl⟩
  · rw [he]
    exact handshakeCommand_fields d rndA
  · rw [he]
    exact ⟨rfl, rfl⟩

/-- What `Next` does to the number, whether it returns a step or not. -/
theorem transact_number (b : Bus) (d : Device) (rndA : Rnd) :
    ((transact b d rndA).2.seq = d.number ∧ (transact b d rndA).2.repeatSequence = false) ∨
    ((transact b d rndA).2.seq = d.seq ∧
      (transact b d rndA).2.repeatSequence = d.repeatSequence) := by
  obtain ⟨hseq, hrep⟩ := commandFor_fields d rndA
  have hnum := commandFor_number d rndA
  rcases compose_number b (commandFor d rndA).2.2 (commandFor d rndA).1 (commandFor d rndA).2.1 with
    h | h
  · exact .inl ⟨h.1.trans hnum, h.2⟩
  · exact .inr ⟨h.1.trans hseq, h.2.trans hrep⟩

variable {d : Device}

/-- A device that is out of the exchange is not brought back by a question. -/
theorem transact_offline (b : Bus) (h : d.state = .offline) (rndA : Rnd) :
    (transact b d rndA).2.state = .offline := by
  have hcommand : commandFor d rndA = ({ code := Code.id, data := [0x00] }, none, d) := by
    simp [commandFor, h]
  obtain ⟨q, r, s, he⟩ := compose_device b d { code := Code.id, data := [0x00] } none
  simp only [transact, hcommand, he]
  exact h

/-- Asking leaves the address. -/
theorem transact_address (b : Bus) (d : Device) (rndA : Rnd) :
    (transact b d rndA).2.address = d.address := by
  obtain ⟨q, r, s, he⟩ :=
    compose_device b (commandFor d rndA).2.2 (commandFor d rndA).1 (commandFor d rndA).2.1
  simp only [transact, he]
  exact commandFor_address d rndA

/-- The number of an enrolled device survives a reply, or the exchange starts again. -/
theorem dispatch_number (b : Bus) (d : Device) (m : Message) :
    (dispatch b d m).2.repeatSequence = false ∨
      ((dispatch b d m).2.seq = d.seq ∧ (dispatch b d m).2.repeatSequence = d.repeatSequence) := by
  obtain ⟨-, i, c, st, se, pe, de, ss, he⟩ | ⟨-, he⟩ | ⟨k, -, -, -, he⟩ | ⟨c, -, -, he⟩ | ⟨-, he⟩ :=
    dispatch_cases b d m
  · rw [he]
    exact .inr ⟨rfl, rfl⟩
  · rw [he]
    exact .inr ⟨rfl, rfl⟩
  · rw [he]
    exact .inr ⟨rfl, rfl⟩
  · rw [he]
    exact .inl (by simp [Device.resync_eq])
  · rw [he]
    refine .inr ?_
    rw [Device.reclaim_eq]
    split <;> exact ⟨rfl, rfl⟩

/-- A reply keeps the number or clears the repeat. -/
theorem reply_number (b : Bus) (d : Device) (f : Frame) :
    (reply b d f).2.repeatSequence = false ∨
      ((reply b d f).2.seq = d.seq ∧ (reply b d f).2.repeatSequence = d.repeatSequence) := by
  obtain ⟨-, e, he⟩ | ⟨-, -, ⟨-, he⟩ | ⟨-, -, he⟩ | ⟨-, data, s, -, he⟩⟩ := reply_cases b d f
  · rw [he]
    exact .inr ⟨rfl, rfl⟩
  · rw [he]
    exact .inl (by simp [Device.resync_eq])
  · rw [he]
    exact .inl (by simp [Device.resync_eq])
  · rw [he]
    have hdispatch := dispatch_number b { d with misses := 0, session := s }.delivered
      { code := f.code, isReply := f.isReply, data := data }
    simpa using hdispatch

/-- A timeout keeps the number to send it again. -/
theorem timeout_number (d : Device) :
    (timeout d).2.repeatSequence = false ∨ ((timeout d).2.seq = d.seq ∧
      (timeout d).2.repeatSequence = (d.inflight.isSome || d.repeatSequence)) := by
  obtain ⟨-, he⟩ | ⟨-, -, he⟩ := timeout_cases d
  · rw [he]
    exact .inr (by simp [Device.retransmit_eq])
  · rw [he]
    exact .inl (by simp [Device.resync_eq])

/-- A record that is in the exchange has an address of its own. -/
def Device.Enrolled (d : Device) : Prop := d.state ≠ .offline → d.address ≠ broadcastAddress

/-- A reply from an address of its own keeps it so: a new address takes the device out of the
exchange. -/
theorem reply_enrolled (b : Bus) (h : d.Enrolled) {f : Frame} (hf : f.address ≠ broadcastAddress) :
    (reply b d f).2.Enrolled := by
  obtain ⟨-, e, he⟩ | ⟨-, ha, ⟨-, he⟩ | ⟨-, -, he⟩ | ⟨-, data, s, -, he⟩⟩ := reply_cases b d f
  · rw [he]
    exact h
  · rw [he]
    intro hoff
    simp [Device.resync_eq] at hoff
  · rw [he]
    intro hoff
    simp [Device.resync_eq] at hoff
  · rw [he]
    have hown : d.address ≠ broadcastAddress := ha ▸ hf
    obtain ⟨-, i, c, st, se, pe, de, ss, he⟩ | ⟨-, he⟩ | ⟨k, -, -, -, he⟩ | ⟨c, -, -, he⟩ | ⟨-, he⟩ :=
      dispatch_cases b { d with misses := 0, session := s }.delivered
        { code := f.code, isReply := f.isReply, data := data }
    · rw [he]
      exact fun _ => by simpa using hown
    · rw [he]
      exact fun _ => by simpa using hown
    · rw [he]
      exact fun _ => by simpa using hown
    · rw [he]
      intro hoff
      simp [Device.resync_eq] at hoff
    · rw [he]
      intro _
      rw [Device.reclaim_eq]
      split <;> simpa using hown

/-- A timeout keeps what is enrolled. -/
theorem timeout_enrolled (h : d.Enrolled) : (timeout d).2.Enrolled := by
  obtain ⟨-, he⟩ | ⟨-, -, he⟩ := timeout_cases d
  · rw [he]
    simpa [Device.Enrolled, Device.retransmit_eq] using h
  · rw [he]
    intro hoff
    simp [Device.resync_eq] at hoff

/-- So does asking. -/
theorem transact_enrolled (b : Bus) (h : d.Enrolled) (rndA : Rnd) :
    (transact b d rndA).2.Enrolled := by
  intro hoff
  rw [transact_address]
  exact h fun hst => hoff (transact_offline b hst rndA)

end Bus

/-! ## The device -/

namespace Pd.Device

/-- The device and its cached reply have addresses of their own, and nothing is waiting to be
adopted. -/
structure Unicast (d : Device) : Prop where
  address : d.address ≠ broadcastAddress
  cached : d.cachedValid = true → d.cached.address ≠ broadcastAddress
  settled : d.Settled

variable {d : Device}

/-- A new device has an address of its own. -/
theorem unicast_new {addr : Address} {cfg : Settings} (h : new addr cfg = .ok d) : d.Unicast := by
  obtain ⟨-, hunicast, -, c, rfl, -⟩ := new_ok h
  exact ⟨hunicast, by simp, ⟨rfl, rfl⟩⟩

/-- Reading the clock leaves it. -/
theorem unicast_observe (h : d.Unicast) (now : ℤ) : (d.observe now).Unicast := by
  unfold observe
  simp only
  split
  · exact ⟨h.address, by simp [restart, dropSession], h.settled⟩
  · exact ⟨h.address, h.cached, h.settled⟩

/-- So does beginning an answer. -/
theorem unicast_opening (h : d.Unicast) (now : ℤ) (f : Frame) : (d.opening now f).Unicast := by
  have hobs := unicast_observe h now
  unfold opening
  split
  · exact ⟨hobs.address, by simp [restart, dropSession], hobs.settled⟩
  · exact hobs

/-- A device that kept its cache, or took a reply of its own into it, and then adopts an address
it may have. -/
theorem unicast_adopted (ha : d.address ≠ broadcastAddress)
    (hc : d.cachedValid = true → d.cached.address ≠ broadcastAddress)
    (hadopt : ∀ a, d.adopting = some a → a ≠ broadcastAddress) :
    d.adoptAddress.adoptKey.Unicast := by
  have haddr : d.adoptAddress.address ≠ broadcastAddress ∧ d.adoptAddress.adopting = none ∧
      d.adoptAddress.cached = d.cached ∧ d.adoptAddress.cachedValid = d.cachedValid := by
    cases had : d.adopting with
    | none => simp [adoptAddress, had, ha]
    | some a => simp [adoptAddress, had, hadopt a had]
  obtain ⟨h1, h2, h3, h4⟩ := haddr
  generalize d.adoptAddress = e at h1 h2 h3 h4
  rw [← h3, ← h4] at hc
  cases hk : e.adoptingKey with
  | none =>
    rw [adoptKey_of_none hk]
    exact ⟨h1, hc, ⟨h2, hk⟩⟩
  | some k =>
    simp only [adoptKey, hk, refreshCapabilities]
    split <;> exact ⟨h1, hc, ⟨h2, rfl⟩⟩

/-- What `replyTo` emits from: the address and the cache of the device, and an address to adopt
that a device may have. -/
theorem answerFor_unicast (h : d.Unicast) (f : Frame) (seq : UInt8) (rndB : Rnd) :
    (d.answerFor f seq rndB).2.2.address = d.address ∧
      (d.answerFor f seq rndB).2.2.cached = d.cached ∧
      (d.answerFor f seq rndB).2.2.cachedValid = d.cachedValid ∧
      (∀ a, (d.answerFor f seq rndB).2.2.adopting = some a → a ≠ broadcastAddress) := by
  obtain ⟨s, p, o, a, k, hdev⟩ := answerFor_device d f seq rndB
  refine ⟨by rw [hdev], by rw [hdev], by rw [hdev], ?_⟩
  intro a' ha'
  cases hdisp : d.dispatchFor f seq with
  | none =>
    obtain ⟨s, m, block, he, -⟩ := answerFor_of_none hdisp rndB
    rw [he] at ha'
    have hnone : d.adopting = some a' := ha'
    rw [h.settled.1] at hnone
    cases hnone
  | some q =>
    obtain ⟨payload, secured⟩ := q
    obtain ⟨s, he, -⟩ := answerFor_of_dispatchFor hdisp rndB
    rw [he] at ha'
    have hadopting := (dispatch_adopting { d with session := s } f.code payload secured).1
    simp only [tableAnswer] at ha'
    rcases hadopting with hsame | ⟨a'', ha'', -, hu⟩
    · have hnone : d.adopting = some a' := hsame.symm.trans ha'
      rw [h.settled.1] at hnone
      cases hnone
    · rw [ha''] at ha'
      cases ha'
      exact hu

/-- **`Handle` keeps the addresses**, and a reply comes from one of them. -/
theorem handle_unicast (h : d.Unicast) (now : ℤ) (rndB : Rnd) (f : Frame) :
    (d.handle now rndB f).2.Unicast ∧
      ∀ r, (d.handle now rndB f).1 = .ok r → r.address ≠ broadcastAddress := by
  obtain ⟨-, e, -, he⟩ | ⟨-, hrep, he⟩ | ⟨-, -, he⟩ := handle_cases d now rndB f
  · rw [he]
    exact ⟨h, by simp⟩
  · rw [he]
    have hobs := unicast_observe h now
    refine ⟨hobs, ?_⟩
    rintro r hr
    cases hr
    simp only [replays, Bool.and_eq_true] at hrep
    exact hobs.cached hrep.1.2
  · rw [he, replyTo]
    have hopen := unicast_opening h now f
    obtain ⟨haddr, hcached, hvalid, hadopt⟩ :=
      answerFor_unicast hopen f f.control.sequence rndB
    generalize (d.opening now f).answerFor f f.control.sequence rndB = ans at haddr hcached hvalid hadopt ⊢
    obtain ⟨err, s, hemit⟩ | ⟨g, s, hemit, -, hg⟩ := emit_cases ans.2.2 f f.control.sequence ans.1 ans.2.1
    · rw [hemit]
      refine ⟨⟨?_, ?_, ⟨rfl, rfl⟩⟩, by simp⟩
      · rw [haddr]
        exact hopen.address
      · rw [hcached, hvalid]
        exact hopen.cached
    · rw [hemit]
      have hg' : g.address ≠ broadcastAddress := by
        rw [hg.address, haddr]
        exact hopen.address
      refine ⟨unicast_adopted ?_ ?_ ?_, ?_⟩
      · unfold stored
        split <;> (rw [haddr]; exact hopen.address)
      · unfold stored
        split
        · simp
        · exact fun _ => hg'
      · unfold stored
        split <;> exact hadopt
      · rintro r hr
        cases hr
        exact hg'

end Pd.Device

/-! ## The line -/

namespace Line

/-- What holds between the exchanges of every line. -/
structure Sound (l : Line) : Prop where
  number : l.panel.repeatSequence = true → IsNumber l.panel.seq
  enrolled : l.panel.Enrolled
  device : l.device.Unicast

variable {l : Line}

/-- The next number of a sound line is one. -/
theorem Sound.isNumber (h : l.Sound) : IsNumber l.panel.number :=
  Bus.Device.isNumber_number h.number

/-- The device's turn leaves the panel alone, and what comes back is from an address of its own. -/
theorem carry_spec (h : l.device.Unicast) (x : Exchange) (f : Frame) :
    (l.carry x f).2.panel = l.panel ∧ (l.carry x f).2.device.Unicast ∧
      ∀ r, (l.carry x f).1 = some r → r.address ≠ broadcastAddress := by
  have hserve : (l.serve x f).2.panel = l.panel ∧ (l.serve x f).2.device.Unicast ∧
      ∀ r, (l.serve x f).1 = some r → r.address ≠ broadcastAddress := by
    unfold serve
    split
    · obtain ⟨hdevice, hreply⟩ := Pd.Device.handle_unicast h x.now x.rndB f
      split
      · rename_i r d hh
        rw [hh] at hdevice hreply
        refine ⟨rfl, hdevice, ?_⟩
        rintro r' hr'
        cases hr'
        exact hreply r rfl
      · rename_i e d hh
        rw [hh] at hdevice
        exact ⟨rfl, hdevice, by simp⟩
    · exact ⟨rfl, h, by simp⟩
  unfold carry
  split
  · exact ⟨rfl, h, by simp⟩
  · exact ⟨hserve.1, hserve.2.1, by simp⟩
  · exact hserve

/-- The panel's turn leaves the device alone. -/
theorem await_device (b : Bus) (l : Line) (x : Exchange) (r : Option Frame) :
    (l.await b x r).2.device = l.device ∧ (l.await b x r).2.serving = l.serving := by
  unfold await
  split
  · exact ⟨rfl, rfl⟩
  · split
    · exact ⟨rfl, rfl⟩
    · split <;> exact ⟨rfl, rfl⟩

/-- The panel's turn as one of three: a silence, a reply, or a reply that is taken for a silence. -/
theorem await_panel (b : Bus) (l : Line) (x : Exchange) (r : Option Frame) :
    (r = none ∧ (l.await b x r).2.panel = (Bus.timeout l.panel).2) ∨
    ∃ a, r = some a ∧ ((l.await b x r).2.panel = (Bus.reply b l.panel a).2 ∨
      (l.await b x r).2.panel = (Bus.timeout (Bus.reply b l.panel a).2).2) := by
  unfold await
  split
  · exact .inl ⟨rfl, rfl⟩
  · rename_i a
    refine .inr ⟨a, rfl, ?_⟩
    split
    · rename_i e p hreply
      exact .inl (by rw [hreply])
    · rename_i e p hreply
      split
      · exact .inr (by rw [hreply]; rfl)
      · exact .inl (by rw [hreply])

/-- No exchange brings back a command the panel no longer owes. -/
theorem await_outstanding (b : Bus) (l : Line) (x : Exchange) (r : Option Frame) :
    (l.await b x r).2.panel.outstanding <:+ l.panel.outstanding := by
  have hreply : ∀ a, (Bus.reply b l.panel a).2.outstanding <:+ l.panel.outstanding := fun a =>
    ⟨_, (Bus.reply_outstanding b l.panel a).symm⟩
  obtain ⟨-, he⟩ | ⟨a, -, he | he⟩ := l.await_panel b x r
  · rw [he, Bus.timeout_outstanding]
  · rw [he]
    exact hreply a
  · rw [he, Bus.timeout_outstanding]
    exact hreply a

/-- An exchange adds nothing to what is outstanding. -/
theorem exchange_outstanding (b : Bus) (h : l.device.Unicast) (x : Exchange) :
    (l.exchange b x).2.panel.outstanding <:+ l.panel.outstanding := by
  have hnext : (Bus.transact b l.panel x.rndA).2.outstanding <:+ l.panel.outstanding :=
    ⟨_, (Bus.transact_outstanding b l.panel x.rndA).symm⟩
  unfold exchange
  split
  · rename_i e p htransact
    rw [htransact] at hnext
    exact hnext
  · rename_i f p htransact
    rw [htransact] at hnext
    refine (await_outstanding b _ x _).trans ?_
    rw [(carry_spec (l := { l with panel := p }) h x f).1]
    exact hnext

/-- A number that is repeated is the one that was sent. -/
theorem await_number (b : Bus) (l : Line) (x : Exchange) (r : Option Frame)
    (hrep : (l.await b x r).2.panel.repeatSequence = true) :
    (l.await b x r).2.panel.seq = l.panel.seq := by
  have hreply : ∀ a, (Bus.reply b l.panel a).2.repeatSequence = true →
      (Bus.reply b l.panel a).2.seq = l.panel.seq := by
    intro a ha
    rcases Bus.reply_number b l.panel a with h | ⟨h, -⟩
    · rw [ha] at h
      cases h
    · exact h
  obtain ⟨-, he⟩ | ⟨a, -, he | he⟩ := l.await_panel b x r
  · rw [he] at hrep ⊢
    rcases Bus.timeout_number l.panel with h | ⟨h, -⟩
    · rw [hrep] at h
      cases h
    · exact h
  · rw [he] at hrep ⊢
    exact hreply a hrep
  · rw [he] at hrep ⊢
    rcases Bus.timeout_number (Bus.reply b l.panel a).2 with h | ⟨h, hsome⟩
    · rw [hrep] at h
      cases h
    · rw [h]
      -- either the reply was not for this device, or nothing was left in flight to repeat
      rcases Bus.reply_inflight b l.panel a with hnone | ⟨e, hsame⟩
      · refine hreply a ?_
        rw [hrep, hnone] at hsome
        simpa using hsome.symm
      · rw [hsame]

/-- The channel does not touch the panel. -/
theorem carry_panel (l : Line) (x : Exchange) (f : Frame) : (l.carry x f).2.panel = l.panel := by
  have hserve : (l.serve x f).2.panel = l.panel := by
    unfold serve
    split
    · split <;> rfl
    · rfl
  unfold carry
  split
  · rfl
  · exact hserve
  · exact hserve

/-- An exchange keeps a number to repeat. -/
theorem exchange_number (b : Bus) (h : l.panel.repeatSequence = true → IsNumber l.panel.seq)
    (x : Exchange) (hrep : (l.exchange b x).2.panel.repeatSequence = true) :
    IsNumber (l.exchange b x).2.panel.seq := by
  have hnext := Bus.transact_number b l.panel x.rndA
  unfold exchange at hrep ⊢
  split at hrep
  · rename_i e p htransact
    rw [htransact] at hnext
    rcases hnext with ⟨-, hno⟩ | ⟨hseq, hsame⟩
    · rw [show p.repeatSequence = false from hno] at hrep
      cases hrep
    · rw [show p.seq = l.panel.seq from hseq]
      exact h (hsame ▸ hrep)
  · rename_i f p htransact
    rw [await_number b _ x _ hrep, carry_panel, (Bus.transact_ok htransact).seq,
      Bus.commandFor_number]
    exact Bus.Device.isNumber_number h

/-- The panel's turn keeps what is enrolled. -/
theorem await_enrolled (b : Bus) (h : l.panel.Enrolled) (x : Exchange) (r : Option Frame)
    (hr : ∀ a, r = some a → a.address ≠ broadcastAddress) : (l.await b x r).2.panel.Enrolled := by
  obtain ⟨-, he⟩ | ⟨a, ha, he | he⟩ := l.await_panel b x r
  · rw [he]
    exact Bus.timeout_enrolled h
  · rw [he]
    exact Bus.reply_enrolled b h (hr a ha)
  · rw [he]
    exact Bus.timeout_enrolled (Bus.reply_enrolled b h (hr a ha))

/-- An exchange asks the device at most one command. -/
theorem exchange_device (b : Bus) (l : Line) (x : Exchange) :
    (l.exchange b x).2.device = l.device ∨
      ∃ f, (l.exchange b x).2.device = (l.device.handle x.now x.rndB f).2 := by
  unfold exchange
  split
  · exact .inl rfl
  · rename_i f p _
    rw [(await_device b _ x _).1]
    have hserve : ({ l with panel := p }.serve x f).2.device = l.device ∨
        ({ l with panel := p }.serve x f).2.device = (l.device.handle x.now x.rndB f).2 := by
      unfold serve
      split
      · split <;> rename_i he <;> exact .inr (by rw [he])
      · exact .inl rfl
    have hserved : ({ l with panel := p }.serve x f).2.device = l.device ∨
        ∃ g, ({ l with panel := p }.serve x f).2.device = (l.device.handle x.now x.rndB g).2 :=
      hserve.imp_right fun h => ⟨f, h⟩
    unfold carry
    split
    · exact .inl rfl
    · exact hserved
    · exact hserved

/-- What a command keeps of the device, an exchange keeps. -/
theorem exchange_keeps {P : Pd.Device → Prop} (b : Bus) (x : Exchange) (h : P l.device)
    (hhandle : ∀ f, P (l.device.handle x.now x.rndB f).2) : P (l.exchange b x).2.device := by
  obtain he | ⟨f, he⟩ := exchange_device b l x
  · rw [he]
    exact h
  · rw [he]
    exact hhandle f

/-- **Every exchange keeps a line sound.** -/
theorem sound_exchange (b : Bus) (h : l.Sound) (x : Exchange) : (l.exchange b x).2.Sound := by
  have henrolled := Bus.transact_enrolled b h.enrolled x.rndA
  refine ⟨exchange_number b h.number x, ?_, ?_⟩ <;> unfold exchange <;> split
  · rename_i e p htransact
    rw [htransact] at henrolled
    exact henrolled
  · rename_i f p htransact
    rw [htransact] at henrolled
    obtain ⟨hpanel, -, hreply⟩ := carry_spec (l := { l with panel := p }) h.device x f
    exact await_enrolled b (by rw [hpanel]; exact henrolled) x _ hreply
  · exact h.device
  · rename_i f p htransact
    rw [(await_device b _ x _).1]
    exact (carry_spec (l := { l with panel := p }) h.device x f).2.1

end Line

end Osdp
