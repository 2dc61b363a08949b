import Osdp.Analysis.Representation

/-!
# Questions and answers

What the device says to the commands of enrolment, what the panel's dispatcher makes of a
message as far as its standing with the device goes, and what an exchange over a line that
loses nothing can come to. The proofs about whole runs that follow start from these.
-/

set_option autoImplicit false

namespace Osdp

open Osdp.Secure (Session Rnd BaseKey)

/-! ## The device -/

namespace Pd.Device

variable {f : Frame} {d : Device}

/-- A command in the clear is answered in the clear, from the table or with a refusal. -/
theorem answerFor_plain (d : Device) (hs : f.security = none) (seq : UInt8) (rndB : Rnd) :
    (d.answerFor f seq rndB).2.1 = none ∧
      ((∃ reason, (d.answerFor f seq rndB).1 = nak reason) ∨
        (d.answerFor f seq rndB).1 = (d.dispatch f.code f.data false).1) := by
  unfold answerFor
  split
  · exact ⟨rfl, .inl ⟨_, rfl⟩⟩
  · simp only [answer, hs]
    split
    · exact ⟨rfl, .inl ⟨_, rfl⟩⟩
    · exact ⟨rfl, .inr rfl⟩

/-- The table runs on the payload of a command of an established session only. -/
theorem dispatchOf_secured {payload : Octets} (h : d.dispatchOf f = some (payload, true)) :
    ∃ block, f.security = some block ∧ Secure.BlockType.established block.type = true := by
  unfold dispatchOf at h
  split at h
  · split at h <;> cases h
  · rename_i block hb
    split at h
    · rename_i hen
      refine ⟨block, hb, ?_⟩
      rcases hen.2 with ht | ht <;> (rw [ht]; decide)
    · cases h

/-- **The table's rows whose replies enrol.** -/
theorem dispatch_enrols (hd : ∀ m ∈ d.pending, Code.enrols m.code = false) (hh : d.Civil)
    {code : Code} {data : Octets} {secured : Bool}
    (h : Code.enrols (d.dispatch code data secured).1.code = true) :
    (code = Code.id ∧ (d.dispatch code data secured).1 =
      { code := Code.pdID, data := appendDeviceID [] d.cfg.identity }) ∨
    (code = Code.cap ∧ (d.dispatch code data secured).1 =
      { code := Code.pdCap, data := CapabilityReport.append d.capabilities [] }) ∨
    (code = Code.comSet ∧ (d.dispatch code data secured).1.code = Code.com) := by
  by_cases hcode : Code.endsSession code = false
  · rw [(dispatch_ordinary hd hh hcode data secured).1] at h
    cases h
  · simp only [Code.endsSession, Bool.not_eq_false, Bool.or_eq_true, beq_iff_eq] at hcode
    obtain ((rfl | rfl) | rfl) | rfl := hcode
    · exact .inl ⟨rfl, rfl⟩
    · exact .inr (.inl ⟨rfl, rfl⟩)
    · refine .inr (.inr ⟨rfl, ?_⟩)
      have hrow : d.dispatch Code.comSet data secured = d.applyCommunication data := rfl
      rw [hrow] at h ⊢
      unfold applyCommunication at h ⊢
      split at h
      · cases h
      · split at h
        · cases h
        · rename_i hvalid
          rw [if_neg hvalid]
    · -- an `osdp_KEYSET` is acknowledged or refused
      have hrow : d.dispatch Code.keySet data secured =
          if secured then d.installKey data else (nak .secureRequired, d) := rfl
      rw [hrow] at h
      split at h
      · unfold installKey at h
        split at h
        · cases h
        · split at h <;> cases h
      · cases h

/-- A reply that names the device says what it is, and travels under a block only if the command
was one of an established session. -/
theorem answerFor_pdID (hd : ∀ m ∈ d.pending, Code.enrols m.code = false) (hh : d.Civil)
    {seq : UInt8} {rndB : Rnd} (h : (d.answerFor f seq rndB).1.code = Code.pdID) :
    (d.answerFor f seq rndB).1.data = appendDeviceID [] d.cfg.identity ∧
      ((d.answerFor f seq rndB).2.1 = none ∨
        ∃ block, f.security = some block ∧ Secure.BlockType.established block.type = true) := by
  cases hdisp : d.dispatchFor f seq with
  | none =>
    obtain ⟨s, m, block, he, -, hcode⟩ := answerFor_of_none hdisp rndB
    rw [he] at h
    simp only at h
    rw [h] at hcode
    obtain hc | hc | ⟨hc, -⟩ := hcode <;> exact absurd hc (by decide)
  | some q =>
    obtain ⟨payload, secured⟩ := q
    obtain ⟨s, he, -⟩ := answerFor_of_dispatchFor hdisp rndB
    rw [he] at h ⊢
    simp only [tableAnswer] at h ⊢
    have henrols : Code.enrols ({ d with session := s }.dispatch f.code payload secured).1.code =
        true := by
      rw [h]
      rfl
    refine ⟨?_, ?_⟩
    · obtain ⟨-, hm⟩ | ⟨-, hm⟩ | ⟨-, hm⟩ :=
        dispatch_enrols (d := { d with session := s }) hd hh henrols
      · rw [hm]
      · rw [hm] at h
        exact absurd (show Code.pdCap = Code.pdID from h) (by decide)
      · rw [hm] at h
        exact absurd h (by decide)
    · cases secured with
      | false => exact .inl rfl
      | true =>
        right
        unfold dispatchFor at hdisp
        split at hdisp
        · cases hdisp
        · exact dispatchOf_secured hdisp

end Pd.Device

/-! ## The panel -/

/-- The events by which the bus says that it puts a device back to the start of enrolment. A
failed handshake is announced by the same event as a session that was dropped, but leaves the
device online. -/
def Bus.Event.announcesRestart : Bus.Event → Bool
  | .offline | .resync | .secureFailed | .communication _ _ => true
  | _ => false

namespace Bus

/-- The step of the handshake that waits to be sent, if one does, is the server's cryptogram. -/
def Device.Scripted (d : Device) : Prop :=
  ∀ step, d.pending = some step → step.block = { type := Secure.scs13 }

/-- **What the dispatcher makes of a message, as far as enrolment goes.** The device is named, or
moves away, or stays as it was named; only a device that was offline can be left so without a
restart. -/
inductive Told (d : Device) (m : Message) (r : Except Error Event × Device) : Prop where
  | named (id : DeviceID) (hm : m.code = Code.pdID) (hid : parseDeviceID m.data = some id)
      (he : r = (.ok (.identified id), { d with id := id, state := .identifying }))
  | moved (c : Communication)
      (he : r = (.ok (.communication c d.address), { d with address := c.address }.resync))
  | other (hid : r.2.id = d.id) (hoffline : r.2.state = .offline → d.state = .offline)
      (hnumber : r.2.address = d.address ∧ r.2.seq = d.seq ∧ r.2.repeatSequence = d.repeatSequence)
      (hscript : d.Scripted → r.2.Scripted)
      (hrefused : m.code = Code.nak → r.2.state = d.state ∧ r.2.session = d.session ∧
        ∀ caps, r.1 ≠ .ok (.online caps))
      (hunnamed : m.code = Code.pdID → r = (.error .shortPayload, d))
      (hrestart : ∀ e, r.1 = .ok e → e.announcesRestart = true → r.2.state ≠ .offline)

variable {d p : Device} {m : Message} {f : Frame} {b : Bus} {rndA : Rnd}

/-- A row for another code than those of `osdp_NAK` and `osdp_PDID`. -/
theorem told_other {r : Except Error Event × Device} (hm : m.code ≠ Code.nak ∧ m.code ≠ Code.pdID)
    (hid : r.2.id = d.id) (hoffline : r.2.state = .offline → d.state = .offline)
    (hnumber : r.2.address = d.address ∧ r.2.seq = d.seq ∧ r.2.repeatSequence = d.repeatSequence)
    (hscript : d.Scripted → r.2.Scripted)
    (hrestart : ∀ e, r.1 = .ok e → e.announcesRestart = true → r.2.state ≠ .offline) : Told d m r :=
  .other hid hoffline hnumber hscript (absurd · hm.1) (absurd · hm.2) hrestart

/-- A step of the handshake that fails. -/
theorem told_failed (hm : m.code ≠ Code.nak ∧ m.code ≠ Code.pdID) :
    Told d m (.ok .secureFailed, { d.abandonSecure with state := .online }) :=
  told_other hm rfl nofun ⟨rfl, rfl, rfl⟩ (fun _ => nofun) fun _ _ _ => nofun

/-- A report tells of no identity and no refusal. -/
theorem afterCapabilities_told (b : Bus) (report : CapabilityReport)
    (hm : m.code ≠ Code.nak ∧ m.code ≠ Code.pdID) (e : Event) :
    Told d m (.ok e, afterCapabilities b { d with caps := report }) := by
  have hst : (afterCapabilities b { d with caps := report }).state ≠ .offline := by
    unfold afterCapabilities
    simp only
    repeat' split
    all_goals simp
  obtain ⟨st, se, de, heq⟩ := afterCapabilities_eq b { d with caps := report }
  refine told_other hm ?_ (absurd · hst) ?_ ?_ fun _ _ _ => hst
  · rw [heq]
  · rw [heq]
    exact ⟨rfl, rfl, rfl⟩
  · rw [heq]
    exact id

/-- **What a message tells of enrolment.** -/
theorem dispatch_told (b : Bus) (d : Device) (m : Message) : Told d m (dispatch b d m) := by
  have hne : ∀ {c : Code}, m.code = c → c ≠ Code.nak → c ≠ Code.pdID →
      m.code ≠ Code.nak ∧ m.code ≠ Code.pdID := by
    rintro c rfl h1 h2
    exact ⟨h1, h2⟩
  -- many rows return the record as it was
  have hsame : ∀ {e : Event}, m.code ≠ Code.nak ∧ m.code ≠ Code.pdID →
      e.announcesRestart = false → Told d m (.ok e, d) := by
    intro e hm he
    refine told_other hm rfl id ⟨rfl, rfl, rfl⟩ id ?_
    rintro e ⟨⟩ hr
    rw [he] at hr
    cases hr
  apply dispatch_rows b d m (motive := Told d m)
  case malformed =>
    exact fun _ => .other rfl id ⟨rfl, rfl, rfl⟩ id (fun _ => ⟨rfl, rfl, fun _ => nofun⟩)
      (fun _ => rfl) fun _ => nofun
  case identified => exact fun i h hi => .named i h hi rfl
  case capabilities =>
    exact fun report e h _ _ => afterCapabilities_told b report (hne h (by decide) (by decide)) e
  case status =>
    rintro ss e h he
    have hm : m.code ≠ Code.nak ∧ m.code ≠ Code.pdID :=
      ⟨ne_of_mem_of_not_mem h (by decide), ne_of_mem_of_not_mem h (by decide)⟩
    obtain rfl | ⟨changed, -, rfl⟩ := he
    · exact told_other hm rfl id ⟨rfl, rfl, rfl⟩ id (by rintro e ⟨⟩ ⟨⟩)
    · exact told_other hm rfl id ⟨rfl, rfl, rfl⟩ id (by rintro e ⟨⟩ ⟨⟩)
  case cryptogram =>
    intro h
    have hm := hne h (by decide) (by decide)
    obtain he | ⟨s, s', out, -, -, he⟩ := onCryptogram_cases d m.data
    · rw [he]
      exact told_failed hm
    · rw [he]
      refine told_other hm rfl id ⟨rfl, rfl, rfl⟩ ?_ (by rintro e ⟨⟩ ⟨⟩)
      rintro - step ⟨⟩
      rfl
  case initialRMAC =>
    intro h
    have hm := hne h (by decide) (by decide)
    obtain he | ⟨s, s', u, -, -, he⟩ := onInitialRMAC_cases d m.data
    · rw [he]
      exact told_failed hm
    · rw [he]
      exact told_other hm rfl nofun ⟨rfl, rfl, rfl⟩ id fun _ _ _ => nofun
  case card => exact fun _ h _ => hsame (hne h (by decide) (by decide)) rfl
  case keypad => exact fun _ h _ => hsame (hne h (by decide) (by decide)) rfl
  case refused =>
    intro reason h
    refine .other rfl id ⟨rfl, rfl, rfl⟩ id (fun _ => ⟨rfl, rfl, fun _ => nofun⟩) (fun hn => ?_)
      (by rintro e ⟨⟩ ⟨⟩)
    rw [h] at hn
    exact absurd hn (by decide)
  case manufacturer => exact fun _ h _ => hsame (hne h (by decide) (by decide)) rfl
  case moved => exact fun c _ _ => .moved c rfl
  case busy =>
    intro h
    have hm := hne h (by decide) (by decide)
    rw [Device.reclaim_eq]
    split <;> exact told_other hm rfl id ⟨rfl, rfl, rfl⟩ id (by rintro e ⟨⟩ ⟨⟩)
  case installed =>
    exact fun k h _ _ => told_other (hne h (by decide) (by decide)) rfl nofun ⟨rfl, rfl, rfl⟩
      (fun _ _ => nofun) fun _ _ _ => nofun
  case answer =>
    intro h
    have hm : m.code ≠ Code.nak ∧ m.code ≠ Code.pdID :=
      ⟨fun hn => h (hn ▸ by decide), fun hn => h (hn ▸ by decide)⟩
    obtain ⟨hoff, he⟩ | ⟨-, he⟩ := onAnswer_cases d
    · rw [he]
      exact told_other hm rfl nofun ⟨rfl, rfl, rfl⟩ id fun _ _ _ => nofun
    · rw [he]
      exact hsame hm rfl

/-- Without a session that is established a reply is taken as it is, and with one a reply in the
clear is not taken. -/
theorem openIfEstablished_clear {e : Device} {g : Frame} (hf : f.security = none)
    (h : openIfEstablished d f = .ok (g, e)) : d.secureEstablished = false ∧ g = f := by
  unfold openIfEstablished at h
  split at h
  · rename_i hs
    cases h
    exact ⟨by simp [Device.secureEstablished, hs], rfl⟩
  · rename_i s hs
    split at h
    · simp [openReply, hf] at h
    · rename_i hest
      cases h
      exact ⟨by simpa [Device.secureEstablished, hs] using hest, rfl⟩

/-! ## What waits at the panel -/

/-- `Send` touches the outbox only. -/
theorem send_queue (b : Bus) (d : Device) (m : Message) :
    ∃ o, (send b d m).2 = { d with outbox := o } := by
  unfold send
  split
  · exact ⟨_, rfl⟩
  · exact ⟨_, rfl⟩

/-- `InstallKey` touches the outbox and the key that waits. -/
theorem installKey_queue (d : Device) (key : BaseKey) :
    ∃ o k, (installKey d key).2 = { d with outbox := o, pendingKey := k } := by
  unfold installKey
  split
  · exact ⟨_, _, rfl⟩
  · exact ⟨_, _, rfl⟩

/-! ## The panel's questions -/

/-- The questions of enrolment, in the clear. They can be asked of every address a frame can
carry. -/
theorem transact_enrolling (b : Bus) (hv : Address.valid d.address = true) {c : Code}
    (hc : (d.state = .offline ∧ c = Code.id) ∨ (d.state = .identifying ∧ c = Code.cap)) (rndA : Rnd) :
    transact b d rndA = (.ok (plainFrame b d { code := c, data := [0x00] }),
      { d with seq := d.number, repeatSequence := false }) := by
  rw [← compose_none b d _ hv]
  obtain ⟨hst, rfl⟩ | ⟨hst, rfl⟩ := hc <;> simp only [transact, commandFor, hst]

/-- A question leaves the panel's standing with the device alone, except that a handshake which
cannot be begun is given up. -/
theorem transact_standing (b : Bus) (d : Device) (rndA : Rnd) :
    (transact b d rndA).2.id = d.id ∧ (transact b d rndA).2.address = d.address ∧
      (((transact b d rndA).2.state = d.state ∧ (d.state ≠ .secureHandshake →
          (transact b d rndA).2.secureEstablished = d.secureEstablished)) ∨
        (d.state = .secureHandshake ∧ (transact b d rndA).2.state = .online)) := by
  obtain ⟨q, r, s, he⟩ :=
    compose_device b (commandFor d rndA).2.2 (commandFor d rndA).1 (commandFor d rndA).2.1
  have hest : (transact b d rndA).2.secureEstablished = (commandFor d rndA).2.2.secureEstablished :=
    compose_secureEstablished b (commandFor d rndA).2.2 (commandFor d rndA).1 (commandFor d rndA).2.1
  have hfields : (transact b d rndA).2.id = (commandFor d rndA).2.2.id ∧
      (transact b d rndA).2.address = (commandFor d rndA).2.2.address ∧
      (transact b d rndA).2.state = (commandFor d rndA).2.2.state := by
    simp only [transact, he, and_self]
  rw [hest, hfields.1, hfields.2.1, hfields.2.2]
  obtain ⟨m, -, hc⟩ | ⟨-, -, hc⟩ | ⟨-, -, hc⟩ | ⟨-, hst, hc⟩ | ⟨-, -, hc⟩ := commandFor_cases d rndA
  · rw [hc]
    exact ⟨rfl, rfl, .inl ⟨rfl, fun _ => rfl⟩⟩
  · rw [hc]
    exact ⟨rfl, rfl, .inl ⟨rfl, fun _ => rfl⟩⟩
  · rw [hc]
    exact ⟨rfl, rfl, .inl ⟨rfl, fun _ => rfl⟩⟩
  · rw [hc]
    unfold handshakeCommand
    split
    · exact ⟨rfl, rfl, .inl ⟨rfl, fun hno => absurd hst hno⟩⟩
    · split
      · exact ⟨rfl, rfl, .inl ⟨rfl, fun hno => absurd hst hno⟩⟩
      · split
        · exact ⟨rfl, rfl, .inr ⟨hst, rfl⟩⟩
        · exact ⟨rfl, rfl, .inl ⟨rfl, fun hno => absurd hst hno⟩⟩
  · rw [hc]
    exact ⟨rfl, rfl, .inl ⟨rfl, fun _ => rfl⟩⟩

/-- Only a panel that is secure and holds an established session sends a command of one. -/
theorem transact_secured {block : SecurityBlock} (hscript : d.Scripted)
    (h : transact b d rndA = (.ok f, p)) (hf : f.security = some block)
    (hblock : Secure.BlockType.established block.type = true) :
    p.secureEstablished = true ∧ d.state = .secure := by
  have hcomposed := transact_ok h
  have hsome : (commandFor d rndA).2.1 = some block := hcomposed.security.symm.trans hf
  have hcompose : compose b (commandFor d rndA).2.2 (commandFor d rndA).1 (some block) = (.ok f, p) := by
    rw [← hsome]
    exact h
  obtain ⟨s, s', m', g, hs, -, hauth, -, rfl⟩ := compose_established hblock hcompose
  obtain ⟨hest, mac, -, -, rfl⟩ := authenticate_frame hauth
  refine ⟨?_, ?_⟩
  · simp only [Device.secureEstablished, Option.any_some, Session.established,
      Secure.Session.commit_state]
    exact hest
  · obtain ⟨m, -, hc⟩ | ⟨-, -, hc⟩ | ⟨-, -, hc⟩ | ⟨-, -, hc⟩ | ⟨-, -, hc⟩ := commandFor_cases d rndA
    · rw [hc] at hsome
      by_contra hst
      rw [if_neg hst] at hsome
      cases hsome
    · rw [hc] at hsome
      cases hsome
    · rw [hc] at hsome
      cases hsome
    · -- the blocks of the handshake are not those of a session
      rw [hc] at hsome
      unfold handshakeCommand at hsome
      split at hsome
      · rename_i step hstep
        cases hsome
        rw [hscript step hstep] at hblock
        cases hblock
      · split at hsome
        · cases hsome
        · split at hsome <;> cases hsome
          cases hblock
    · rw [hc] at hsome
      by_contra hst
      rw [if_neg hst] at hsome
      cases hsome

/-- Asking keeps to the script of the handshake. -/
theorem transact_scripted (b : Bus) (h : d.Scripted) (rndA : Rnd) :
    (transact b d rndA).2.Scripted := by
  obtain ⟨q, r, s, he⟩ :=
    compose_device b (commandFor d rndA).2.2 (commandFor d rndA).1 (commandFor d rndA).2.1
  have hcommand : (commandFor d rndA).2.2.Scripted := by
    obtain ⟨m, -, hc⟩ | ⟨-, -, hc⟩ | ⟨-, -, hc⟩ | ⟨-, -, hc⟩ | ⟨-, -, hc⟩ := commandFor_cases d rndA
    · rw [hc]
      exact h
    · rw [hc]
      exact h
    · rw [hc]
      exact h
    · rw [hc]
      unfold handshakeCommand
      split
      · exact nofun
      · split
        · exact h
        · split
          · exact nofun
          · exact h
    · rw [hc]
      exact h
  simp only [transact, he]
  exact hcommand

/-- What every question has of the record it was asked from. -/
structure Put (d : Device) (f : Frame) (p : Device) : Prop where
  address : f.address = d.address
  valid : Address.valid d.address = true
  number : f.control.sequence = d.number
  check : f.checkOK = true
  seq : p.seq = d.number
  repeatSequence : p.repeatSequence = false

/-- **What a command is put out as.** -/
theorem transact_put (hn : IsNumber d.number) (h : transact b d rndA = (.ok f, p)) : Put d f p := by
  have hc := transact_ok h
  have hnum := commandFor_number d rndA
  have haddr := commandFor_address d rndA
  exact { address := hc.address.trans haddr, valid := haddr ▸ hc.valid,
          number := by rw [hc.number (hnum ▸ hn.le), hnum], check := hc.check,
          seq := hc.seq.trans hnum, repeatSequence := hc.repeatSequence }

end Bus

/-! ## An exchange -/

/-- What the panel hears of a reply. -/
def Exchange.returns (x : Exchange) (r : Option Frame) : Option Frame :=
  if x.fate = .delivered then r else none

/-- Nothing comes back as nothing. -/
@[simp] theorem Exchange.returns_none (x : Exchange) : x.returns none = none := ite_self _

namespace Line

/-- One operation on a line. -/
def step (b : Bus) (l : Line) : LineOp → Line
  | .send m => { l with panel := (Bus.send b l.panel m).2 }
  | .installKey key => { l with panel := (Bus.installKey l.panel key).2 }
  | .report r => { l with device := (l.device.report r).2 }
  | .exchange x => (l.exchange b x).2

/-- The frame of an exchange, and the panel that awaits its answer. -/
def asks (b : Bus) (l : Line) (x : Exchange) : Option (Frame × Bus.Device) :=
  match Bus.transact b l.panel x.rndA with
  | (.error _, _) => none
  | (.ok f, p) => some (f, p)

/-- Whether the device makes a reply in an exchange. -/
def renews (b : Bus) (l : Line) (x : Exchange) : Bool :=
  (l.asks b x).any fun q => l.serving && x.fate != .commandLost && l.device.heard q.1 &&
    !l.device.replays x.now q.1 && (l.device.handle x.now x.rndB q.1).1.isOk

/-- Whether the device says an old reply again in an exchange. -/
def repeats (b : Bus) (l : Line) (x : Exchange) : Bool :=
  (l.asks b x).any fun q => l.device.replays x.now q.1

/-- The reply the bus processes in an exchange: one that is for the device it asked. -/
def processed (b : Bus) (l : Line) (x : Exchange) : Option Frame :=
  (l.asks b x).bind fun q => ({ l with panel := q.2 }.carry x q.1).1.filter fun r =>
    r.isReply && r.address == q.2.address

variable {b : Bus} {l l' : Line} {x : Exchange} {f : Frame} {p q : Bus.Device} {r : Option Frame}

/-- The panel asks what `Next` gave it. -/
theorem asks_eq (ht : Bus.transact b l.panel x.rndA = (.ok f, p)) : l.asks b x = some (f, p) := by
  simp [asks, ht]

/-- It takes a reply from the address it asked. -/
theorem processed_eq (ht : Bus.transact b l.panel x.rndA = (.ok f, p)) :
    l.processed b x = ({ l with panel := p }.carry x f).1.filter fun r =>
      r.isReply && r.address == p.address := by
  simp [processed, asks_eq ht]

/-- **What an exchange comes to**: no question can be asked; the question does not reach the device;
the device cannot answer and is served no longer; it says its old reply again; or it makes a new
one. -/
inductive Came (b : Bus) (l : Line) (x : Exchange) : Option Bus.Event × Line → Prop where
  | unasked {err : Bus.Error} {p : Bus.Device}
      (ht : Bus.transact b l.panel x.rndA = (.error err, p))
      (hprocessed : l.processed b x = none) (hrenews : l.renews b x = false) :
      Came b l x (none, { l with panel := p })
  | unheard {f : Frame} {p : Bus.Device} (ht : Bus.transact b l.panel x.rndA = (.ok f, p))
      (hs : x.fate = .commandLost ∨ l.serving = false ∨ l.device.heard f = false)
      (hprocessed : l.processed b x = none) (hrenews : l.renews b x = false) :
      Came b l x { l with panel := p }.silence
  | failed {f : Frame} {p : Bus.Device} {e : Pd.Device}
      (ht : Bus.transact b l.panel x.rndA = (.ok f, p)) (hserving : l.serving = true)
      (hheard : l.device.heard f = true)
      (hprocessed : l.processed b x = none) (hrenews : l.renews b x = false) :
      Came b l x { panel := p, device := e, serving := false : Line }.silence
  | repeated {f : Frame} {p : Bus.Device}
      (ht : Bus.transact b l.panel x.rndA = (.ok f, p)) (hserving : l.serving = true)
      (hheard : l.device.heard f = true) (hvalid : l.device.cachedValid = true)
      (hseq : l.device.cachedSeq = f.control.sequence)
      (hprocessed : l.processed b x =
        (x.returns (some l.device.cached)).filter fun r => r.isReply && r.address == p.address)
      (hrepeats : l.repeats b x = true) (hrenews : l.renews b x = false) :
      Came b l x ({ l with panel := p, device := l.device.noticed x.now }.await b x
        (x.returns (some l.device.cached)))
  | answered {f r : Frame} {p : Bus.Device} {e : Pd.Device}
      (ht : Bus.transact b l.panel x.rndA = (.ok f, p)) (hserving : l.serving = true)
      (hheard : l.device.heard f = true) (hreplays : l.device.replays x.now f = false)
      (hh : l.device.handle x.now x.rndB f = (.ok r, e))
      (hr : l.device.Served x.now x.rndB f r e)
      (hprocessed : l.processed b x =
        (x.returns (some r)).filter fun r => r.isReply && r.address == p.address)
      (hrepeats : l.repeats b x = false) (hrenews : l.renews b x = true) :
      Came b l x ({ l with panel := p, device := e }.await b x (x.returns (some r)))

/-- A device that says its reply again has not fallen silent. -/
theorem observe_of_replays {d : Pd.Device} {now : ℤ} (h : d.replays now f = true) :
    d.observe now = d.noticed now := by
  simp only [Pd.Device.replays, Bool.and_eq_true] at h
  unfold Pd.Device.observe at h ⊢
  simp only at h ⊢
  split
  · rename_i hc
    rw [if_pos hc] at h
    exact absurd h.1.2 (by simp [Pd.Device.restart, Pd.Device.dropSession])
  · rfl

/-- What the device says comes back unless it is lost. -/
theorem carry_of_serve (hx : x.fate ≠ .commandLost) (h : l.serve x f = (r, l')) :
    l.carry x f = (x.returns r, l') := by
  cases hf : x.fate with
  | commandLost => exact absurd hf hx
  | replyLost => simp [carry, Exchange.returns, hf, h]
  | delivered => simp [carry, Exchange.returns, hf, h]

/-- An exchange is asking, carrying and the panel's turn. -/
theorem exchange_of_carry (ht : Bus.transact b l.panel x.rndA = (.ok f, p))
    (h : { l with panel := p }.carry x f = (r, l')) : l.exchange b x = l'.await b x r := by
  simp [exchange, ht, h]

/-- **What may come of an exchange.** -/
theorem came (hn : IsNumber l.panel.number) (x : Exchange) : Came b l x (l.exchange b x) := by
  cases ht : Bus.transact b l.panel x.rndA with
  | mk res p =>
    cases res with
    | error err =>
      have hasks : l.asks b x = none := by simp [asks, ht]
      have he : l.exchange b x = (none, { l with panel := p }) := by simp [exchange, ht]
      rw [he]
      exact .unasked ht (by simp [processed, hasks]) (by simp [renews, hasks])
    | ok f =>
      have hasks := asks_eq ht
      have hnumber : IsNumber f.control.sequence := (Bus.transact_put hn ht).number ▸ hn
      by_cases hreach : x.fate = .commandLost ∨ l.serving = false ∨ l.device.heard f = false
      · have hcarry : { l with panel := p }.carry x f = (none, { l with panel := p }) := by
          by_cases hx : x.fate = .commandLost
          · simp [carry, hx]
          · have hserve : { l with panel := p }.serve x f = (none, { l with panel := p }) := by
              obtain hs | hheard := hreach.resolve_left hx
              · simp [serve, hs]
              · obtain ⟨-, err, hno, hh⟩ | ⟨hh, -⟩ | ⟨hh, -⟩ :=
                  Pd.Device.handle_cases l.device x.now x.rndB f
                · cases hs : l.serving <;> simp [serve, hh, hno]
                · rw [hheard] at hh
                  cases hh
                · rw [hheard] at hh
                  cases hh
            rw [carry_of_serve hx hserve, Exchange.returns_none]
        rw [exchange_of_carry ht hcarry]
        refine .unheard ht hreach (by simp [processed_eq ht, hcarry]) ?_
        simp only [renews, hasks, Option.any_some]
        obtain h | h | h := hreach <;> simp [h]
      · simp only [not_or, Bool.not_eq_false] at hreach
        obtain ⟨hx, hs, hheard⟩ := hreach
        obtain ⟨hno, -⟩ | ⟨-, hrep, hh⟩ | ⟨-, hrep, -⟩ :=
          Pd.Device.handle_cases l.device x.now x.rndB f
        · rw [hheard] at hno
          cases hno
        · have hobs := observe_of_replays hrep
          have hserve : { l with panel := p }.serve x f = (some l.device.cached,
              { l with panel := p, device := l.device.noticed x.now }) := by
            simp only [serve, hs, if_true, hh, hobs]
            rfl
          have hcarry := carry_of_serve hx hserve
          rw [exchange_of_carry ht hcarry]
          have hfields := hrep
          simp only [Pd.Device.replays, hobs, Bool.and_eq_true, beq_iff_eq] at hfields
          refine .repeated ht hs hheard hfields.1.2 hfields.2.symm ?_ ?_ ?_
          · rw [processed_eq ht, hcarry]
          · simp [repeats, hasks, hrep]
          · simp [renews, hasks, hrep]
        · obtain ⟨err, e, hh, hno⟩ | ⟨r, e, hh, hr⟩ :=
            Pd.Device.handle_served hheard hrep hnumber x.rndB
          · have hserve : { l with panel := p }.serve x f =
                (none, { panel := p, device := e, serving := false }) := by
              simp [serve, hs, hh, hno]
            have hcarry := carry_of_serve hx hserve
            rw [Exchange.returns_none] at hcarry
            rw [exchange_of_carry ht hcarry]
            refine .failed ht hs hheard (by simp [processed_eq ht, hcarry]) ?_
            simp [renews, hasks, hh, Except.isOk, Except.toBool]
          · have hserve : { l with panel := p }.serve x f =
                (some r, { l with panel := p, device := e }) := by
              simp [serve, hs, hh]
            have hcarry := carry_of_serve hx hserve
            rw [exchange_of_carry ht hcarry]
            refine .answered ht hs hheard hrep hh hr ?_ ?_ ?_
            · rw [processed_eq ht, hcarry]
            · simp [repeats, hasks, hrep]
            · simp [renews, hasks, hs, hx, hheard, hrep, hh, Except.isOk, Except.toBool]

/-- A reply that is taken gives its event. -/
theorem await_ok {r : Frame} {e : Bus.Event} (h : Bus.reply b l.panel r = (.ok e, q)) (x : Exchange) :
    l.await b x (some r) = (some e, { l with panel := q }) := by
  simp only [await, h]

/-- One that is refused counts as silence. -/
theorem await_error {r : Frame} {err : Bus.Error} (h : Bus.reply b l.panel r = (.error err, q))
    (x : Exchange) :
    l.await b x (some r) =
      if x.awaits then { l with panel := q }.silence else (none, { l with panel := q }) := by
  simp only [await, h]

end Line

end Osdp
