import Osdp.Analysis.KeyTransit

/-!
# State and session at the panel

A device's state and its session are two fields, and most of the panel reads only one of
them. `Device.Armed` is what every run keeps: a state that calls for a session has it.
`Device.Agrees` is the whole agreement, in both directions. It fails after exactly the
messages `Device.strays` names: those that take a device out of `Secure` or the handshake
and leave its session where it was.
-/

set_option autoImplicit false

namespace Osdp.Bus

open Osdp.Secure (Session BaseKey Rnd)

namespace Device

/-- A state that calls for a session has one, as far along as the state says. -/
structure Armed (d : Device) : Prop where
  secure : d.state = .secure → ∃ s, d.session = some s ∧ s.established = true
  handshake : d.state = .secureHandshake → ∃ s, d.session = some s ∧ s.established = false

/-- State and session agree. -/
structure Agrees (d : Device) : Prop where
  secure : d.state = .secure ↔ ∃ s, d.session = some s ∧ s.established = true
  handshake : d.state = .secureHandshake ↔ ∃ s, d.session = some s ∧ s.established = false
  plain : d.state ≠ .secure → d.state ≠ .secureHandshake → d.session = none ∧ d.pending = none

variable {d e : Device} {s : Session}

/-- Agreement arms a device. -/
theorem Agrees.armed (h : d.Agrees) : d.Armed := ⟨h.secure.mp, h.handshake.mp⟩

/-- Without a session there is no step of the handshake under way either. -/
theorem Agrees.pending_none (h : d.Agrees) (hs : d.session = none) : d.pending = none := by
  refine (h.plain ?_ ?_).2
  · intro hst
    obtain ⟨s, hses, -⟩ := h.secure.mp hst
    rw [hs] at hses
    cases hses
  · intro hst
    obtain ⟨s, hses, -⟩ := h.handshake.mp hst
    rw [hs] at hses
    cases hses

/-- A state in which nothing travels under a session. -/
def Unsecured (st : State) : Prop := st ≠ .secure ∧ st ≠ .secureHandshake

/-- Outside the two states of a session nothing is asked. -/
theorem armed_plain (hst : Unsecured d.state) : d.Armed :=
  ⟨fun h => absurd h hst.1, fun h => absurd h hst.2⟩

/-- There a device without a session agrees. -/
theorem agrees_plain (hst : Unsecured d.state) (hse : d.session = none) (hpe : d.pending = none) :
    d.Agrees :=
  { secure := ⟨fun h => absurd h hst.1, by rintro ⟨s, hs, -⟩; rw [hse] at hs; cases hs⟩
    handshake := ⟨fun h => absurd h hst.2, by rintro ⟨s, hs, -⟩; rw [hse] at hs; cases hs⟩
    plain := fun _ _ => ⟨hse, hpe⟩ }

/-- Enrolled and the session running. -/
theorem agrees_secure (hst : d.state = .secure) (hse : d.session = some s)
    (hs : s.established = true) : d.Agrees :=
  { secure := ⟨fun _ => ⟨s, hse, hs⟩, fun _ => hst⟩
    handshake := by
      rw [hst, hse]
      exact ⟨fun h => (by cases h), by rintro ⟨t, ht, hne⟩; cases ht; rw [hs] at hne; cases hne⟩
    plain := fun h => absurd hst h }

/-- Half way through the handshake. -/
theorem agrees_handshake (hst : d.state = .secureHandshake) (hse : d.session = some s)
    (hs : s.established = false) : d.Agrees :=
  { secure := by
      rw [hst, hse]
      exact ⟨fun h => (by cases h), by rintro ⟨t, ht, hne⟩; cases ht; rw [hs] at hne; cases hne⟩
    handshake := ⟨fun _ => ⟨s, hse, hs⟩, fun _ => hst⟩
    plain := fun _ h => absurd hst h }

/-- Two devices that differ in nothing the agreement reads: a session may have moved its chain. -/
structure Alike (d e : Device) : Prop where
  state : e.state = d.state
  session : e.session.map Session.established = d.session.map Session.established
  pending : e.pending = d.pending

/-- Alike devices have alike sessions. -/
theorem Alike.exists_iff (h : d.Alike e) (v : Bool) :
    (∃ s, e.session = some s ∧ s.established = v) ↔ ∃ s, d.session = some s ∧ s.established = v := by
  simp only [← Option.map_eq_some_iff, h.session]

/-- An alike device is armed too. -/
theorem Armed.alike (h : d.Armed) (he : d.Alike e) : e.Armed :=
  ⟨fun hst => (he.exists_iff true).mpr (h.secure (he.state ▸ hst)),
    fun hst => (he.exists_iff false).mpr (h.handshake (he.state ▸ hst))⟩

/-- And agrees too. -/
theorem Agrees.alike (h : d.Agrees) (he : d.Alike e) : e.Agrees := by
  refine ⟨?_, ?_, ?_⟩
  · rw [he.state, he.exists_iff, h.secure]
  · rw [he.state, he.exists_iff, h.handshake]
  · rw [he.state, he.pending]
    intro h₁ h₂
    obtain ⟨hs, hp⟩ := h.plain h₁ h₂
    have hmap := he.session
    rw [hs] at hmap
    exact ⟨by simpa using hmap, hp⟩

/-- A device is like itself. -/
theorem alike_refl (d : Device) : d.Alike d := ⟨rfl, rfl, rfl⟩

end Device

/-! ## What a message does -/

/-- Whether a message takes the device out of `Secure` or the handshake and leaves the session:
an `osdp_PDID`, or an `osdp_PDCAP` that does not lead to a new handshake. -/
def Device.strays (b : Bus) (d : Device) (m : Message) : Bool :=
  d.session.isSome &&
    if m.code = Code.pdID then (parseDeviceID m.data).isSome
    else if m.code = Code.pdCap then
      (parseCapabilities m.data).any fun report => !d.begins b report
    else false

/-- What one message keeps. -/
def Keeps (b : Bus) (d : Device) (m : Message) (e : Device) : Prop :=
  (d.Armed → e.Armed) ∧ (d.Agrees → d.strays b m = false → e.Agrees)

variable {b : Bus} {d e : Device} {m : Message} {f : Frame}

/-- What leaves a device alike keeps agreement. -/
theorem keeps_alike (h : d.Alike e) : Keeps b d m e :=
  ⟨fun ha => ha.alike h, fun ha _ => ha.alike h⟩

/-- So does what makes it agree. -/
theorem keeps_agrees (h : e.Agrees) : Keeps b d m e :=
  ⟨fun _ => h.armed, fun _ _ => h⟩

/-- A channel that was given up agrees. -/
theorem failed_agrees (d : Device) : { d.abandonSecure with state := .online }.Agrees :=
  Device.agrees_plain ⟨by simp, by simp⟩ rfl rfl

/-- An answer keeps agreement. -/
theorem onAnswer_keeps (b : Bus) (d : Device) (m : Message) : Keeps b d m (onAnswer d).2 := by
  obtain ⟨hoff, he⟩ | ⟨-, he⟩ := onAnswer_cases d
  · rw [he]
    refine ⟨fun _ => Device.armed_plain ⟨by simp, by simp⟩, fun h _ => ?_⟩
    obtain ⟨hse, hpe⟩ := h.plain (by simp [hoff]) (by simp [hoff])
    exact Device.agrees_plain ⟨by simp, by simp⟩ hse hpe
  · rw [he]
    exact keeps_alike (Device.alike_refl d)

/-- So does a cryptogram. -/
theorem onCryptogram_keeps (b : Bus) (d : Device) (m : Message) :
    Keeps b d m (onCryptogram d m.data).2 := by
  obtain he | ⟨s, s', out, hs, hok, he⟩ := onCryptogram_cases d m.data
  · rw [he]
    exact keeps_agrees (failed_agrees d)
  · obtain ⟨hfrom, hto⟩ := Secure.Session.answerCryptogram_ok hok
    have hne : s.established = false := by simp [Session.established, hfrom]
    have hne' : s'.established = false := by simp [Session.established, hto]
    rw [he]
    -- the session is not established, so the state was not Secure
    constructor
    · intro h
      refine ⟨fun hst => ?_, fun _ => ⟨s', rfl, hne'⟩⟩
      obtain ⟨t, ht, hest⟩ := h.secure hst
      rw [hs] at ht
      cases ht
      rw [hne] at hest
      cases hest
    · intro h _
      exact Device.agrees_handshake (h.handshake.mpr ⟨s, hs, hne⟩) rfl hne'

/-- So does an initial code. -/
theorem onInitialRMAC_keeps (b : Bus) (d : Device) (m : Message) :
    Keeps b d m (onInitialRMAC d m.data).2 := by
  obtain he | ⟨s, s', u, hs, hok, he⟩ := onInitialRMAC_cases d m.data
  · rw [he]
    exact keeps_agrees (failed_agrees d)
  · obtain ⟨-, hto⟩ := Secure.Session.completeHandshake_ok hok
    rw [he]
    exact keeps_agrees (Device.agrees_secure rfl rfl (by simp [Session.established, hto]))

/-- A report keeps it unless it strays. -/
theorem afterCapabilities_keeps (b : Bus) (d : Device) {report : CapabilityReport}
    (h : m.code = Code.pdCap) (hreport : parseCapabilities m.data = some report) :
    Keeps b d m (afterCapabilities b { d with caps := report }) := by
  cases hbegins : d.begins b report with
  | false =>
    obtain ⟨de, he⟩ := afterCapabilities_online hbegins
    rw [he]
    refine ⟨fun _ => Device.armed_plain ⟨by simp, by simp⟩, fun ha hm => ?_⟩
    have hnone : d.session = none := by
      simpa [Device.strays, h, Code.pdCap, Code.pdID, hreport, hbegins] using hm
    exact Device.agrees_plain ⟨by simp, by simp⟩ hnone (ha.pending_none hnone)
  | true =>
    obtain ⟨channel, key, -, -, he⟩ := afterCapabilities_begun hbegins
    rw [he]
    exact keeps_agrees (Device.agrees_handshake rfl rfl rfl)

/-- **What one message keeps**, row by row of the table. -/
theorem dispatch_keepsAgreement (b : Bus) (d : Device) (m : Message) :
    Keeps b d m (dispatch b d m).2 := by
  apply dispatch_rows b d m (motive := fun r => Keeps b d m r.2)
  case malformed => exact fun _ => keeps_alike (Device.alike_refl d)
  case identified =>
    intro id h hid
    refine ⟨fun _ => Device.armed_plain ⟨by simp, by simp⟩, fun ha hm => ?_⟩
    have hse : d.session = none := by simpa [Device.strays, h, hid] using hm
    exact Device.agrees_plain ⟨by simp, by simp⟩ hse (ha.pending_none hse)
  case capabilities => exact fun report _ h hreport _ => afterCapabilities_keeps b d h hreport
  case status => exact fun _ _ _ _ => keeps_alike ⟨rfl, rfl, rfl⟩
  case cryptogram => exact fun _ => onCryptogram_keeps b d m
  case initialRMAC => exact fun _ => onInitialRMAC_keeps b d m
  case card => exact fun _ _ _ => keeps_alike (Device.alike_refl d)
  case keypad => exact fun _ _ _ => keeps_alike (Device.alike_refl d)
  case refused => exact fun _ _ => keeps_alike ⟨rfl, rfl, rfl⟩
  case manufacturer => exact fun _ _ _ => keeps_alike (Device.alike_refl d)
  case moved =>
    intro c _ _
    exact keeps_agrees (Device.agrees_plain
      ⟨by simp [Device.resync_eq], by simp [Device.resync_eq]⟩ rfl rfl)
  case busy =>
    intro _
    rw [Device.reclaim_eq]
    split <;> exact keeps_alike ⟨rfl, rfl, rfl⟩
  case installed =>
    exact fun _ _ _ _ => keeps_agrees (Device.agrees_plain ⟨by simp, by simp⟩ rfl rfl)
  case answer => exact fun _ => onAnswer_keeps b d m

/-- A message that strays leaves the session behind. -/
theorem dispatch_strays (h : d.strays b m = true) : ¬ (dispatch b d m).2.Agrees := by
  simp only [Device.strays, Bool.and_eq_true] at h
  obtain ⟨hse, h⟩ := h
  obtain ⟨s, hs⟩ := Option.isSome_iff_exists.mp hse
  intro ha
  split at h
  · rename_i hcode
    obtain ⟨id, hid⟩ := Option.isSome_iff_exists.mp h
    simp only [dispatch, if_pos hcode, hid] at ha
    have hnone := (ha.plain (by simp) (by simp)).1
    rw [show d.session = none from hnone] at hs
    cases hs
  · rename_i hcode
    split at h
    · rename_i hcap
      obtain ⟨report, hreport, hno⟩ := (Option.any_eq_true _ _).mp h
      obtain ⟨de, hcaps⟩ := afterCapabilities_online (by simpa using hno)
      simp only [dispatch_capabilityReport b d hcap, hreport, hcaps] at ha
      have hnone := (ha.plain (by simp) (by simp)).1
      rw [show d.session = none from hnone] at hs
      cases hs
    · cases h

/-! ## One call -/

/-- Opening a reply and releasing what was in flight change nothing the agreement reads. -/
theorem alike_opened {g : Frame} {s : Option Session}
    (h : openIfEstablished { d with misses := 0 } f = .ok (g, { d with misses := 0, session := s })) :
    d.Alike { d with misses := 0, session := s }.delivered := by
  refine ⟨by simp, ?_, by simp [Device.delivered_eq]⟩
  rw [Device.delivered_session]
  obtain rfl | ⟨t, t', ht, rfl, hte, hte'⟩ := openIfEstablished_session h
  · rfl
  · rw [show d.session = some t from ht]
    simp [Session.established, hte, hte']

/-- Whether a reply strays once it is let through. -/
def Device.straysOn (b : Bus) (d : Device) (f : Frame) : Bool := (d.hears f).any (d.strays b)

/-- Whether a message strays depends on whether there is a session and on what `begins` reads. -/
theorem strays_congr (b : Bus) (hse : e.session.isSome = d.session.isSome)
    (hde : e.secureDeclined = d.secureDeclined) (hin : e.installedKey = d.installedKey)
    (had : e.address = d.address) (m : Message) : e.strays b m = d.strays b m := by
  simp only [Device.strays, Device.begins, Device.baseKey, hse, hde, hin, had]

/-- **What a reply does to agreement.** -/
theorem reply_keepsAgreement (b : Bus) (d : Device) (f : Frame) :
    (d.Armed → (reply b d f).2.Armed) ∧
    (d.Agrees → d.straysOn b f = false → (reply b d f).2.Agrees) ∧
    (d.straysOn b f = true → ¬ (reply b d f).2.Agrees) := by
  have hresync : { d with misses := 0 }.resync.Agrees :=
    Device.agrees_plain ⟨by simp [Device.resync_eq], by simp [Device.resync_eq]⟩
      (by simp [Device.resync_eq]) (by simp [Device.resync_eq])
  obtain ⟨hnot, e, he⟩ | ⟨hr, ha, ⟨hz, he⟩ | ⟨hz, ⟨err, ho⟩, he⟩ | ⟨hz, data, s, ho, he⟩⟩ :=
    reply_cases b d f
  · rw [he]
    refine ⟨id, fun h _ => h, fun h => ?_⟩
    simp [Device.straysOn, Device.hears_of_foreign hnot] at h
  · rw [he]
    refine ⟨fun _ => hresync.armed, fun _ _ => hresync, fun h => ?_⟩
    simp [Device.straysOn, Device.hears, hz] at h
  · rw [he]
    refine ⟨fun _ => hresync.armed, fun _ _ => hresync, fun h => ?_⟩
    simp [Device.straysOn, Device.hears_of_closed ho] at h
  · have hears := Device.hears_eq hr ha hz ho
    have halike := alike_opened ho
    have hisSome : ({ d with misses := 0, session := s }.delivered).session.isSome =
        d.session.isSome := by
      have hmap := congrArg Option.isSome halike.session
      simpa using hmap
    have hstrays : ({ d with misses := 0, session := s }.delivered).strays b
        { code := f.code, isReply := f.isReply, data := data } = d.straysOn b f := by
      rw [Device.straysOn, hears, Option.any_some]
      exact strays_congr b hisSome (by simp [Device.delivered_eq]) (by simp) (by simp) _
    obtain ⟨harmed, hagrees⟩ := dispatch_keepsAgreement b { d with misses := 0, session := s }.delivered
      { code := f.code, isReply := f.isReply, data := data }
    rw [he, ← hstrays]
    exact ⟨fun h => harmed (h.alike halike), fun h hm => hagrees (h.alike halike) hm,
      dispatch_strays⟩

/-- A step of the handshake keeps it. -/
theorem handshakeCommand_keeps (d : Device) (hst : d.state = .secureHandshake) (rndA : Rnd) :
    (d.Armed → (handshakeCommand d rndA).2.2.Armed) ∧
    (d.Agrees → (handshakeCommand d rndA).2.2.Agrees) := by
  unfold handshakeCommand
  split
  · refine ⟨fun h => ⟨h.secure, h.handshake⟩, fun h => ⟨h.secure, h.handshake, ?_⟩⟩
    exact fun _ h' => absurd hst h'
  · split
    · exact ⟨id, id⟩
    · split
      · have hfailed : { d.abandonSecure with state := .online }.Agrees :=
          Device.agrees_plain ⟨by simp, by simp⟩ rfl rfl
        exact ⟨fun _ => hfailed.armed, fun _ => hfailed⟩
      · rename_i s hs chlng s' hok
        have hne : s'.established = false := by
          rw [Secure.Session.beginChallenge_ok hok]
          rfl
        have hbegun : { d with session := some s' }.Agrees := Device.agrees_handshake hst rfl hne
        exact ⟨fun _ => hbegun.armed, fun _ => hbegun⟩

/-- So does a transaction. -/
theorem transact_keepsAgreement (b : Bus) (d : Device) (rndA : Rnd) :
    (d.Armed → (transact b d rndA).2.Armed) ∧ (d.Agrees → (transact b d rndA).2.Agrees) := by
  have hcommand : (d.Armed → (commandFor d rndA).2.2.Armed) ∧
      (d.Agrees → (commandFor d rndA).2.2.Agrees) := by
    have halike : d.Alike (commandFor d rndA).2.2 → (d.Armed → (commandFor d rndA).2.2.Armed) ∧
        (d.Agrees → (commandFor d rndA).2.2.Agrees) := fun h => ⟨fun ha => ha.alike h, fun ha => ha.alike h⟩
    obtain ⟨m, -, he⟩ | ⟨-, -, he⟩ | ⟨-, -, he⟩ | ⟨-, hst, he⟩ | ⟨-, -, he⟩ := commandFor_cases d rndA
    · exact halike (by rw [he]; exact ⟨rfl, rfl, rfl⟩)
    · exact halike (by rw [he]; exact ⟨rfl, rfl, rfl⟩)
    · exact halike (by rw [he]; exact ⟨rfl, rfl, rfl⟩)
    · rw [he]
      exact handshakeCommand_keeps d hst rndA
    · exact halike (by rw [he]; exact ⟨rfl, rfl, rfl⟩)
  have hcompose : (commandFor d rndA).2.2.Alike (transact b d rndA).2 := by
    obtain ⟨q, r, s, he⟩ :=
      compose_device b (commandFor d rndA).2.2 (commandFor d rndA).1 (commandFor d rndA).2.1
    refine ⟨?_, ?_, ?_⟩
    · simp only [transact, he]
    · simp only [transact]
      obtain h | ⟨t, mac, ht, h⟩ := compose_session b (commandFor d rndA).2.2 (commandFor d rndA).1
        (commandFor d rndA).2.1
      · rw [h]
      · rw [h, ht]
        simp [Session.established]
    · simp only [transact, he]
  exact ⟨fun h => (hcommand.1 h).alike hcompose, fun h => (hcommand.2 h).alike hcompose⟩

/-- **In the clear only without a session.** -/
theorem transact_in_clear {rndA : Rnd} (hd : d.Agrees) (h : transact b d rndA = (.ok f, e))
    (hf : f.security = none) : d.secureEstablished = false := by
  have hsec := (transact_ok h).security
  rw [hf] at hsec
  have hne : d.state ≠ .secure := by
    intro hst
    obtain ⟨m, -, he⟩ | ⟨-, hs, -⟩ | ⟨-, hs, -⟩ | ⟨-, hs, -⟩ | ⟨-, -, he⟩ := commandFor_cases d rndA
    · simp [he, hst] at hsec
    · simp [hst] at hs
    · simp [hst] at hs
    · simp [hst] at hs
    · simp [he, hst] at hsec
  rw [Bool.eq_false_iff]
  intro hest
  obtain ⟨s, hs, hstate⟩ := (secureEstablished_eq d).mp hest
  exact hne (hd.secure.mpr ⟨s, hs, by simp [Session.established, hstate]⟩)

/-- **What a call does to agreement.** -/
theorem call_keepsAgreement (b : Bus) (d : Device) (c : Call) :
    (d.Armed → (call b d c).2.Armed) ∧
    (d.Agrees → (∀ f, c = .reply f → d.straysOn b f = false) → (call b d c).2.Agrees) := by
  have halike : d.Alike (call b d c).2 → (d.Armed → (call b d c).2.Armed) ∧
      (d.Agrees → (∀ f, c = .reply f → d.straysOn b f = false) → (call b d c).2.Agrees) :=
    fun h => ⟨fun ha => ha.alike h, fun ha _ => ha.alike h⟩
  cases c with
  | send m =>
    refine halike ?_
    simp only [call, send]
    split <;> exact ⟨rfl, rfl, rfl⟩
  | installKey key =>
    refine halike ?_
    simp only [call, installKey]
    split <;> exact ⟨rfl, rfl, rfl⟩
  | next rndA =>
    obtain ⟨harmed, hagrees⟩ := transact_keepsAgreement b d rndA
    exact ⟨harmed, fun h _ => hagrees h⟩
  | reply f =>
    obtain ⟨harmed, hagrees, -⟩ := reply_keepsAgreement b d f
    exact ⟨harmed, fun h hm => hagrees h (hm f rfl)⟩
  | timeout =>
    obtain ⟨-, he⟩ | ⟨-, -, he⟩ := timeout_cases d
    · refine halike ?_
      simp only [call, he, Device.retransmit_eq]
      exact ⟨rfl, rfl, rfl⟩
    · have hplain : (call b d .timeout).2.Agrees := by
        simp only [call, he, Device.resync_eq]
        exact Device.agrees_plain ⟨by simp, by simp⟩ rfl rfl
      exact ⟨fun _ => hplain.armed, fun _ _ => hplain⟩

/-! ## Over a run of the bus -/

/-- The operation delivers a reply that strays. -/
def strays (b : Bus) : Op → Bool
  | .reply i f => b.devices[i]?.any (·.straysOn b f)
  | _ => false

/-- The property at one operation: it leaves state and session of every device in agreement, and
sends in the clear only to a device without an established session. -/
def KeepsAgreement (b : Bus) (op : Op) : Prop :=
  (∀ d ∈ (b.step op).devices, d.Agrees) ∧
    ∀ d f, Emits b op d f → f.security = none → d.secureEstablished = false

/-- An operation that does not stray keeps every device in agreement. -/
theorem step_agrees (h : ∀ d ∈ b.devices, d.Agrees) {op : Op} (hop : b.strays op = false) :
    ∀ d ∈ (b.step op).devices, d.Agrees := by
  intro e he
  obtain he | ⟨i, c, d, hc, hd, rfl⟩ := mem_step_devices he
  · exact h e he
  · refine (call_keepsAgreement b d c).2 (h d (List.mem_of_getElem? hd)) ?_
    rintro f rfl
    cases op <;> simp [callOf] at hc
    obtain ⟨rfl, rfl⟩ := hc
    simpa [strays, hd] using hop

/-- **State and session agree over every run, exactly when no reply strays.** -/
theorem state_session_agree_iff (addrs : List Address) (scheme : Scheme)
    (secure : Option SecureChannel) (ops : List Op) :
    (∀ p ∈ Run.trace step (new addrs scheme secure) ops, p.1.KeepsAgreement p.2) ↔
      ∀ p ∈ Run.trace step (new addrs scheme secure) ops, p.1.strays p.2 = false := by
  have hgood : ∀ (b : Bus) (op : Op), (∀ d ∈ b.devices, d.Agrees) → True → b.strays op = false →
      b.KeepsAgreement op ∧ ∀ d ∈ (b.step op).devices, d.Agrees := by
    intro b op h _ hop
    have hnext := step_agrees h hop
    refine ⟨⟨hnext, fun d f hem hf => ?_⟩, hnext⟩
    obtain ⟨rndA, e, -, ht⟩ := emits_transact hem
    obtain ⟨-, -, hd, -⟩ := hem
    exact transact_in_clear (h d (List.mem_of_getElem? hd)) ht hf
  have hbad : ∀ (b : Bus) (op : Op), (∀ d ∈ b.devices, d.Agrees) → True → ¬ b.strays op = false →
      ¬ b.KeepsAgreement op := by
    intro b op _ _ hop hkeeps
    cases op with
    | reply i f =>
      obtain ⟨d, hd, hstray⟩ := (Option.any_eq_true _ _).mp ((Bool.not_eq_false _).mp hop)
      refine (reply_keepsAgreement b d f).2.2 hstray (hkeeps.1 _ ?_)
      have hi := (List.getElem?_eq_some_iff.mp hd).1
      rw [step_devices]
      simp only [callOf, hd, call]
      exact List.mem_iff_getElem?.mpr ⟨i, List.getElem?_set_self hi⟩
    | _ => exact hop rfl
  refine Run.trace_forall_iff hgood hbad ?_ ops fun _ _ => trivial
  intro d hd
  simp only [new, List.mem_map] at hd
  obtain ⟨addr, -, rfl⟩ := hd
  exact Device.agrees_plain ⟨by simp [Device.new], by simp [Device.new]⟩ rfl rfl

/-- An application asks a reader on a running session what it is, and the reader answers. -/
def reidentifiedOps : List Op :=
  secureEnrolCalls.map Call.onFirst ++
    [.send 0 { code := Code.id, data := [0] }, .next Secure.zeroRnd,
     .reply 0 (securedReply 1 2 Secure.scs18 Code.pdID (List.replicate 12 0 ++ [2, 2, 2, 2]))]

/-- The device is back in `Identifying` with its session established, and what is sent to it next
is sent in the clear. -/
theorem reidentified_keeps_session :
    let b := reidentifiedOps.foldl step (new [1] .checksum secureBus.secure)
    (b.devices.map fun d => (d.state, d.secureEstablished)) = [(.identifying, true)] ∧
      (b.next Secure.zeroRnd).1.bind Outcome.wire = some (Code.cap, none, [0]) := by
  decide

end Osdp.Bus
