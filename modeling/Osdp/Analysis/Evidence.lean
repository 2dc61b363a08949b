import Osdp.Model.Record
import Osdp.Analysis.Conservation
import Osdp.Analysis.Solicited

/-!
# What a record says about the exchange it came from

`FromEvent` asks the device whether its Secure Channel is established, and the device it asks is
the one the event points at: as it is when the record is made. What the record should say is
whether the reply was verified, which was settled when the event was made. The two agree exactly
as long as no operation in between begins or ends the channel (`Device.switches`), and as long as
the reply did not itself end the channel that vouched for it.
-/

set_option autoImplicit false

namespace Osdp.Bus

open Osdp.Secure (Session BaseKey Rnd)

namespace Device

/-- The reply is verified by `openReply` against an established session. -/
def verifies (d : Device) (f : Frame) : Bool :=
  f.isReply && f.address == d.address && f.control.sequence != 0 &&
    d.session.any fun s => s.established && (openReply s f).isOk

/-- Whether a message ends the session that let it through: one of the handshake, a new address, an
acknowledged key, or a report that begins a session anew. -/
def ends (b : Bus) (d : Device) (m : Message) : Bool :=
  Code.ofHandshake m.code || (m.code == Code.com && (parseCommunication m.data).isSome) ||
    (m.code == Code.ack && d.awaitingKeySet) ||
    (m.code == Code.pdCap && (parseCapabilities m.data).any (d.begins b))

/-- Whether a call begins or ends the Secure Channel. -/
def switches (b : Bus) (d : Device) : Call → Bool
  | .reply f =>
    f.isReply && f.address == d.address &&
      match d.hears f with
      | none => d.secureEstablished
      | some m =>
        if d.secureEstablished then d.delivered.ends b m else m.code == Code.rMacI && !d.rejects m
  | .timeout =>
    d.secureEstablished && decide (offlineThreshold ≤ d.misses + 1) && d.state != .offline
  | _ => false

end Device

/-! ## One message -/

/-- A report ends the session it came over exactly when it begins another. -/
theorem afterCapabilities_established (b : Bus) (d : Device) (report : CapabilityReport) :
    (afterCapabilities b { d with caps := report }).secureEstablished =
      (d.secureEstablished && !d.begins b report) := by
  cases hbegins : d.begins b report with
  | false =>
    obtain ⟨de, he⟩ := afterCapabilities_online hbegins
    simp [he, Device.secureEstablished]
  | true =>
    obtain ⟨channel, key, -, -, he⟩ := afterCapabilities_begun hbegins
    simp [he, Device.secureEstablished, Session.established, Secure.newSession]

/-- The codes of the messages that may begin or end a session. -/
def switchCodes : List Code := [Code.cCrypt, Code.rMacI, Code.com, Code.ack, Code.pdCap]

variable {b : Bus} {d : Device} {m : Message} {ev : Event} {status : List StatusChange} {c : Call}
  {i : ℕ} {op : Op}

/-- Other messages do not end a session. -/
theorem ends_of_code (h : m.code ∉ switchCodes) : d.ends b m = false := by
  simp only [switchCodes, List.mem_cons, List.not_mem_nil, or_false, not_or] at h
  simp [Device.ends, Code.ofHandshake, h]

/-- Nor does a message whose payload is refused end anything. -/
theorem ends_of_malformed (h : m.malformed = true) : d.ends b m = false ∧ m.code ≠ Code.rMacI := by
  by_cases hcom : m.code = Code.com
  · have hparse : parseCommunication m.data = none := by
      simpa [Message.malformed, hcom, Code.com, Code.pdID, Code.pdCap, Code.lStatR, Code.raw,
        Code.keypad, Code.nak, Code.mfgReply] using h
    simp [Device.ends, Code.ofHandshake, hcom, hparse, Code.com, Code.cCrypt, Code.rMacI, Code.ack,
      Code.pdCap]
  · by_cases hcap : m.code = Code.pdCap
    · have hparse : parseCapabilities m.data = none := by
        simpa [Message.malformed, hcap, Code.pdID, Code.pdCap] using h
      simp [Device.ends, Code.ofHandshake, hcap, hparse, Code.com, Code.cCrypt, Code.rMacI, Code.ack,
        Code.pdCap]
    · have hcode : m.code ∈ [Code.pdID, Code.pdCap, Code.lStatR, Code.raw, Code.keypad, Code.nak,
          Code.mfgReply, Code.com] := by
        by_contra hnot
        rw [not_malformed hnot] at h
        cases h
      have hall : ∀ c ∈ [Code.pdID, Code.pdCap, Code.lStatR, Code.raw, Code.keypad, Code.nak,
          Code.mfgReply, Code.com], c ≠ Code.com → c ≠ Code.pdCap →
          c ∉ switchCodes ∧ c ≠ Code.rMacI := by decide +kernel
      obtain ⟨hswitch, hrmac⟩ := hall m.code hcode hcom hcap
      exact ⟨ends_of_code hswitch, hrmac⟩

/-- A message whose payload is refused changes nothing. -/
theorem dispatch_error_device {e : Error} (h : (dispatch b d m).1 = .error e) :
    (dispatch b d m).2 = d := by
  revert h
  apply dispatch_rows b d m (motive := fun r => r.1 = .error e → r.2 = d)
  case malformed => exact fun _ _ => rfl
  all_goals intros; contradiction

/-- A message that no row of the table is for ends nothing, unless it acknowledges a key. -/
theorem ends_of_untabled (hm : m.code ∉ tabled)
    (hadopts : ¬ (m.code = Code.ack ∧ d.awaitingKeySet = true)) : d.ends b m = false := by
  have hcode : ∀ c ∈ tabled, m.code ≠ c := fun c hc h => hm (h ▸ hc)
  have hack : (m.code == Code.ack && d.awaitingKeySet) = false := by simpa using hadopts
  simp [Device.ends, Code.ofHandshake, hack, hcode Code.cCrypt (by decide),
    hcode Code.rMacI (by decide), hcode Code.com (by decide), hcode Code.pdCap (by decide)]

/-- What becomes of a message: its payload is refused and the device is as it was, or it
acknowledges a key, which ends the session, or it is taken and is no such acknowledgement. -/
theorem dispatch_sorts (b : Bus) (d : Device) (m : Message) :
    (m.malformed = true ∧ (dispatch b d m).2 = d) ∨
    (m.code = Code.ack ∧ d.awaitingKeySet = true ∧ (dispatch b d m).2.state = .identifying ∧
      (dispatch b d m).2.session = none) ∨
    ((∀ e, (dispatch b d m).1 ≠ .error e) ∧ ¬ (m.code = Code.ack ∧ d.awaitingKeySet = true)) := by
  by_cases hmal : m.malformed = true
  · obtain ⟨e, he⟩ := (dispatch_error_iff b d m).mpr hmal
    exact .inl ⟨hmal, dispatch_error_device he⟩
  by_cases hadopts : m.code = Code.ack ∧ d.awaitingKeySet = true
  · obtain ⟨hm, haw⟩ := hadopts
    obtain ⟨⟨k, hk⟩, hak⟩ : (∃ k, d.pendingKey = some k) ∧ d.acknowledged = Code.keySet := by
      simpa [Device.awaitingKeySet, Option.isSome_iff_exists] using haw
    rw [dispatch_adopts b hm hk hak]
    exact .inr (.inl ⟨hm, haw, rfl, rfl⟩)
  · exact .inr (.inr ⟨fun e he => hmal ((dispatch_error_iff b d m).mp ⟨e, he⟩), hadopts⟩)

/-- **Whether a session is established after a message.** -/
theorem dispatch_established (b : Bus) (d : Device) (m : Message) :
    (dispatch b d m).2.secureEstablished =
      if d.secureEstablished then !d.ends b m else m.code == Code.rMacI && !d.rejects m := by
  -- a message that leaves the session and is not one that could have ended it
  have hsame : ∀ {e : Device}, e.secureEstablished = d.secureEstablished → d.ends b m = false →
      m.code ≠ Code.rMacI → e.secureEstablished =
        if d.secureEstablished then !d.ends b m else m.code == Code.rMacI && !d.rejects m := by
    intro e he hends hrmac
    rw [he, hends]
    cases d.secureEstablished <;> simp [hrmac]
  have hother : ∀ {c : Code} {e : Device}, m.code = c → e.secureEstablished = d.secureEstablished →
      c ∉ switchCodes → e.secureEstablished =
        if d.secureEstablished then !d.ends b m else m.code == Code.rMacI && !d.rejects m := by
    rintro c e rfl he hc
    exact hsame he (ends_of_code hc) fun h => hc (h ▸ by decide)
  obtain ⟨hmal, he⟩ | ⟨hm, haw, -, hnone⟩ | ⟨hok, hadopts⟩ := dispatch_sorts b d m
  · obtain ⟨hends, hrmac⟩ := ends_of_malformed (b := b) (d := d) hmal
    rw [he]
    exact hsame rfl hends hrmac
  · simp [Device.secureEstablished, hnone, Device.ends, hm, haw, Code.ack, Code.rMacI]
  revert hok
  apply dispatch_rows b d m (motive := fun r => (∀ e, r.1 ≠ .error e) → r.2.secureEstablished =
    if d.secureEstablished then !d.ends b m else m.code == Code.rMacI && !d.rejects m)
  case malformed => exact fun _ h => absurd rfl (h _)
  case identified => exact fun _ h _ _ => hother h rfl (by decide)
  case capabilities =>
    intro report e h hreport _ _
    simp only
    rw [afterCapabilities_established]
    cases d.secureEstablished <;>
      simp [Device.ends, Code.ofHandshake, h, hreport, Code.pdCap, Code.cCrypt, Code.rMacI, Code.com,
        Code.ack]
  case status =>
    intro ss e h _ _
    have hall : ∀ c ∈ statusCodes, c ∉ switchCodes := by decide +kernel
    exact hother rfl rfl (hall m.code h)
  case cryptogram =>
    intro h _
    obtain ⟨-, he⟩ | ⟨-, s, s', p, hs, hfrom, hto, he⟩ := onCryptogram_rejects d h
    · simp only [he]
      cases d.secureEstablished <;>
        simp [Device.secureEstablished, Device.abandonSecure, Device.dropSession, Device.ends,
          Code.ofHandshake, h, Code.cCrypt, Code.rMacI]
    · simp [he, Device.secureEstablished, hs, Session.established, hfrom, hto, h, Code.cCrypt,
        Code.rMacI]
  case initialRMAC =>
    intro h _
    obtain ⟨hrej, he⟩ | ⟨hrej, s, s', hs, hfrom, hto, he⟩ := onInitialRMAC_rejects d h
    · simp only [he]
      cases d.secureEstablished <;>
        simp [Device.secureEstablished, Device.abandonSecure, Device.dropSession, Device.ends,
          Code.ofHandshake, h, hrej]
    · simp [he, Device.secureEstablished, hs, Session.established, hfrom, hto, h, hrej]
  case card => exact fun _ h _ _ => hother h rfl (by decide)
  case keypad => exact fun _ h _ _ => hother h rfl (by decide)
  case refused => exact fun _ h _ => hother h rfl (by decide)
  case manufacturer => exact fun _ h _ _ => hother h rfl (by decide)
  case moved =>
    intro c h hc _
    simp [Device.resync_eq, Device.secureEstablished, Device.ends, h, hc, Code.com, Code.rMacI]
  case busy =>
    intro h _
    refine hother h ?_ (by decide)
    rw [Device.reclaim_eq]
    split <;> rfl
  case installed =>
    exact fun k h hk hak _ => absurd ⟨h, by simp [Device.awaitingKeySet, hk, hak]⟩ hadopts
  case answer =>
    intro hm _
    refine hsame ?_ (ends_of_untabled hm hadopts) fun h => hm (h ▸ by decide)
    obtain ⟨st, he⟩ := onAnswer_eq d
    rw [he]
    rfl

/-- A message that gives a record leaves the session as it was, or is of the handshake and drops
it. -/
theorem dispatch_recordable (h : (dispatch b d m).1 = .ok ev)
    (hrec : Record.recordable ev.kind = true) :
    (dispatch b d m).2.secureEstablished = (d.secureEstablished && !Code.ofHandshake m.code) := by
  have hother : ∀ {c : Code} {e : Device}, m.code = c → Code.ofHandshake c = false →
      e.secureEstablished = d.secureEstablished →
      e.secureEstablished = (d.secureEstablished && !Code.ofHandshake m.code) := by
    rintro c e rfl hc he
    simp [he, hc]
  revert h
  apply dispatch_rows b d m (motive := fun r => r.1 = .ok ev →
    r.2.secureEstablished = (d.secureEstablished && !Code.ofHandshake m.code))
  case malformed => simp
  case identified =>
    rintro id _ _ h
    cases h
    cases hrec
  case capabilities =>
    rintro report e h _ (rfl | ⟨rfl, hst⟩) he
    · cases he
      cases hrec
    · refine hother h (by decide) ?_
      cases hbegins : d.begins b report with
      | false => simp [afterCapabilities_established, hbegins]
      | true =>
        obtain ⟨channel, key, -, -, hcaps⟩ := afterCapabilities_begun hbegins
        exact absurd (by rw [hcaps]) hst
  case status =>
    intro ss e h _ _
    have hall : ∀ c ∈ statusCodes, Code.ofHandshake c = false := by decide +kernel
    exact hother rfl (hall m.code h) rfl
  case cryptogram =>
    intro h he
    obtain ⟨-, hd⟩ | ⟨-, s, s', p, -, -, -, hd⟩ := onCryptogram_rejects d h
    · simp [hd, Device.secureEstablished, Device.abandonSecure, Device.dropSession,
        Code.ofHandshake, h]
    · simp only [hd] at he
      cases he
      cases hrec
  case initialRMAC =>
    intro h he
    obtain ⟨-, hd⟩ | ⟨-, s, s', -, -, -, hd⟩ := onInitialRMAC_rejects d h
    · simp [hd, Device.secureEstablished, Device.abandonSecure, Device.dropSession,
        Code.ofHandshake, h]
    · simp only [hd] at he
      cases he
      cases hrec
  case card => exact fun _ h _ _ => hother h (by decide) rfl
  case keypad => exact fun _ h _ _ => hother h (by decide) rfl
  case refused => exact fun _ h _ => hother h (by decide) rfl
  case manufacturer => exact fun _ h _ _ => hother h (by decide) rfl
  case moved =>
    rintro c _ _ h
    cases h
    cases hrec
  case busy =>
    rintro _ h
    cases h
    cases hrec
  case installed =>
    rintro k _ _ _ h
    cases h
    cases hrec
  case answer =>
    intro hm _
    have hcode : Code.ofHandshake m.code = false := by
      have hc : m.code ≠ Code.cCrypt := fun h => hm (h ▸ by decide)
      have hr : m.code ≠ Code.rMacI := fun h => hm (h ▸ by decide)
      simp [Code.ofHandshake, hc, hr]
    obtain ⟨st, he⟩ := onAnswer_eq d
    exact hother rfl hcode (by rw [he]; rfl)

/-- A status change that is reported has contacts in it. -/
theorem dispatch_statusChange (h : (dispatch b d m).1 = .ok (.statusChange status)) :
    status ≠ [] := by
  revert h
  apply dispatch_rows b d m (motive := fun r => r.1 = .ok (.statusChange status) → status ≠ [])
  case status =>
    rintro ss e _ (rfl | ⟨changed, hne, rfl⟩) h
    · cases h
    · cases h
      exact hne
  case capabilities => rintro report e _ _ (rfl | ⟨rfl, -⟩) h <;> cases h
  case cryptogram =>
    intro h he
    obtain ⟨-, hd⟩ | ⟨-, s, s', p, -, -, -, hd⟩ := onCryptogram_rejects d h <;>
      (simp only [hd] at he; cases he)
  case initialRMAC =>
    intro h he
    obtain ⟨-, hd⟩ | ⟨-, s, s', -, -, -, hd⟩ := onInitialRMAC_rejects d h <;>
      (simp only [hd] at he; cases he)
  case answer =>
    intro _ he
    obtain ⟨-, hd⟩ | ⟨-, hd⟩ := onAnswer_cases d <;> (simp only [hd] at he; cases he)
  all_goals
    intros
    rename_i h
    cases h

/-! ## One call -/

/-- What is verified is heard, and under an established session what is heard is verified. -/
theorem verifies_eq (d : Device) (f : Frame) :
    d.verifies f = ((d.hears f).isSome && d.secureEstablished) := by
  unfold Device.verifies Device.hears Device.opened openIfEstablished Device.secureEstablished
  by_cases hf : f.isReply = true ∧ f.address = d.address ∧ f.control.sequence ≠ 0
  · obtain ⟨hr, ha, hz⟩ := hf
    cases d.session with
    | none => simp [hr, ha, hz]
    | some s =>
      by_cases he : s.established = true
      · cases ho : openReply s f <;> simp [hr, ha, hz, he, ho, Except.isOk, Except.toBool]
      · simp [hr, ha, hz, he]
  · have hno : (f.isReply && f.address == d.address && f.control.sequence != 0) = false := by
      simpa [and_assoc] using hf
    simp [hno, hf]

/-- Opening a reply leaves an established session established. -/
theorem opened_established {f g : Frame} {s : Option Session}
    (h : openIfEstablished { d with misses := 0 } f = .ok (g, { d with misses := 0, session := s })) :
    ({ d with misses := 0, session := s }.delivered).secureEstablished = d.secureEstablished := by
  have hmap := (alike_opened h).session
  simp only [Device.secureEstablished]
  cases hd : d.session <;> cases hs : s <;> simp_all

/-- Whether a message ends the session does not depend on the code the session has moved to. -/
theorem Device.ends_opened (b : Bus) (d : Device) (s : Option Session) (m : Message) :
    ({ d with misses := 0, session := s }.delivered).ends b m = d.delivered.ends b m := by
  simp only [Device.ends, Device.awaitingKeySet, Device.delivered_eq]
  rfl

/-- `Next` neither begins nor ends a session. -/
theorem transact_established (b : Bus) (harmed : d.Armed) (rndA : Rnd) :
    (transact b d rndA).2.secureEstablished = d.secureEstablished := by
  rw [transact, compose_secureEstablished]
  obtain ⟨m, -, he⟩ | ⟨-, -, he⟩ | ⟨-, -, he⟩ | ⟨-, hst, he⟩ | ⟨-, -, he⟩ := commandFor_cases d rndA
  case inr.inr.inr.inl =>
    obtain ⟨s, hs, hne⟩ := harmed.handshake hst
    rw [he, handshakeCommand]
    split
    · rfl
    · simp only [hs]
      split
      · simp [Device.secureEstablished, Device.abandonSecure, Device.dropSession, hs, hne]
      · rename_i chlng s' hok
        rw [Secure.Session.beginChallenge_ok hok]
        simp [Device.secureEstablished, Session.established, hs, show s.state ≠ .established by
          simpa [Session.established] using hne]
  all_goals simp [he, Device.secureEstablished]

/-- **Whether a session is established after a call.** -/
theorem call_established (b : Bus) (harmed : d.Armed) (c : Call) :
    (call b d c).2.secureEstablished = (d.secureEstablished ^^ d.switches b c) := by
  cases c with
  | send m =>
    have hno : d.switches b (.send m) = false := rfl
    rw [hno, Bool.xor_false]
    simp only [call, send]
    split <;> rfl
  | installKey key =>
    have hno : d.switches b (.installKey key) = false := rfl
    rw [hno, Bool.xor_false]
    simp only [call, installKey]
    split <;> rfl
  | next rndA =>
    have hno : d.switches b (.next rndA) = false := rfl
    rw [hno, Bool.xor_false]
    exact transact_established b harmed rndA
  | reply f =>
    have hresync : { d with misses := 0 }.resync.secureEstablished = false := by
      simp [Device.secureEstablished, Device.resync_eq]
    simp only [call, Device.switches]
    obtain ⟨hnot, e, he⟩ | ⟨hr, ha, ⟨hz, he⟩ | ⟨hz, ⟨err, ho⟩, he⟩ | ⟨hz, data, s, ho, he⟩⟩ :=
      reply_cases b d f
    · simp [he, Device.foreign hnot]
    · rw [he]
      simp [hresync, Device.hears, hr, ha, hz]
    · rw [he]
      simp [hresync, Device.hears_of_closed ho, hr, ha]
    · rw [he, dispatch_established, opened_established ho, Device.rejects_opened ho,
        Device.hears_eq hr ha hz ho, hr, ha, Device.ends_opened]
      cases d.secureEstablished <;> simp
  | timeout =>
    simp only [call, Device.switches]
    obtain ⟨hnot, he⟩ | ⟨hmiss, hst, he⟩ := timeout_cases d
    · have hquiet : (decide (offlineThreshold ≤ d.misses + 1) && d.state != .offline) = false := by
        obtain h | h := hnot
        · simp [Nat.not_le.mpr h]
        · simp [h]
      rw [he, Bool.and_assoc, hquiet, Bool.and_false, Bool.xor_false, Device.retransmit_eq]
      rfl
    · simp [he, Device.resync_eq, Device.secureEstablished, hmiss, hst]

/-- The event of a reply that was taken. -/
theorem ofReply_event {r : Except Error Event} (h : Outcome.ofReply r = .event ev) :
    r = .ok ev := by
  cases r with
  | error e => cases h
  | ok e =>
    cases h
    rfl

/-- Events come from `Reply` and `Timeout`. -/
theorem call_event (h : (call b d c).1 = .event ev) :
    (∃ f, c = .reply f ∧ (reply b d f).1 = .ok ev) ∨ (c = .timeout ∧ (timeout d).1 = ev) := by
  cases c with
  | send m =>
    simp only [call, send] at h
    split at h <;> cases h
  | installKey key =>
    simp only [call, installKey] at h
    split at h <;> cases h
  | next rndA =>
    simp only [call, Outcome.ofNext] at h
    split at h <;> cases h
  | reply f => exact .inl ⟨f, rfl, ofReply_event h⟩
  | timeout =>
    cases h
    exact .inr ⟨rfl, rfl⟩

/-- The call delivers a reply that is verified. -/
def Device.vouches (d : Device) : Call → Bool
  | .reply f => d.verifies f
  | _ => false

/-- It is one of the handshake, and ends the session that verified it. -/
def Device.breaks (d : Device) : Call → Bool
  | .reply f => d.verifies f && Code.ofHandshake f.code
  | _ => false

/-- **A call that gives a record leaves a session established exactly when the reply was verified**,
unless the reply broke it. -/
theorem call_recordable (h : (call b d c).1 = .event ev) (hrec : Record.recordable ev.kind = true) :
    (call b d c).2.secureEstablished = (d.vouches c && !d.breaks c) := by
  rcases call_event h with ⟨f, rfl, hev⟩ | ⟨rfl, hev⟩
  · have hresync : { d with misses := 0 }.resync.secureEstablished = false := by
      simp [Device.secureEstablished, Device.resync_eq]
    simp only [call, Device.vouches, Device.breaks, verifies_eq]
    obtain ⟨-, e, he⟩ | ⟨hr, ha, ⟨hz, he⟩ | ⟨hz, ⟨err, ho⟩, he⟩ | ⟨hz, data, s, ho, he⟩⟩ :=
      reply_cases b d f
    · rw [he] at hev
      cases hev
    · rw [he]
      simp [hresync, Device.hears, hz]
    · rw [he]
      simp [hresync, Device.hears_of_closed ho]
    · rw [he] at hev ⊢
      rw [dispatch_recordable hev hrec, opened_established ho, Device.hears_eq hr ha hz ho]
      cases d.secureEstablished <;> simp
  · simp only [call, Device.vouches, Device.breaks]
    obtain ⟨-, he⟩ | ⟨-, -, he⟩ := timeout_cases d
    · rw [he] at hev
      cases hev
      cases hrec
    · simp [he, Device.resync_eq, Device.secureEstablished]

/-- A status change is reported with the contacts that moved. -/
theorem call_statusChange (h : (call b d c).1 = .event (.statusChange status)) : status ≠ [] := by
  rcases call_event h with ⟨f, rfl, hev⟩ | ⟨rfl, hev⟩
  · obtain ⟨-, e, he⟩ | ⟨-, -, ⟨-, he⟩ | ⟨-, -, he⟩ | ⟨-, data, s, -, he⟩⟩ := reply_cases b d f
    · rw [he] at hev
      cases hev
    · rw [he] at hev
      cases hev
    · rw [he] at hev
      cases hev
    · rw [he] at hev
      exact dispatch_statusChange hev
  · obtain ⟨-, he⟩ | ⟨-, -, he⟩ := timeout_cases d <;> (rw [he] at hev; cases hev)

/-! ## Over a run of the bus -/

/-- The operation delivers a reply that is verified against an established session. -/
def verified (b : Bus) : Op → Bool
  | .reply i f => b.devices[i]?.any (·.verifies f)
  | _ => false

/-- It delivers one of the handshake that is, and that ends the session. -/
def breaks (b : Bus) : Op → Bool
  | .reply i f => b.devices[i]?.any fun d => d.verifies f && Code.ofHandshake f.code
  | _ => false

/-- The operation begins or ends the Secure Channel of the device at index `i`. -/
def switches (b : Bus) (i : ℕ) (op : Op) : Bool :=
  match b.callOf op with
  | some (j, c) => j == i && b.devices[i]?.any (·.switches b c)
  | none => false

/-- Whether the device at index `i` has an established session. -/
def established (b : Bus) (i : ℕ) : Option Bool := b.devices[i]?.map Device.secureEstablished

/-- The property at one conversion: there are records, and each says this of the exchange. -/
def Attests (ev : Event) (device : Option Device) (secure : Bool) : Prop :=
  ∀ name time cfg, ∃ records, Record.fromEvent ev device name time cfg = .ok records ∧
    records ≠ [] ∧ ∀ r ∈ records, r.secure = secure

/-- A record says what the device says when the record is made. -/
theorem attests_iff {secure : Bool} (hrec : Record.recordable ev.kind = true)
    (hne : ∀ status, ev = .statusChange status → status ≠ []) :
    Attests ev (some d) secure ↔ d.secureEstablished = secure := by
  have hbit : (d.secureSession.2 && d.secureSession.1 == .established) = d.secureEstablished := by
    unfold Device.secureSession Device.secureEstablished
    cases d.session <;> rfl
  obtain ⟨kind, hkind⟩ := Option.isSome_iff_exists.mp hrec
  have hconv : ∀ name time cfg, ∃ records,
      Record.fromEvent ev (some d) name time cfg = .ok records ∧ records ≠ [] ∧
        ∀ r ∈ records, r.secure = d.secureEstablished := by
    intro name time cfg
    cases ev with
    | statusChange status =>
      have hlen : ¬ status.length = 0 := by simpa using hne status rfl
      simp only [Record.fromEvent, Record.kindOf, hkind, hlen, if_false, hbit]
      exact ⟨_, rfl, by simpa [Record.statusRecords] using hne status rfl,
        by simp [Record.statusRecords]⟩
    | _ =>
      simp only [Record.fromEvent, Record.kindOf, hkind, hbit]
      exact ⟨_, rfl, by simp, by simp [Record.attachPayload]⟩
  constructor
  · intro h
    obtain ⟨records, hr, hsome, hall⟩ := hconv "" 0 {}
    obtain ⟨records', hr', -, hall'⟩ := h "" 0 {}
    rw [hr] at hr'
    cases hr'
    obtain ⟨r, hmem⟩ := List.exists_mem_of_ne_nil records hsome
    rw [← hall r hmem, hall' r hmem]
  · rintro rfl
    exact hconv

/-- An operation establishes or ends a session where it switches. -/
theorem step_established (harmed : ∀ d ∈ b.devices, d.Armed) (i : ℕ) (op : Op) :
    (b.step op).established i = (b.established i).map (· ^^ b.switches i op) := by
  have hsame : (b.established i).map (· ^^ false) = b.established i := by
    cases b.established i <;> simp
  unfold switches
  rw [established, step_devices]
  cases b.callOf op with
  | none => exact hsame.symm
  | some jc =>
    obtain ⟨j, c⟩ := jc
    simp only
    by_cases hj : j = i
    · subst hj
      cases hd : b.devices[j]? with
      | none => simp [established, hd]
      | some d =>
        simp only [established, List.getElem?_set_self (List.getElem?_eq_some_iff.mp hd).1, hd,
          Option.map_some, Option.any_some, beq_self_eq_true, Bool.true_and]
        rw [call_established b (harmed d (List.mem_of_getElem? hd))]
    · have hne : (j == i) = false := by simpa using hj
      rw [hne, Bool.false_and, hsame]
      cases hd : b.devices[j]? with
      | none => rfl
      | some d =>
        simp only [List.getElem?_set_ne hj]
        rfl

/-- The device stays where it is. -/
theorem established_isSome (hf : b.Furnished fun _ => True) (h : (b.established i).isSome)
    (ops : List Op) : ((ops.foldl step b).established i).isSome := by
  refine (Run.invariant (I := fun t : Bus => t.Furnished (fun _ => True) ∧ (t.established i).isSome)
    (fun t op ht => ⟨furnished_step ht.1 op, ?_⟩) ⟨hf, h⟩ ops).2
  rw [step_established ht.1.armed, Option.isSome_map]
  exact ht.2

/-- Its session stays established, or stays away, as long as no operation switches it. -/
theorem established_trace_iff {v : Bool} (hf : b.Furnished fun _ => True)
    (h : b.established i = some v) (ops : List Op) :
    (∀ p ∈ Run.trace step b ops, (p.1.step p.2).established i = some v) ↔
      ∀ p ∈ Run.trace step b ops, p.1.switches i p.2 = false := by
  have hmoves : ∀ (t : Bus) (op : Op), t.Furnished (fun _ => True) → t.established i = some v →
      ((t.step op).established i = some v ↔ t.switches i op = false) := by
    intro t op ht hv
    rw [step_established ht.armed, hv, Option.map_some, Option.some.injEq]
    cases v <;> cases t.switches i op <;> simp
  refine Run.trace_forall_iff
    (I := fun t : Bus => t.Furnished (fun _ => True) ∧ t.established i = some v)
    (A := fun _ _ => True) (C := fun t op => t.switches i op = false)
    (P := fun t op => (t.step op).established i = some v) ?_ ?_ ⟨hf, h⟩ ops fun _ _ => trivial
  · intro t op ht _ hno
    have hkept := (hmoves t op ht.1 ht.2).mpr hno
    exact ⟨hkept, furnished_step ht.1 op, hkept⟩
  · intro t op ht _ hyes hkept
    exact hyes ((hmoves t op ht.1 ht.2).mp hkept)

/-- What an operation delivers, in terms of its call. -/
theorem verified_of_callOf (hcall : b.callOf op = some (i, c)) (hd : b.devices[i]? = some d) :
    b.verified op = d.vouches c ∧ b.breaks op = d.breaks c := by
  cases op with
  | reply j f =>
    cases hcall
    simp [verified, breaks, hd, Device.vouches, Device.breaks]
  | setCommunication j want =>
    simp only [callOf] at hcall
    split at hcall
    · cases hcall
    · cases hcall
      exact ⟨rfl, rfl⟩
  | keys keys => cases hcall
  | _ =>
    cases hcall
    exact ⟨rfl, rfl⟩

/-- A recordable event leaves a session established exactly when its reply was verified, unless
the reply broke it. -/
theorem event_established (hcall : b.callOf op = some (i, c))
    (hev : (b.perform op).1 = some (.event ev)) (hrec : Record.recordable ev.kind = true) :
    (b.step op).established i = some (b.verified op && !b.breaks op) ∧
      ∀ status, ev = .statusChange status → status ≠ [] := by
  rw [perform_of_callOf hcall, Option.map_eq_some_iff] at hev
  obtain ⟨d, hd, hev⟩ := hev
  obtain ⟨hverified, hbreaks⟩ := verified_of_callOf hcall hd
  refine ⟨?_, ?_⟩
  · rw [established, step_devices, hcall, hverified, hbreaks]
    simp only [hd, List.getElem?_set_self (List.getElem?_eq_some_iff.mp hd).1, Option.map_some]
    rw [call_recordable hev hrec]
  · rintro status rfl
    exact call_statusChange hev

/-- **A record says whether its reply was verified, exactly as long as nothing begins or ends the
Secure Channel.** -/
theorem recorded_secure_iff (addrs : List Address) (scheme : Scheme) (secure : Option SecureChannel)
    (before later : List Op) {op : Op} {i : ℕ} {c : Call} {ev : Event} {b : Bus}
    (hb : b = before.foldl step (new addrs scheme secure)) (hcall : b.callOf op = some (i, c))
    (hev : (b.perform op).1 = some (.event ev)) (hrec : Record.recordable ev.kind = true) :
    (∀ js, js <+: later → Attests ev (js.foldl step (b.step op)).devices[i]? (b.verified op)) ↔
      b.breaks op = false ∧
      ∀ p ∈ Run.trace step (b.step op) later, p.1.switches i p.2 = false := by
  have hfurnished : (b.step op).Furnished fun _ => True := by
    rw [hb]
    exact furnished_step (Run.invariant (I := Furnished fun _ => True)
      (fun b op h => furnished_step h op) (furnished_new addrs scheme fun _ _ => trivial) before) op
  obtain ⟨hafter, hne⟩ := event_established hcall hev hrec
  have hattests : ∀ js : List Op,
      Attests ev (js.foldl step (b.step op)).devices[i]? (b.verified op) ↔
        (js.foldl step (b.step op)).established i = some (b.verified op) := by
    intro js
    obtain ⟨v, hv⟩ := Option.isSome_iff_exists.mp
      (established_isSome (i := i) hfurnished (by simp [hafter]) js)
    obtain ⟨d, hd, rfl⟩ := Option.map_eq_some_iff.mp hv
    rw [hd, attests_iff hrec hne, hv, Option.some.injEq]
  have hstart : (b.step op).established i = some (b.verified op) ↔ b.breaks op = false := by
    have hbreaks : b.breaks op = true → b.verified op = true := by
      cases op with
      | reply j f =>
        intro h
        obtain ⟨d, hd, hboth⟩ := (Option.any_eq_true _ _).mp h
        simp only [Bool.and_eq_true] at hboth
        simp [verified, hd, hboth.1]
      | _ => exact nofun
    rw [hafter, Option.some.injEq]
    cases hbr : b.breaks op with
    | false => simp
    | true => simp [hbreaks hbr]
  simp only [hattests]
  rw [Run.forall_prefix_iff (Q := fun t : Bus => t.established i = some (b.verified op)), ← hstart]
  exact and_congr_right fun hnow => established_trace_iff hfurnished hnow later

/-- The device completes the handshake it was challenged to, and is polled. -/
def securedOps : List Op :=
  challengedOps ++
    [.reply 0 (securedReply 1 3 Secure.scs12 Code.cCrypt (List.replicate 32 0)),
     .next Secure.zeroRnd, .reply 0 (securedReply 1 1 Secure.scs14 Code.rMacI (List.replicate 16 0)),
     .next Secure.zeroRnd]

/-- A card read over the session, recorded after the next command. -/
theorem recorded_secure_card :
    ∃ b, b = securedOps.foldl step (new [1] .checksum (some countingChannel)) ∧
      b.verified (.reply 0 (securedReply 1 2 Secure.scs16 Code.raw
        [0, 1, 26, 0, 1, 2, 3, 4, 2, 2, 2, 2])) = true ∧
      ∀ js, js <+: [Op.next Secure.zeroRnd] → Attests (.cardRead ⟨0, 1, 26, [1, 2, 3, 4]⟩)
        (js.foldl step (b.step (.reply 0 (securedReply 1 2 Secure.scs16 Code.raw
          [0, 1, 26, 0, 1, 2, 3, 4, 2, 2, 2, 2])))).devices[0]?
        (b.verified (.reply 0 (securedReply 1 2 Secure.scs16 Code.raw
          [0, 1, 26, 0, 1, 2, 3, 4, 2, 2, 2, 2]))) := by
  refine ⟨_, rfl, by decide +kernel, ?_⟩
  exact (recorded_secure_iff [1] .checksum (some countingChannel) securedOps
    [Op.next Secure.zeroRnd] rfl rfl rfl (by decide)).mpr ⟨by decide +kernel, by decide +kernel⟩

/-- A card is read in the clear while the device enrols. -/
def clearCardOps : List Op :=
  [.next Secure.zeroRnd, .reply 0 (plainReply 1 1 Code.pdID (List.replicate 12 0)),
   .next Secure.zeroRnd]

/-- The reply that carries it. -/
def clearCard : Op := .reply 0 (plainReply 1 2 Code.raw [0, 1, 26, 0, 1, 2, 3, 4])

/-- It then reports its capabilities and completes the handshake. -/
def thenSecuredOps : List Op :=
  [.next Secure.zeroRnd, .reply 0 (plainReply 1 3 Code.pdCap [funcCommSecurity, 1, 0]),
   .next Secure.zeroRnd, .reply 0 (securedReply 1 1 Secure.scs12 Code.cCrypt (List.replicate 32 0)),
   .next Secure.zeroRnd, .reply 0 (securedReply 1 2 Secure.scs14 Code.rMacI (List.replicate 16 0))]

/-- The record made of the card then says that it was authenticated. -/
theorem clear_card_recorded_secure :
    let b := clearCardOps.foldl step (new [1] .checksum (some countingChannel))
    let t := thenSecuredOps.foldl step (b.step clearCard)
    (b.perform clearCard).1 = some (.event (.cardRead ⟨0, 1, 26, [1, 2, 3, 4]⟩)) ∧
      b.verified clearCard = false ∧
      (Record.fromEvent (.cardRead ⟨0, 1, 26, [1, 2, 3, 4]⟩) t.devices[0]? "" 0 {}).map
        (·.map Record.Event.secure) = .ok [true] := by
  refine ⟨rfl, by decide +kernel, by decide +kernel⟩

end Osdp.Bus
