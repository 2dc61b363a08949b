import Osdp.Analysis.Addresses

/-!
# What the bus asked for

A device answers what it was asked, but `Reply` looks at the code of a reply alone. The machine
here runs the bus and keeps, beside each device, the command it has on the line (`Dialogue`), so
that an answer can be told from a frame nobody asked for.

Two things follow from what the bus does not look at. A handshake reply it did not ask for ends
the handshake as a failed proof does, in any state: `handshake_given_up_for_cause_iff` says for
which such frames. And a refusal of a step of the handshake changes nothing, so the next `Next`
challenges the device again: `refusal_heeded_iff`.
-/

set_option autoImplicit false

namespace Osdp

open Osdp.Secure (Session CipherSuite BaseKey Rnd SessionKeys)

/-- The suite's part of the handshake does not fail. -/
structure Secure.CipherSuite.Derives (suite : CipherSuite) : Prop where
  keys : ∀ base rndA, ∃ keys, suite.deriveSessionKeys base rndA = .ok keys
  client : ∀ keys rndA rndB, ∃ block, suite.clientCryptogram keys rndA rndB = .ok block
  server : ∀ keys rndA rndB, ∃ block, suite.serverCryptogram keys rndA rndB = .ok block
  rmac : ∀ keys server, ∃ block, suite.initialRMAC keys server = .ok block

/-- The challenge of the handshake, as the bus frames it. -/
def Frame.isChallenge (f : Frame) : Bool :=
  f.code == Code.chlng && f.security == some { type := Secure.scs11 }

/-- Its second command. -/
def Frame.isServerCryptogram (f : Frame) : Bool :=
  f.code == Code.sCrypt && f.security == some { type := Secure.scs13 }

/-- The two replies of the handshake. -/
def Code.ofHandshake (c : Code) : Bool := c == Code.cCrypt || c == Code.rMacI

namespace Bus

/-! ## The bus and what it has on the line -/

/-- What has passed between the bus and one device. -/
structure Dialogue where
  /-- The command that was sent and neither answered nor timed out. -/
  asked : Option Frame := none
  /-- The device refused a step of the handshake, and has not been asked for its identity or its
  capabilities since. -/
  refused : Bool := false

/-- A reply that refuses the step of the handshake the device was asked for. -/
def Device.refusesStep (d : Device) (asked : Option Frame) (f : Frame) : Bool :=
  d.state == .secureHandshake && asked.any (fun g => g.isChallenge || g.isServerCryptogram) &&
    (d.hears f).any (·.code == Code.nak)

/-- The dialogue after a call about the device. In state `Offline` and `Identifying` what `Next`
sends is `osdp_ID` and `osdp_CAP`. -/
def Dialogue.after (q : Dialogue) (d : Device) : Call → Outcome → Dialogue
  | .next _, .step f =>
    { asked := some f
      refused := q.refused && d.state != .offline && d.state != .identifying }
  | .reply f, _ =>
    if f.isReply ∧ f.address = d.address then
      { asked := none, refused := q.refused || d.refusesStep q.asked f }
    else q
  | .timeout, _ => { q with asked := none }
  | _, _ => q

/-- The bus, with its dialogue with the device at each index. -/
structure Attended where
  bus : Bus
  dialogue : ℕ → Dialogue := fun _ => {}

namespace Attended

def step (t : Attended) (op : Op) : Attended :=
  { bus := t.bus.step op
    dialogue :=
      match t.bus.callOf op with
      | none => t.dialogue
      | some (i, c) =>
        match t.bus.devices[i]? with
        | none => t.dialogue
        | some d => Function.update t.dialogue i ((t.dialogue i).after d c (call t.bus d c).1) }

def new (addrs : List Address) (scheme : Scheme) (secure : Option SecureChannel) : Attended :=
  { bus := Bus.new addrs scheme secure }

/-- A property the bus keeps it keeps here. -/
theorem invariant_bus {I : Bus → Prop} (hstep : ∀ b op, I b → I (b.step op)) {t : Attended}
    (h : I t.bus) (ops : List Op) : ∀ p ∈ Run.trace step t ops, I p.1.bus :=
  Run.invariant_trace (I := fun t : Attended => I t.bus) (fun t op h => hstep t.bus op h) h ops

end Attended

/-! ## Every session is the panel's -/

/-- The sessions of the bus are the panel's, of a suite with this property. -/
structure Manned (Q : CipherSuite → Prop) (b : Bus) : Prop where
  offers : b.Offers Q
  sessions : ∀ d ∈ b.devices, ∀ s, d.session = some s → s.role = .cp ∧ Q s.suite

variable {Q : CipherSuite → Prop} {b : Bus} {m : Message} {d e : Device} {f : Frame} {s : Session}
  {data : Octets} {asked : Option Frame} {op : Op} {i : ℕ} {t : Attended} {rndA : Rnd}

/-- A new bus is manned. -/
theorem manned_new (addrs : List Address) (scheme : Scheme) {secure : Option SecureChannel}
    (hQ : ∀ channel, secure = some channel → Q channel.suite) :
    (new addrs scheme secure).Manned Q := by
  refine ⟨hQ, ?_⟩
  intro d hd
  simp only [new, List.mem_map] at hd
  obtain ⟨addr, -, rfl⟩ := hd
  rintro s ⟨⟩

/-- Every operation keeps it manned. -/
theorem manned_step (op : Op) (h : b.Manned Q) : (b.step op).Manned Q := by
  refine ⟨step_offers h.offers op, ?_⟩
  intro e he s' hs'
  obtain he | ⟨i, c, d, -, hd, rfl⟩ := mem_step_devices he
  · exact h.sessions e he s' hs'
  · obtain ⟨s, hs, hsuite, hrole⟩ | ⟨channel, hchannel, hsuite, hrole⟩ := call_origin b d c s' hs'
    · rw [hsuite, hrole]
      exact h.sessions d (List.mem_of_getElem? hd) s hs
    · rw [hsuite]
      exact ⟨hrole, h.offers channel hchannel⟩

/-! ## A reply of the handshake -/

namespace Device

/-- The answer the handshake under way waits for: `osdp_CCRYPT` to its challenge, `osdp_RMAC_I` to
its server cryptogram, under the number of the command. -/
def awaits (d : Device) (asked : Option Frame) (f : Frame) : Bool :=
  match asked, d.session with
  | some g, some s =>
    g.control.sequence == f.control.sequence &&
      (g.isChallenge && f.code == Code.cCrypt && s.state == .challenged ||
        g.isServerCryptogram && f.code == Code.rMacI && s.state == .cryptogram)
  | _, _ => false

/-- A reply of the handshake that was not asked for. -/
def unasked (d : Device) (asked : Option Frame) (f : Frame) : Bool :=
  Code.ofHandshake f.code && !d.awaits asked f

/-- Whether the bus takes a reply of the handshake for a failure. -/
def rejects (d : Device) (m : Message) : Bool :=
  match d.session with
  | none => true
  | some s =>
    if m.code = Code.cCrypt then !(s.answerCryptogram m.data).1.isOk
    else !(s.completeHandshake m.data).1.isOk

/-- Whether a reply of the handshake moves the device. One that is not let through restarts the
exchange; one that is taken for a failure changes nothing only if the Secure Channel was given up
before and the device is in state `Online`; an `osdp_RMAC_I` that is accepted makes it `Secure`. -/
def upset (d : Device) (f : Frame) : Bool :=
  f.isReply && f.address == d.address &&
    match d.hears f with
    | none => d.state != .offline
    | some m =>
      if d.rejects m then !(d.secureDeclined && d.state == .online)
      else m.code == Code.rMacI && d.state != .secure

variable {d : Device}

/-- An established session is past the handshake. -/
theorem rejects_of_established {s : Session} (hs : d.session = some s)
    (hst : s.state = .established) (m : Message) : d.rejects m = true := by
  unfold rejects
  rw [hs]
  simp only
  split
  · rcases h : s.answerCryptogram m.data with ⟨r, s'⟩
    cases r with
    | error e => rfl
    | ok out =>
      have hfrom := (Secure.Session.answerCryptogram_ok h).1
      rw [hst] at hfrom
      cases hfrom
  · rcases h : s.completeHandshake m.data with ⟨r, s'⟩
    cases r with
    | error e => rfl
    | ok u =>
      have hfrom := (Secure.Session.completeHandshake_ok h).1
      rw [hst] at hfrom
      cases hfrom

/-- Opening a reply does not change what the handshake makes of it. -/
theorem rejects_opened {f g : Frame} {s : Option Session}
    (h : openIfEstablished { d with misses := 0 } f = .ok (g, { d with misses := 0, session := s }))
    (m : Message) : ({ d with misses := 0, session := s }.delivered).rejects m = d.rejects m := by
  obtain rfl | ⟨t, t', ht, rfl, hte, hte'⟩ := openIfEstablished_session h
  · simp only [rejects, delivered_session]
  · have hd : d.session = some t := ht
    rw [rejects_of_established (s := t') (by simp) hte', rejects_of_established hd hte]

end Device

/-- An `osdp_CCRYPT` ends the handshake or takes it on. -/
theorem onCryptogram_rejects (d : Device) (hm : m.code = Code.cCrypt) :
    (d.rejects m = true ∧
      onCryptogram d m.data = (.secureFailed, { d.abandonSecure with state := .online })) ∨
    (d.rejects m = false ∧ ∃ s s' p, d.session = some s ∧ s.state = .challenged ∧
      s'.state = .cryptogram ∧
      onCryptogram d m.data = (.none, { d with session := some s', pending := p })) := by
  unfold onCryptogram Device.rejects
  simp only [hm, if_true]
  cases d.session with
  | none => exact .inl ⟨rfl, rfl⟩
  | some s =>
    simp only
    rcases h : s.answerCryptogram m.data with ⟨r, s'⟩
    cases r with
    | error e => exact .inl ⟨rfl, rfl⟩
    | ok out =>
      obtain ⟨hfrom, hto⟩ := Secure.Session.answerCryptogram_ok h
      exact .inr ⟨rfl, s, s', _, rfl, hfrom, hto, rfl⟩

/-- An `osdp_RMAC_I` ends it or establishes the session. -/
theorem onInitialRMAC_rejects (d : Device) (hm : m.code = Code.rMacI) :
    (d.rejects m = true ∧
      onInitialRMAC d m.data = (.secureFailed, { d.abandonSecure with state := .online })) ∨
    (d.rejects m = false ∧ ∃ s s', d.session = some s ∧ s.state = .cryptogram ∧
      s'.state = .established ∧ onInitialRMAC d m.data =
        (.secure s'.usingDefaultKey, { d with session := some s', state := .secure })) := by
  have hne : ¬ m.code = Code.cCrypt := hm.trans_ne (by decide)
  unfold onInitialRMAC Device.rejects
  simp only [hne, if_false]
  cases d.session with
  | none => exact .inl ⟨rfl, rfl⟩
  | some s =>
    simp only
    rcases h : s.completeHandshake m.data with ⟨r, s'⟩
    cases r with
    | error e => exact .inl ⟨rfl, rfl⟩
    | ok out =>
      obtain ⟨hfrom, hto⟩ := Secure.Session.completeHandshake_ok h
      exact .inr ⟨rfl, s, s', rfl, hfrom, hto, rfl⟩

/-- **What a reply of the handshake does.** -/
theorem dispatch_handshake (b : Bus) (d : Device) (hm : Code.ofHandshake m.code = true) :
    (d.rejects m = true ∧ (dispatch b d m).2 = { d.abandonSecure with state := .online }) ∨
    (d.rejects m = false ∧ (dispatch b d m).2.secureDeclined = d.secureDeclined ∧
      (dispatch b d m).2.state = if m.code = Code.rMacI then .secure else d.state) := by
  obtain hc | hc : m.code = Code.cCrypt ∨ m.code = Code.rMacI := by
    simpa [Code.ofHandshake] using hm
  · have hrow : (dispatch b d m).2 = (onCryptogram d m.data).2 := by
      simp [dispatch, hc, Code.pdID, Code.pdCap, Code.iStatR, Code.oStatR, Code.lStatR, Code.rStatR,
        Code.cCrypt]
    rw [hrow, if_neg (hc.trans_ne (by decide))]
    obtain ⟨hrej, he⟩ | ⟨hrej, s, s', p, -, -, -, he⟩ := onCryptogram_rejects d hc
    · exact .inl ⟨hrej, by rw [he]⟩
    · exact .inr ⟨hrej, by rw [he], by rw [he]⟩
  · have hrow : (dispatch b d m).2 = (onInitialRMAC d m.data).2 := by
      simp [dispatch, hc, Code.pdID, Code.pdCap, Code.iStatR, Code.oStatR, Code.lStatR, Code.rStatR,
        Code.cCrypt, Code.rMacI]
    rw [hrow, if_pos hc]
    obtain ⟨hrej, he⟩ | ⟨hrej, s, s', -, -, -, he⟩ := onInitialRMAC_rejects d hc
    · exact .inl ⟨hrej, by rw [he]⟩
    · exact .inr ⟨hrej, by rw [he], by rw [he]⟩

/-- A frame that is not a reply to this device. -/
theorem Device.foreign (h : f.isReply = false ∨ f.address ≠ d.address) :
    (f.isReply && f.address == d.address) = false := by
  obtain h | h := h <;> simp [h]

/-- A reply of the handshake moves the device exactly when `upset` says so. -/
theorem upset_iff (b : Bus) (d : Device) (hf : Code.ofHandshake f.code = true) :
    d.upset f = true ↔ ¬ ((reply b d f).2.secureDeclined = d.secureDeclined ∧
      (reply b d f).2.state = d.state) := by
  obtain ⟨hnot, e, he⟩ | ⟨hr, ha, ⟨hz, he⟩ | ⟨hz, ⟨err, ho⟩, he⟩ | ⟨hz, data, s, ho, he⟩⟩ :=
    reply_cases b d f
  · simp [Device.upset, Device.foreign hnot, he]
  · simp [Device.upset, Device.hears, hr, ha, hz, he, Device.resync_eq, @eq_comm _ State.offline]
  · simp [Device.upset, Device.hears_of_closed ho, hr, ha, he, Device.resync_eq,
      @eq_comm _ State.offline]
  · obtain ⟨m, hm, hcode⟩ : ∃ m : Message, m = ⟨f.code, f.isReply, data⟩ ∧ m.code = f.code :=
      ⟨_, rfl, rfl⟩
    have hrejects := Device.rejects_opened ho m
    rw [Device.upset, Device.hears_eq hr ha hz ho, he, ← hm, hr, ha, beq_self_eq_true]
    obtain ⟨hrej, hd⟩ | ⟨hrej, hde, hst⟩ := dispatch_handshake b
      { d with misses := 0, session := s }.delivered (m := m) (hcode ▸ hf)
    · rw [hrejects] at hrej
      simp only [hrej, hd, Device.abandonSecure, if_true, Bool.true_and, Bool.not_eq_true',
        Bool.and_eq_false_iff, beq_eq_false_iff_ne, not_and, @eq_comm _ true, @eq_comm _ State.online]
      cases d.secureDeclined <;> simp
    · rw [hrejects] at hrej
      rw [hde, hst]
      by_cases hc : m.code = Code.rMacI <;>
        simp [hrej, hc, Device.delivered_eq, @eq_comm _ State.secure]

/-! ## Why a handshake is given up -/

/-- The causes for which the Secure Channel may be given up. -/
inductive ForCause (b : Bus) (d : Device) (asked : Option Frame) (f : Frame) : Prop where
  /-- The device reports that it has no AES-128. -/
  | incapable (m : Message) (report : CapabilityReport) (hm : d.hears f = some m)
      (hcode : m.code = Code.pdCap) (hreport : parseCapabilities m.data = some report)
      (hnot : report.secureChannel.1 = false)
  /-- The application has no key for it. -/
  | keyless (m : Message) (channel : SecureChannel) (hm : d.hears f = some m)
      (hcode : m.code = Code.pdCap) (hb : b.secure = some channel) (hinstalled : d.installedKey = none)
      (hkey : channel.keys d.address = none)
  /-- The cryptogram that answers the challenge is not the one the keys give. -/
  | cryptogram (m : Message) (s : Session) (keys : SessionKeys) (expected : Secure.Block)
      (hm : d.hears f = some m) (hcode : m.code = Code.cCrypt) (hawaits : d.awaits asked f = true)
      (hs : d.session = some s) (hkeys : s.suite.deriveSessionKeys s.base s.rndA = .ok keys)
      (hexpected : s.suite.clientCryptogram keys s.rndA (octetsAt 8 m.data Secure.uidSize) =
        .ok expected)
      (hnot : ¬ (m.data.length = Secure.ccryptSize ∧
        m.data.drop (Secure.uidSize + 8) = expected.toList))
  /-- The initial R-MAC that answers the server cryptogram is not the one the panel derives. -/
  | initialRMAC (m : Message) (s : Session) (expected : Secure.Block) (hm : d.hears f = some m)
      (hcode : m.code = Code.rMacI) (hawaits : d.awaits asked f = true) (hs : d.session = some s)
      (hexpected : s.suite.initialRMAC s.keys s.serverCryptogram = .ok expected)
      (hnot : m.data ≠ expected.toList)

/-- A capability report gives the Secure Channel up for want of AES-128 or of a key. -/
theorem afterCapabilities_declined (hd : d.secureDeclined = false)
    (h : (afterCapabilities b d).secureDeclined = true) :
    d.caps.secureChannel.1 = false ∨
      ∃ channel, b.secure = some channel ∧ d.installedKey = none ∧ channel.keys d.address = none := by
  unfold afterCapabilities at h
  simp only [hd] at h
  split at h
  · cases h
  · rename_i channel hb
    simp only [Bool.false_eq_true, if_false] at h
    split at h
    · rename_i hnot
      exact .inl (by simpa using hnot)
    · split at h
      · rename_i hkey
        refine .inr ⟨channel, hb, ?_⟩
        simp only [Device.baseKey] at hkey
        split at hkey
        · cases hkey
        · rename_i hinstalled
          exact ⟨hinstalled, hkey⟩
      · cases h

/-- **When a message gives the Secure Channel up.** -/
theorem dispatch_declined (hd : d.secureDeclined = false)
    (h : (dispatch b d m).2.secureDeclined = true) :
    (m.code = Code.pdCap ∧ ∃ report, parseCapabilities m.data = some report ∧
      (report.secureChannel.1 = false ∨
        ∃ channel, b.secure = some channel ∧ d.installedKey = none ∧ channel.keys d.address = none)) ∨
    (Code.ofHandshake m.code = true ∧ d.rejects m = true) := by
  by_cases hcode : Code.ofHandshake m.code = true
  · obtain ⟨hrej, -⟩ | ⟨-, hkept, -⟩ := dispatch_handshake b d hcode
    · exact .inr ⟨hcode, hrej⟩
    · rw [hkept, hd] at h
      cases h
  · left
    have hkept : ¬ d.secureDeclined = true := by simp [hd]
    revert h
    apply dispatch_rows b d m (motive := fun r => r.2.secureDeclined = true →
      m.code = Code.pdCap ∧ ∃ report, parseCapabilities m.data = some report ∧
        (report.secureChannel.1 = false ∨ ∃ channel, b.secure = some channel ∧
          d.installedKey = none ∧ channel.keys d.address = none))
    case capabilities =>
      intro report e hm hreport _ h
      exact ⟨hm, report, hreport, afterCapabilities_declined (d := { d with caps := report }) hd h⟩
    case cryptogram => exact fun hm => absurd (by simp [Code.ofHandshake, hm]) hcode
    case initialRMAC => exact fun hm => absurd (by simp [Code.ofHandshake, hm]) hcode
    case busy =>
      intro _ h
      rw [Device.reclaim_eq] at h
      split at h <;> exact absurd h hkept
    case answer =>
      intro _ h
      obtain ⟨st, he⟩ := onAnswer_eq d
      rw [he] at h
      exact absurd h hkept
    case moved => exact fun _ _ _ h => absurd (by simpa [Device.resync_eq] using h) hkept
    all_goals intros; contradiction

/-- The panel's second step fails for the cryptogram alone, once it is due. -/
theorem rejected_cryptogram (hrole : s.role = .cp) (hst : s.state = .challenged)
    (hsuite : s.suite.Derives) (h : (s.answerCryptogram data).1.isOk = false) :
    ∃ keys expected, s.suite.deriveSessionKeys s.base s.rndA = .ok keys ∧
      s.suite.clientCryptogram keys s.rndA (octetsAt 8 data Secure.uidSize) = .ok expected ∧
      ¬ (data.length = Secure.ccryptSize ∧ data.drop (Secure.uidSize + 8) = expected.toList) := by
  obtain ⟨keys, hkeys⟩ := hsuite.keys s.base s.rndA
  obtain ⟨client, hclient⟩ := hsuite.client keys s.rndA (octetsAt 8 data Secure.uidSize)
  obtain ⟨server, hserver⟩ := hsuite.server keys s.rndA (octetsAt 8 data Secure.uidSize)
  refine ⟨keys, client, hkeys, hclient, ?_⟩
  rintro ⟨hlen, hclaimed⟩
  simp [Session.answerCryptogram, hrole, hst, hlen, hclaimed, hkeys, hclient, hserver, Except.isOk,
    Except.toBool] at h

/-- So does its third. -/
theorem rejected_initialRMAC (hrole : s.role = .cp) (hst : s.state = .cryptogram)
    (hsuite : s.suite.Derives) (h : (s.completeHandshake data).1.isOk = false) :
    ∃ expected, s.suite.initialRMAC s.keys s.serverCryptogram = .ok expected ∧
      data ≠ expected.toList := by
  obtain ⟨rmac, hrmac⟩ := hsuite.rmac s.keys s.serverCryptogram
  refine ⟨rmac, hrmac, ?_⟩
  rintro rfl
  rw [Secure.Session.completeHandshake_of_rmac hrole hst hrmac] at h
  cases h

/-- **A failure of the handshake under way is a failed proof.** -/
theorem forCause_of_awaited (hsessions : ∀ s, d.session = some s → s.role = .cp ∧ s.suite.Derives)
    (hm : d.hears f = some m) (hcode : m.code = f.code) (hawaits : d.awaits asked f = true)
    (hrejects : d.rejects m = true) : ForCause b d asked f := by
  have hwaits := hawaits
  unfold Device.awaits at hwaits
  split at hwaits
  · rename_i s hs
    obtain ⟨hrole, hsuite⟩ := hsessions s hs
    unfold Device.rejects at hrejects
    simp only [hs] at hrejects
    simp only [Bool.and_eq_true, Bool.or_eq_true, beq_iff_eq] at hwaits
    obtain ⟨-, ⟨⟨-, hc⟩, hst⟩ | ⟨⟨-, hc⟩, hst⟩⟩ := hwaits
    · rw [if_pos (hcode.trans hc)] at hrejects
      obtain ⟨keys, expected, hkeys, hexpected, hnot⟩ :=
        rejected_cryptogram hrole hst hsuite (by simpa using hrejects)
      exact .cryptogram m s keys expected hm (hcode.trans hc) hawaits hs hkeys hexpected hnot
    · have hne : ¬ m.code = Code.cCrypt := (hcode.trans hc).trans_ne (by decide)
      rw [if_neg hne] at hrejects
      obtain ⟨expected, hexpected, hnot⟩ :=
        rejected_initialRMAC hrole hst hsuite (by simpa using hrejects)
      exact .initialRMAC m s expected hm (hcode.trans hc) hawaits hs hexpected hnot
  · cases hwaits

/-- A reply that gives the Secure Channel up does so for cause, or was a reply of the handshake
that nobody asked for and that upset the device. -/
theorem reply_declined (hsessions : ∀ s, d.session = some s → s.role = .cp ∧ s.suite.Derives)
    (hd : d.secureDeclined = false) (h : (reply b d f).2.secureDeclined = true) :
    ForCause b d asked f ∨ (d.unasked asked f = true ∧ d.upset f = true) := by
  obtain ⟨-, e, he⟩ | ⟨hr, ha, ⟨-, he⟩ | ⟨-, -, he⟩ | ⟨hz, data, s, ho, he⟩⟩ := reply_cases b d f
  · rw [he, hd] at h
    cases h
  · simp [he, Device.resync_eq, hd] at h
  · simp [he, Device.resync_eq, hd] at h
  · have hm := Device.hears_eq hr ha hz ho
    have hmoved := h
    rw [he] at h
    obtain ⟨hcode, report, hreport, hnot⟩ | ⟨hcode, hrejects⟩ :=
      dispatch_declined (by simpa [Device.delivered_eq] using hd) h
    · left
      obtain hnot | ⟨channel, hb, hinstalled, hkey⟩ := hnot
      · exact .incapable _ report hm hcode hreport hnot
      · exact .keyless _ channel hm hcode hb (by simpa using hinstalled) (by simpa using hkey)
    · rw [Device.rejects_opened ho] at hrejects
      by_cases hawaits : d.awaits asked f = true
      · exact .inl (forCause_of_awaited hsessions hm rfl hawaits hrejects)
      · refine .inr ⟨by simp only [Device.unasked, hawaits]; simpa using hcode, ?_⟩
        rw [upset_iff b d hcode]
        rintro ⟨hkept, -⟩
        rw [hkept, hd] at hmoved
        cases hmoved

/-- A call other than a reply never gives the Secure Channel up. -/
theorem call_declined {c : Call} (hsessions : ∀ s, d.session = some s → s.role = .cp)
    (hc : ∀ f, c ≠ .reply f) : (call b d c).2.secureDeclined = d.secureDeclined := by
  cases c with
  | send m =>
    simp only [call, send]
    split <;> rfl
  | installKey key =>
    simp only [call, installKey]
    split <;> rfl
  | next rndA =>
    obtain ⟨q, r, s, hcompose⟩ :=
      compose_device b (commandFor d rndA).2.2 (commandFor d rndA).1 (commandFor d rndA).2.1
    simp only [call, transact, hcompose]
    obtain ⟨m, -, he⟩ | ⟨-, -, he⟩ | ⟨-, -, he⟩ | ⟨-, -, he⟩ | ⟨-, -, he⟩ := commandFor_cases d rndA
    case inr.inr.inr.inl =>
      rw [he]
      unfold handshakeCommand
      split
      · rfl
      · split
        · rfl
        · rename_i s hs
          rw [Secure.Session.beginChallenge_of_cp (hsessions s hs)]
    all_goals rw [he]
  | reply f => exact absurd rfl (hc f)
  | timeout =>
    obtain ⟨-, he⟩ | ⟨-, -, he⟩ := timeout_cases d
    · simp [call, he, Device.retransmit_eq]
    · simp [call, he, Device.resync_eq]

namespace Attended

/-- The property at one operation. -/
structure GivesUpForCause (t : Attended) (op : Op) : Prop where
  /-- A device whose Secure Channel is given up was just heard to give cause for it. -/
  cause : ∀ i d e, t.bus.devices[i]? = some d → (t.bus.step op).devices[i]? = some e →
    d.secureDeclined = false → e.secureDeclined = true →
    ∃ f, op = .reply i f ∧ ForCause t.bus d (t.dialogue i).asked f
  /-- A reply of the handshake that was not asked for moves nothing. -/
  unmoved : ∀ i f d e, op = .reply i f → t.bus.devices[i]? = some d →
    (t.bus.step op).devices[i]? = some e → d.unasked (t.dialogue i).asked f = true →
    e.secureDeclined = d.secureDeclined ∧ e.state = d.state

/-- The operation delivers a reply of the handshake that was not asked for and moves the device. -/
def upset (t : Attended) : Op → Bool
  | .reply i f => t.bus.devices[i]?.any fun d => d.unasked (t.dialogue i).asked f && d.upset f
  | _ => false

end Attended

/-- What an operation leaves of a device. -/
theorem step_getElem (hd : b.devices[i]? = some d) (he : (b.step op).devices[i]? = some e) :
    e = d ∨ ∃ c, b.callOf op = some (i, c) ∧ e = (call b d c).2 := by
  rw [step_devices] at he
  split at he
  · rw [hd] at he
    exact .inl (Option.some.inj he).symm
  · rename_i j c hcall
    split at he
    · rw [hd] at he
      exact .inl (Option.some.inj he).symm
    · rename_i d' hd'
      by_cases hj : j = i
      · subst hj
        rw [hd] at hd'
        cases hd'
        rw [List.getElem?_set_self (List.getElem?_eq_some_iff.mp hd).1] at he
        exact .inr ⟨c, hcall, (Option.some.inj he).symm⟩
      · rw [List.getElem?_set_ne hj, hd] at he
        exact .inl (Option.some.inj he).symm

/-- A reply reaches the device it is delivered for. -/
theorem step_reply (hd : b.devices[i]? = some d) (f : Frame) :
    (b.step (.reply i f)).devices[i]? = some (reply b d f).2 := by
  rw [step_devices]
  simp only [callOf, hd, List.getElem?_set_self (List.getElem?_eq_some_iff.mp hd).1]
  rfl

/-- A reply comes of a reply. -/
theorem callOf_reply (h : b.callOf op = some (i, .reply f)) : op = .reply i f := by
  cases op with
  | reply j g =>
    simp only [callOf, Option.some.injEq, Prod.mk.injEq, Call.reply.injEq] at h
    obtain ⟨rfl, rfl⟩ := h
    rfl
  | setCommunication j want =>
    simp only [callOf] at h
    split at h <;> simp at h
  | _ => simp [callOf] at h

/-- **A handshake is given up for cause** unless it was upset. -/
theorem givesUpForCause_iff (ht : t.bus.Manned CipherSuite.Derives) (op : Op) :
    t.GivesUpForCause op ↔ t.upset op = false := by
  constructor
  · intro h
    rw [Bool.eq_false_iff]
    intro hupset
    cases op with
    | reply i f =>
      obtain ⟨d, hd, hboth⟩ := (Option.any_eq_true _ _).mp hupset
      rw [Bool.and_eq_true] at hboth
      have hcode : Code.ofHandshake f.code = true := (Bool.and_eq_true _ _ ▸ hboth.1).1
      exact (upset_iff t.bus d hcode).mp hboth.2 (h.unmoved i f d _ rfl hd (step_reply hd f) hboth.1)
    | _ => cases hupset
  · intro hupset
    have hfalse : ∀ {i f d}, op = .reply i f → t.bus.devices[i]? = some d →
        ¬ (d.unasked (t.dialogue i).asked f = true ∧ d.upset f = true) := by
      rintro i f d rfl hd ⟨hun, hup⟩
      simp [Attended.upset, hd, hun, hup] at hupset
    refine ⟨?_, ?_⟩
    · intro i d e hd he hbefore hafter
      have hsessions := ht.sessions d (List.mem_of_getElem? hd)
      obtain rfl | ⟨c, hcall, rfl⟩ := step_getElem hd he
      · rw [hbefore] at hafter
        cases hafter
      · by_cases hc : ∃ f, c = .reply f
        · obtain ⟨f, rfl⟩ := hc
          have hop := callOf_reply hcall
          exact ⟨f, hop, (reply_declined hsessions hbefore hafter).resolve_right (hfalse hop hd)⟩
        · rw [call_declined (fun s hs => (hsessions s hs).1) (fun f hf => hc ⟨f, hf⟩), hbefore] at hafter
          cases hafter
    · rintro i f d e rfl hd he hun
      rw [step_reply hd f] at he
      cases he
      have hcode : Code.ofHandshake f.code = true := (Bool.and_eq_true _ _ ▸ hun).1
      by_contra hmoved
      exact hfalse rfl hd ⟨hun, (upset_iff t.bus d hcode).mpr hmoved⟩

/-- **The Secure Channel is given up for cause, exactly when no reply of the handshake that the bus
did not ask for moves a device.** -/
theorem handshake_given_up_for_cause_iff (addrs : List Address) (scheme : Scheme)
    {secure : Option SecureChannel}
    (hsuite : ∀ channel, secure = some channel → channel.suite.Derives) (ops : List Op) :
    (∀ p ∈ Run.trace Attended.step (Attended.new addrs scheme secure) ops,
      p.1.GivesUpForCause p.2) ↔
    ∀ p ∈ Run.trace Attended.step (Attended.new addrs scheme secure) ops, p.1.upset p.2 = false := by
  have hmanned := Attended.invariant_bus (I := Manned CipherSuite.Derives)
    (fun b op h => manned_step op h) (t := Attended.new addrs scheme secure)
    (manned_new addrs scheme hsuite) ops
  exact forall₂_congr fun p hp => givesUpForCause_iff (hmanned p hp) p.2

/-- The counting suite derives. -/
theorem countingSuite_derives : Secure.countingSuite.Derives :=
  ⟨fun _ _ => ⟨_, rfl⟩, fun _ _ _ => ⟨_, rfl⟩, fun _ _ _ => ⟨_, rfl⟩, fun _ _ => ⟨_, rfl⟩⟩

/-- What a bus is configured with to try a handshake. -/
def countingChannel : SecureChannel := ⟨Secure.countingSuite, fun _ => some Secure.zeroBlock⟩

/-- A device enrols and is challenged. -/
def challengedOps : List Op :=
  [.next Secure.zeroRnd, .reply 0 (plainReply 1 1 Code.pdID (List.replicate 12 0)),
   .next Secure.zeroRnd, .reply 0 (plainReply 1 2 Code.pdCap [funcCommSecurity, 1, 0]),
   .next Secure.zeroRnd]

/-- A device that answers the challenge with a cryptogram of its own is given up for cause. -/
theorem handshake_given_up_for_cause_mismatch :
    Secure.countingSuite.Derives ∧
    ∀ p ∈ Run.trace Attended.step (Attended.new [1] .checksum (some countingChannel))
      (challengedOps ++ [.reply 0 (securedReply 1 3 Secure.scs12 Code.cCrypt (List.replicate 32 1))]),
      p.1.GivesUpForCause p.2 :=
  ⟨countingSuite_derives,
    (handshake_given_up_for_cause_iff [1] .checksum (by simp [countingChannel, countingSuite_derives])
      (challengedOps ++
        [.reply 0 (securedReply 1 3 Secure.scs12 Code.cCrypt (List.replicate 32 1))])).mpr
      (by decide +kernel)⟩

/-- An `osdp_CCRYPT` in answer to `osdp_ID` skips enrolment: the device is `Online`, and the Secure
Channel is given up for good. -/
theorem unasked_cryptogram_declines :
    let t := [Op.next Secure.zeroRnd].foldl Attended.step
      (Attended.new [1] .checksum (some countingChannel))
    let u := t.step (.reply 0 (plainReply 1 1 Code.cCrypt []))
    (t.bus.devices.map fun d => (d.secureDeclined, d.state)) = [(false, .offline)] ∧
      (t.dialogue 0).asked.map Frame.code = some Code.id ∧
      (u.bus.devices.map fun d => (d.secureDeclined, d.state)) = [(true, .online)] := by
  decide +kernel

/-! ## A refused step of the handshake -/

namespace Device

/-- Whether `Next` is about to challenge the device, or to hold a command back for the handshake
alone. -/
def insists (d : Device) : Bool :=
  d.state == .secureHandshake && Address.valid d.address &&
    (d.pending.isNone || (!d.outbox.isEmpty && !d.deferCommands && !d.withholdsKeySet))

/-- A `Next` that sent `f` and left `e` takes a refusal for an answer: `f` is no challenge, and a
queued command goes out unless the device is enrolling, asked for a pause, or would get an
`osdp_KEYSET` in the clear. -/
structure Heeds (d e : Device) (f : Frame) : Prop where
  unrepeated : f.isChallenge = false
  sent : d.outbox ≠ [] → d.state = .offline ∨ d.state = .identifying ∨ d.deferCommands = true ∨
    d.withholdsKeySet = true ∨
    ∃ m rest, d.outbox = m :: rest ∧ f.code = m.code ∧ e.outbox = rest ∧ e.inflight = some m

end Device

/-- What `Next` sends in the handshake: the step under way, or a challenge. -/
theorem transact_of_handshaking (b : Bus) (hst : d.state = .secureHandshake)
    (hv : Address.valid d.address = true) (harmed : d.Armed) (hsteps : d.StepsApart)
    (hrole : ∀ s, d.session = some s → s.role = .cp) (rndA : Rnd) :
    ∃ f e, transact b d rndA = (.ok f, e) ∧ f.isChallenge = d.pending.isNone ∧
      e.outbox = d.outbox := by
  have hcommand : commandFor d rndA = handshakeCommand d rndA := by simp only [commandFor, hst]
  unfold transact
  rw [hcommand, handshakeCommand]
  have hopen : ∀ {t : UInt8}, t = Secure.scs11 ∨ t = Secure.scs13 →
      Secure.BlockType.encrypted t = false ∧ Secure.BlockType.established t = false := by
    rintro t (rfl | rfl) <;> decide
  cases hp : d.pending with
  | some st =>
    have hblock := hsteps st hp
    obtain ⟨henc, hest⟩ := hopen (t := st.block.type) (.inr (by rw [hblock]))
    refine ⟨_, _, compose_handshake (d := { d with pending := none }) hv st.msg henc hest, ?_, rfl⟩
    simp [Frame.isChallenge, Frame.sealCheck, securedFrame, hblock, Secure.scs13, Secure.scs11]
  | none =>
    obtain ⟨s, hs, -⟩ := harmed.handshake hst
    obtain ⟨henc, hest⟩ := hopen (.inl rfl)
    simp only [hs, Secure.Session.beginChallenge_of_cp (hrole s hs) rndA]
    refine ⟨_, _, compose_handshake (d := { d with
      session := some { s with rndA := rndA, state := .challenged }, pending := none })
      hv _ henc hest, ?_, rfl⟩
    simp [Frame.isChallenge, Frame.sealCheck, securedFrame]

/-- A block of an established session is not that of a challenge. -/
theorem not_challenge_of_security {st : State} {n : ℕ}
    (h : f.security = if st = .secure then some (blockForCommand n) else none) :
    f.isChallenge = false := by
  have hne : f.security ≠ some { type := Secure.scs11 } := by
    rw [h]
    unfold blockForCommand
    split
    · split <;> decide
    · decide
  simp [Frame.isChallenge, hne]

/-- Out of the handshake `Next` heeds a refusal. -/
theorem heeds_of_state (hst : d.state ≠ .secureHandshake) (h : transact b d rndA = (.ok f, e)) :
    d.Heeds e f := by
  have hcomposed := transact_ok h
  obtain ⟨m, hm, he⟩ | ⟨-, hoff, he⟩ | ⟨-, hid, he⟩ | ⟨-, hh, -⟩ | ⟨hnone, hon, he⟩ :=
    commandFor_cases d rndA
  · rw [he] at hcomposed
    refine ⟨not_challenge_of_security hcomposed.security, fun _ => ?_⟩
    obtain ⟨-, -, -, rest, hrest⟩ := Device.takes_eq_some hm
    obtain ⟨q, r, s, hafter⟩ := transact_of_takes b hm rndA
    rw [h] at hafter
    subst hafter
    exact .inr (.inr (.inr (.inr ⟨m, rest, hrest, hcomposed.code, by simp [hrest], rfl⟩)))
  · rw [he] at hcomposed
    exact ⟨by simp [Frame.isChallenge, hcomposed.security], fun _ => .inl hoff⟩
  · rw [he] at hcomposed
    exact ⟨by simp [Frame.isChallenge, hcomposed.security], fun _ => .inr (.inl hid)⟩
  · exact absurd hh hst
  · rw [he] at hcomposed
    refine ⟨not_challenge_of_security hcomposed.security, fun hne => .inr (.inr ?_)⟩
    by_contra hheld
    simp only [not_or] at hheld
    rw [Device.takes, if_pos ⟨hon, hheld.1, hheld.2.1⟩] at hnone
    exact hne (List.head?_eq_none_iff.mp hnone)

/-- **`Next` heeds a refusal, unless it insists.** -/
theorem heeds_iff (harmed : d.Armed) (hsteps : d.StepsApart)
    (hrole : ∀ s, d.session = some s → s.role = .cp) (h : transact b d rndA = (.ok f, e)) :
    d.Heeds e f ↔ d.insists = false := by
  by_cases hst : d.state = .secureHandshake
  · have hv : Address.valid d.address = true := by
      have hvalid := (transact_ok h).valid
      rwa [commandFor_address] at hvalid
    obtain ⟨g, e', h', hchallenge, hkept⟩ := transact_of_handshaking b hst hv harmed hsteps hrole rndA
    rw [h] at h'
    cases h'
    constructor
    · rintro ⟨hun, hsent⟩
      rw [hchallenge] at hun
      have hheld : d.outbox ≠ [] → d.deferCommands = true ∨ d.withholdsKeySet = true := by
        intro hne
        obtain hoff | hid | hdefer | hwithheld | ⟨m, rest, hrest, -, htail, -⟩ := hsent hne
        · rw [hst] at hoff
          cases hoff
        · rw [hst] at hid
          cases hid
        · exact .inl hdefer
        · exact .inr hwithheld
        · rw [hkept, hrest] at htail
          exact absurd htail (by simp)
      rw [Bool.eq_false_iff]
      intro hins
      simp only [Device.insists, hun, Bool.and_eq_true, Bool.or_eq_true, Bool.not_eq_true',
        List.isEmpty_eq_false_iff, Bool.false_eq_true, false_or] at hins
      obtain ⟨-, ⟨hne, hdefer⟩, hwithheld⟩ := hins
      obtain hd | hw := hheld hne
      · rw [hdefer] at hd
        cases hd
      · rw [hwithheld] at hw
        cases hw
    · intro hins
      simp only [Device.insists, hst, hv, beq_self_eq_true, Bool.true_and, Bool.or_eq_false_iff] at hins
      refine ⟨by rw [hchallenge]; exact hins.1, fun hne => .inr (.inr ?_)⟩
      by_contra hheld
      simp only [not_or, Bool.not_eq_true] at hheld
      have hboth := hins.2
      simp [hheld.1, hheld.2.1, hne] at hboth
  · exact iff_of_true (heeds_of_state hst h) (by simp [Device.insists, hst])

namespace Attended

/-- The property at one operation: `Next` heeds a refusal the device has given since it enrolled. -/
def HeedsRefusal (t : Attended) (op : Op) : Prop :=
  ∀ d e f, Emits t.bus op d f → (t.bus.step op).devices[t.bus.current]? = some e →
    (t.dialogue t.bus.current).refused = true → d.Heeds e f

/-- The operation is a `Next` that insists on a handshake the device refused. -/
def insists (t : Attended) : Op → Bool
  | .next _ => (t.dialogue t.bus.current).refused && t.bus.devices[t.bus.current]?.any Device.insists
  | _ => false

end Attended

/-- `Next` is about the device whose turn it is. -/
theorem step_next (hd : b.devices[b.current]? = some d) (rndA : Rnd) :
    (b.step (.next rndA)).devices[b.current]? = some (transact b d rndA).2 := by
  rw [step_devices]
  simp only [callOf, hd, List.getElem?_set_self (List.getElem?_eq_some_iff.mp hd).1]
  rfl

/-- **A refusal is heeded** unless the panel insists. -/
theorem heedsRefusal_iff (hf : t.bus.Furnished fun _ => True) (hm : t.bus.Manned fun _ => True)
    (op : Op) : t.HeedsRefusal op ↔ t.insists op = false := by
  have hdevice : ∀ {d}, d ∈ t.bus.devices → d.Armed ∧ d.StepsApart ∧
      ∀ s, d.session = some s → s.role = .cp := by
    intro d hd
    exact ⟨hf.armed d hd, (hf.provided d hd).step, fun s hs => (hm.sessions d hd s hs).1⟩
  constructor
  · intro h
    rw [Bool.eq_false_iff]
    intro hinsists
    cases op with
    | next rndA =>
      rw [Attended.insists, Bool.and_eq_true] at hinsists
      obtain ⟨d, hd, hins⟩ := (Option.any_eq_true _ _).mp hinsists.2
      obtain ⟨harmed, hsteps, hrole⟩ := hdevice (List.mem_of_getElem? hd)
      have hthere : d.state = .secureHandshake ∧ Address.valid d.address = true := by
        simp only [Device.insists, Bool.and_eq_true, beq_iff_eq] at hins
        exact hins.1
      obtain ⟨f, e, ht, -⟩ := transact_of_handshaking t.bus hthere.1 hthere.2 harmed hsteps hrole rndA
      have hheeds := h d e f (emits_of_transact hd ht) (by rw [step_next hd, ht]) hinsists.1
      rw [heeds_iff harmed hsteps hrole ht, hins] at hheeds
      cases hheeds
    | _ => cases hinsists
  · intro hinsists d e f hem he hrefused
    obtain ⟨rndA, e', rfl, ht⟩ := emits_transact hem
    obtain ⟨-, -, hd, -⟩ := hem
    obtain ⟨harmed, hsteps, hrole⟩ := hdevice (List.mem_of_getElem? hd)
    rw [step_next hd, ht] at he
    cases he
    rw [heeds_iff harmed hsteps hrole ht]
    simpa [Attended.insists, hrefused, hd] using hinsists

/-- **A refused challenge is not repeated, exactly when the device is out of the handshake at its
next turn**, or has at least the next step of it under way and nothing else to send. -/
theorem refusal_heeded_iff (addrs : List Address) (scheme : Scheme) (secure : Option SecureChannel)
    (ops : List Op) :
    (∀ p ∈ Run.trace Attended.step (Attended.new addrs scheme secure) ops, p.1.HeedsRefusal p.2) ↔
    ∀ p ∈ Run.trace Attended.step (Attended.new addrs scheme secure) ops,
      p.1.insists p.2 = false := by
  have hfurnished := Attended.invariant_bus (I := Furnished fun _ => True)
    (fun b op h => furnished_step h op) (t := Attended.new addrs scheme secure)
    (furnished_new addrs scheme fun _ _ => trivial) ops
  have hmanned := Attended.invariant_bus (I := Manned fun _ => True)
    (fun b op h => manned_step op h) (t := Attended.new addrs scheme secure)
    (manned_new addrs scheme fun _ _ => trivial) ops
  exact forall₂_congr fun p hp => heedsRefusal_iff (hfurnished p hp) (hmanned p hp) p.2

/-- A device refuses the challenge with `osdp_NAK`, and a command is queued for it. -/
def refusedOps : List Op :=
  challengedOps ++ [.reply 0 (plainReply 1 3 Code.nak [5]), .send 0 { code := Code.text }]

/-- The command of an outcome. -/
def Outcome.challenges : Outcome → Bool
  | .step f => f.isChallenge
  | _ => false

/-- Its next two turns are challenges again, and the command stays where it is. -/
theorem refused_challenge_repeated :
    let t := refusedOps.foldl Attended.step (Attended.new [1] .checksum (some countingChannel))
    let u := [Op.next Secure.zeroRnd, .reply 0 (plainReply 1 1 Code.nak [5])].foldl Attended.step t
    (t.dialogue 0).refused = true ∧ (t.bus.next Secure.zeroRnd).1.any Outcome.challenges = true ∧
      (u.dialogue 0).refused = true ∧ (u.bus.next Secure.zeroRnd).1.any Outcome.challenges = true ∧
      (u.bus.devices.map fun d => d.outbox) = [[{ code := Code.text }]] := by
  decide +kernel

end Bus

end Osdp
