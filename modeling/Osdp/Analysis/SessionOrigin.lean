import Osdp.Analysis.Agreement

/-!
# Where the panel's sessions come from

Every session a device of the bus holds was begun by `afterCapabilities` with the suite the
bus was configured with, and moved by the steps of the handshake and the two chains since.
`Rekeyed` says so for one message, `Origin` for one call, `Provided` for every run.
-/

set_option autoImplicit false

namespace Osdp.Bus

open Osdp.Secure (Session BaseKey CipherSuite Rnd)

/-- **Where a message leaves the session and the step of the handshake under way.** -/
inductive Rekeyed (b : Bus) (d : Device) (m : Message) (e : Device) : Prop where
  | same (hse : e.session = d.session) (hpe : e.pending = d.pending)
  | dropped (hse : e.session = none) (hpe : e.pending = none)
  | begun (channel : SecureChannel) (key : BaseKey) (hm : m.code = Code.pdCap)
      (hb : b.secure = some channel) (hkey : d.baseKey channel.keys = some key)
      (hse : e.session = some (Secure.newSession channel.suite .cp key)) (hpe : e.pending = d.pending)
  | cryptogram (s s' : Session) (out : Octets) (hm : m.code = Code.cCrypt) (hs : d.session = some s)
      (hok : s.answerCryptogram m.data = (.ok out, s')) (hse : e.session = some s')
      (hpe : e.pending =
        some ⟨{ code := Code.sCrypt, data := out }, { type := Secure.scs13 }⟩)
  | established (s s' : Session) (hm : m.code = Code.rMacI) (hs : d.session = some s)
      (hok : s.completeHandshake m.data = (.ok (), s')) (hse : e.session = some s')
      (hpe : e.pending = d.pending)

/-- A report begins a session with the bus's suite, or leaves it. -/
theorem afterCapabilities_rekeyed (b : Bus) (d : Device) (m : Message) (report : CapabilityReport)
    (hm : m.code = Code.pdCap) :
    Rekeyed b d m (afterCapabilities b { d with caps := report }) := by
  cases hbegins : d.begins b report with
  | false =>
    obtain ⟨de, he⟩ := afterCapabilities_online hbegins
    rw [he]
    exact .same rfl rfl
  | true =>
    obtain ⟨channel, key, hb, hkey, he⟩ := afterCapabilities_begun hbegins
    rw [he]
    exact .begun channel key hm hb hkey rfl rfl

/-- **What a message does to the session.** -/
theorem dispatch_rekeyed (b : Bus) (d : Device) (m : Message) :
    Rekeyed b d m (dispatch b d m).2 := by
  apply dispatch_rows b d m (motive := fun r => Rekeyed b d m r.2)
  case malformed => exact fun _ => .same rfl rfl
  case identified => exact fun _ _ _ => .same rfl rfl
  case capabilities => exact fun report _ h _ _ => afterCapabilities_rekeyed b d m report h
  case status => exact fun _ _ _ _ => .same rfl rfl
  case cryptogram =>
    intro h
    obtain he | ⟨s, s', out, hs, hok, he⟩ := onCryptogram_cases d m.data
    · rw [he]
      exact .dropped rfl rfl
    · rw [he]
      exact .cryptogram s s' out h hs hok rfl rfl
  case initialRMAC =>
    intro h
    obtain he | ⟨s, s', u, hs, hok, he⟩ := onInitialRMAC_cases d m.data
    · rw [he]
      exact .dropped rfl rfl
    · rw [he]
      exact .established s s' h hs hok rfl rfl
  case card => exact fun _ _ _ => .same rfl rfl
  case keypad => exact fun _ _ _ => .same rfl rfl
  case refused => exact fun _ _ => .same rfl rfl
  case manufacturer => exact fun _ _ _ => .same rfl rfl
  case moved => exact fun _ _ _ => .dropped rfl rfl
  case busy =>
    intro _
    rw [Device.reclaim_eq]
    split <;> exact .same rfl rfl
  case installed => exact fun _ _ _ _ => .dropped rfl rfl
  case answer =>
    intro _
    obtain ⟨-, he⟩ | ⟨-, he⟩ := onAnswer_cases d <;> rw [he] <;> exact .same rfl rfl

/-! ## The suite and the role of a session -/

/-- A session was at the device before, as far as its suite and its role go, or the panel began it
with the suite of the bus. -/
def Origin (b : Bus) (d : Device) (s' : Session) : Prop :=
  (∃ s, d.session = some s ∧ s'.suite = s.suite ∧ s'.role = s.role) ∨
    ∃ channel, b.secure = some channel ∧ s'.suite = channel.suite ∧ s'.role = .cp

variable {b : Bus} {d e : Device} {m : Message} {Q : CipherSuite → Prop}

/-- A session comes from itself. -/
theorem origin_of_some {s : Session} (h : d.session = some s) : b.Origin d s :=
  .inl ⟨s, h, rfl, rfl⟩

/-- Origins compose. -/
theorem Origin.trans {s' : Session} (h : b.Origin e s')
    (he : ∀ s, e.session = some s → b.Origin d s) : b.Origin d s' := by
  obtain ⟨s, hs, hsuite, hrole⟩ | h := h
  · obtain ⟨t, ht, hts, htr⟩ | ⟨channel, hb, hts, htr⟩ := he s hs
    · exact .inl ⟨t, ht, hsuite.trans hts, hrole.trans htr⟩
    · exact .inr ⟨channel, hb, hsuite.trans hts, hrole.trans htr⟩
  · exact .inr h

/-- What a message leaves has its origin. -/
theorem rekeyed_origin (h : Rekeyed b d m e) : ∀ s', e.session = some s' → b.Origin d s' := by
  intro t ht
  cases h with
  | same hse _ => exact origin_of_some (hse.symm.trans ht)
  | dropped hse _ =>
    rw [hse] at ht
    cases ht
  | begun channel key _ hchannel _ hse _ =>
    rw [hse] at ht
    cases ht
    exact .inr ⟨channel, hchannel, rfl, rfl⟩
  | cryptogram s s' out _ hs hok hse _ =>
    obtain ⟨-, keys, client, server, -, -, -, -, -, rfl⟩ := Secure.Session.answerCryptogram_eq hok
    rw [hse] at ht
    cases ht
    exact .inl ⟨s, hs, rfl, rfl⟩
  | established s s' _ hs hok hse _ =>
    obtain ⟨-, expected, -, -, rfl⟩ := Secure.Session.completeHandshake_eq hok
    rw [hse] at ht
    cases ht
    exact .inl ⟨s, hs, rfl, rfl⟩

/-- So has what opening a reply leaves. -/
theorem openIfEstablished_origin {f g : Frame} {s : Option Session}
    (h : openIfEstablished d f = .ok (g, { d with session := s })) :
    ∀ t, s = some t → b.Origin d t := by
  unfold openIfEstablished at h
  split at h
  · simp only [Except.ok.injEq, Prod.mk.injEq] at h
    intro t ht
    exact origin_of_some ((congrArg Device.session h.2).trans ht)
  · rename_i u hu
    split at h
    · split at h
      · cases h
      · rename_i data u' hok
        simp only [Except.ok.injEq, Prod.mk.injEq] at h
        intro t ht
        have hs : some u' = s := congrArg Device.session h.2
        rw [ht] at hs
        cases hs
        obtain ⟨mac, rfl⟩ := openReply_ok hok
        exact .inl ⟨u, hu, by simp, by simp⟩
    · simp only [Except.ok.injEq, Prod.mk.injEq] at h
      intro t ht
      exact origin_of_some ((congrArg Device.session h.2).trans ht)

/-- So has what a reply leaves. -/
theorem reply_origin (b : Bus) (d : Device) (f : Frame) :
    ∀ s', (reply b d f).2.session = some s' → b.Origin d s' := by
  obtain ⟨-, e, he⟩ | ⟨-, -, ⟨-, he⟩ | ⟨-, -, he⟩ | ⟨-, data, s, ho, he⟩⟩ := reply_cases b d f
  · rw [he]
    exact fun _ => origin_of_some
  · simp [he, Device.resync_eq]
  · simp [he, Device.resync_eq]
  · rw [he]
    intro s' hs'
    refine (rekeyed_origin (dispatch_rekeyed b _ _) s' hs').trans fun t ht => ?_
    exact openIfEstablished_origin ho t (by simpa using ht)

/-- So has what a step of the handshake leaves. -/
theorem handshakeCommand_origin (b : Bus) (d : Device) (rndA : Rnd) :
    ∀ s', (handshakeCommand d rndA).2.2.session = some s' → b.Origin d s' := by
  unfold handshakeCommand
  split
  · exact fun _ => origin_of_some
  · split
    · exact fun _ => origin_of_some
    · split
      · nofun
      · rename_i s hs _ chlng s' hok
        intro t ht
        cases ht
        rw [Secure.Session.beginChallenge_ok hok]
        exact .inl ⟨s, hs, rfl, rfl⟩

/-- So has what choosing a command leaves. -/
theorem commandFor_origin (b : Bus) (d : Device) (rndA : Rnd) :
    ∀ s', (commandFor d rndA).2.2.session = some s' → b.Origin d s' := by
  obtain ⟨m, -, he⟩ | ⟨-, -, he⟩ | ⟨-, -, he⟩ | ⟨-, -, he⟩ | ⟨-, -, he⟩ := commandFor_cases d rndA
  case inr.inr.inr.inl =>
    rw [he]
    exact handshakeCommand_origin b d rndA
  all_goals
    rw [he]
    exact fun _ => origin_of_some

/-- So has what a transaction leaves. -/
theorem transact_origin (b : Bus) (d : Device) (rndA : Rnd) :
    ∀ s', (transact b d rndA).2.session = some s' → b.Origin d s' := by
  intro s' hs'
  obtain h | ⟨u, mac, hu, h⟩ := compose_session b (commandFor d rndA).2.2 (commandFor d rndA).1
    (commandFor d rndA).2.1
  · rw [transact, h] at hs'
    exact commandFor_origin b d rndA s' hs'
  · rw [transact, h] at hs'
    cases hs'
    have hcommit : b.Origin (commandFor d rndA).2.2 (u.commit true mac) :=
      .inl ⟨u, hu, by simp, by simp⟩
    exact hcommit.trans (commandFor_origin b d rndA)

/-- **Where a session comes from.** Every call leaves a session of the suite and the role it had, or
begins one of the bus's own suite as the panel. -/
theorem call_origin (b : Bus) (d : Device) (c : Call) :
    ∀ s', (call b d c).2.session = some s' → b.Origin d s' := by
  cases c with
  | send m =>
    simp only [call, send]
    split <;> exact fun _ => origin_of_some
  | installKey key =>
    simp only [call, installKey]
    split <;> exact fun _ => origin_of_some
  | next rndA => exact transact_origin b d rndA
  | reply f => exact reply_origin b d f
  | timeout =>
    obtain ⟨-, he⟩ | ⟨-, -, he⟩ := timeout_cases d
    · simp only [call, he, Device.retransmit_eq]
      exact fun _ => origin_of_some
    · simp [call, he, Device.resync_eq]

/-! ## The step of the handshake under way -/

/-- A step under way is an `osdp_SCRYPT` under its own block. -/
def Device.StepsApart (d : Device) : Prop :=
  ∀ st, d.pending = some st → st.block = { type := Secure.scs13 }

/-- A message keeps the step of a handshake apart. -/
theorem rekeyed_steps (h : Rekeyed b d m e) (hd : d.StepsApart) : e.StepsApart := by
  unfold Device.StepsApart at *
  cases h with
  | same _ hpe => rwa [hpe]
  | dropped _ hpe => simp [hpe]
  | begun _ _ _ _ _ _ hpe => rwa [hpe]
  | cryptogram _ _ _ _ _ _ _ hpe => simp [hpe]
  | established _ _ _ _ _ _ hpe => rwa [hpe]

/-- So does the step itself. -/
theorem handshakeCommand_steps (hd : d.StepsApart) (rndA : Rnd) :
    (handshakeCommand d rndA).2.2.StepsApart := by
  unfold handshakeCommand
  split
  · nofun
  · split
    · exact hd
    · split
      · nofun
      · exact hd

/-- So does every call. -/
theorem call_steps (b : Bus) (hd : d.StepsApart) (c : Call) : (call b d c).2.StepsApart := by
  cases c with
  | send m =>
    simp only [call, send]
    split <;> exact hd
  | installKey key =>
    simp only [call, installKey]
    split <;> exact hd
  | next rndA =>
    obtain ⟨q, r, s, hcompose⟩ :=
      compose_device b (commandFor d rndA).2.2 (commandFor d rndA).1 (commandFor d rndA).2.1
    have hcommand : (commandFor d rndA).2.2.StepsApart := by
      obtain ⟨m, -, he⟩ | ⟨-, -, he⟩ | ⟨-, -, he⟩ | ⟨-, -, he⟩ | ⟨-, -, he⟩ :=
        commandFor_cases d rndA
      case inr.inr.inr.inl =>
        rw [he]
        exact handshakeCommand_steps hd rndA
      all_goals
        rw [he]
        exact hd
    simp only [call, transact, hcompose]
    exact hcommand
  | reply f =>
    obtain ⟨-, e, he⟩ | ⟨-, -, ⟨-, he⟩ | ⟨-, -, he⟩ | ⟨-, data, s, -, he⟩⟩ := reply_cases b d f
    · simp only [call, he]
      exact hd
    · simp [call, he, Device.resync_eq, Device.StepsApart]
    · simp [call, he, Device.resync_eq, Device.StepsApart]
    · simp only [call, he]
      refine rekeyed_steps (dispatch_rekeyed b _ _) ?_
      simpa [Device.StepsApart, Device.delivered_eq] using hd
  | timeout =>
    obtain ⟨-, he⟩ | ⟨-, -, he⟩ := timeout_cases d
    · simp only [call, he, Device.retransmit_eq]
      exact hd
    · simp [call, he, Device.resync_eq, Device.StepsApart]

/-! ## What every device of a bus keeps -/

/-- A session of the device uses a suite with this property, and a step of the handshake under way
is an `osdp_SCRYPT` under its own block. -/
structure Device.Provided (Q : CipherSuite → Prop) (d : Device) : Prop where
  suite : ∀ s, d.session = some s → Q s.suite
  step : ∀ st, d.pending = some st → st.block = { type := Secure.scs13 }

/-- The suite the bus offers has the property. -/
def Offers (Q : CipherSuite → Prop) (b : Bus) : Prop :=
  ∀ channel, b.secure = some channel → Q channel.suite

section Provided

variable {Q : CipherSuite → Prop}

/-- A device without a session is provided for. -/
theorem provided_none (hse : d.session = none) (hpe : d.pending = none) :
    d.Provided Q := ⟨by simp [hse], by simp [hpe]⟩

/-- A call keeps to the suites the bus offers. -/
theorem call_provided (hb : b.Offers Q) (hd : d.Provided Q) (c : Call) :
    (call b d c).2.Provided Q := by
  refine ⟨?_, call_steps b hd.step c⟩
  intro s' hs'
  obtain ⟨s, hs, hsuite, -⟩ | ⟨channel, hchannel, hsuite, -⟩ := call_origin b d c s' hs'
  · rw [hsuite]
    exact hd.suite s hs
  · rw [hsuite]
    exact hb channel hchannel

/-- An operation leaves the check the bus was configured with, and of its Secure Channel all but
the keys. -/
theorem step_config (b : Bus) (op : Op) :
    (b.step op).scheme = b.scheme ∧ ((b.step op).secure = b.secure ∨
      ∃ keys, (b.step op).secure = b.secure.map fun channel => { channel with keys := keys }) := by
  have hon : ∀ (b : Bus) (i : ℕ) (c : Call),
      (b.onDevice i c).2.scheme = b.scheme ∧ (b.onDevice i c).2.secure = b.secure := by
    intro b i c
    unfold onDevice
    split <;> exact ⟨rfl, rfl⟩
  cases op with
  | setCommunication i want =>
    simp only [step, perform, setCommunication]
    split
    · exact ⟨rfl, .inl rfl⟩
    · split
      · exact ⟨rfl, .inl rfl⟩
      · exact (hon b i _).imp_right .inl
  | next rndA =>
    simp only [step, perform, next]
    split
    · exact ⟨rfl, .inl rfl⟩
    · exact (hon _ _ _).imp_right .inl
  | keys keys => exact ⟨rfl, .inr ⟨keys, rfl⟩⟩
  | _ => exact (hon b _ _).imp_right .inl

/-- The bus goes on offering what it offered. -/
theorem step_offers (hb : b.Offers Q) (op : Op) : (b.step op).Offers Q := by
  intro channel hchannel
  obtain ⟨-, h | ⟨keys, h⟩⟩ := step_config b op
  · exact hb channel (h ▸ hchannel)
  · rw [h, Option.map_eq_some_iff] at hchannel
    obtain ⟨channel', h', rfl⟩ := hchannel
    exact hb channel' h'

end Provided

/-- What every device of a bus keeps: a state that calls for a session has it, and its suite is
the one the bus was configured with. -/
structure Furnished (Q : CipherSuite → Prop) (b : Bus) : Prop where
  offers : b.Offers Q
  armed : ∀ d ∈ b.devices, d.Armed
  provided : ∀ d ∈ b.devices, d.Provided Q

/-- A new bus is furnished with what it offers. -/
theorem furnished_new (addrs : List Address) (scheme : Scheme) {secure : Option SecureChannel}
    (hQ : ∀ channel, secure = some channel → Q channel.suite) :
    (new addrs scheme secure).Furnished Q := by
  refine ⟨hQ, ?_, ?_⟩
  · intro d hd
    simp only [new, List.mem_map] at hd
    obtain ⟨addr, -, rfl⟩ := hd
    exact Device.armed_plain ⟨by simp [Device.new], by simp [Device.new]⟩
  · intro d hd
    simp only [new, List.mem_map] at hd
    obtain ⟨addr, -, rfl⟩ := hd
    exact provided_none rfl rfl

/-- **Every operation keeps it.** -/
theorem furnished_step (h : b.Furnished Q) (op : Op) : (b.step op).Furnished Q := by
  refine ⟨step_offers h.offers op, ?_, ?_⟩
  · intro e he
    obtain he | ⟨i, c, d, -, hd, rfl⟩ := mem_step_devices he
    · exact h.armed e he
    · exact (call_keepsAgreement b d c).1 (h.armed d (List.mem_of_getElem? hd))
  · intro e he
    obtain he | ⟨i, c, d, -, hd, rfl⟩ := mem_step_devices he
    · exact h.provided e he
    · exact call_provided h.offers (h.provided d (List.mem_of_getElem? hd)) c

end Osdp.Bus
