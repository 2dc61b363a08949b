import Osdp.Analysis.Evidence

/-!
# When a base key travels in the clear

`withholdsKeySet` asks for an established session and `commandFor` seals by the device's state, so
a key goes out in the clear from a device that is `Online` with a session. What puts a device there
is a capability report, let through by the session, that begins no handshake: no AES-128 in it, no
key for the device, or a channel declined before. `exposure` follows the operations, and the device
is in that place exactly while it says so (`exposed_call`).
-/

set_option autoImplicit false

namespace Osdp.Bus

open Osdp.Secure (Session BaseKey Rnd)

namespace Device

/-- The call delivers, over a running session, a capability report that begins no handshake. -/
def lowers (b : Bus) (d : Device) : Call → Bool
  | .reply f => d.secureEstablished && (d.hears f).any fun m =>
      m.code == Code.pdCap && (parseCapabilities m.data).any fun report => !d.begins b report
  | _ => false

/-- It begins or ends the session, or delivers an `osdp_PDID`, from which enrolment starts over. -/
def restarts (b : Bus) (d : Device) (c : Call) : Bool :=
  d.switches b c || match c with
    | .reply f => (d.hears f).any fun m => m.code == Code.pdID && (parseDeviceID m.data).isSome
    | _ => false

/-- The panel has a session with the device and speaks to it in the clear. -/
def Exposed (d : Device) : Prop := d.state = .online ∧ d.secureEstablished = true

end Device

/-- Whether such a report came last, of the calls that matter. -/
def exposure (exposed : Bool) (b : Bus) (d : Device) (c : Call) : Bool :=
  d.lowers b c || (exposed && !d.restarts b c)

/-! ## One message -/

/-- What the device must have been, and the message, for the device to be exposed after it. -/
def Exposing (b : Bus) (d : Device) (m : Message) : Prop :=
  (d.secureEstablished = true ∧ m.code = Code.pdCap ∧
    ∃ report, parseCapabilities m.data = some report ∧ d.begins b report = false) ∨
  (d.Exposed ∧ d.ends b m = false ∧ ¬ (m.code = Code.pdID ∧ (parseDeviceID m.data).isSome = true))

variable {b : Bus} {d : Device} {m : Message}

/-- A message that leaves state and session, and neither ends the session nor is about enrolment. -/
theorem exposing_of_same {e : Device} (hst : e.state = d.state) (hse : e.session = d.session)
    (hends : d.ends b m = false) (hcap : m.code ≠ Code.pdCap) (hid : m.code ≠ Code.pdID) :
    e.Exposed ↔ Exposing b d m := by
  simp [Exposing, Device.Exposed, Device.secureEstablished, hst, hse, hends, hcap, hid]

/-- After a message that ends the session nothing is exposed. -/
theorem not_exposing_of_ends (hends : d.ends b m = true) (hcap : m.code ≠ Code.pdCap) :
    ¬ Exposing b d m := by
  simp [Exposing, hends, hcap]

/-- A message whose payload is refused leaves the device as exposed as it was. -/
theorem exposing_of_malformed (h : m.malformed = true) : d.Exposed ↔ Exposing b d m := by
  have hends := (ends_of_malformed (b := b) (d := d) h).1
  by_cases hcap : m.code = Code.pdCap
  · have hparse : parseCapabilities m.data = none := by
      simpa [Message.malformed, hcap, Code.pdID, Code.pdCap] using h
    simp [Exposing, hends, hparse, hcap, Code.pdCap, Code.pdID]
  · by_cases hid : m.code = Code.pdID
    · have hparse : parseDeviceID m.data = none := by simpa [Message.malformed, hid] using h
      simp [Exposing, hends, hparse, hcap]
    · exact exposing_of_same rfl rfl hends hcap hid

/-- **When a message leaves the device exposed**, row by row of the table. -/
theorem dispatch_exposed (b : Bus) (d : Device) (m : Message) :
    (dispatch b d m).2.Exposed ↔ Exposing b d m := by
  have hother : ∀ {c : Code} {e : Device}, m.code = c → e.state = d.state → e.session = d.session →
      c ∉ Code.pdID :: switchCodes → (e.Exposed ↔ Exposing b d m) := by
    rintro c e rfl hst hse hc
    exact exposing_of_same hst hse (ends_of_code fun h => hc (List.mem_cons_of_mem _ h))
      (fun h => hc (by rw [h]; decide)) fun h => hc (by rw [h]; decide)
  have hended : ∀ {e : Device}, ¬ e.Exposed → d.ends b m = true → m.code ≠ Code.pdCap →
      (e.Exposed ↔ Exposing b d m) :=
    fun he hends hcap => iff_of_false he (not_exposing_of_ends hends hcap)
  obtain ⟨hmal, he⟩ | ⟨hm, haw, hst, -⟩ | ⟨hok, hadopts⟩ := dispatch_sorts b d m
  · rw [he]
    exact exposing_of_malformed hmal
  · exact hended (by simp [Device.Exposed, hst]) (by simp [Device.ends, hm, haw])
      (hm.trans_ne (by decide))
  revert hok
  apply dispatch_rows b d m (motive := fun r => (∀ e, r.1 ≠ .error e) →
    (r.2.Exposed ↔ Exposing b d m))
  case malformed => exact fun _ h => absurd rfl (h _)
  case identified =>
    intro id h hid _
    exact iff_of_false (by simp [Device.Exposed])
      (by simp [Exposing, h, hid, Code.pdID, Code.pdCap])
  case capabilities =>
    intro report e h hreport _ _
    cases hbegins : d.begins b report with
    | false =>
      obtain ⟨de, he⟩ := afterCapabilities_online hbegins
      have hest : (afterCapabilities b { d with caps := report }).Exposed ↔
          d.secureEstablished = true := by
        simp [he, Device.Exposed, Device.secureEstablished]
      rw [hest]
      exact ⟨fun hyes => .inl ⟨hyes, h, report, hreport, hbegins⟩,
        fun hyes => hyes.elim (·.1) (·.1.2)⟩
    | true =>
      obtain ⟨channel, key, -, -, he⟩ := afterCapabilities_begun hbegins
      refine iff_of_false (by simp [he, Device.Exposed]) ?_
      simp [Exposing, Device.ends, h, hreport, hbegins]
  case status =>
    intro ss e h _ _
    have hall : ∀ c ∈ statusCodes, c ∉ Code.pdID :: switchCodes := by decide +kernel
    exact hother rfl rfl rfl (hall m.code h)
  case cryptogram =>
    intro h _
    refine hended ?_ (by simp [Device.ends, Code.ofHandshake, h]) (h.trans_ne (by decide))
    obtain ⟨-, he⟩ | ⟨-, s, s', p, -, -, hto, he⟩ := onCryptogram_rejects d h
    · simp [he, Device.Exposed, Device.secureEstablished, Device.abandonSecure, Device.dropSession]
    · simp [he, Device.Exposed, Device.secureEstablished, Session.established, hto]
  case initialRMAC =>
    intro h _
    refine hended ?_ (by simp [Device.ends, Code.ofHandshake, h]) (h.trans_ne (by decide))
    obtain ⟨-, he⟩ | ⟨-, s, s', -, -, -, he⟩ := onInitialRMAC_rejects d h
    · simp [he, Device.Exposed, Device.secureEstablished, Device.abandonSecure, Device.dropSession]
    · simp [he, Device.Exposed]
  case card => exact fun _ h _ _ => hother h rfl rfl (by decide)
  case keypad => exact fun _ h _ _ => hother h rfl rfl (by decide)
  case refused => exact fun _ h _ => hother h rfl rfl (by decide)
  case manufacturer => exact fun _ h _ _ => hother h rfl rfl (by decide)
  case moved =>
    intro c h hc _
    exact hended (by simp [Device.Exposed, Device.resync_eq]) (by simp [Device.ends, h, hc])
      (h.trans_ne (by decide))
  case busy =>
    intro h _
    rw [Device.reclaim_eq]
    split <;> exact hother h rfl rfl (by decide)
  case installed =>
    exact fun k h hk hak _ => absurd ⟨h, by simp [Device.awaitingKeySet, hk, hak]⟩ hadopts
  case answer =>
    intro hm _
    have hcap : m.code ≠ Code.pdCap := fun h => hm (h ▸ by decide)
    have hid : m.code ≠ Code.pdID := fun h => hm (h ▸ by decide)
    obtain ⟨hoff, he⟩ | ⟨-, he⟩ := onAnswer_cases d
    · rw [he]
      exact iff_of_false (by simp [Device.Exposed]) (by simp [Exposing, Device.Exposed, hoff, hcap])
    · rw [he]
      exact exposing_of_same rfl rfl (ends_of_untabled hm hadopts) hcap hid

/-! ## One call -/

/-- A call that leaves state and session, and that the record passes over. -/
theorem exposed_of_kept {e : Device} {c : Call} (hst : e.state = d.state)
    (hse : e.secureEstablished = d.secureEstablished) (hl : d.lowers b c = false)
    (hr : d.restarts b c = false) :
    e.Exposed ↔ d.lowers b c = true ∨ (d.Exposed ∧ d.restarts b c = false) := by
  simp [Device.Exposed, hst, hse, hl, hr]

/-- **A reply leaves the device exposed exactly when the record says so.** -/
theorem reply_exposed (b : Bus) (d : Device) (f : Frame) :
    (reply b d f).2.Exposed ↔
      d.lowers b (.reply f) = true ∨ (d.Exposed ∧ d.restarts b (.reply f) = false) := by
  have hresync : ¬ ({ d with misses := 0 }.resync).Exposed := by
    simp [Device.Exposed, Device.resync_eq]
  obtain ⟨hnot, e, he⟩ | ⟨hr, ha, ⟨hz, he⟩ | ⟨hz, ⟨err, ho⟩, he⟩ | ⟨hz, data, s, ho, he⟩⟩ :=
    reply_cases b d f
  · have hears := Device.hears_of_foreign hnot
    rw [he]
    refine exposed_of_kept rfl rfl (by simp [Device.lowers, hears]) ?_
    simp [Device.restarts, Device.switches, hears, Device.foreign hnot]
  · have hears : d.hears f = none := by simp [Device.hears, hz]
    rw [he]
    refine iff_of_false hresync ?_
    simp [Device.lowers, Device.restarts, Device.switches, hears, hr, ha, Device.Exposed]
  · have hears := Device.hears_of_closed ho
    rw [he]
    refine iff_of_false hresync ?_
    simp [Device.lowers, Device.restarts, Device.switches, hears, hr, ha, Device.Exposed]
  · have hears := Device.hears_eq hr ha hz ho
    have hest := opened_established ho
    rw [he, dispatch_exposed]
    cases hd : d.secureEstablished with
    | false =>
      rw [hd] at hest
      simp [Exposing, Device.Exposed, Device.lowers, hest, hd]
    | true =>
      rw [hd] at hest
      have hbegins : ∀ report, ({ d with misses := 0, session := s }.delivered).begins b report =
          d.begins b report := by
        intro report
        simp only [Device.begins, Device.baseKey, Device.delivered_eq]
      simp only [Exposing, Device.Exposed, Device.lowers, Device.restarts, Device.switches, hears,
        hest, hd, hr, ha, Device.ends_opened, hbegins, Device.delivered_state]
      simp [Option.any_eq_true]

/-- **A call leaves the device exposed exactly when the record says so.** -/
theorem call_exposed (harmed : d.Armed) (c : Call) :
    (call b d c).2.Exposed ↔
      d.lowers b c = true ∨ (d.Exposed ∧ d.restarts b c = false) := by
  cases c with
  | send m =>
    refine exposed_of_kept ?_ ?_ rfl rfl <;> (simp only [call, send]; split <;> rfl)
  | installKey key =>
    refine exposed_of_kept ?_ ?_ rfl rfl <;> (simp only [call, installKey]; split <;> rfl)
  | next rndA =>
    have hest := transact_established b harmed rndA
    rcases (transact_enrolment b d rndA).2 with hst | hno
    · exact exposed_of_kept hst hest rfl rfl
    · have hnot : d.secureEstablished = false := hest.symm.trans hno
      refine iff_of_false ?_ ?_
      · simp [call, Device.Exposed, hno]
      · simp [Device.lowers, Device.Exposed, hnot]
  | reply f => exact reply_exposed b d f
  | timeout =>
    obtain ⟨hnot, he⟩ | ⟨hmiss, hst, he⟩ := timeout_cases d
    · have hkept : (call b d .timeout).2.secureEstablished = d.secureEstablished := by
        simp [call, he, Device.retransmit_eq, Device.secureEstablished]
      refine exposed_of_kept (by simp [call, he, Device.retransmit_eq]) hkept rfl ?_
      -- the session is as it was, so the silence has not ended it
      have hswitch := call_established b harmed .timeout
      rw [hkept] at hswitch
      have hno : d.switches b .timeout = false := by
        revert hswitch
        cases d.secureEstablished <;> cases d.switches b .timeout <;> simp
      simp [Device.restarts, hno]
    · refine iff_of_false (by simp [call, he, Device.Exposed, Device.resync_eq]) ?_
      simp [Device.lowers, Device.restarts, Device.switches, Device.Exposed, hmiss, hst]

/-! ## Over a run of the bus -/

/-- How a device stands to the record of it. -/
structure Watched (d : Device) (exposed : Bool) : Prop where
  armed : d.Armed
  stepOK : d.StepOK
  exposed : exposed = true ↔ d.Exposed

/-- Every call keeps device and record together. -/
theorem watched_call (b : Bus) (d : Device) (c : Call) (exposed : Bool) (h : Watched d exposed) :
    Watched (call b d c).2 (exposure exposed b d c) where
  armed := (call_keepsAgreement b d c).1 h.armed
  stepOK := call_stepOK h.stepOK b c
  exposed := by
    rw [call_exposed h.armed, ← h.exposed]
    simp [exposure]

/-- A new device is not exposed. -/
theorem watched_new (addr : Address) : Watched (Device.new addr) false where
  armed := Device.armed_plain ⟨by simp [Device.new], by simp [Device.new]⟩
  stepOK := stepOK_new addr
  exposed := by simp [Device.Exposed, Device.new]

/-- **A base key travels enciphered exactly when the device is not exposed.** Over every run of
the bus, an `osdp_KEYSET` that `Next` returns was taken from the outbox of a device with an
established session. It is enciphered under `SCS_17` if and only if it carries something and the
last call that matters was not a capability report that begins no handshake; after such a report
it goes out as it is. -/
theorem key_travels_enciphered_iff (addrs : List Address) (scheme : Scheme)
    (secure : Option SecureChannel) (ops : List Op) :
    ∀ p ∈ Run.trace (Shadowed.step exposure) (Shadowed.new false addrs scheme secure) ops,
      ∀ d f, Emits p.1.bus p.2 d f → f.code = Code.keySet →
        ∃ m, d.takes = some m ∧ m.code = Code.keySet ∧ d.secureEstablished = true ∧
          (Enciphered d m f ↔ m.data ≠ [] ∧ p.1.shadow p.1.bus.current = false) ∧
          (p.1.shadow p.1.bus.current = true → f.security = none ∧ f.data = m.data) := by
  intro p hp d f hem hcode
  have heach := Run.invariant_trace (I := Shadowed.Each Watched)
    (fun t op ht => Shadowed.each_step watched_call ht op)
    (Shadowed.each_new watched_new addrs scheme secure) ops p hp
  obtain ⟨rndA, e, -, ht⟩ := emits_transact hem
  obtain ⟨-, -, hd, -⟩ := hem
  have hw := heach _ _ hd
  obtain ⟨m, hm, hmk, hest⟩ := takes_of_keySet hw.stepOK ht hcode
  refine ⟨m, hm, hmk, hest, ?_⟩
  cases hx : p.1.shadow p.1.bus.current with
  | true =>
    have hon : d.state = .online := (hw.exposed.mp hx).1
    obtain ⟨hsec, hdata⟩ := transact_unsecured hm (by simp [hon]) ht
    exact ⟨iff_of_false (fun h => by simp [h.1] at hsec) (by simp), fun _ => ⟨hsec, hdata⟩⟩
  | false =>
    have hst : d.state = .secure := by
      obtain ⟨hon | hs, -⟩ := Device.takes_eq_some hm
      · have hyes := hw.exposed.mpr ⟨hon, hest⟩
        rw [hx] at hyes
        cases hyes
      · exact hs
    obtain ⟨hsealed, hempty⟩ := transact_secure hm hst ht
    refine ⟨⟨fun h => ⟨fun hnil => ?_, rfl⟩, fun h => hsealed h.1⟩, by simp⟩
    have hblock := h.1.symm.trans (hempty hnil)
    simp [Secure.scs15, Secure.scs17] at hblock

/-- The counting suite, with every octet of a payload turned over. -/
def maskingSuite : Secure.CipherSuite :=
  { Secure.countingSuite with
    sealPayload := fun _ _ plaintext => .ok (plaintext.map (255 - ·))
    openPayload := fun _ _ ciphertext => .ok (ciphertext.map (255 - ·)) }

/-- A running session reports AES-128 once more, the handshake is gone through again, and a key is
installed. -/
def reportedOps : List Op :=
  secureEnrolCalls.map Call.onFirst ++
    [.send 0 { code := Code.cap, data := [0] }, .next Secure.zeroRnd,
     .reply 0 (securedReply 1 2 Secure.scs18 Code.pdCap [246, 254, 255, 2, 2, 2, 2]),
     .next Secure.zeroRnd, .reply 0 (securedReply 1 3 Secure.scs12 Code.cCrypt (List.replicate 32 0)),
     .next Secure.zeroRnd, .reply 0 (securedReply 1 1 Secure.scs14 Code.rMacI (List.replicate 16 0)),
     .installKey 0 (List.Vector.replicate 16 7)]

/-- The key then goes out enciphered. -/
theorem reported_key_enciphered :
    let secure := some ⟨maskingSuite, fun _ => some Secure.zeroBlock⟩
    ∃ d m f, Emits (reportedOps.foldl step (new [1] .checksum secure)) (.next Secure.zeroRnd) d f ∧
      m.data = keySCBK :: 16 :: List.replicate 16 7 ∧ Enciphered d m f ∧
      f.data = 254 :: 239 :: List.replicate 16 248 ++ [1, 1, 1, 1] := by
  intro secure
  have hwire : ((reportedOps.foldl step (new [1] .checksum secure)).perform
      (.next Secure.zeroRnd)).1.bind Outcome.wire =
      some (Code.keySet, some { type := Secure.scs17 },
        254 :: 239 :: List.replicate 16 248 ++ [1, 1, 1, 1]) := by
    decide +kernel
  have htakes : (reportedOps.foldl step (new [1] .checksum secure)).devices[0]?.bind Device.takes =
      some { code := Code.keySet, data := keySCBK :: 16 :: List.replicate 16 7 } := by
    decide +kernel
  have hcurrent : (reportedOps.foldl step (new [1] .checksum secure)).current = 0 := by
    decide +kernel
  have hhidden : (reportedOps.foldl (Shadowed.step exposure)
      (Shadowed.new false [1] .checksum secure)).shadow 0 = false := by
    decide +kernel
  have hmem : (reportedOps.foldl (Shadowed.step exposure) (Shadowed.new false [1] .checksum secure),
      Op.next Secure.zeroRnd) ∈ Run.trace (Shadowed.step exposure)
        (Shadowed.new false [1] .checksum secure) (reportedOps ++ [.next Secure.zeroRnd]) :=
    (Run.mem_trace (Shadowed.step exposure)).mpr ⟨reportedOps, [], rfl, rfl⟩
  have hbus := Shadowed.foldl_bus exposure reportedOps (Shadowed.new false [1] .checksum secure)
  have hkey := key_travels_enciphered_iff [1] .checksum secure _ _ hmem
  -- from here on only these facts about the run matter
  generalize reportedOps.foldl (Shadowed.step exposure) _ = t at hhidden hbus hkey
  rw [show (Shadowed.new false [1] .checksum secure).bus = new [1] .checksum secure from rfl] at hbus
  generalize reportedOps.foldl step (new [1] .checksum secure) = b at hwire htakes hcurrent hbus ⊢
  obtain ⟨d, hd, hm⟩ := Option.bind_eq_some_iff.mp htakes
  obtain ⟨o, ho, hf⟩ := Option.bind_eq_some_iff.mp hwire
  cases o with
  | step f =>
    simp only [Outcome.wire, Option.some.injEq, Prod.mk.injEq] at hf
    have hem : Emits b (.next Secure.zeroRnd) d f := ⟨_, rfl, by rw [hcurrent]; exact hd, ho⟩
    obtain ⟨m, hm', -, -, hiff, -⟩ := hkey d f (hbus ▸ hem) hf.1
    rw [hm, Option.some.injEq] at hm'
    rw [hbus, hcurrent] at hiff
    exact ⟨d, m, f, hem, by rw [← hm'], hiff.mpr ⟨by rw [← hm']; simp, hhidden⟩, hf.2.2⟩
  | _ => cases hf

/-- A capability report without AES-128 answers an `osdp_CAP` on a running session; then a key
is installed. -/
def recappedOps : List Op :=
  secureEnrolCalls.map Call.onFirst ++
    [.send 0 { code := Code.cap, data := [0] }, .next Secure.zeroRnd,
     .reply 0 (securedReply 1 2 Secure.scs18 Code.pdCap [0x09, 0x00, 0x00, 2, 2, 2, 2]),
     .installKey 0 (List.Vector.replicate 16 7)]

/-- An `osdp_KEYSET` without a payload, queued by hand on a running session. -/
def emptyKeySetOps : List Op :=
  secureEnrolCalls.map Call.onFirst ++ [.send 0 { code := Code.keySet }]

/-- The key goes out in the clear after the capability report, and the empty `osdp_KEYSET` goes
out under `SCS_15`. -/
theorem key_travels_in_the_clear :
    ((recappedOps.foldl step (new [1] .checksum secureBus.secure)).next Secure.zeroRnd).1.bind
        Outcome.wire =
      some (Code.keySet, none, keySCBK :: 16 :: List.replicate 16 7) ∧
    ((emptyKeySetOps.foldl step (new [1] .checksum secureBus.secure)).next Secure.zeroRnd).1.bind
        Outcome.wire =
      some (Code.keySet, some { type := Secure.scs15 }, [1, 1, 1, 1]) := by
  decide

end Osdp.Bus
