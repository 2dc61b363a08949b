import Osdp.Analysis.PdSpec
import Osdp.Library.Run

/-!
# Unauthenticated frames on an established session

The device as a machine over `Handle` and the calls that report its events. On an
established session a frame that is not authentic is refused (`Refused`) unless it is a
plaintext command at sequence number zero: `Handle` starts the exchange again before
`answer` looks at the session, and `answer` then finds none.
-/

set_option autoImplicit false

namespace Osdp.Pd

open Osdp.Secure (Session Rnd macTagSize)

/-- A call on the device. -/
inductive Op where
  | handle (now : ℤ) (rndB : Rnd) (f : Frame)
  | report (r : Report)

namespace Device

/-- The step function of the device as a machine. -/
def step (d : Device) : Op → Device
  | .handle now rndB f => (d.handle now rndB f).2
  | .report r => (d.report r).2

/-- What every device holds between calls: nothing waiting to be adopted, and the silence the
configuration allows never measured. -/
structure Patient (d : Device) : Prop where
  settled : d.Settled
  timeout : d.cfg.timeout = 0

variable {d : Device} {f : Frame}

/-- A device without a timeout is patient. -/
theorem patient_new {addr : Address} {cfg : Settings} (h : new addr cfg = .ok d)
    (ht : cfg.timeout = 0) : d.Patient := by
  obtain ⟨-, -, -, c, rfl, -⟩ := new_ok h
  exact ⟨⟨rfl, rfl⟩, ht⟩

/-- And stays so. -/
theorem patient_step (h : d.Patient) (op : Op) : (d.step op).Patient := by
  cases op with
  | handle now rndB f =>
    obtain ⟨hs, hcfg⟩ := handle_settled h.settled now rndB f
    exact ⟨hs, (congrArg Settings.timeout hcfg).trans h.timeout⟩
  | report r =>
    obtain ⟨i, t, w, p, he⟩ := report_device d r
    rw [step, he]
    exact ⟨h.settled, h.timeout⟩

/-- Without a communication timeout the clock starts nothing again. -/
theorem observe_of_patient (h : d.Patient) (now : ℤ) :
    d.observe now = { d with seen := true, lastSeen := now } := by
  simp [observe, h.timeout]

/-! ## Authentic frames -/

/-- Whether the session is established. -/
def secured (d : Device) : Bool := d.session.any Session.established

/-- Whether a frame's authentication code verifies against a session. -/
def codeVerifies (s : Session) (f : Frame) : Bool :=
  let body := f.appendBody []
  decide (macTagSize ≤ f.data.length) &&
    match s.verify (body.take (body.length - macTagSize))
        (f.data.drop (f.data.length - macTagSize)) true with
    | .ok _ => true
    | .error _ => false

/-- Whether a frame is carried under `SCS_15` or `SCS_17` with a code that verifies against the
device's session. -/
def authentic (d : Device) (f : Frame) : Bool :=
  match d.session, f.security with
  | some s, some block =>
    (block.type == Secure.scs15 || block.type == Secure.scs17) && codeVerifies s f
  | _, _ => false

/-- What a command that opens says: there is room for its code, the code verified and moved the
session, and a payload that was enciphered is deciphered by the session it moved to. -/
theorem openCommand_ok {s s' : Session} {block : SecurityBlock} {payload : Octets}
    (h : openCommand s f block = .ok (payload, s')) :
    macTagSize ≤ f.data.length ∧
      s.verify ((f.appendBody []).take ((f.appendBody []).length - macTagSize))
        (f.data.drop (f.data.length - macTagSize)) true = .ok s' ∧
      (Secure.BlockType.encrypted block.type = true →
        s'.openPayload (f.data.take (f.data.length - macTagSize)) true = .ok payload) := by
  unfold openCommand at h
  split at h
  · cases h
  · rename_i hlen
    simp only at h
    split at h
    · cases h
    · rename_i t hv
      split at h
      · rename_i hclear
        cases h
        exact ⟨Nat.le_of_not_lt hlen, hv, fun henc => absurd henc hclear⟩
      · split at h
        · cases h
        · rename_i plain hp
          cases h
          exact ⟨Nat.le_of_not_lt hlen, hv, fun _ => hp⟩

/-- What opens has a code that verifies. -/
theorem codeVerifies_of_openCommand {s s' : Session} {block : SecurityBlock} {payload : Octets}
    (h : openCommand s f block = .ok (payload, s')) : codeVerifies s f = true := by
  obtain ⟨hlen, hv, -⟩ := openCommand_ok h
  simp only [codeVerifies, hv, Bool.and_true, decide_eq_true_eq]
  exact hlen

/-- A frame that starts the exchange again in the clear. -/
def restartsInClear (d : Device) (f : Frame) : Bool :=
  d.heard f && f.control.sequence == 0 && f.security.isNone

/-- On an established session the command table is run on a frame that is not authentic exactly
when it starts the exchange again in the clear. -/
theorem dispatched_none_iff (h : d.Patient) (hs : d.secured = true) (hf : d.authentic f = false)
    (now : ℤ) : d.dispatched now f = none ↔ d.restartsInClear f = false := by
  have hobs := observe_of_patient h now
  by_cases hheard : d.heard f = true
  · by_cases hz : f.control.sequence = 0
    · -- the exchange starts again, so no session is left for answer to find
      have hrep : d.replays now f = false := by simp [replays, hz]
      cases hsec : f.security with
      | none =>
        simp [dispatched, hheard, hrep, opening, hz, hobs, restart, dropSession, dispatchFor,
          dispatchOf, hsec, restartsInClear]
      | some block =>
        simp [dispatched, hheard, hrep, opening, hz, hobs, restart, dropSession, dispatchFor,
          dispatchOf, hsec, restartsInClear]
    · have hclear : d.restartsInClear f = false := by simp [restartsInClear, hz]
      refine iff_of_true ?_ hclear
      by_contra hne
      obtain ⟨⟨payload, sealed⟩, hsome⟩ := Option.ne_none_iff_exists'.mp hne
      have hopen : d.opening now f = { d with seen := true, lastSeen := now } := by
        simp [opening, hz, hobs]
      unfold dispatched at hsome
      split at hsome
      · rw [hopen] at hsome
        obtain ⟨s, -, hcase⟩ := answerFor_of_dispatchFor hsome Secure.zeroRnd
        rcases hcase with ⟨-, -, -, hsec⟩ | ⟨-, block, t, t', hsec, ht, hcmd, -⟩
        · unfold dispatchFor dispatchOf at hsome
          rw [secured] at hs
          simp [hsec, hs] at hsome
        · have hblock : block.type = Secure.scs15 ∨ block.type = Secure.scs17 := by
            unfold dispatchFor dispatchOf at hsome
            split at hsome
            · cases hsome
            · simp only [hsec] at hsome
              split at hsome
              · rename_i hb
                exact hb.2
              · cases hsome
          have hauth : d.authentic f = true := by
            simp only [authentic, hsec, show d.session = some t from ht,
              codeVerifies_of_openCommand hcmd, Bool.and_true]
            simpa using hblock
          rw [hf] at hauth
          cases hauth
      · cases hsome
  · simp [dispatched, restartsInClear, hheard]

/-! ## Refusal -/

/-- A frame refused: the device keeps its outputs, address, base key and events, says again what
it said last, or sends `osdp_NAK` or a fresh `osdp_CCRYPT`, and does not run the command
table. -/
structure Refused (d : Device) (now : ℤ) (rndB : Rnd) (f : Frame) : Prop where
  outputs : (d.handle now rndB f).2.outputs = d.outputs
  address : (d.handle now rndB f).2.address = d.address
  key : (d.handle now rndB f).2.key = d.key
  pending : (d.handle now rndB f).2.pending = d.pending
  reply : ∀ r, (d.handle now rndB f).1 = .ok r →
    (d.cachedValid = true ∧ r = d.cached) ∨ r.code = Code.nak ∨ r.code = Code.cCrypt
  table : d.dispatched now f = none

/-- A frame the command table is not run on is refused. -/
theorem refused_of_dispatched_none (h : d.Patient) (hs : d.secured = true) {now : ℤ}
    (hd : d.dispatched now f = none) (rndB : Rnd) : d.Refused now rndB f := by
  have hobs := observe_of_patient h now
  obtain ⟨-, e, -, he⟩ | ⟨-, hrep, he⟩ | ⟨hheard, hrep, he⟩ := handle_cases d now rndB f
  · exact { outputs := by rw [he], address := by rw [he], key := by rw [he], pending := by rw [he],
            reply := by simp [he], table := hd }
  · rw [hobs] at he
    refine { outputs := by rw [he], address := by rw [he], key := by rw [he], pending := by rw [he],
             reply := ?_, table := hd }
    intro r hr
    simp only [he, Except.ok.injEq] at hr
    simp only [replays, hobs, Bool.and_eq_true] at hrep
    exact .inl ⟨hrep.1.2, hr.symm⟩
  · have hfor : (d.opening now f).dispatchFor f f.control.sequence = none := by
      simpa [dispatched, hheard, hrep] using hd
    obtain ⟨s, m, block, hans, -, hcode⟩ := answerFor_of_none hfor rndB
    obtain ⟨s₀, c, q, v, n, hopen⟩ := opening_eq d now f
    have hset : { d.opening now f with session := s }.Settled := settled_opening h.settled now f
    have hreply : d.handle now rndB f =
        { d.opening now f with session := s }.emit f f.control.sequence m block := by
      rw [he, replyTo, hans]
    obtain ⟨s', c', q', v', hemit⟩ := emit_of_settled hset f f.control.sequence m block
    rw [← hreply, hopen] at hemit
    refine { outputs := by rw [hemit], address := by rw [hemit], key := by rw [hemit],
             pending := by rw [hemit], reply := ?_, table := hd }
    intro r hr
    rw [hreply] at hr
    obtain ⟨err, t, hfail⟩ | ⟨g, t, hok, -, hg⟩ := emit_cases _ f f.control.sequence m block
    · rw [hfail] at hr
      cases hr
    · rw [hok] at hr
      cases hr
      rw [hg.code]
      rcases hcode with hc | hc | ⟨-, t, ht, hstate⟩
      · exact .inr (.inl hc)
      · exact .inr (.inr hc)
      · -- the session was established and is not half way through a handshake
        exfalso
        unfold opening at ht
        split at ht
        · simp [restart, dropSession] at ht
        · rw [hobs] at ht
          simp only at ht
          simp [secured, ht, Session.established, hstate] at hs

end Device

/-- Whether a call hands an established session a frame that starts the exchange again in the
clear. -/
def Op.exposes (d : Device) : Op → Bool
  | .handle _ _ f => d.secured && d.restartsInClear f
  | _ => false

/-- The property at one call: on an established session a frame that is not authentic is
refused. -/
def Device.Guarded (d : Device) (op : Op) : Prop :=
  ∀ now rndB f, op = .handle now rndB f → d.secured = true → d.authentic f = false →
    d.Refused now rndB f

/-- **Unauthenticated frames are refused on an established session, exactly when none starts
the exchange again in the clear.** In every run of a device without a communication timeout, the
frames that are not authentic are all refused while the session is established, if and only if
none of them is a plaintext command to this device at sequence number zero. -/
theorem unauthenticated_refused_iff {addr : Address} {cfg : Settings} {d : Device}
    (hnew : new addr cfg = .ok d) (ht : cfg.timeout = 0) (ops : List Op) :
    (∀ p ∈ Run.trace Device.step d ops, p.1.Guarded p.2) ↔
      ∀ p ∈ Run.trace Device.step d ops, p.2.exposes p.1 = false := by
  have hgood : ∀ (d : Device) (op : Op), d.Patient → True → op.exposes d = false →
      d.Guarded op ∧ (d.step op).Patient := by
    intro d op hp _ hexp
    refine ⟨?_, Device.patient_step hp op⟩
    rintro now rndB f rfl hs hf
    have hclear : d.restartsInClear f = false := by simpa [Op.exposes, hs] using hexp
    exact Device.refused_of_dispatched_none hp hs ((Device.dispatched_none_iff hp hs hf now).mpr hclear) rndB
  have hbad : ∀ (d : Device) (op : Op), d.Patient → True → ¬ op.exposes d = false →
      ¬ d.Guarded op := by
    intro d op hp _ hexp hg
    cases op with
    | handle now rndB f =>
      simp only [Op.exposes, Bool.and_eq_false_iff, not_or, Bool.not_eq_false] at hexp
      have hf : d.authentic f = false := by
        have hsec : f.security = none := by
          have hclear := hexp.2
          simp only [Device.restartsInClear, Bool.and_eq_true, Option.isNone_iff_eq_none] at hclear
          exact hclear.2
        unfold Device.authentic
        rw [hsec]
        cases d.session <;> rfl
      have htable := (hg now rndB f rfl hexp.1 hf).table
      have hclear := (Device.dispatched_none_iff hp hexp.1 hf now).mp htable
      rw [hexp.2] at hclear
      cases hclear
    | report r => exact hexp rfl
  exact Run.trace_forall_iff hgood hbad (Device.patient_new hnew ht) ops fun _ _ => trivial

/-! ## Sample traffic -/

/-- A reader at address 1 with one output and a Secure Channel under the counting suite. -/
def secureSettings : Settings :=
  { outputs := 1, suite := some Secure.countingSuite }

/-- A command frame under a security block. -/
def securedCommand (seq : UInt8) (block : UInt8) (code : Code) (data : Octets) : Frame :=
  Frame.sealCheck {
    isReply := false
    address := 1
    control := newControl seq .checksum true
    security := some { type := block }
    code := code
    data := data }

/-- A command frame in the clear. -/
def plainCommand (seq : UInt8) (code : Code) (data : Octets) : Frame :=
  Frame.sealCheck {
    isReply := false
    address := 1
    control := newControl seq .checksum false
    code := code
    data := data }

/-- The two exchanges that establish a session. -/
def handshakeOps : List Op :=
  [.handle 0 Secure.zeroRnd (securedCommand 1 Secure.scs11 Code.chlng (List.replicate 8 0)),
   .handle 0 Secure.zeroRnd (securedCommand 2 Secure.scs13 Code.sCrypt (List.replicate 16 0))]

/-- A session is established and a card waits to be reported. -/
def waitingOps : List Op :=
  handshakeOps ++ [.report (.cardRead { reader := 0, format := 1, bitCount := 8, data := [0x5A] })]

/-- Somebody then polls in the clear. -/
def refusedOps : List Op :=
  waitingOps ++ [.handle 0 Secure.zeroRnd (plainCommand 3 Code.poll [])]

/-- A poll in the clear on an established session. -/
theorem unauthenticated_refused_poll :
    ∃ d, new 1 secureSettings = .ok d ∧
      ∀ p ∈ Run.trace Device.step d refusedOps, p.1.Guarded p.2 :=
  ⟨_, rfl, (@unauthenticated_refused_iff 1 secureSettings _ rfl rfl refusedOps).mpr
    (by decide)⟩

/-- On an established session an `osdp_OUT` in the clear at sequence number zero is carried
out, and a poll sent the same way is answered with the card that was waiting. -/
theorem plaintext_restart_dispatched :
    ∃ d, new 1 secureSettings = .ok d ∧
      let e := waitingOps.foldl Device.step d
      let out := plainCommand 0 Code.out [0, 2, 0, 0]
      let poll := plainCommand 0 Code.poll []
      e.secured = true ∧ e.authentic out = false ∧ e.authentic poll = false ∧
      e.outputs = [false] ∧ (e.handle 0 Secure.zeroRnd out).2.outputs = [true] ∧
      e.pending.length = 1 ∧ (e.handle 0 Secure.zeroRnd poll).2.pending = [] ∧
      (e.handle 0 Secure.zeroRnd poll).1.toOption.map Frame.code = some Code.raw :=
  ⟨_, rfl, by decide⟩

end Osdp.Pd
