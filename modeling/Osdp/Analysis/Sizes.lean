import Osdp.Analysis.Representation
import Osdp.Analysis.SessionOrigin
import Osdp.Analysis.WireFormat

/-!
# How long a command is on the line

`Send` measures a command when it is queued, in the state of that moment; `Next` frames it
in the state it finds. `transact_len` says that the frame is as long as `framedLength`
computes in that later state. What was measured goes on fitting until one of four things
happens (`Device.outgrows`): a command is queued that nobody measures, or a device reports a
smaller buffer, or completes a handshake, while something waits that is too long for it then.
-/

set_option autoImplicit false

namespace Osdp

open Osdp.Secure (Session CipherSuite Rnd macTagSize)

/-- Sealing grows a payload as padding to the block size does. -/
def Secure.CipherSuite.Pads (suite : CipherSuite) : Prop :=
  ∀ keys iv plaintext ciphertext, suite.sealPayload keys iv plaintext = .ok ciphertext →
    ciphertext.length = Bus.paddedLength plaintext.length

/-- When a frame can be written. -/
theorem Frame.append_ok_iff (f : Frame) :
    (∃ octets, f.append [] = .ok octets) ↔ Address.valid f.address = true ∧
      SecurityBlock.wireLen f.security ≤ maxSecurityBlockSize ∧ f.len ≤ maxFrameSize := by
  constructor
  · rintro ⟨octets, h⟩
    exact (Frame.append_eq_ok h).2
  · rintro ⟨ha, hs, hl⟩
    exact ⟨f.wire, Frame.append_eq_wire ha hs hl⟩

namespace Bus

/-- The length of a command framed in the clear, or under a session, which pads a payload and puts a
security block and an authentication code to it. -/
def framedLength (scheme : Scheme) (secured : Bool) (m : Message) : ℕ :=
  if secured then
    headerSize + 2 + 1 + ((if m.data.length > 0 then paddedLength m.data.length
      else m.data.length) + macTagSize) + scheme.size
  else headerSize + 0 + 1 + m.data.length + scheme.size

/-- What `Send` measures is the frame under the session there is. -/
theorem wireLength_eq (b : Bus) (d : Device) (m : Message) :
    wireLength b d m = framedLength b.scheme d.secureEstablished m := by
  cases hest : d.secureEstablished <;> simp [wireLength, framedLength, hest]

/-- A frame in the clear is the shorter one. -/
theorem framedLength_mono (scheme : Scheme) (secured : Bool) (m : Message) :
    framedLength scheme false m ≤ framedLength scheme secured m := by
  cases secured with
  | false => exact le_rfl
  | true =>
    by_cases hpos : m.data.length > 0
    · simp only [framedLength, if_true, if_pos hpos, paddedLength, Secure.blockSize]
      split <;> omega
    · simp only [framedLength, if_true, if_neg hpos]
      split <;> omega

/-- One under a session is the longer one. -/
theorem framedLength_le_secured (scheme : Scheme) (secured : Bool) (m : Message) :
    framedLength scheme secured m ≤ framedLength scheme true m := by
  cases secured with
  | false => exact framedLength_mono scheme true m
  | true => exact le_rfl

/-- The length of a command framed for the device as it is: its session counts in state `Secure`. -/
def Device.needed (scheme : Scheme) (d : Device) (m : Message) : ℕ :=
  framedLength scheme (decide (d.state = .secure)) m

variable {d e : Device} {m : Message} {b : Bus} {f : Frame} {rndA : Rnd} {scheme : Scheme}

/-- Sealing a payload pads it. -/
theorem sealCommand_length (hpads : ∀ s, d.session = some s → s.suite.Pads) {m' : Message}
    (h : sealCommand d m (blockForCommand m.data.length) = .ok m') :
    m'.data.length = if m.data.length > 0 then paddedLength m.data.length else m.data.length := by
  unfold sealCommand blockForCommand at h
  by_cases hpos : m.data.length > 0
  · simp only [hpos, if_true, show Secure.BlockType.encrypted Secure.scs17 = true by decide] at h ⊢
    split at h
    · cases h
    · rename_i s hs
      split at h
      · cases h
      · rename_i c hc
        cases h
        unfold Session.sealPayload at hc
        split at hc
        · cases hc
        · exact hpads s hs _ _ _ _ hc
  · simp only [hpos, if_false, show Secure.BlockType.encrypted Secure.scs15 = false by decide,
      Bool.false_eq_true] at h ⊢
    cases h
    rfl

/-- The frame of a command under an established session. -/
theorem compose_secure_len (hpads : ∀ s, d.session = some s → s.suite.Pads)
    (h : compose b d m (some (blockForCommand m.data.length)) = (.ok f, e)) :
    f.len = headerSize + 2 + 1 + ((if m.data.length > 0 then paddedLength m.data.length
      else m.data.length) + macTagSize) + b.scheme.size := by
  have hblock : Secure.BlockType.established (blockForCommand m.data.length).type = true := by
    unfold blockForCommand
    split <;> decide
  have hlen : SecurityBlock.wireLen (some (blockForCommand m.data.length)) = 2 := by
    unfold blockForCommand
    split <;> rfl
  obtain ⟨s, s', m', g, -, hseal, hauth, rfl, -⟩ := compose_established hblock h
  obtain ⟨-, mac, -, rfl, -⟩ := authenticate_frame hauth
  simp only [Frame.len, Frame.sealCheck, securedFrame, hlen, newControl_scheme, List.length_append,
    sealCommand_length hpads hseal, List.length_take, List.Vector.toList_length, macTagSize]
  rfl

/-- The frame of a command in the clear. -/
theorem compose_plain_len (h : compose b d m none = (.ok f, e)) :
    f.len = headerSize + 0 + 1 + m.data.length + b.scheme.size := by
  rw [compose_none b d m (compose_ok h).valid] at h
  cases h
  simp [Frame.len, plainFrame, Frame.sealCheck, newControl_scheme, SecurityBlock.wireLen]

/-- **The frame is as long as its command measures now.** -/
theorem transact_len (hpads : d.Provided CipherSuite.Pads) (hm : d.takes = some m)
    (h : transact b d rndA = (.ok f, e)) :
    f.len = d.needed b.scheme m ∧ Address.valid f.address = true ∧
      SecurityBlock.wireLen f.security ≤ maxSecurityBlockSize := by
  have hcomposed := transact_ok h
  have hvalid : Address.valid f.address = true := by
    rw [hcomposed.address]
    exact hcomposed.valid
  have hsecurity := hcomposed.security
  simp only [transact, commandFor_of_takes hm] at h hsecurity
  by_cases hst : d.state = .secure
  · rw [if_pos hst] at h hsecurity
    refine ⟨?_, hvalid, ?_⟩
    · rw [compose_secure_len (d := { d with outbox := d.outbox.tail, inflight := some m })
        hpads.suite h]
      simp [Device.needed, hst, framedLength]
    · rw [hsecurity]
      unfold blockForCommand
      split <;> decide
  · rw [if_neg hst] at h hsecurity
    refine ⟨?_, hvalid, ?_⟩
    · rw [compose_plain_len h]
      simp [Device.needed, hst, framedLength]
    · rw [hsecurity]
      exact Nat.zero_le _

/-! ## What fits -/

/-- The encoder can write the frame, and the device can receive it as far as its report says. -/
def Device.Receives (d : Device) (f : Frame) : Prop :=
  (∃ octets, f.append [] = .ok octets) ∧
    (d.caps.receiveBufferSize ≠ 0 → f.len ≤ d.caps.receiveBufferSize)

/-- Whether so many octets fit a frame, and the buffer if one is known. -/
def fits (buffer length : ℕ) : Bool :=
  decide (length ≤ maxFrameSize) && (buffer == 0 || decide (length ≤ buffer))

/-- What fits, fits when it gets shorter. -/
theorem fits_of_le {buffer n k : ℕ} (h : fits buffer n = true) (hle : k ≤ n) :
    fits buffer k = true := by
  simp only [fits, Bool.and_eq_true, decide_eq_true_eq, Bool.or_eq_true, beq_iff_eq] at h ⊢
  omega

/-- A buffer that is reported is smaller than what a frame can hold. -/
theorem receiveBufferSize_le (r : CapabilityReport) : r.receiveBufferSize ≤ maxFrameSize := by
  unfold CapabilityReport.receiveBufferSize
  split
  · exact Nat.zero_le _
  · rename_i c _
    have hlow := c.compliance.toNat_lt
    have hhigh := c.items.toNat_lt
    have hshift : c.items.toNat <<< 8 < 2 ^ 16 := by
      rw [Nat.shiftLeft_eq]
      omega
    have hor := Nat.or_lt_two_pow hshift (show c.compliance.toNat < 2 ^ 16 by omega)
    unfold maxFrameSize
    omega

/-- A command sent is received exactly when its length, in the state it is sent in, fits. -/
theorem receives_iff_fits (hpads : d.Provided CipherSuite.Pads) (hm : d.takes = some m)
    (h : transact b d rndA = (.ok f, e)) :
    d.Receives f ↔ fits d.caps.receiveBufferSize (d.needed b.scheme m) = true := by
  obtain ⟨hlen, hvalid, hblock⟩ := transact_len hpads hm h
  rw [Device.Receives, Frame.append_ok_iff, hlen]
  simp only [hvalid, hblock, true_and, fits, Bool.and_eq_true, decide_eq_true_eq,
    Bool.or_eq_true, beq_iff_eq]
  refine and_congr_right fun _ => ?_
  by_cases hz : d.caps.receiveBufferSize = 0 <;> simp [hz]

/-- The commands the device still has to be sent, or to answer. -/
def Device.queued (d : Device) : List Message := d.inflight.toList ++ d.outbox

/-- Every command queued for the device fits, measured as the device is. -/
def Device.Fits (scheme : Scheme) (d : Device) : Prop :=
  ∀ m ∈ d.queued, fits d.caps.receiveBufferSize (d.needed scheme m) = true

/-- A record in which nothing gets longer and nothing is added. -/
structure Device.Eases (d e : Device) : Prop where
  caps : e.caps = d.caps
  state : e.state = .secure → d.state = .secure
  queued : e.queued ⊆ d.queued

/-- What fits goes on fitting in such a record. -/
theorem Device.Fits.eases (h : d.Fits scheme) (he : d.Eases e) : e.Fits scheme := by
  intro m hm
  rw [he.caps]
  refine fits_of_le (h m (he.queued hm)) ?_
  unfold Device.needed
  by_cases hst : e.state = .secure
  · rw [he.state hst, hst]
  · simpa [hst] using framedLength_mono scheme _ m

/-! ## What makes a command outgrow its measure -/

/-- The device's answer completes the handshake: it is the R-MAC the panel expects. -/
def Device.completes (d : Device) (m : Message) : Bool :=
  m.code == Code.rMacI && d.session.any fun s =>
    decide (s.role = .cp) && decide (s.state = .cryptogram) &&
      (s.suite.initialRMAC s.keys s.serverCryptogram).toOption.any (m.data == ·.toList)

/-- The operations after which something in the queue does not fit: a `Send` that is not measured,
because no buffer is known, of a command longer than a frame; an `InstallKey`, which is never
measured, beyond the buffer; a capability report with a buffer too small for a command in the
outbox; and the end of a handshake while the outbox holds a command too long for a session. -/
def Device.outgrows (scheme : Scheme) (d : Device) : Call → Bool
  | .send m => d.caps.receiveBufferSize == 0 && decide (maxFrameSize < d.needed scheme m)
  | .installKey key => d.secureEstablished && d.caps.receiveBufferSize != 0 &&
      decide (d.caps.receiveBufferSize < d.needed scheme (keySetCommand key.toList))
  | .reply f => (d.hears f).any fun m =>
      (m.code == Code.pdCap && (parseCapabilities m.data).any fun report =>
        d.outbox.any fun q => !fits report.receiveBufferSize (framedLength scheme false q)) ||
      (d.completes m && d.outbox.any fun q =>
        !fits d.caps.receiveBufferSize (framedLength scheme true q))
  | _ => false

/-- When `Send` accepts a command. -/
theorem send_ok_iff (b : Bus) (d : Device) (m : Message) :
    (send b d m).1 = .ok () ↔
      d.caps.receiveBufferSize = 0 ∨ wireLength b d m ≤ d.caps.receiveBufferSize := by
  unfold send checkSize
  by_cases hzero : d.caps.receiveBufferSize = 0
  · simp [hzero]
  · by_cases hfits : wireLength b d m > d.caps.receiveBufferSize
    · simp only [hzero, hfits, if_true, if_false, false_or, reduceCtorEq, false_iff]
      omega
    · simp only [hzero, hfits, if_false, false_or, true_iff]
      omega

/-- Whether the R-MAC completes the handshake is what `completeHandshake` tests. -/
theorem completeHandshake_iff (s : Session) (rmacI : Octets) :
    (s.completeHandshake rmacI).1.isOk =
      (decide (s.role = .cp) && decide (s.state = .cryptogram) &&
        (s.suite.initialRMAC s.keys s.serverCryptogram).toOption.any (rmacI == ·.toList)) := by
  unfold Session.completeHandshake
  by_cases hrole : s.role = .cp
  · by_cases hready : s.state = .cryptogram ∧ rmacI.length = Secure.blockSize
    · rw [if_neg (by simp [hrole]), if_neg (by simp [hready])]
      cases s.suite.initialRMAC s.keys s.serverCryptogram with
      | error e => simp [Except.isOk, Except.toBool, Except.toOption]
      | ok expected =>
        by_cases hmac : rmacI = expected.toList <;>
          simp [hrole, hready, hmac, Except.isOk, Except.toBool, Except.toOption]
    · -- an R-MAC of another length is none that is expected
      have hlength : ∀ expected : Secure.Block, s.state = .cryptogram → rmacI ≠ expected.toList := by
        rintro expected hs rfl
        exact hready ⟨hs, expected.toList_length⟩
      rw [if_neg (by simp [hrole]), if_pos (not_and_or.mp hready)]
      cases s.suite.initialRMAC s.keys s.serverCryptogram with
      | error e => simp [Except.isOk, Except.toBool, Except.toOption]
      | ok expected =>
        by_cases hs : s.state = .cryptogram <;>
          simp [Except.isOk, Except.toBool, Except.toOption, hs, hlength expected]
  · simp [hrole, Except.isOk, Except.toBool]

/-- `Send` puts a command into the queue, or leaves the device. -/
theorem send_device (b : Bus) (d : Device) (m : Message) :
    ((send b d m).1 = .ok () ∧ (send b d m).2 = d.enqueue m) ∨
      ((send b d m).1 ≠ .ok () ∧ (send b d m).2 = d) := by
  unfold send
  cases checkSize b d m with
  | error e => exact .inr ⟨by simp, rfl⟩
  | ok u => exact .inl ⟨rfl, rfl⟩

/-- A command put into the queue joins what has to fit. -/
theorem fits_enqueue (h : d.Fits scheme) (m : Message) :
    (d.enqueue m).Fits scheme ↔ fits d.caps.receiveBufferSize (d.needed scheme m) = true := by
  constructor
  · intro hall
    exact hall m (by simp [Device.queued, Device.enqueue])
  · intro hm q hq
    simp only [Device.queued, Device.enqueue, List.mem_append, List.mem_singleton] at hq
    rcases hq with hq | hq | rfl
    · exact h q (by simp [Device.queued, hq])
    · exact h q (by simp [Device.queued, hq])
    · exact hm

/-- **`Send`.** What it measures fits, whatever state the device is in. -/
theorem send_fits_iff (harmed : d.Armed) (h : d.Fits b.scheme) (m : Message) :
    (send b d m).2.Fits b.scheme ↔ d.outgrows b.scheme (.send m) = false := by
  have hbuffer := receiveBufferSize_le d.caps
  have hneeded : d.needed b.scheme m ≤ wireLength b d m := by
    rw [wireLength_eq, Device.needed]
    by_cases hst : d.state = .secure
    · obtain ⟨s, hs, hest⟩ := harmed.secure hst
      simp [Device.secureEstablished, hs, hest, hst]
    · simpa [hst] using framedLength_mono _ _ m
  have hiff := send_ok_iff b d m
  obtain ⟨hok, he⟩ | ⟨hno, he⟩ := send_device b d m
  · rw [he, fits_enqueue h]
    rw [hok] at hiff
    have hmeasured := hiff.mp rfl
    simp only [Device.outgrows, fits, Bool.and_eq_true, decide_eq_true_eq, Bool.or_eq_true,
      beq_iff_eq, Bool.and_eq_false_iff, beq_eq_false_iff_ne, decide_eq_false_iff_not]
    omega
  · rw [he]
    refine iff_of_true h ?_
    have hzero : d.caps.receiveBufferSize ≠ 0 := fun hz => hno (hiff.mpr (.inl hz))
    simp [Device.outgrows, hzero]

/-- **`InstallKey`.** The key is as long as it is, and is queued unmeasured. -/
theorem installKey_fits_iff (h : d.Fits scheme) (key : Secure.BaseKey) :
    (installKey d key).2.Fits scheme ↔ d.outgrows scheme (.installKey key) = false := by
  unfold installKey
  cases hest : d.secureEstablished with
  | false => simpa [Device.outgrows, hest] using h
  | true =>
    have hkey : ({ d with pendingKey := some key } : Device).Fits scheme := h
    have hlength : d.needed scheme (keySetCommand key.toList) ≤ maxFrameSize := by
      have hscheme : scheme.size ≤ 2 := by cases scheme <;> decide
      refine le_trans (framedLength_le_secured scheme _ _) ?_
      simp only [framedLength, keySetCommand, paddedLength, List.length_cons,
        List.Vector.toList_length, Secure.blockSize, headerSize, macTagSize, maxFrameSize, if_true]
      simp only [Nat.zero_lt_succ, gt_iff_lt, if_true]
      omega
    simp only [not_true_eq_false, if_false]
    rw [fits_enqueue hkey]
    change fits d.caps.receiveBufferSize (d.needed scheme (keySetCommand key.toList)) = true ↔ _
    by_cases hz : d.caps.receiveBufferSize = 0 <;> simp [fits, Device.outgrows, hest, hlength, hz]

/-- `Next` moves a command from the outbox into flight. -/
theorem transact_eases (b : Bus) (d : Device) (rndA : Rnd) : d.Eases (transact b d rndA).2 := by
  obtain ⟨q, r, s, he⟩ :=
    compose_device b (commandFor d rndA).2.2 (commandFor d rndA).1 (commandFor d rndA).2.1
  have hcompose : ∀ {e : Device}, d.Eases e → d.Eases { e with seq := q, repeatSequence := r, session := s } :=
    fun h => ⟨h.caps, h.state, h.queued⟩
  have hkept : ∀ {e : Device}, e.caps = d.caps → e.state = d.state → e.queued = d.queued →
      d.Eases e := by
    intro e hc hst hq
    exact ⟨hc, fun h => hst ▸ h, fun m hm => hq ▸ hm⟩
  simp only [transact, he]
  refine hcompose ?_
  obtain ⟨m, hm, hc⟩ | ⟨-, -, hc⟩ | ⟨-, -, hc⟩ | ⟨-, -, hc⟩ | ⟨-, -, hc⟩ := commandFor_cases d rndA
  case inl =>
    obtain ⟨-, -, -, rest, ho⟩ := Device.takes_eq_some hm
    rw [hc]
    exact ⟨rfl, id, by simp [Device.queued, ho]⟩
  case inr.inr.inr.inl =>
    rw [hc]
    unfold handshakeCommand
    split
    · exact hkept rfl rfl rfl
    · split
      · exact hkept rfl rfl rfl
      · split
        · exact ⟨rfl, by simp, fun _ h => h⟩
        · exact hkept rfl rfl rfl
  all_goals
    rw [hc]
    exact hkept rfl rfl rfl

/-- A message that is neither of the two that may make a command too long. -/
theorem dispatch_eases (b : Bus) {d₀ : Device} (hcaps : d.caps = d₀.caps)
    (hstate : d.state = d₀.state) (hin : d.inflight = none)
    (hqueue : d.released.toList ++ d.outbox ⊆ d₀.queued) (hcap : m.code ≠ Code.pdCap)
    (hmac : d.completes m = false) : d₀.Eases (dispatch b d m).2 := by
  -- a row that keeps buffer and outbox may drop the channel, which makes frames shorter
  have hleft : ∀ {e : Device}, e.caps = d.caps → (e.state = .secure → d.state = .secure) →
      e.inflight = d.inflight → e.outbox = d.outbox → d₀.Eases e := by
    intro e hc hst hi ho
    refine ⟨hc.trans hcaps, fun h => hstate ▸ hst h, fun q hq => hqueue ?_⟩
    simp only [Device.queued, hi, hin, ho, Option.toList_none, List.nil_append] at hq
    exact List.mem_append_right _ hq
  apply dispatch_rows b d m (motive := fun r => d₀.Eases r.2)
  case malformed => exact fun _ => hleft rfl id rfl rfl
  case identified => exact fun _ _ _ => hleft rfl (by simp) rfl rfl
  case capabilities => exact fun _ _ h => absurd h hcap
  case status => exact fun _ _ _ _ => hleft rfl id rfl rfl
  case cryptogram =>
    intro _
    obtain he | ⟨s, s', out, -, -, he⟩ := onCryptogram_cases d m.data
    · rw [he]
      exact hleft rfl (by simp) rfl rfl
    · rw [he]
      exact hleft rfl id rfl rfl
  case initialRMAC =>
    intro h
    obtain he | ⟨s, s', u, hs, hok, -⟩ := onInitialRMAC_cases d m.data
    · rw [he]
      exact hleft rfl (by simp) rfl rfl
    · have hyes : (s.completeHandshake m.data).1.isOk = true := by rw [hok]; rfl
      rw [completeHandshake_iff] at hyes
      simp [Device.completes, h, hs, hyes] at hmac
  case card => exact fun _ _ _ => hleft rfl id rfl rfl
  case keypad => exact fun _ _ _ => hleft rfl id rfl rfl
  case refused => exact fun _ _ => hleft rfl id rfl rfl
  case manufacturer => exact fun _ _ _ => hleft rfl id rfl rfl
  case moved =>
    intro c _ _
    exact hleft (by simp [Device.resync_eq]) (by simp [Device.resync_eq])
      (by simp [Device.resync_eq, hin]) (by simp [Device.resync_eq, hin])
  case busy =>
    intro _
    simp only [Device.reclaim_eq]
    split
    · exact hleft rfl id rfl rfl
    · rename_i released hreleased
      refine ⟨hcaps, fun h => hstate ▸ h, fun q hq => hqueue ?_⟩
      simpa [Device.queued, hreleased] using hq
  case installed => exact fun _ _ _ _ => hleft rfl (by simp) rfl rfl
  case answer =>
    intro _
    obtain ⟨-, he⟩ | ⟨-, he⟩ := onAnswer_cases d
    · rw [he]
      exact hleft rfl (by simp) rfl rfl
    · rw [he]
      exact hleft rfl id rfl rfl

/-- A capability report is measured against what waits in the outbox, in the clear. -/
theorem afterCapabilities_fits_iff (b : Bus) (hin : d.inflight = none) (scheme : Scheme)
    (report : CapabilityReport) :
    (afterCapabilities b { d with caps := report }).Fits scheme ↔
      ∀ q ∈ d.outbox, fits report.receiveBufferSize (framedLength scheme false q) = true := by
  cases hbegins : d.begins b report with
  | false =>
    obtain ⟨de, he⟩ := afterCapabilities_online hbegins
    rw [he]
    simp [Device.Fits, Device.queued, Device.needed, hin]
  | true =>
    obtain ⟨channel, key, -, -, he⟩ := afterCapabilities_begun hbegins
    rw [he]
    simp [Device.Fits, Device.queued, Device.needed, hin]

/-- The end of the handshake is measured against what waits in the outbox, under the session. -/
theorem onInitialRMAC_fits_iff (hin : d.inflight = none) (hcompletes : d.completes m = true)
    (scheme : Scheme) :
    (onInitialRMAC d m.data).2.Fits scheme ↔
      ∀ q ∈ d.outbox, fits d.caps.receiveBufferSize (framedLength scheme true q) = true := by
  simp only [Device.completes, Bool.and_eq_true, Option.any_eq_true] at hcompletes
  obtain ⟨-, s, hs, hall⟩ := hcompletes
  have hok : (s.completeHandshake m.data).1.isOk = true := by
    rw [completeHandshake_iff]
    simpa [Option.any_eq_true] using hall
  obtain ⟨s', he⟩ : ∃ s', (onInitialRMAC d m.data).2 = { d with session := some s', state := .secure } := by
    unfold onInitialRMAC
    simp only [hs]
    split
    · rename_i hfail
      simp [hfail, Except.isOk, Except.toBool] at hok
    · exact ⟨_, rfl⟩
  simp [he, Device.Fits, Device.queued, Device.needed, hin]

/-- **`Reply`.** -/
theorem reply_fits_iff (h : d.Fits b.scheme) (f : Frame) :
    (reply b d f).2.Fits b.scheme ↔ d.outgrows b.scheme (.reply f) = false := by
  have hresync : d.Eases ({ d with misses := 0 }.resync) := by
    rw [Device.resync_eq]
    exact ⟨rfl, by simp, by simp [Device.queued]⟩
  obtain ⟨hnot, e, he⟩ | ⟨hr, ha, ⟨hz, he⟩ | ⟨hz, ⟨err, ho⟩, he⟩ | ⟨hz, data, s, ho, he⟩⟩ :=
    reply_cases b d f
  · rw [he]
    exact iff_of_true h (by simp [Device.outgrows, Device.hears_of_foreign hnot])
  · rw [he]
    exact iff_of_true (h.eases hresync) (by simp [Device.outgrows, Device.hears, hz])
  · rw [he]
    exact iff_of_true (h.eases hresync) (by simp [Device.outgrows, Device.hears_of_closed ho])
  · let p : Device := { d with misses := 0, session := s }.delivered
    let m : Message := { code := f.code, isReply := f.isReply, data := data }
    have hears : d.hears f = some m := Device.hears_eq hr ha hz ho
    have hp : p.caps = d.caps ∧ p.state = d.state ∧ p.inflight = none ∧ p.released = d.inflight ∧
        p.outbox = d.outbox := by
      simp [p, Device.delivered_eq]
    obtain ⟨hcaps, hstate, hin, hreleased, hout⟩ := hp
    have hcompletes : p.completes m = d.completes m := by
      obtain rfl | ⟨t, t', ht, rfl, hte, hte'⟩ := openIfEstablished_session ho
      · simp [p, Device.completes]
      · -- an established session is past the handshake
        have ht' : d.session = some t := ht
        simp [p, Device.completes, ht', hte, hte']
    rw [he]
    -- two messages change the measure: a report states a buffer, the end of a handshake adds a block
    by_cases hcap : m.code = Code.pdCap
    · have hno : d.completes m = false := by simp [Device.completes, hcap, Code.pdCap, Code.rMacI]
      change (dispatch b p m).2.Fits b.scheme ↔ _
      rw [dispatch_capabilityReport b p hcap]
      cases hreport : parseCapabilities m.data with
      | none =>
        refine iff_of_true (h.eases ⟨hcaps, fun hs => hstate ▸ hs, ?_⟩) ?_
        · simp [Device.queued, hin, hout]
        · simp [Device.outgrows, hears, hno, hreport]
      | some report =>
        simp only [afterCapabilities_fits_iff b hin]
        simp [Device.outgrows, hears, hno, hcap, hreport, hout]
    · by_cases hmac : d.completes m = true
      · have hcode : m.code = Code.rMacI := by
          simp only [Device.completes, Bool.and_eq_true, beq_iff_eq] at hmac
          exact hmac.1
        change (dispatch b p m).2.Fits b.scheme ↔ _
        rw [dispatch_initialRMAC b p hcode, onInitialRMAC_fits_iff hin (hcompletes.trans hmac)]
        simp [Device.outgrows, hears, hcap, hmac, hout, hcaps]
      · refine iff_of_true (h.eases (dispatch_eases b hcaps hstate hin ?_ hcap ?_)) ?_
        · rw [hreleased, hout]
          exact fun q hq => hq
        · exact hcompletes.trans (by simpa using hmac)
        · simp [Device.outgrows, hears, hcap, hmac]

/-- **What one call does to the fit of the queue.** -/
theorem call_fits_iff (harmed : d.Armed) (h : d.Fits b.scheme) (c : Call) :
    (call b d c).2.Fits b.scheme ↔ d.outgrows b.scheme c = false := by
  cases c with
  | send m => exact send_fits_iff harmed h m
  | installKey key => exact installKey_fits_iff h key
  | next rndA => exact iff_of_true (h.eases (transact_eases b d rndA)) rfl
  | reply f => exact reply_fits_iff h f
  | timeout =>
    refine iff_of_true (h.eases ?_) rfl
    obtain ⟨-, he⟩ | ⟨-, -, he⟩ := timeout_cases d
    · simp only [call, he, Device.retransmit_eq]
      exact ⟨rfl, id, by simp [Device.queued]⟩
    · simp only [call, he, Device.resync_eq]
      exact ⟨rfl, by simp, by simp [Device.queued]⟩

/-! ## Over a run of the bus -/

/-- The property at one operation: an application command that `Next` sends can be received. -/
def SendsReceivable (b : Bus) (op : Op) : Prop :=
  ∀ d f m, Emits b op d f → d.takes = some m → d.Receives f

/-- Every command queued on the bus fits its device. -/
def Fits (b : Bus) : Prop := ∀ d ∈ b.devices, d.Fits b.scheme

/-- The operation makes a command outgrow what it was measured for. -/
def outgrows (b : Bus) (op : Op) : Bool :=
  match b.callOf op with
  | none => false
  | some (i, c) => b.devices[i]?.any (·.outgrows b.scheme c)

/-- **What one operation does to the fit of every queue.** -/
theorem step_fits_iff (hb : b.Furnished CipherSuite.Pads) (h : b.Fits) (op : Op) :
    (b.step op).Fits ↔ b.outgrows op = false := by
  have hcall : ∀ {i d c}, b.devices[i]? = some d →
      ((call b d c).2.Fits b.scheme ↔ d.outgrows b.scheme c = false) := fun hd =>
    call_fits_iff (hb.armed _ (List.mem_of_getElem? hd)) (h _ (List.mem_of_getElem? hd)) _
  unfold Fits
  rw [(step_config b op).1]
  constructor
  · intro hall
    unfold outgrows
    split
    · rfl
    · rename_i i c hop
      cases hd : b.devices[i]? with
      | none => rfl
      | some d =>
        refine (hcall hd).mp (hall _ ?_)
        rw [step_devices, hop]
        simp only [hd]
        exact List.mem_iff_getElem?.mpr ⟨i, List.getElem?_set_self (List.getElem?_eq_some_iff.mp hd).1⟩
  · intro hno e he
    obtain he | ⟨i, c, d, hop, hd, rfl⟩ := mem_step_devices he
    · exact h e he
    · exact (hcall hd).mpr (by simpa [outgrows, hop, hd] using hno)

/-- Commands that fit are received. -/
theorem sendsReceivable_of_fits (hb : b.Furnished CipherSuite.Pads) (h : b.Fits) (op : Op) :
    b.SendsReceivable op := by
  intro d f m hem hm
  obtain ⟨rndA, e, -, ht⟩ := emits_transact hem
  obtain ⟨-, -, hd, -⟩ := hem
  have hmem := List.mem_of_getElem? hd
  refine (receives_iff_fits (hb.provided d hmem) hm ht).mpr (h d hmem m ?_)
  obtain ⟨-, -, -, rest, ho⟩ := Device.takes_eq_some hm
  simp [Device.queued, ho]

/-- **What `Next` sends can be received as long as nothing outgrows its measure.** Over every run of
the bus, every queued command fits its device at every moment exactly when no operation is one of
those after which something does not; and then every application command `Next` sends can be
written and received. -/
theorem commands_receivable (addrs : List Address) (scheme : Scheme)
    {secure : Option SecureChannel}
    (hsuite : ∀ channel, secure = some channel → channel.suite.Pads) (ops : List Op) :
    ((∀ js, js <+: ops → (js.foldl step (new addrs scheme secure)).Fits) ↔
      ∀ p ∈ Run.trace step (new addrs scheme secure) ops, p.1.outgrows p.2 = false) ∧
    ((∀ p ∈ Run.trace step (new addrs scheme secure) ops, p.1.outgrows p.2 = false) →
      ∀ p ∈ Run.trace step (new addrs scheme secure) ops, p.1.SendsReceivable p.2) := by
  have hstart : (new addrs scheme secure).Furnished CipherSuite.Pads ∧ (new addrs scheme secure).Fits := by
    refine ⟨furnished_new addrs scheme hsuite, ?_⟩
    intro d hd
    simp only [new, List.mem_map] at hd
    obtain ⟨addr, -, rfl⟩ := hd
    simp [Device.Fits, Device.queued, Device.new]
  have hkept : ∀ (b : Bus) (op : Op), (b.Furnished CipherSuite.Pads ∧ b.Fits) → b.outgrows op = false →
      (b.step op).Furnished CipherSuite.Pads ∧ (b.step op).Fits :=
    fun b op hb hno => ⟨furnished_step hb.1 op, (step_fits_iff hb.1 hb.2 op).mpr hno⟩
  refine ⟨?_, ?_⟩
  · rw [Run.forall_prefix_iff (Q := Fits), and_iff_right hstart.2]
    refine Run.trace_forall_iff (I := fun b : Bus => b.Furnished CipherSuite.Pads ∧ b.Fits)
      (A := fun _ _ => True) (C := fun b op => b.outgrows op = false)
      (P := fun b op => (b.step op).Fits) ?_ ?_ hstart ops fun _ _ => trivial
    · exact fun b op hb _ hno => ⟨(hkept b op hb hno).2, hkept b op hb hno⟩
    · exact fun b op hb _ hyes hfits => hyes ((step_fits_iff hb.1 hb.2 op).mp hfits)
  · intro hno p hp
    obtain ⟨hfurnished, hfits⟩ := (Run.invariant_of_trace
      (I := fun b : Bus => b.Furnished CipherSuite.Pads ∧ b.Fits)
      (C := fun b op => b.outgrows op = false) hkept hstart ops hno).1 p hp
    exact sendsReceivable_of_fits hfurnished hfits p.2

/-- A suite that pads as AES-128 does and enciphers nothing. -/
def paddingSuite : CipherSuite :=
  { Secure.countingSuite with
    sealPayload := fun _ _ plaintext =>
      .ok (plaintext ++ 0x80 :: List.replicate (paddedLength plaintext.length - plaintext.length - 1) 0) }

/-- The sample suite pads. -/
theorem paddingSuite_pads : paddingSuite.Pads := by
  intro keys iv plaintext ciphertext h
  simp only [paddingSuite, Except.ok.injEq] at h
  subst h
  simp only [List.length_append, List.length_cons, List.length_replicate, paddedLength,
    Secure.blockSize]
  omega

/-- A command is queued before the device has said what it can receive, and the device then
reports this many octets. -/
def measuredOps (data : Octets) (buffer : UInt8) : List Op :=
  [.send 0 { code := Code.text, data := data },
   .next Secure.zeroRnd, .reply 0 (plainReply 1 1 Code.pdID (List.replicate 12 0)),
   .next Secure.zeroRnd,
   .reply 0 (plainReply 1 2 Code.pdCap [funcReceiveBuffer, buffer, 0, funcCommSecurity, 1, 0]),
   .next Secure.zeroRnd, .reply 0 (securedReply 1 3 Secure.scs12 Code.cCrypt (List.replicate 32 0)),
   .next Secure.zeroRnd, .reply 0 (securedReply 1 1 Secure.scs14 Code.rMacI (List.replicate 16 0)),
   .next Secure.zeroRnd]

/-- A bus that offers the padding suite. -/
def paddingChannel : SecureChannel := ⟨paddingSuite, fun _ => some Secure.zeroBlock⟩

/-- The command fits what the device then reports. -/
theorem commands_receivable_in_time :
    paddingSuite.Pads ∧
    ∀ p ∈ Run.trace step (new [1] .checksum (some paddingChannel)) (measuredOps [1, 2, 3] 32),
      p.1.SendsReceivable p.2 :=
  ⟨paddingSuite_pads,
    (commands_receivable [1] .checksum (by simp [paddingChannel, paddingSuite_pads])
      (measuredOps [1, 2, 3] 32)).2 (by decide +kernel)⟩

/-- The length of the frame an outcome returns. -/
def Outcome.frameLen : Outcome → Option ℕ
  | .step f => some f.len
  | _ => none

/-- On the session that leaves, a base key is queued. -/
def unmeasuredOps : List Op :=
  measuredOps [] 24 ++ [.reply 0 (securedReply 1 2 Secure.scs16 Code.ack [2, 2, 2, 2]),
    .installKey 0 Secure.zeroBlock]

/-- The same command to a device that reports 24 octets goes out as a frame of 29; and a base key
is queued for it without being measured and goes out as a frame of 45. -/
theorem outgrown_command_sent :
    let b := (measuredOps [1, 2, 3] 24).dropLast.foldl step (new [1] .checksum (some paddingChannel))
    let k := unmeasuredOps.foldl step (new [1] .checksum (some paddingChannel))
    (b.devices.map fun d => d.caps.receiveBufferSize) = [24] ∧
      (b.next Secure.zeroRnd).1.bind Outcome.frameLen = some 29 ∧
      (k.devices.map fun d => d.caps.receiveBufferSize) = [24] ∧
      (k.next Secure.zeroRnd).1.bind Outcome.frameLen = some 45 := by
  decide

end Bus

end Osdp
