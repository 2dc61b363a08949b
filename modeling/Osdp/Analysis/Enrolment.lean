import Osdp.Library.Progress
import Osdp.Analysis.Handshake
import Osdp.Analysis.Freshness
import Osdp.Analysis.Addresses
import Osdp.Analysis.Refusal
import Osdp.Analysis.ChannelSync
import Osdp.Analysis.Estimate
import Osdp.Analysis.Reporting

/-!
# Enrolment

A panel and a reader that hold the same base key get to a Secure Channel while enrolment is open. The
bus has no message that says so: it asks for the identity, for the capabilities, sends the challenge
and then the server's cryptogram, and whatever one side remembers of an older session is dropped when
the other side does not answer in kind. `Line.Enrolling` says what the two may be left in:

* either may be new, and a session may be held by the panel alone or by the reader alone;
* the reply in the reader's cache may have the number the panel uses next, in which case the reader
  says it once more instead of answering.

`Line.away` counts the exchanges that are left. One exchange in which nothing is lost takes it down
(`Line.nearer`, one lemma for each kind of exchange), nothing that is queued or reported between the
exchanges puts it up, and so the channel is up after eight exchanges at most.
-/

set_option autoImplicit false

namespace Osdp

open Osdp.Secure (Session Rnd BaseKey CipherSuite)

/-- A reply that does not send a panel on its way to a Secure Channel the wrong way: it does not move
it, it is no step of a handshake, and if it is a report then one of AES-128. -/
structure Innocent (c : Code) (data : Octets) : Prop where
  unmoved : c ≠ Code.com
  cryptogram : c ≠ Code.cCrypt
  initialRMAC : c ≠ Code.rMacI
  report : c = Code.pdCap → ∀ report, parseCapabilities data = some report →
    report.secureChannel.1 = true

/-- A refusal and an identity are innocent. -/
theorem innocent_of_code {c : Code} (hc : c = Code.nak ∨ c = Code.pdID) (data : Octets) :
    Innocent c data := by
  obtain rfl | rfl := hc
  · exact ⟨by decide, by decide, by decide, fun h => absurd h (by decide)⟩
  · exact ⟨by decide, by decide, by decide, fun h => absurd h (by decide)⟩

/-! ## The device -/

namespace Pd.Device

variable {cfg : Settings} {d : Device}

variable {block : Option SecurityBlock} {now : ℤ} {rndB : Rnd} {f : Frame} {suite : CipherSuite}

/-- A reply in the clear, or under a block of the handshake, can always be built. -/
theorem emit_unsealed (hset : d.Settled) (hv : Address.valid d.address = true) (command : Frame)
    (seq : UInt8) (m : Message)
    (hb : ∀ b, block = some b → Secure.BlockType.handshake b.type = true) :
    ∃ r, d.emit command seq m block = (.ok r, d.stored seq r) ∧ Replied d m seq block r ∧
      r.data = m.data := by
  obtain ⟨r, hr, hdata⟩ : ∃ r, d.encode { m with isReply := true } seq command.control.scheme block =
      (.ok r, d) ∧ r.data = m.data := by
    cases block with
    | none => simp [encode, Message.encode, hv, Frame.sealCheck]
    | some sb => simp [encode, hb sb rfl, Message.encodeSecure, hv, Frame.sealCheck]
  have hstored : (d.stored seq r).Settled := by
    unfold stored
    split <;> exact hset
  refine ⟨r, ?_, ?_, hdata⟩
  · simp only [emit, hr]
    exact Prod.ext rfl (by rw [← stored, adoptAddress_of_none hstored.1, adoptKey_of_none hstored.2])
  · obtain ⟨h1, h2, h3, h4, h5, h6⟩ := encode_ok rfl hr
    exact ⟨h1, h2, h3, h4, h5, h6⟩

/-- A command that is new to a lenient device. -/
theorem handle_fresh (hwf : d.WellFormed cfg) (hc : cfg.Defaults) (hl : cfg.strict = false)
    (hheard : d.heard f = true) (hz : f.control.sequence ≠ 0)
    (hfresh : d.cachedValid = true → d.cachedSeq ≠ f.control.sequence) :
    d.handle now rndB f = ((d.noticed now).answer f rndB).2.2.emit f f.control.sequence
      ((d.noticed now).answer f rndB).1 ((d.noticed now).answer f rndB).2.1 := by
  have hobs := hwf.observe hc now
  have hrep : d.replays now f = false := by
    simp only [replays, hobs, noticed, Bool.and_eq_false_iff]
    cases hv : d.cachedValid with
    | false => exact .inl (.inr rfl)
    | true => exact .inr (beq_eq_false_iff_ne.mpr (hfresh hv).symm)
  have hstrict : (d.noticed now).cfg.strict = false := by
    rw [← hl, ← hwf.configured]
    rfl
  have hh := handle_eq_replyTo hheard hrep rndB
  rw [hh, replyTo, opening, if_neg hz, hobs, answerFor,
    if_neg (by rw [hstrict]; simp)]

/-- The device after a reply that needed no session: the clock read and the reply cached. -/
def spoke (d : Device) (now : ℤ) (s : Option Session) (r : Frame) (n : UInt8) : Device :=
  { d.noticed now with session := s, cached := r, cachedSeq := n, cachedValid := true }

/-- The device has read the clock and spoken, and has done nothing else. -/
def Akin (d e : Device) : Prop :=
  ∃ seen last s c n v, e = { d with
    seen := seen, lastSeen := last, session := s, cached := c, cachedSeq := n, cachedValid := v }

/-- Reading the clock leaves a device akin. -/
theorem akin_noticed (d : Device) (now : ℤ) : d.Akin (d.noticed now) := ⟨_, _, _, _, _, _, rfl⟩

/-- So does a reply. -/
theorem akin_spoke (d : Device) (now : ℤ) (s : Option Session) (r : Frame) (n : UInt8) :
    d.Akin (d.spoke now s r n) := ⟨_, _, _, _, _, _, rfl⟩

/-- A new command that is answered in the clear or under a block of the handshake. -/
theorem handle_unsealed (hwf : d.WellFormed cfg) (hc : cfg.Defaults) (hl : cfg.strict = false)
    (hheard : d.heard f = true) (hn : IsNumber f.control.sequence)
    (hfresh : d.cachedValid = true → d.cachedSeq ≠ f.control.sequence) {m : Message}
    {s : Option Session}
    (ha : (d.noticed now).answer f rndB = (m, block, { d.noticed now with session := s }))
    (hb : ∀ b, block = some b → Secure.BlockType.handshake b.type = true) :
    ∃ r, d.handle now rndB f = (.ok r, d.spoke now s r f.control.sequence) ∧
      Replied d m f.control.sequence block r ∧ r.data = m.data := by
  have hset : { d.noticed now with session := s }.Settled := hwf.settled
  have hv : Address.valid { d.noticed now with session := s }.address = true := hwf.valid
  obtain ⟨r, hemit, hr, hdata⟩ := emit_unsealed hset hv f f.control.sequence m hb
  refine ⟨r, ?_, ⟨hr.isReply, hr.address, hr.number, hr.code, hr.security, hr.plain⟩, hdata⟩
  rw [handle_fresh hwf hc hl hheard hn.ne_zero hfresh, ha, hemit, stored, if_neg hn.ne_zero]
  rfl

/-- What the device says of itself to a question of enrolment. -/
def introduction (d : Device) (c : Code) : Message :=
  if c = Code.id then { code := Code.pdID, data := appendDeviceID [] d.cfg.identity }
  else { code := Code.pdCap, data := CapabilityReport.append d.capabilities [] }

/-- The introduction of a reader with AES-128 is innocent. -/
theorem introduction_innocent (h : d.Advertises) (c : Code) :
    Innocent (d.introduction c).code (d.introduction c).data := by
  unfold introduction
  split
  · exact innocent_of_code (.inr rfl) _
  · refine ⟨show Code.pdCap ≠ Code.com by decide, show Code.pdCap ≠ Code.cCrypt by decide,
      show Code.pdCap ≠ Code.rMacI by decide, fun _ report hparse => ?_⟩
    rw [parseCapabilities_append] at hparse
    cases hparse
    exact h.report

/-- It carries no event. -/
theorem introduction_event (d : Device) (c : Code) : (d.introduction c).event = none := by
  unfold introduction
  split <;> rfl

/-- A question of enrolment is refused over a session and answered otherwise. -/
theorem answer_enrolling (hs : f.security = none) (hc : f.code = Code.id ∨ f.code = Code.cap)
    (rndB : Rnd) :
    d.answer f rndB = if d.secured then (nak .secureRequired, none, { d with session := none })
      else (d.introduction f.code, none, d) := by
  cases hsec : d.secured with
  | true =>
    have hest : d.session.any Session.established = true := hsec
    simp only [answer, hs, if_pos hest, if_true]
    rfl
  | false =>
    have hest : d.session.any Session.established = false := hsec
    simp only [answer, hs, hest, Bool.false_eq_true, if_false]
    obtain hc | hc := hc <;> rw [hc] <;> rfl

/-- A command of a session that the device does not hold is refused. -/
theorem answer_unsecured {block : SecurityBlock} (hsuite : d.cfg.suite = some suite)
    (hs : f.security = some block) (hb : block.type = Secure.scs15 ∨ block.type = Secure.scs17)
    (hd : d.secured = false) (rndB : Rnd) : d.answer f rndB = (nak .secureRequired, none, d) := by
  have h11 : block.type ≠ Secure.scs11 := by
    obtain hb | hb := hb <;> rw [hb] <;> decide
  have h13 : block.type ≠ Secure.scs13 := by
    obtain hb | hb := hb <;> rw [hb] <;> decide
  simp only [answer, hs, answerSecure, hsuite, if_neg h11, if_neg h13, if_pos hb, answerEstablished]
  cases hse : d.session with
  | none => rfl
  | some t =>
    have hno : t.established = false := by simpa [secured, hse] using hd
    simp [hno]

/-- The challenge of a panel is answered. -/
theorem answer_challenge (hsuite : d.cfg.suite = some suite) (hderives : suite.Derives)
    (hs : f.security = some { type := Secure.scs11 }) {rndA : Rnd} (hdata : f.data = rndA.toList)
    (rndB : Rnd) :
    ∃ out t, (Secure.newSession suite .pd d.key).answerChallenge rndA.toList rndB
        (deviceUID d.cfg.identity) = (.ok out, t) ∧ t.state = .cryptogram ∧
      d.answer f rndB = ({ code := Code.cCrypt, data := out }, some { type := Secure.scs12 },
        { d with session := some t }) := by
  obtain ⟨keys, hkeys⟩ := hderives.keys d.key (octetsAt 8 rndA.toList 0)
  obtain ⟨client, hclient⟩ := hderives.client keys (octetsAt 8 rndA.toList 0) rndB
  obtain ⟨out, t, hchallenge⟩ : ∃ out t, (Secure.newSession suite .pd d.key).answerChallenge
      rndA.toList rndB (deviceUID d.cfg.identity) = (.ok out, t) := by
    simp [Session.answerChallenge, Secure.newSession, Secure.challengeSize, hkeys, hclient]
  obtain ⟨-, keys', client', -, -, -, ht⟩ := Secure.Session.answerChallenge_ok hchallenge
  refine ⟨out, t, hchallenge, by rw [ht], ?_⟩
  simp only [answer, hs, answerSecure, hsuite, if_true, answerChallenge, dropSession, hdata,
    hchallenge]

/-- The server's cryptogram of the panel the device is in a handshake with is answered. -/
theorem answer_cryptogram (hsuite : d.cfg.suite = some suite)
    (hs : f.security = some { type := Secure.scs13 }) {t t' : Session} {out : Octets}
    (ht : d.session = some t) (hproof : t.answerServerCryptogram f.data = (.ok out, t'))
    (rndB : Rnd) :
    d.answer f rndB = ({ code := Code.rMacI, data := out }, some { type := Secure.scs14 },
      { d with session := some t' }) := by
  have h11 : Secure.scs13 ≠ Secure.scs11 := by decide
  simp only [answer, hs, answerSecure, hsuite, if_neg h11, if_true, answerCryptogram, ht, hproof]

end Pd.Device

/-- A device whose half of the handshake is done proves it to the panel it is in it with. -/
theorem Secure.Session.answerServerCryptogram_mated {s t : Session} (hderives : t.suite.Derives)
    (hrole : t.role = .pd) (hst : t.state = .cryptogram) (h : s.Mated t) :
    ∃ out t', t.answerServerCryptogram s.serverCryptogram.toList = (.ok out, t') := by
  have hserver : t.suite.serverCryptogram t.keys t.rndA t.rndB = .ok s.serverCryptogram := by
    rw [h.suite, h.keys, h.rndA, h.rndB]
    exact h.server
  obtain ⟨rmac, hrmac⟩ := hderives.rmac t.keys s.serverCryptogram
  simp [answerServerCryptogram, hrole, hst, Secure.blockSize, hserver, hrmac]

/-! ## The panel -/

namespace Bus

variable {p d : Device} {r : Frame} {s s' : Session} {m : Message} {b : Bus}
  {channel : SecureChannel} {data : Octets}

/-- Without an established session a reply is taken as it is. -/
theorem reply_unestablished (b : Bus) (hest : p.secureEstablished = false) (hr : r.isReply = true)
    (ha : r.address = p.address) (hz : r.control.sequence ≠ 0) :
    reply b p r = dispatch b { p with misses := 0 }.delivered (Message.decode r) := by
  have hopen : openIfEstablished { p with misses := 0 } r = .ok (r, { p with misses := 0 }) := by
    unfold openIfEstablished
    simp only
    cases hs : p.session with
    | none => rfl
    | some s =>
      have hno : s.established = false := by simpa [Device.secureEstablished, hs] using hest
      simp [hno]
  simp [reply, hr, ha, hz, hopen]

/-- An established session takes no reply in the clear, and the exchange starts again. -/
theorem reply_in_clear (b : Bus) (hest : p.secureEstablished = true) (hr : r.isReply = true)
    (ha : r.address = p.address) (hz : r.control.sequence ≠ 0) (hs : r.security = none) :
    reply b p r = (.ok .secureFailed, { p with misses := 0 }.resync) := by
  have hopen : openIfEstablished { p with misses := 0 } r = .error .macMismatch := by
    unfold openIfEstablished
    simp only
    cases hse : p.session with
    | none => simp [Device.secureEstablished, hse] at hest
    | some s =>
      have hyes : s.established = true := by simpa [Device.secureEstablished, hse] using hest
      simp [hyes, openReply, hs]
  simp [reply, hr, ha, hz, hopen]

/-- The challenge of a panel whose handshake begins. -/
theorem transact_challenges (b : Bus) (hv : Address.valid d.address = true)
    (hst : d.state = .secureHandshake) (hpending : d.pending = none) (hs : d.session = some s)
    (hrole : s.role = .cp) (rndA : Rnd) :
    ∃ f, transact b d rndA = (.ok f, { d with
        session := some { s with rndA := rndA, state := .challenged }
        seq := d.number, repeatSequence := false }) ∧
      f.isReply = false ∧ f.security = some { type := Secure.scs11 } ∧ f.data = rndA.toList := by
  have hcommand : commandFor d rndA = ({ code := Code.chlng, data := rndA.toList },
      some { type := Secure.scs11 },
      { d with session := some { s with rndA := rndA, state := .challenged } }) := by
    simp only [commandFor, hst, handshakeCommand, hpending, hs, Session.beginChallenge_of_cp hrole]
  refine ⟨(securedFrame b d { code := Code.chlng, data := rndA.toList }
    { type := Secure.scs11 }).sealCheck, ?_, rfl, rfl, rfl⟩
  simp only [transact, hcommand]
  exact compose_handshake
    (d := { d with session := some { s with rndA := rndA, state := .challenged } }) hv _ rfl rfl

/-- The server's cryptogram of a panel that has checked the client's. -/
theorem transact_proves (b : Bus) (hv : Address.valid d.address = true)
    (hst : d.state = .secureHandshake) (hpending : d.pending = some ⟨m, { type := Secure.scs13 }⟩)
    (rndA : Rnd) :
    ∃ f, transact b d rndA = (.ok f, { d with
        pending := none, seq := d.number, repeatSequence := false }) ∧
      f.isReply = m.isReply ∧ f.security = some { type := Secure.scs13 } ∧ f.data = m.data := by
  have hcommand : commandFor d rndA = (m, some { type := Secure.scs13 }, { d with pending := none }) := by
    simp only [commandFor, hst, handshakeCommand, hpending]
  refine ⟨(securedFrame b d m { type := Secure.scs13 }).sealCheck, ?_, rfl, rfl, rfl⟩
  simp only [transact, hcommand]
  exact compose_handshake (d := { d with pending := none }) hv _ rfl rfl

/-- The message a device in use is asked next: a command that waits, or a poll. -/
def Device.utterance (d : Device) : Message := d.takes.getD Device.pollMessage

/-- The record once it is asked. -/
def Device.uttered (d : Device) : Device :=
  match d.takes with
  | some m => { d with outbox := d.outbox.tail, inflight := some m }
  | none => { d with deferCommands := false }

/-- In the state `Secure` the next command is sealed. -/
theorem commandFor_uttered (hst : d.state = .secure) (rndA : Rnd) :
    commandFor d rndA = (d.utterance, some (blockForCommand d.utterance.data.length), d.uttered) := by
  unfold Device.utterance Device.uttered
  cases ht : d.takes with
  | some m =>
    rw [commandFor_of_takes ht, if_pos hst]
    rfl
  | none =>
    obtain ⟨m, hm, -⟩ | ⟨-, hs, -⟩ | ⟨-, hs, -⟩ | ⟨-, hs, -⟩ | ⟨-, -, he⟩ := commandFor_cases d rndA
    · rw [ht] at hm
      cases hm
    · exact absurd (hst.symm.trans hs) (by decide)
    · exact absurd (hst.symm.trans hs) (by decide)
    · exact absurd (hst.symm.trans hs) (by decide)
    · rw [he, if_pos hst]
      rfl

/-- What is asked leaves of the record all but the queue. -/
theorem Device.uttered_eq (d : Device) :
    ∃ o i w, d.uttered = { d with outbox := o, inflight := i, deferCommands := w } := by
  unfold uttered
  split <;> exact ⟨_, _, _, rfl⟩

/-- A device is asked in commands. -/
theorem Device.utterance_isReply (h : ∀ m ∈ d.outbox, m.isReply = false) :
    d.utterance.isReply = false := by
  unfold utterance
  cases ht : d.takes with
  | none => rfl
  | some m =>
    obtain ⟨-, -, -, rest, ho⟩ := takes_eq_some ht
    exact h m (by simp [ho])

/-- The record when the command has gone out, under the session as it is then. -/
def Device.asking (d : Device) (s : Session) : Device :=
  { d.uttered with seq := d.number, repeatSequence := false, session := some s }

/-- **A command over an established session** can always be built. -/
theorem transact_live (hv : Address.valid d.address = true) (hst : d.state = .secure)
    (hs : d.session = some s) (hest : s.established = true) (htotal : s.suite.Total) (rndA : Rnd) :
    ∃ f mac, transact b d rndA = (.ok f, d.asking (s.commit true mac)) ∧
      Sealed s true (blockForCommand d.utterance.data.length) d.utterance.data mac f ∧
      f.code = d.utterance.code ∧ f.isReply = d.utterance.isReply := by
  obtain ⟨o, i, w, hd⟩ := d.uttered_eq
  have hsession : d.uttered.session = some s := by rw [hd]; exact hs
  have hvalid : Address.valid d.uttered.address = true := by rw [hd]; exact hv
  have hnumber : d.uttered.number = d.number := by rw [hd]; rfl
  obtain ⟨f, hf⟩ := compose_total (b := b) hvalid d.utterance (.inr ⟨_, s, rfl, hsession, hest, htotal⟩)
  have hcompose : compose b d.uttered d.utterance (some (blockForCommand d.utterance.data.length)) =
      (.ok f, (compose b d.uttered d.utterance
        (some (blockForCommand d.utterance.data.length))).2) := Prod.ext hf rfl
  obtain ⟨s₁, s', m', g, hs₁, -, -, -, he⟩ :=
    compose_established (blockForCommand_established _) hcompose
  obtain ⟨s₂, mac, hs₂, -, hsealed, hse⟩ :=
    sealed_of_compose (blockForCommand_established _) hcompose
  rw [hsession] at hs₂
  cases hs₂
  have hok := compose_ok hcompose
  rw [he] at hse
  cases hse
  refine ⟨f, mac, ?_, hsealed, hok.code, hok.isReply⟩
  rw [transact, commandFor_uttered hst, Device.asking, ← hnumber]
  exact Prod.ext hf he

/-- A device that is asked keeps its address. -/
theorem Device.asking_address (d : Device) (s : Session) : (d.asking s).address = d.address := by
  obtain ⟨o, i, w, hd⟩ := d.uttered_eq
  rw [asking, hd]

/-- A record that has taken a reply with nothing in flight. -/
def Device.answered (d : Device) : Device :=
  { d with misses := 0, released := none, acknowledged := Code.poll }

/-- With nothing in flight a delivery is an answer to a poll. -/
theorem Device.delivered_idle (h : d.inflight = none) :
    { d with misses := 0 }.delivered = d.answered := by
  simp [Device.delivered, Device.answered, h]

/-- What cannot be read changes nothing. -/
theorem dispatch_error {e : Error} (h : (dispatch b d m).1 = .error e) :
    (dispatch b d m).2 = d := by
  revert h
  apply dispatch_rows b d m (motive := fun r => r.1 = .error e → r.2 = d) <;> intros <;>
    first | rfl | contradiction

/-- A panel that is on its way to a Secure Channel, and has no session yet. -/
structure Device.Underway (d : Device) : Prop where
  idle : d.inflight = none
  offered : d.state ≠ .online ∧ d.state ≠ .secure
  unestablished : d.secureEstablished = false
  pending : d.pending = none

/-- What a reply that is of no use leaves of such a panel. -/
structure Device.Stays (d q : Device) : Prop where
  underway : q.Underway
  address : q.address = d.address
  installedKey : q.installedKey = d.installedKey
  outbox : q.outbox = d.outbox
  seq : q.seq = d.seq
  repeatSequence : q.repeatSequence = d.repeatSequence

/-- A device under way stays where it is. -/
theorem Device.Underway.stays (h : d.Underway) : d.Stays d := ⟨h, rfl, rfl, rfl, rfl, rfl⟩

/-- **An old reply** that is no step of the handshake and does not move the device leaves the panel on
its way. -/
theorem dispatch_stays (hb : b.secure = some channel) (h : d.Underway)
    (hreleased : d.released = none) (hacknowledged : d.acknowledged = Code.poll)
    (hdeclined : d.secureDeclined = false) (hkey : ∃ key, d.baseKey channel.keys = some key)
    (hm : Innocent m.code m.data) : d.Stays (dispatch b d m).2 := by
  have hstate : ∀ st : State, st ≠ .online ∧ st ≠ .secure → d.Stays { d with state := st } :=
    fun st hst => ⟨⟨h.idle, hst, h.unestablished, h.pending⟩, rfl, rfl, rfl, rfl, rfl⟩
  apply dispatch_rows b d m (motive := fun r => d.Stays r.2)
  case malformed => exact fun _ => h.stays
  case identified =>
    exact fun id _ _ => ⟨⟨h.idle, by simp, h.unestablished, h.pending⟩, rfl, rfl, rfl, rfl, rfl⟩
  case capabilities =>
    intro report e hcode hparse _
    obtain ⟨key, hkey⟩ := hkey
    simp only
    rw [afterCapabilities_begins (d := { d with caps := report }) hb hdeclined
      (hm.report hcode report hparse) hkey]
    exact ⟨⟨h.idle, by simp, rfl, h.pending⟩, rfl, rfl, rfl, rfl, rfl⟩
  case status =>
    exact fun ss e _ _ => ⟨⟨h.idle, h.offered, h.unestablished, h.pending⟩, rfl, rfl, rfl, rfl, rfl⟩
  case cryptogram => exact fun hcode => absurd hcode hm.cryptogram
  case initialRMAC => exact fun hcode => absurd hcode hm.initialRMAC
  case card => exact fun _ _ _ => h.stays
  case keypad => exact fun _ _ _ => h.stays
  case refused =>
    exact fun _ _ => ⟨⟨h.idle, h.offered, h.unestablished, h.pending⟩, rfl, rfl, rfl, rfl, rfl⟩
  case manufacturer => exact fun _ _ _ => h.stays
  case moved => exact fun c hcode _ => absurd hcode hm.unmoved
  case busy =>
    intro _
    simp only [Device.reclaim, hreleased]
    exact ⟨⟨h.idle, h.offered, h.unestablished, h.pending⟩, rfl, rfl, rfl, rfl, rfl⟩
  case installed =>
    intro k _ _ hack
    rw [hacknowledged] at hack
    exact absurd hack (by decide)
  case answer =>
    intro _
    obtain ⟨-, he⟩ | ⟨-, he⟩ := onAnswer_cases d
    · rw [he]
      exact hstate _ (by decide)
    · rw [he]
      exact h.stays

/-- The answers to the questions of enrolment. -/
theorem dispatch_nak (b : Bus) (d : Device) (reason : NAKReason) :
    dispatch b d { code := Code.nak, isReply := true, data := [reason] } =
      (.ok (.nak reason), d.clearPendingKey) := rfl

/-- An identity enrols. -/
theorem dispatch_pdID (b : Bus) (d : Device) (id : DeviceID) :
    dispatch b d { code := Code.pdID, isReply := true, data := Pd.appendDeviceID [] id } =
      (.ok (.identified id), { d with id := id, state := .identifying }) := by
  simp only [dispatch, if_true, parseDeviceID_append]

/-- A report of AES-128 begins the handshake. -/
theorem dispatch_pdCap (hb : b.secure = some channel) {key : BaseKey}
    (hdeclined : d.secureDeclined = false) {report : CapabilityReport}
    (haes : report.secureChannel.1 = true) (hkey : d.baseKey channel.keys = some key) :
    dispatch b d { code := Code.pdCap, isReply := true, data := report.append [] } =
      (.ok (.capabilities report), { d with
        caps := report, state := .secureHandshake
        session := some (Secure.newSession channel.suite .cp key) }) := by
  have hne : Code.pdCap ≠ Code.pdID := by decide
  simp only [dispatch, if_neg hne, if_true, parseCapabilities_append,
    afterCapabilities_begins (d := { d with caps := report }) hb hdeclined haes hkey]

/-- The answers to the steps of the handshake. -/
theorem dispatch_cCrypt (b : Bus) {crypt : Octets} (hs : d.session = some s)
    (hok : s.answerCryptogram data = (.ok crypt, s')) :
    dispatch b d { code := Code.cCrypt, isReply := true, data := data } = (.ok .none, { d with
      session := some s'
      pending := some ⟨{ code := Code.sCrypt, data := crypt }, { type := Secure.scs13 }⟩ }) := by
  have he : onCryptogram d data = (.none, { d with
      session := some s'
      pending := some ⟨{ code := Code.sCrypt, data := crypt }, { type := Secure.scs13 }⟩ }) := by
    simp only [onCryptogram, hs, hok]
  exact congrArg (fun r => (Except.ok r.1, r.2)) he

/-- An initial code that fits brings the channel up. -/
theorem dispatch_rMacI (b : Bus) (hs : d.session = some s)
    (hok : s.completeHandshake data = (.ok (), s')) :
    dispatch b d { code := Code.rMacI, isReply := true, data := data } =
      (.ok (.secure s'.usingDefaultKey), { d with session := some s', state := .secure }) := by
  have he : onInitialRMAC d data =
      (.secure s'.usingDefaultKey, { d with session := some s', state := .secure }) := by
    simp only [onInitialRMAC, hs, hok]
  exact congrArg (fun r => (Except.ok r.1, r.2)) he

/-- What a reply that cannot be read, or is not there, leaves of such a panel: at most the third in
a row starts the exchange again. -/
theorem timeout_stays (h : d.Underway) :
    d.Stays (timeout d).2 ∨ (d.state ≠ .offline ∧ 2 ≤ d.misses ∧
      (timeout d).2 = { d with misses := d.misses + 1 }.resync) := by
  obtain ⟨-, he⟩ | ⟨hm, hst, he⟩ := timeout_cases d
  · left
    rw [he, Device.retransmit_eq]
    refine ⟨⟨rfl, h.offered, h.unestablished, h.pending⟩, rfl, rfl, ?_, rfl, ?_⟩
    · simp [h.idle]
    · simp [h.idle]
  · right
    refine ⟨hst, ?_, by rw [he]⟩
    unfold offlineThreshold at hm
    omega

/-- A new device is poised. -/
theorem Device.poised_new (channel : SecureChannel) (a : Address) : (Device.new a).Poised channel :=
  ⟨rfl, Device.armed_plain ⟨nofun, nofun⟩, nofun, fun hp => absurd rfl hp, nofun⟩

end Bus

/-! ## The line -/

namespace Line

/-- The next command has the number of the reply in the device's cache. -/
def stale (l : Line) : Bool := l.device.cachedValid && l.device.cachedSeq == l.panel.number

/-- A panel and a reader that are meant for each other: they hold the same base key and the same
address, and nothing is under way between them. -/
structure Met (channel : Bus.SecureChannel) (cfg : Pd.Settings) (l : Line) : Prop where
  honest : l.Honest channel cfg
  key : l.SameKey channel
  address : l.panel.address = l.device.address
  serving : l.serving = true
  idle : l.panel.inflight = none
  commands : ∀ m ∈ l.panel.outbox, m.isReply = false

/-- The two have not spoken yet, or have lost each other, and can find each other again. What one of
them still has of an old session the other has not. A reply that waits in the reader's cache for the
panel's next number is none that would send the panel the wrong way. -/
structure Enrolling (channel : Bus.SecureChannel) (cfg : Pd.Settings) (l : Line) : Prop
    extends l.Met channel cfg where
  offered : l.panel.state ≠ .online
  forgotten : l.panel.secureEstablished = true → l.stale = false ∧
    (∀ s, l.panel.session = some s → s.suite = channel.suite) ∧
      (l.panel.state = .secure → l.device.secured = false)
  script : ∀ step, l.panel.pending = some step → ∃ s t, l.panel.session = some s ∧
    l.device.session = some t ∧ s.Mated t ∧ t.state = .cryptogram ∧
      step = ⟨{ code := Code.sCrypt, data := s.serverCryptogram.toList }, { type := Secure.scs13 }⟩
  cached : l.stale = true → l.device.cached.address = l.panel.address →
    Innocent l.device.cached.code l.device.cached.data

/-- The Secure Channel is up: the panel says so, and both ends hold the session. -/
def Up (l : Line) : Prop := ∃ s t, l.Joined s t ∧ t.rmac = s.rmac

/-- The channel is up and in use, and the next command is new to the reader. -/
structure Live (channel : Bus.SecureChannel) (cfg : Pd.Settings) (l : Line) : Prop
    extends l.Met channel cfg where
  up : l.Up
  fresh : l.stale = false
  suites : ∀ s, l.panel.session = some s → s.suite = channel.suite

/-- How many exchanges without loss are left when no old reply is in the way. A session that only the
reader holds costs one. -/
def stage (l : Line) : ℕ :=
  match l.panel.state with
  | .offline => if l.device.secured then 5 else 4
  | .identifying => if l.device.secured then 4 else 3
  | _ => if l.panel.pending.isSome then 1 else 2

/-- How many are left at most. -/
def away (l : Line) : ℕ :=
  if l.panel.secureEstablished then 8
  else if l.stale then (if l.panel.state = .offline then 6 else 7)
  else l.stage

/-- What the handshake asks of the cipher suite and of the reader's settings. -/
structure Agreeable (channel : Bus.SecureChannel) (cfg : Pd.Settings) : Prop where
  defaults : cfg.Defaults
  lenient : cfg.strict = false
  suite : cfg.suite = some channel.suite
  derives : channel.suite.Derives
  total : channel.suite.Total

variable {f r : Frame} {p : Bus.Device} {m : Message} {block : Option SecurityBlock} {l' : Line}
  {b : Bus} {channel : Bus.SecureChannel} {cfg : Pd.Settings} {op : LineOp}

section Exchange

variable {b : Bus} {channel : Bus.SecureChannel} {cfg : Pd.Settings} {l : Line} {x : Exchange}

/-- The next number is one. -/
theorem Met.isNumber (h : l.Met channel cfg) : IsNumber l.panel.number :=
  Bus.Device.isNumber_number h.honest.number

/-- The address is one. -/
theorem Met.valid (h : l.Met channel cfg) : Address.valid l.panel.address = true :=
  h.address ▸ h.honest.device.valid

/-- A panel without an established session is not secure. -/
theorem Enrolling.unsecured (h : l.Enrolling channel cfg) (hest : l.panel.secureEstablished = false) :
    l.panel.state ≠ .secure := by
  intro hst
  obtain ⟨s, hs, hyes⟩ := h.honest.panel.armed.secure hst
  simp [Bus.Device.secureEstablished, hs, hyes] at hest

/-- The device's settings have the panel's cipher suite. -/
theorem Met.suite (ha : Agreeable channel cfg) (h : l.Met channel cfg) (now : ℤ) :
    (l.device.noticed now).cfg.suite = some channel.suite := by
  rw [← ha.suite, ← h.honest.device.configured]
  rfl

/-- A command to the device is heard. -/
theorem Met.heard (ha : Agreeable channel cfg) (h : l.Met channel cfg)
    (ht : Bus.transact b l.panel x.rndA = (.ok f, p)) (hcommand : f.isReply = false) :
    l.device.heard f = true := by
  have hput := Bus.transact_put h.isNumber ht
  simp only [Pd.Device.heard, hcommand, hput.check, Bool.not_false, Bool.and_self, Bool.true_and,
    h.honest.device.addressed ha.defaults]
  exact hput.address.trans h.address

/-- Whether the device says its old reply again. -/
theorem Met.replays (ha : Agreeable channel cfg) (h : l.Met channel cfg)
    (ht : Bus.transact b l.panel x.rndA = (.ok f, p)) : l.device.replays x.now f = l.stale := by
  have hput := Bus.transact_put h.isNumber ht
  simp only [Pd.Device.replays, h.honest.device.observe ha.defaults, hput.number, stale,
    Pd.Device.noticed, h.isNumber.ne_zero, ne_eq, not_false_eq_true, decide_true, Bool.true_and]
  rw [Bool.beq_comm]

/-- A reply that is new to both sides. -/
theorem carry_unsealed (ha : Agreeable channel cfg) (h : l.Met channel cfg)
    (hfresh : l.stale = false) (hx : x.fate = .delivered)
    (ht : Bus.transact b l.panel x.rndA = (.ok f, p)) (hcommand : f.isReply = false)
    {s : Option Session} (hanswer : (l.device.noticed x.now).answer f x.rndB =
      (m, block, { l.device.noticed x.now with session := s }))
    (hblock : ∀ sb, block = some sb → Secure.BlockType.handshake sb.type = true) :
    ∃ r, Pd.Device.Replied l.device m l.panel.number block r ∧ r.data = m.data ∧
      { l with panel := p }.carry x f = (some r, { l with
        panel := p, device := l.device.spoke x.now s r l.panel.number }) := by
  have hput := Bus.transact_put h.isNumber ht
  have hnew : l.device.cachedValid = true → l.device.cachedSeq ≠ f.control.sequence := by
    intro hv heq
    rw [hput.number] at heq
    simp [stale, hv, heq] at hfresh
  obtain ⟨r, hhandle, hr, hdata⟩ := Pd.Device.handle_unsealed h.honest.device ha.defaults ha.lenient
    (h.heard ha ht hcommand) (hput.number ▸ h.isNumber) hnew hanswer hblock
  rw [hput.number] at hhandle hr
  refine ⟨r, hr, hdata, ?_⟩
  have hserve : { l with panel := p }.serve x f =
      (some r, { l with panel := p, device := l.device.spoke x.now s r l.panel.number }) := by
    simp [serve, h.serving, hhandle]
  rw [carry_of_serve (by rw [hx]; decide) hserve]
  simp [Exchange.returns, hx]

/-- An old reply. -/
theorem carry_stale (ha : Agreeable channel cfg) (h : l.Met channel cfg) (hstale : l.stale = true)
    (hx : x.fate = .delivered) (ht : Bus.transact b l.panel x.rndA = (.ok f, p))
    (hcommand : f.isReply = false) :
    { l with panel := p }.carry x f =
      (some l.device.cached, { l with panel := p, device := l.device.noticed x.now }) := by
  have hrep := (h.replays ha ht).trans hstale
  have hheard := h.heard ha ht hcommand
  have hobs := h.honest.device.observe ha.defaults x.now
  have hserve : { l with panel := p }.serve x f =
      (some l.device.cached, { l with panel := p, device := l.device.noticed x.now }) := by
    obtain ⟨hno, -⟩ | ⟨-, -, hh⟩ | ⟨-, hno, -⟩ := Pd.Device.handle_cases l.device x.now x.rndB f
    · rw [hheard] at hno
      cases hno
    · rw [hobs] at hh
      simp [serve, h.serving, hh, Pd.Device.noticed]
    · rw [hrep] at hno
      cases hno
  rw [carry_of_serve (by rw [hx]; decide) hserve]
  simp [Exchange.returns, hx]

/-- The number after a reply is not the one it is filed under. -/
theorem stale_after {l : Line} {n : UInt8} (hn : IsNumber n) (hseq : l.panel.seq = n)
    (hrep : l.panel.repeatSequence = false) (hcached : l.device.cachedSeq = n) : l.stale = false := by
  have hne : Bus.Device.rotate n ≠ n := Bus.rotate_iterate_ne hn (g := 1) (by decide) (by decide)
  simp [stale, Bus.Device.number, hseq, hrep, hcached, hne.symm]

/-- What the panel asks on its way. -/
theorem Enrolling.asked (h : l.Enrolling channel cfg) (hest : l.panel.secureEstablished = false)
    (b : Bus) (rndA : Rnd) :
    ∃ f s, Bus.transact b l.panel rndA = (.ok f, { l.panel with
        session := s, pending := none, seq := l.panel.number, repeatSequence := false }) ∧
      f.isReply = false ∧ s.any Session.established = false := by
  have hpanel := h.honest.panel
  have hclear : ∀ c, (l.panel.state = .offline ∧ c = Code.id) ∨
      (l.panel.state = .identifying ∧ c = Code.cap) → ∃ f s,
      Bus.transact b l.panel rndA = (.ok f, { l.panel with
        session := s, pending := none, seq := l.panel.number, repeatSequence := false }) ∧
      f.isReply = false ∧ s.any Session.established = false := by
    intro c hc
    have hpending : l.panel.pending = none :=
      hpanel.pending_none (by obtain ⟨hst, -⟩ | ⟨hst, -⟩ := hc <;> rw [hst] <;> decide)
    have hask := Bus.transact_enrolling b h.valid hc rndA
    rw [← hpending]
    exact ⟨_, _, hask, rfl, hest⟩
  cases hst : l.panel.state with
  | offline => exact hclear _ (.inl ⟨hst, rfl⟩)
  | identifying => exact hclear _ (.inr ⟨hst, rfl⟩)
  | online => exact absurd hst h.offered
  | secureHandshake =>
    cases hp : l.panel.pending with
    | none =>
      obtain ⟨s, hs, hrole, -, -⟩ := hpanel.handshake hst
      obtain ⟨f, ht, hf, -⟩ := Bus.transact_challenges b h.valid hst hp hs hrole rndA
      rw [← hp]
      exact ⟨f, _, ht, hf, rfl⟩
    | some step =>
      obtain ⟨s, t, -, -, -, -, rfl⟩ := h.script step hp
      obtain ⟨f, ht, hf, -⟩ := Bus.transact_proves b h.valid hst hp rndA
      exact ⟨f, _, ht, hf, hest⟩
  | secure => exact absurd hst (h.unsecured hest)

/-- What an exchange of enrolment leaves alone: the commands that wait, the panel's keys, and all of
the device but its session and its cache. -/
structure Aside (l l' : Line) : Prop where
  outbox : l'.panel.outbox = l.panel.outbox
  installedKey : l'.panel.installedKey = l.panel.installedKey
  device : l.device.Akin l'.device

/-- What an exchange that leaves all this alone leaves of the two. -/
theorem Aside.met (ha : l.Aside l') (h : l.Met channel cfg) (hhonest : l'.Honest channel cfg)
    (haddress : l'.panel.address = l.panel.address) (hserving : l'.serving = true)
    (hidle : l'.panel.inflight = none) : l'.Met channel cfg := by
  obtain ⟨seen, last, s, c, n, v, hdevice⟩ := ha.device
  have hbase : l'.panel.baseKey channel.keys = l.panel.baseKey channel.keys := by
    simp only [Bus.Device.baseKey, ha.installedKey, haddress]
  refine { honest := hhonest, key := ?_, address := ?_, serving := hserving, idle := hidle
           commands := ?_ }
  · rw [SameKey, hbase, hdevice]
    exact h.key
  · rw [haddress, hdevice]
    exact h.address
  · rw [ha.outbox]
    exact h.commands

/-- The old reply that waits for the panel's number carries no report. -/
def Quiet (l : Line) : Prop := l.stale = true → l.device.cached.event = none

/-- Without a stale reply the line is quiet. -/
theorem quiet_fresh {l : Line} (h : l.stale = false) : l.Quiet :=
  fun hyes => absurd (h.symm.trans hyes) (by decide)

/-- What one exchange comes to: one exchange nearer. -/
structure Nearer (channel : Bus.SecureChannel) (cfg : Pd.Settings) (l : Line)
    (res : Option Bus.Event × Line) : Prop where
  progress : res.2.Live channel cfg ∨ (res.2.Enrolling channel cfg ∧ res.2.away < l.away)
  aside : l.Aside res.2
  quiet : l.Quiet → res.2.Quiet
  silent : l.Quiet → ∀ e ∈ res.1, e.isReport = false

/-- Without one the distance is the stage. -/
theorem away_fresh {l : Line} (hest : l.panel.secureEstablished = false) (hfresh : l.stale = false) :
    l.away = l.stage := by
  simp [away, hest, hfresh]

/-- The stage of a device that is offline. -/
theorem stage_offline {l : Line} (h : l.panel.state = .offline) :
    l.stage = if l.device.secured then 5 else 4 := by
  simp [stage, h]

/-- Of one that was identified. -/
theorem stage_identifying {l : Line} (h : l.panel.state = .identifying) :
    l.stage = if l.device.secured then 4 else 3 := by
  simp [stage, h]

/-- Of one in its handshake. -/
theorem stage_handshake {l : Line} (h : l.panel.state = .secureHandshake) :
    l.stage = if l.panel.pending.isSome then 1 else 2 := by
  simp [stage, h]

/-- No stage is more than five away. -/
theorem stage_le (l : Line) : l.stage ≤ 5 := by
  unfold stage
  split <;> split <;> decide

/-- An offline device is at most six away. -/
theorem away_offline {l : Line} (hest : l.panel.secureEstablished = false)
    (hst : l.panel.state = .offline) : l.away ≤ 6 := by
  have := l.stage_le
  simp only [away, hest, hst, Bool.false_eq_true, if_false, if_true]
  split
  · exact le_rfl
  · omega

/-- A reader without a stale reply repeats nothing. -/
theorem repeats_fresh (ha : Agreeable channel cfg) (h : l.Met channel cfg)
    (hfresh : l.stale = false) : l.repeats b x = false := by
  unfold repeats asks
  split
  · rfl
  · rename_i f p ht
    exact (h.replays ha ht).trans hfresh

/-- And misleads nobody. -/
theorem misleads_fresh (ha : Agreeable channel cfg) (h : l.Met channel cfg)
    (hfresh : l.stale = false) (hst : l.panel.state ≠ .secure) : l.misleads b x = false := by
  simp [misleads, repeats_fresh ha h hfresh, hst]

/-- What the bus hands on of a reply is what it opened. -/
theorem opened_some (ht : Bus.transact b l.panel x.rndA = (.ok f, p))
    (hcarry : { l with panel := p }.carry x f = (some r, l')) (hm : l.opened b x = some m) :
    r.address = p.address ∧ ∃ g e,
      Bus.openIfEstablished { p with misses := 0 } r = .ok (g, e) ∧ m = Message.decode g := by
  simp only [opened, asks_eq ht, processed_eq ht, hcarry, Option.bind_some, Option.filter_some] at hm
  split at hm
  · rename_i hreply
    simp only [Bool.and_eq_true, beq_iff_eq] at hreply
    simp only [Option.bind_some] at hm
    split at hm
    · cases hm
    · split at hm
      · cases hm
      · rename_i g e hopen
        exact ⟨hreply.2, g, e, hopen, (Option.some.inj hm).symm⟩
  · cases hm

/-- The panel's turn with a reply that is of no use to it. -/
theorem await_stays (hb : b.secure = some channel) (hp : l.panel.Underway)
    (hdeclined : l.panel.secureDeclined = false)
    (hkey : ∃ key, l.panel.baseKey channel.keys = some key) (hr : r.isReply = true)
    (hz : r.control.sequence ≠ 0) (hcode : r.address = l.panel.address → Innocent r.code r.data) :
    ∃ q, (l.await b x (some r)).2 = { l with panel := q } ∧
      (l.panel.Stays q ∨ (l.panel.state ≠ .offline ∧ ∃ n, q = { l.panel with misses := n }.resync)) := by
  by_cases haddr : r.address = l.panel.address
  · have hreply := Bus.reply_unestablished b hp.unestablished hr haddr hz
    rw [Bus.Device.delivered_idle hp.idle] at hreply
    have hunder : l.panel.answered.Underway := ⟨hp.idle, hp.offered, hp.unestablished, hp.pending⟩
    have hstays := Bus.dispatch_stays (m := Message.decode r) hb hunder rfl rfl hdeclined hkey
      (hcode haddr)
    have hback : ∀ {q : Bus.Device}, l.panel.answered.Stays q → l.panel.Stays q :=
      fun hq => ⟨hq.underway, hq.address, hq.installedKey, hq.outbox, hq.seq, hq.repeatSequence⟩
    have hsame := fun err => Bus.dispatch_error (b := b) (d := l.panel.answered)
      (m := Message.decode r) (e := err)
    cases hres : Bus.dispatch b l.panel.answered (Message.decode r) with
    | mk res q =>
      rw [hres] at hreply hstays hsame
      cases res with
      | ok e => exact ⟨q, by rw [await_ok hreply], .inl (hback hstays)⟩
      | error err =>
        rw [await_error hreply]
        split
        · -- the count of misses starts again with a reply, so this is the first
          obtain rfl : q = l.panel.answered := hsame err rfl
          obtain hq | ⟨-, hmisses, -⟩ := Bus.timeout_stays hunder
          · exact ⟨_, rfl, .inl (hback hq)⟩
          · exact absurd hmisses (by simp [Bus.Device.answered])
        · exact ⟨q, rfl, .inl (hback hstays)⟩
  · have hreply : Bus.reply b l.panel r = (.error .wrongAddress, l.panel) := by
      simp [Bus.reply, hr, haddr]
    rw [await_error hreply]
    split
    · obtain hq | ⟨hst, -, hq⟩ := Bus.timeout_stays hp
      · exact ⟨_, rfl, .inl hq⟩
      · exact ⟨_, rfl, .inr ⟨hst, _, hq⟩⟩
    · exact ⟨l.panel, rfl, .inl hp.stays⟩

/-- A reply without a report returns none. -/
theorem await_quiet (hest : l.panel.secureEstablished = false) (hr : r.isReply = true)
    (hz : r.control.sequence ≠ 0) (hevent : r.event = none) :
    ∀ e ∈ (l.await b x (some r)).1, e.isReport = false := by
  have hsilence : ∀ l' : Line, ∀ e ∈ l'.silence.1, e.isReport = false := by
    rintro l' _ ⟨⟩
    exact Bus.timeout_silent _
  by_cases haddr : r.address = l.panel.address
  · have hreply := Bus.reply_unestablished b hest hr haddr hz
    have hsilent := fun e => Bus.dispatch_silent b { l.panel with misses := 0 }.delivered
      (m := Message.decode r) hevent (e := e)
    cases hres : Bus.dispatch b { l.panel with misses := 0 }.delivered (Message.decode r) with
    | mk res q =>
      rw [hres] at hreply hsilent
      cases res with
      | ok ev =>
        rw [await_ok hreply]
        rintro _ ⟨⟩
        exact hsilent ev rfl
      | error err =>
        rw [await_error hreply]
        split
        · exact hsilence _
        · simp
  · have hreply : Bus.reply b l.panel r = (.error .wrongAddress, l.panel) := by
      simp [Bus.reply, hr, haddr]
    rw [await_error hreply]
    split
    · exact hsilence _
    · simp

/-- An old reply that waits for the panel's number does not mislead it. -/
theorem misleads_stale (h : l.Enrolling channel cfg) (hstale : l.stale = true)
    (ht : Bus.transact b l.panel x.rndA = (.ok f, p))
    (hcarry : { l with panel := p }.carry x f = (some l.device.cached, l'))
    (hest : p.secureEstablished = false) (haddress : p.address = l.panel.address) :
    l.misleads b x = false := by
  cases hopened : l.opened b x with
  | none => simp [misleads, hopened]
  | some m =>
    obtain ⟨haddr, g, e, hopen, rfl⟩ := opened_some ht hcarry hopened
    obtain ⟨rfl, -⟩ := Bus.openIfEstablished_unestablished (d := { p with misses := 0 }) hest hopen
    obtain ⟨-, hcrypt, hrmac, hreport⟩ := h.cached hstale (haddr.trans haddress)
    have hcode : (Message.decode l.device.cached).code = l.device.cached.code := rfl
    have hdata : (Message.decode l.device.cached).data = l.device.cached.data := rfl
    simp only [misleads, hopened, Option.any_some, hcode, hdata, beq_eq_false_iff_ne.mpr hcrypt,
      beq_eq_false_iff_ne.mpr hrmac, Bool.or_self, Bool.and_false, Bool.false_or]
    by_cases hpd : l.device.cached.code = Code.pdCap
    · cases hparse : parseCapabilities l.device.cached.data with
      | none => simp
      | some report => simp [hreport hpd report hparse]
    · simp [hpd]

/-- What the panel asks over a session that the reader does not hold, and what it is told. -/
structure Rebuffed (b : Bus) (l : Line) (x : Exchange) (f : Frame) (p : Bus.Device) (m : Message)
    (s : Option Session) : Prop where
  asked : Bus.transact b l.panel x.rndA = (.ok f, p)
  command : f.isReply = false
  established : p.secureEstablished = true
  address : p.address = l.panel.address
  installedKey : p.installedKey = l.panel.installedKey
  answer : (l.device.noticed x.now).answer f x.rndB =
    (m, none, { l.device.noticed x.now with session := s })
  innocent : Innocent m.code m.data
  event : m.event = none

/-- A panel whose session the reader lost is rebuffed. -/
theorem Enrolling.rebuffed (ha : Agreeable channel cfg) (h : l.Enrolling channel cfg)
    (hest : l.panel.secureEstablished = true) (b : Bus) (x : Exchange) :
    ∃ f p m s, Rebuffed b l x f p m s := by
  have hadvertises : (l.device.noticed x.now).Advertises :=
    ⟨h.honest.advertises.report, h.honest.advertises.configured, h.honest.advertises.suite⟩
  -- a question of enrolment
  have hclear : ∀ c, (l.panel.state = .offline ∧ c = Code.id) ∨
      (l.panel.state = .identifying ∧ c = Code.cap) → ∃ f p m s, Rebuffed b l x f p m s := by
    intro c hc
    have hanswer := Pd.Device.answer_enrolling (d := l.device.noticed x.now)
      (f := Bus.plainFrame b l.panel { code := c, data := [0x00] }) rfl (hc.imp And.right And.right) x.rndB
    cases hsec : (l.device.noticed x.now).secured with
    | true =>
      rw [hsec, if_pos rfl] at hanswer
      exact ⟨_, _, _, _, Bus.transact_enrolling b h.valid hc x.rndA, rfl, hest, rfl, rfl,
        hanswer, innocent_of_code (.inl rfl) _, rfl⟩
    | false =>
      rw [hsec, if_neg (by decide)] at hanswer
      exact ⟨_, _, _, _, Bus.transact_enrolling b h.valid hc x.rndA, rfl, hest, rfl, rfl,
        hanswer, Pd.Device.introduction_innocent hadvertises _, Pd.Device.introduction_event _ _⟩
  cases hst : l.panel.state with
  | offline => exact hclear _ (.inl ⟨hst, rfl⟩)
  | identifying => exact hclear _ (.inr ⟨hst, rfl⟩)
  | online => exact absurd hst h.offered
  | secureHandshake =>
    exact absurd (h.honest.panel.unestablished hst) (by rw [hest]; decide)
  | secure =>
    obtain ⟨-, hsuite, hunsecured⟩ := h.forgotten hest
    obtain ⟨s, hs, hyes⟩ := h.honest.panel.armed.secure hst
    obtain ⟨f, mac, ht, hsealed, -, hf⟩ := Bus.transact_live (b := b) h.valid hst hs hyes
      (hsuite s hs ▸ ha.total) x.rndA
    obtain ⟨o, i, w, hd⟩ := l.panel.uttered_eq
    have hanswer := Pd.Device.answer_unsecured (d := l.device.noticed x.now) (h.suite ha x.now)
      hsealed.security (Bus.blockForCommand_type _) (hunsecured hst) x.rndB
    exact ⟨f, _, _, l.device.session, ht, hf.trans (Bus.Device.utterance_isReply h.commands), hyes,
      Bus.Device.asking_address _ _, by rw [Bus.Device.asking, hd], hanswer,
      innocent_of_code (.inl rfl) _, rfl⟩

/-- What a reply that the panel takes comes to. -/
theorem exchange_taken (hn : IsNumber l.panel.number)
    (haddress : l.panel.address = l.device.address) {q : Bus.Device} {e : Pd.Device}
    {ev : Bus.Event} (ht : Bus.transact b l.panel x.rndA = (.ok f, p))
    (hest : p.secureEstablished = false) (hidle : p.inflight = none)
    (haddr : p.address = l.panel.address) (hr : Pd.Device.Replied l.device m l.panel.number block r)
    (hdata : r.data = m.data)
    (hcarry : { l with panel := p }.carry x f = (some r, { l with panel := p, device := e }))
    (hdispatch : Bus.dispatch b p.answered { code := m.code, isReply := true, data := m.data } =
      (.ok ev, q)) : l.exchange b x = (some ev, { l with panel := q, device := e }) := by
  have hz : r.control.sequence ≠ 0 := by
    rw [hr.number hn.le]
    exact hn.ne_zero
  have hreply := Bus.reply_unestablished b hest hr.isReply
    (by rw [hr.address, haddr, haddress]) hz
  have hmessage : Message.decode r = { code := m.code, isReply := true, data := m.data } := by
    simp [Message.decode, hr.code, hr.isReply, hdata]
  rw [Bus.Device.delivered_idle hidle, hmessage, hdispatch] at hreply
  rw [exchange_of_carry ht hcarry, await_ok hreply]

section Nearer

variable (hb : b.secure = some channel) (ha : Agreeable channel cfg) (h : l.Enrolling channel cfg)
include hb ha h

/-- What is left of being on the way after an exchange. -/
theorem Enrolling.next (hno : l.misleads b x = false) {ev : Option Bus.Event} {l' : Line}
    (hex : l.exchange b x = (ev, l')) (hserving : l'.serving = true)
    (haside : l.Aside l') (haddress : l'.panel.address = l.panel.address)
    (hidle : l'.panel.inflight = none) (hoffered : l'.panel.state ≠ .online)
    (hest : l'.panel.secureEstablished = false)
    (hscript : ∀ step, l'.panel.pending = some step → ∃ s t, l'.panel.session = some s ∧
      l'.device.session = some t ∧ s.Mated t ∧ t.state = .cryptogram ∧
        step = ⟨{ code := Code.sCrypt, data := s.serverCryptogram.toList }, { type := Secure.scs13 }⟩)
    (hcached : l'.stale = true → l'.device.cached.address = l'.panel.address →
      Innocent l'.device.cached.code l'.device.cached.data) :
    l'.Enrolling channel cfg := by
  have hhonest := (honest_exchange hb ha.suite ha.derives.server h.honest h.key hno).2
  rw [hex] at hhonest
  exact { haside.met h.toMet hhonest haddress hserving hidle with
          offered := hoffered, script := hscript, cached := hcached
          forgotten := fun hyes => absurd (hest.symm.trans hyes) (by decide) }

/-- A panel that has taken a reply under its number is still on its way, and no old reply is behind
it. -/
theorem nearer_of_taken (hno : l.misleads b x = false) {ev : Option Bus.Event} {q : Bus.Device}
    {d : Pd.Device}
    (hex : l.exchange b x = (ev, { l with panel := q, device := d })) (hd : l.device.Akin d)
    (hnumber : d.cachedSeq = l.panel.number) (hseq : q.seq = l.panel.number)
    (hrepeat : q.repeatSequence = false) (houtbox : q.outbox = l.panel.outbox)
    (hkey : q.installedKey = l.panel.installedKey) (haddress : q.address = l.panel.address)
    (hidle : q.inflight = none) (hoffered : q.state ≠ .online) (hest : q.secureEstablished = false)
    (hscript : ∀ step, q.pending = some step → ∃ s t, q.session = some s ∧ d.session = some t ∧
      s.Mated t ∧ t.state = .cryptogram ∧
        step = ⟨{ code := Code.sCrypt, data := s.serverCryptogram.toList }, { type := Secure.scs13 }⟩)
    (haway : { l with panel := q, device := d }.stage < l.away)
    (hsilent : l.Quiet → ∀ e ∈ ev, e.isReport = false) : Nearer channel cfg l (l.exchange b x) := by
  have hfresh : { l with panel := q, device := d }.stale = false :=
    stale_after h.isNumber hseq hrepeat hnumber
  have haside : l.Aside { l with panel := q, device := d } := ⟨houtbox, hkey, hd⟩
  rw [← away_fresh hest hfresh] at haway
  rw [hex]
  refine ⟨.inr ⟨h.next hb ha hno hex h.serving haside haddress hidle hoffered hest hscript ?_, haway⟩,
    haside, fun _ => quiet_fresh hfresh, hsilent⟩
  intro hyes
  exact absurd (hfresh.symm.trans hyes) (by decide)

variable (hx : x.fate = .delivered)
include hx

/-- **An old reply** takes the panel no farther away, and there is no other behind it. -/
theorem nearer_stale (hest : l.panel.secureEstablished = false) (hstale : l.stale = true) :
    Nearer channel cfg l (l.exchange b x) := by
  obtain ⟨f, s, ht, hf, hs⟩ := h.asked hest b x.rndA
  have hcarry := carry_stale ha h.toMet hstale hx ht hf
  have hno := misleads_stale h hstale ht hcarry hs rfl
  have hvalid : l.device.cachedValid = true ∧ l.device.cachedSeq = l.panel.number := by
    simpa [stale] using hstale
  obtain ⟨-, hreply, hseq, -⟩ := h.honest.device.cached hvalid.1
  have hunder : ({ l.panel with session := s, pending := none, seq := l.panel.number,
                                repeatSequence := false } : Bus.Device).Underway :=
    ⟨h.idle, ⟨h.offered, h.unsecured hest⟩, hs, rfl⟩
  obtain ⟨q, hq, hcase⟩ := await_stays (b := b) (x := x) (l := { l with
      panel := { l.panel with session := s, pending := none, seq := l.panel.number,
                              repeatSequence := false }
      device := l.device.noticed x.now }) hb hunder h.honest.panel.undeclined
    ⟨_, h.key⟩ hreply (by rw [hseq, hvalid.2]; exact h.isNumber.ne_zero) (h.cached hstale)
  have hex : l.exchange b x = ((l.exchange b x).1,
      { l with panel := q, device := l.device.noticed x.now }) := by
    refine Prod.ext rfl ?_
    rw [exchange_of_carry ht hcarry, hq]
  have hsilent : l.Quiet → ∀ e ∈ (l.exchange b x).1, e.isReport = false := by
    intro hquiet
    rw [exchange_of_carry ht hcarry]
    refine await_quiet ?_ hreply ?_ (hquiet hstale)
    · exact hs
    · rw [hseq, hvalid.2]
      exact h.isNumber.ne_zero
  obtain hq | ⟨hst, n, rfl⟩ := hcase
  · refine nearer_of_taken hb ha h hno hex (Pd.Device.akin_noticed l.device x.now) hvalid.2 hq.seq
      hq.repeatSequence hq.outbox hq.installedKey hq.address hq.underway.idle hq.underway.offered.1
      hq.underway.unestablished (by simp [hq.underway.pending]) (lt_of_le_of_lt (stage_le _) ?_) hsilent
    simp only [away, hest, hstale, Bool.false_eq_true, if_false, if_true]
    split <;> decide
  · rw [Bus.Device.resync_eq] at hex
    rw [hex]
    have haside : l.Aside { l with
        panel := { l.panel with
          session := none, pending := none, misses := n, seq := 0, repeatSequence := false
          state := .offline, inflight := none, outbox := l.panel.inflight.toList ++ l.panel.outbox }
        device := l.device.noticed x.now } :=
      ⟨by simp [h.idle], rfl, Pd.Device.akin_noticed l.device x.now⟩
    refine ⟨.inr ⟨h.next hb ha hno hex h.serving haside rfl rfl (by simp) rfl (by simp)
      fun _ => h.cached hstale, ?_⟩, haside, fun hquiet _ => hquiet hstale, hsilent⟩
    · refine lt_of_le_of_lt (away_offline rfl rfl) ?_
      have hst' : l.panel.state ≠ .offline := hst
      simp [away, hest, hstale, hst']

/-- **A session that only the panel holds** is given up at the first answer. -/
theorem nearer_established (hest : l.panel.secureEstablished = true) :
    Nearer channel cfg l (l.exchange b x) := by
  have hfresh := (h.forgotten hest).1
  obtain ⟨f, p, m, s, ht, hf, hpest, hpaddr, hpkey, hanswer, hinnocent, hevent⟩ :=
    h.rebuffed ha hest b x
  obtain ⟨r, hr, hdata, hcarry⟩ := carry_unsealed ha h.toMet hfresh hx ht hf hanswer (by simp)
  have hz : r.control.sequence ≠ 0 := by
    rw [hr.number h.isNumber.le]
    exact h.isNumber.ne_zero
  have haddr : r.address = p.address := by rw [hr.address, hpaddr, h.address]
  have hreply := Bus.reply_in_clear b hpest hr.isReply haddr hz hr.security
  have hno : l.misleads b x = false := by
    cases hopened : l.opened b x with
    | none => simp [misleads, hopened]
    | some m =>
      -- an established session opens no reply in the clear
      obtain ⟨-, g, e, hopen, -⟩ := opened_some ht hcarry hopened
      have hclosed : p.secureEstablished = false := (Bus.openIfEstablished_clear hr.security hopen).1
      exact absurd (hpest.symm.trans hclosed) (by decide)
  have hex : l.exchange b x = (some .secureFailed, { l with
      panel := { p with misses := 0 }.resync
      device := l.device.spoke x.now s r l.panel.number }) := by
    rw [exchange_of_carry ht hcarry, await_ok hreply]
  rw [hex]
  have hqueue : p.inflight.toList ++ p.outbox = l.panel.outbox := by
    have hsame := Bus.transact_outstanding b l.panel x.rndA
    simpa [ht, h.idle, Bus.Device.outstanding] using hsame.symm
  have haside : l.Aside { l with
      panel := { p with misses := 0 }.resync, device := l.device.spoke x.now s r l.panel.number } := by
    refine ⟨?_, ?_, Pd.Device.akin_spoke _ _ _ _ _⟩
    · rw [Bus.Device.resync_eq]
      exact hqueue
    · rw [Bus.Device.resync_eq]
      exact hpkey
  rw [Bus.Device.resync_eq] at hex haside ⊢
  refine ⟨.inr ⟨h.next hb ha hno hex h.serving haside hpaddr rfl (by simp) rfl (by simp) ?_, ?_⟩,
    haside, fun _ _ => ?_, ?_⟩
  · intro _ _
    show Innocent r.code r.data
    rw [hr.code, hdata]
    exact hinnocent
  · refine lt_of_le_of_lt (away_offline rfl rfl) ?_
    simp [away, hest]
  · show r.event = none
    rw [← hevent, Frame.event, Message.event, Message.event, Message.decode, hr.code, hdata]
  · rintro - _ ⟨⟩
    rfl

/-- **A question of enrolment** is refused over a session that only the reader holds, which ends it,
and takes the panel one state on otherwise. -/
theorem nearer_question (hest : l.panel.secureEstablished = false) (hfresh : l.stale = false)
    (hst : l.panel.state = .offline ∨ l.panel.state = .identifying) :
    Nearer channel cfg l (l.exchange b x) := by
  have hsecure := h.unsecured hest
  have hno := misleads_fresh (b := b) (x := x) ha h.toMet hfresh hsecure
  have hpending : l.panel.pending = none :=
    h.honest.panel.pending_none (by obtain hst | hst := hst <;> rw [hst] <;> decide)
  obtain ⟨c, hc⟩ : ∃ c, (l.panel.state = .offline ∧ c = Code.id) ∨
      (l.panel.state = .identifying ∧ c = Code.cap) := by
    obtain hst | hst := hst
    · exact ⟨_, .inl ⟨hst, rfl⟩⟩
    · exact ⟨_, .inr ⟨hst, rfl⟩⟩
  have ht := Bus.transact_enrolling b h.valid hc x.rndA
  have hanswer := Pd.Device.answer_enrolling (d := l.device.noticed x.now)
    (f := Bus.plainFrame b l.panel { code := c, data := [0x00] }) rfl (hc.imp And.right And.right) x.rndB
  have hunder : ({ l.panel with seq := l.panel.number, repeatSequence := false } :
      Bus.Device).answered.Underway := ⟨h.idle, ⟨h.offered, hsecure⟩, hest, hpending⟩
  have hnear : ∀ {ev : Bus.Event} {q : Bus.Device} {m : Message} {s : Option Session},
      Innocent m.code m.data → (l.device.noticed x.now).answer
        (Bus.plainFrame b l.panel { code := c, data := [0x00] }) x.rndB =
          (m, none, { l.device.noticed x.now with session := s }) →
      Bus.dispatch b ({ l.panel with seq := l.panel.number, repeatSequence := false } :
        Bus.Device).answered { code := m.code, isReply := true, data := m.data } = (.ok ev, q) →
      (∀ l' : Line, l'.panel = q → l'.device.session = s → l'.stage < l.stage) →
      ev.isReport = false → Nearer channel cfg l (l.exchange b x) := by
    intro ev q m s hm hanswer hdispatch hstage hev
    obtain ⟨r, hr, hdata, hcarry⟩ := carry_unsealed ha h.toMet hfresh hx ht rfl hanswer (by simp)
    have hex := exchange_taken h.isNumber h.address ht hest h.idle rfl hr hdata hcarry hdispatch
    have hq := Bus.dispatch_stays (m := { code := m.code, isReply := true, data := m.data }) hb
      hunder rfl rfl h.honest.panel.undeclined ⟨_, h.key⟩ hm
    rw [hdispatch] at hq
    refine nearer_of_taken hb ha h hno hex (Pd.Device.akin_spoke _ _ _ _ _) rfl hq.seq
      hq.repeatSequence hq.outbox hq.installedKey hq.address hq.underway.idle hq.underway.offered.1
      hq.underway.unestablished (fun step hstep => absurd (hq.underway.pending.symm.trans hstep) nofun)
      ?_ (by rintro - _ ⟨⟩; exact hev)
    rw [away_fresh hest hfresh]
    exact hstage _ rfl rfl
  cases hsec : l.device.secured with
  | true =>
    rw [show (l.device.noticed x.now).secured = true from hsec, if_pos rfl] at hanswer
    refine hnear (innocent_of_code (.inl rfl) _) hanswer (Bus.dispatch_nak b _ _) ?_ rfl
    rintro l' hpanel hsession
    have hended : l'.device.secured = false := by simp [Pd.Device.secured, hsession]
    obtain hst | hst := hst
    · rw [stage_offline hst, stage_offline (by rw [hpanel]; exact hst), hsec, hended]
      decide
    · rw [stage_identifying hst, stage_identifying (by rw [hpanel]; exact hst), hsec, hended]
      decide
  | false =>
    rw [show (l.device.noticed x.now).secured = false from hsec, if_neg (by decide)] at hanswer
    have hinnocent : Innocent ((l.device.noticed x.now).introduction c).code
        ((l.device.noticed x.now).introduction c).data := Pd.Device.introduction_innocent
      ⟨h.honest.advertises.report, h.honest.advertises.configured, h.honest.advertises.suite⟩ c
    obtain ⟨hst, rfl⟩ | ⟨hst, rfl⟩ := hc
    · refine hnear hinnocent hanswer (Bus.dispatch_pdID b _ _) ?_ rfl
      rintro l' hpanel hsession
      have hsame : l'.device.secured = false := by
        rw [← hsec]
        simp [Pd.Device.secured, hsession]
      rw [stage_offline hst, stage_identifying (by rw [hpanel]), hsec, hsame]
      decide
    · refine hnear hinnocent hanswer (Bus.dispatch_pdCap
        (d := ({ l.panel with seq := l.panel.number, repeatSequence := false } :
          Bus.Device).answered) hb h.honest.panel.undeclined h.honest.advertises.report h.key) ?_ rfl
      rintro l' hpanel -
      have hnone : l'.panel.pending = none := by
        rw [hpanel]
        exact hpending
      rw [stage_identifying hst, stage_handshake (by rw [hpanel]), hsec, hnone]
      decide

/-- **The challenge** is answered, and the panel takes the answer. -/
theorem nearer_challenge (hfresh : l.stale = false) (hst : l.panel.state = .secureHandshake)
    (hpending : l.panel.pending = none) :
    Nearer channel cfg l (l.exchange b x) := by
  have hest := h.honest.panel.unestablished hst
  have hno := misleads_fresh (b := b) (x := x) ha h.toMet hfresh (h.unsecured hest)
  obtain ⟨s, hs, hrole, hsuite, hbase⟩ := h.honest.panel.handshake hst
  have hkey : l.device.key = s.base := Option.some.inj (h.key.symm.trans hbase)
  obtain ⟨f, ht, hf, hblock, hdata⟩ := Bus.transact_challenges b h.valid hst hpending hs hrole x.rndA
  obtain ⟨out, t, hchallenge, htstate, hanswer⟩ := Pd.Device.answer_challenge
    (d := l.device.noticed x.now) (h.suite ha x.now) ha.derives hblock hdata x.rndB
  obtain ⟨crypt, s', hok, -, -, -, hmated⟩ := Secure.Session.mated_of_challenge
    (t := Secure.newSession channel.suite .pd l.device.key) hrole hsuite.symm hkey
    (hsuite ▸ ha.derives.server) hchallenge
  obtain ⟨-, keys, client, server, -, -, -, -, hcrypt, hs'⟩ := Secure.Session.answerCryptogram_eq hok
  obtain ⟨r, hr, hrdata, hcarry⟩ := carry_unsealed ha h.toMet hfresh hx ht hf hanswer
    (by rintro _ ⟨⟩; decide)
  have hex := exchange_taken h.isNumber h.address ht rfl h.idle rfl hr hrdata hcarry (Bus.dispatch_cCrypt b rfl hok)
  have hcryptogram : crypt = s'.serverCryptogram.toList := by rw [hcrypt, hs']
  refine nearer_of_taken hb ha h hno hex (Pd.Device.akin_spoke _ _ _ _ _) rfl rfl rfl rfl rfl rfl h.idle
    h.offered (by simp [Bus.Device.secureEstablished, Session.established, hmated.state]) ?_ ?_
    (by rintro - _ ⟨⟩; rfl)
  · rintro _ ⟨⟩
    exact ⟨s', t, rfl, rfl, hmated, htstate, by rw [hcryptogram]⟩
  · rw [away_fresh hest hfresh, stage_handshake hst, hpending]
    exact lt_of_eq_of_lt (stage_handshake (by exact hst)) Nat.one_lt_two

/-- **The server's cryptogram** is answered, and both ends hold the session. -/
theorem nearer_cryptogram (hfresh : l.stale = false) (hst : l.panel.state = .secureHandshake)
    {step : Bus.SecureStep} (hpending : l.panel.pending = some step) :
    Nearer channel cfg l (l.exchange b x) := by
  have hest := h.honest.panel.unestablished hst
  have hno := misleads_fresh (b := b) (x := x) ha h.toMet hfresh (h.unsecured hest)
  have hhonest := (honest_exchange hb ha.suite ha.derives.server h.honest h.key hno).2
  obtain ⟨s, t, hs, hsession, hmated, htstate, rfl⟩ := h.script step hpending
  obtain ⟨s₁, hs₁, hrole, hsuite, -⟩ := h.honest.panel.handshake hst
  obtain rfl : s₁ = s := Option.some.inj (hs₁.symm.trans hs)
  have htrole : t.role = .pd := (h.honest.device.session t hsession).1
  obtain ⟨f, ht, hf, hblock, hdata⟩ := Bus.transact_proves b h.valid hst hpending x.rndA
  obtain ⟨out, t', hproof⟩ := Secure.Session.answerServerCryptogram_mated
    (by rw [hmated.suite, hsuite]; exact ha.derives) htrole htstate hmated
  have hcryptogram : f.data = s₁.serverCryptogram.toList := hdata
  rw [← hcryptogram] at hproof
  have hanswer := Pd.Device.answer_cryptogram (d := l.device.noticed x.now) (h.suite ha x.now) hblock
    hsession hproof x.rndB
  obtain ⟨s', hok, hjoined⟩ := Secure.Session.joined_of_cryptogram hrole hmated hproof
  obtain ⟨r, hr, hrdata, hcarry⟩ := carry_unsealed ha h.toMet hfresh hx ht hf hanswer
    (by rintro _ ⟨⟩; decide)
  have hex := exchange_taken h.isNumber h.address ht hest h.idle rfl hr hrdata hcarry (Bus.dispatch_rMacI b hs hok)
  have hsuites : t'.suite = s'.suite ∧ s'.suite = channel.suite := by
    obtain ⟨-, -, -, -, -, -, -, rfl⟩ := Secure.Session.answerServerCryptogram_eq hproof
    obtain ⟨-, -, -, -, rfl⟩ := Secure.Session.completeHandshake_eq hok
    exact ⟨hmated.suite, hsuite⟩
  rw [hex] at hhonest ⊢
  have haside : l.Aside { l with
      panel := { ({ l.panel with
        pending := none, seq := l.panel.number, repeatSequence := false } : Bus.Device).answered with
          session := some s', state := .secure }
      device := l.device.spoke x.now (some t') r l.panel.number } :=
    ⟨rfl, rfl, Pd.Device.akin_spoke _ _ _ _ _⟩
  have hfresh' : { l with
      panel := { ({ l.panel with
        pending := none, seq := l.panel.number, repeatSequence := false } : Bus.Device).answered with
          session := some s', state := .secure }
      device := l.device.spoke x.now (some t') r l.panel.number }.stale = false :=
    stale_after h.isNumber rfl rfl rfl
  refine ⟨.inl { haside.met h.toMet hhonest rfl h.serving h.idle with
    up := ⟨s', t', ⟨rfl, rfl, rfl, ⟨hjoined.panel, hjoined.device, hsuites.1, hjoined.keys⟩⟩, hjoined.rmac⟩
    fresh := hfresh'
    suites := ?_ }, haside, fun _ => quiet_fresh hfresh', by rintro - _ ⟨⟩; rfl⟩
  rintro _ ⟨⟩
  exact hsuites.2

/-- **Every exchange without loss** takes the line one nearer. -/
theorem nearer : Nearer channel cfg l (l.exchange b x) := by
  cases hest : l.panel.secureEstablished with
  | true => exact nearer_established hb ha h hx hest
  | false =>
    cases hstale : l.stale with
    | true => exact nearer_stale hb ha h hx hest hstale
    | false =>
      cases hst : l.panel.state with
      | offline => exact nearer_question hb ha h hx hest hstale (.inl hst)
      | identifying => exact nearer_question hb ha h hx hest hstale (.inr hst)
      | online => exact absurd hst h.offered
      | secureHandshake =>
        cases hpending : l.panel.pending with
        | none => exact nearer_challenge hb ha h hx hstale hst hpending
        | some step => exact nearer_cryptogram hb ha h hx hstale hst hpending
      | secure => exact absurd hst (h.unsecured hest)

end Nearer

end Exchange

/-! ## Runs -/

/-- Nothing is left to do only when the Secure Channel is up. -/
theorem away_pos (l : Line) : 0 < l.away := by
  unfold away stage
  split
  · decide
  · split
    · split <;> decide
    · split <;> split <;> decide

/-- No state is more than eight away. -/
theorem away_le (l : Line) : l.away ≤ 8 := by
  have := l.stage_le
  unfold away
  split
  · exact le_rfl
  · split
    · split <;> decide
    · omega

/-- The operation is an exchange. -/
def talks : LineOp → Bool
  | .exchange _ => true
  | _ => false

/-- No frame is lost, and what is sent is a command. -/
def Calm : LineOp → Prop
  | .exchange x => x.fate = .delivered
  | .send m => m.isReply = false
  | _ => True

/-- What is queued meanwhile, and what the reader has to report, is all such an operation changes. -/
theorem met_queue {l : Line} (hb : b.secure = some channel) (ha : Agreeable channel cfg)
    (h : l.Met channel cfg) (hcalm : Calm op) (hop : talks op = false) :
    (l.step b op).Met channel cfg ∧ ∃ o k i t w p, l.step b op = { l with
      panel := { l.panel with outbox := o, pendingKey := k }
      device := { l.device with inputs := i, tamper := t, powerFailure := w, pending := p } } := by
  have hhonest := (honest_step hb ha.suite ha.derives.server h.honest h.key op
    (by cases op <;> first | rfl | cases hop)).2
  cases op with
  | exchange x => cases hop
  | send m =>
    have hout : ∀ q ∈ (Bus.send b l.panel m).2.outbox, q.isReply = false := by
      unfold Bus.send
      split
      · exact h.commands
      · exact List.forall_mem_append.mpr ⟨h.commands, List.forall_mem_singleton.mpr hcalm⟩
    obtain ⟨o, he⟩ := Bus.send_queue b l.panel m
    simp only [step, he] at hhonest hout ⊢
    exact ⟨{ h with honest := hhonest, commands := hout }, _, _, _, _, _, _, rfl⟩
  | installKey key =>
    have hout : ∀ q ∈ (Bus.installKey l.panel key).2.outbox, q.isReply = false := by
      unfold Bus.installKey
      split
      · exact h.commands
      · exact List.forall_mem_append.mpr ⟨h.commands, List.forall_mem_singleton.mpr rfl⟩
    obtain ⟨o, k, he⟩ := Bus.installKey_queue l.panel key
    simp only [step, he] at hhonest hout ⊢
    exact ⟨{ h with honest := hhonest, commands := hout }, _, _, _, _, _, _, rfl⟩
  | report r =>
    obtain ⟨i, t, w, p, he⟩ := Pd.Device.report_device l.device r
    simp only [step, he] at hhonest ⊢
    exact ⟨{ h with honest := hhonest }, _, _, _, _, _, _, rfl⟩

/-- Queueing and reporting keep enrolment open and no further away. -/
theorem enrolling_queue {l : Line} (hb : b.secure = some channel) (ha : Agreeable channel cfg)
    (h : l.Enrolling channel cfg) (hcalm : Calm op) (hop : talks op = false) :
    (l.step b op).Enrolling channel cfg ∧ (l.step b op).away ≤ l.away := by
  obtain ⟨hmet, o, k, i, t, w, p, he⟩ := met_queue hb ha h.toMet hcalm hop
  rw [he] at hmet ⊢
  exact ⟨{ hmet with
    offered := h.offered, forgotten := h.forgotten, script := h.script, cached := h.cached }, le_rfl⟩

/-- A reader that has just been made, and a panel without a step of a handshake to go on with. -/
theorem enrolling_of_new (ha : Agreeable channel cfg) {a : Address} {d : Pd.Device}
    (hnew : Pd.new a cfg = .ok d) (haes : d.capabilities.secureChannel.1 = true)
    (hp : p.Poised channel) (hnumber : p.repeatSequence = true → IsNumber p.seq)
    (haddress : p.address = a) (hkey : p.baseKey channel.keys = some cfg.key)
    (hidle : p.inflight = none) (hcommands : ∀ m ∈ p.outbox, m.isReply = false)
    (hoffered : p.state ≠ .online) (hsuite : ∀ s, p.session = some s → s.suite = channel.suite)
    (hpending : p.pending = none) : Enrolling channel cfg { panel := p, device := d } := by
  have hwf := Pd.Device.wellFormed_new hnew
  have hfresh : { panel := p, device := d : Line }.stale = false ∧ d.secured = false := by
    obtain ⟨-, -, -, c, rfl, -⟩ := Pd.new_ok hnew
    exact ⟨rfl, rfl⟩
  have hsame : d.address = a ∧ d.key = cfg.key := by
    obtain ⟨-, -, -, c, rfl, -⟩ := Pd.new_ok hnew
    exact ⟨rfl, rfl⟩
  refine { honest := ?_, key := ?_, address := haddress.trans hsame.1.symm, serving := rfl,
           idle := hidle, commands := hcommands, offered := hoffered
           forgotten := fun _ => ⟨hfresh.1, hsuite, fun _ => hfresh.2⟩
           script := fun step hstep => absurd (hpending.symm.trans hstep) (by simp)
           cached := fun hyes => absurd (hfresh.1.symm.trans hyes) (by decide) }
  · exact { panel := hp, number := hnumber, device := hwf, regular := Pd.Device.regular_new hnew
            civil := Pd.Device.civil_of_defaults hwf.configured ha.defaults
            advertises := Pd.Device.advertises_new hnew (by rw [ha.suite]; rfl) haes
            mated := fun hno => absurd hpending hno }
  · rw [SameKey, hsame.2]
    exact hkey

end Line

/-- **A panel and a reader find each other.** Let them hold the same base key and speak of the same
address, in any state in which enrolment is open: one of them new or both, a handshake begun, a session
that only one of them has, an old reply in the reader's cache that misleads nobody. If no frame is lost
from then on, the Secure Channel is up after eight exchanges at most, whatever is queued or reported
between them. -/
theorem enrolment_completes {b : Bus} {channel : Bus.SecureChannel} (hb : b.secure = some channel)
    {cfg : Pd.Settings} (ha : Line.Agreeable channel cfg) {l : Line} (hl : l.Enrolling channel cfg)
    (ops : List LineOp) (hcalm : ∀ op ∈ ops, Line.Calm op)
    (henough : 8 ≤ ops.countP Line.talks) :
    ∃ before after, ops = before ++ after ∧ before.countP Line.talks ≤ l.away ∧
      (before.foldl (Line.step b) l).Up := by
  refine Run.reaches_goal (I := Line.Enrolling channel cfg) (A := Line.Calm) (m := Line.away)
    (fun l _ => l.away_pos) ?_ ?_ hl ops hcalm (l.away_le.trans henough)
  · intro l op h hop hcounts
    cases op with
    | exchange x => exact (Line.nearer hb ha h hop).progress.imp_left fun hlive => hlive.up
    | send m => cases hcounts
    | installKey key => cases hcounts
    | report r => cases hcounts
  · intro l op h hop hcounts
    exact Line.enrolling_queue hb ha h hop hcounts

namespace Line

def plainChannel : Bus.SecureChannel :=
  { suite := Secure.aes128 Secure.plainCipher, keys := fun _ => some Secure.zeroBlock }

def plainSettings : Pd.Settings := { suite := some (Secure.aes128 Secure.plainCipher) }

/-- The standard suite is agreeable. -/
theorem agreeable_plain : Agreeable plainChannel plainSettings where
  defaults := ⟨rfl, rfl, rfl⟩
  lenient := rfl
  suite := rfl
  derives := Secure.aes128_derives _
  total := Secure.aes128_total _

/-- The reader as it comes up. -/
def nonceReader : Pd.Device :=
  Pd.Device.refreshCapabilities { cfg := nonceSettings, address := 1, key := nonceSettings.key }

/-- So is the suite of nonces. -/
theorem agreeable_nonce : Agreeable nonceChannel nonceSettings where
  defaults := ⟨rfl, rfl, rfl⟩
  lenient := rfl
  suite := rfl
  derives := ⟨fun _ _ => ⟨_, rfl⟩, fun _ _ _ => ⟨_, rfl⟩, fun _ _ _ => ⟨_, rfl⟩, fun _ _ => ⟨_, rfl⟩⟩
  total := ⟨fun _ _ _ => ⟨_, rfl⟩, fun _ _ _ => ⟨_, rfl⟩⟩

/-- Eight exchanges, with a command queued and a card presented between them. -/
def calmOps : List LineOp :=
  [nth 1 .delivered, .send { code := Code.oStat }, nth 2 .delivered,
    .report (.cardRead ⟨0, 1, 26, [1, 2, 3, 4]⟩), nth 3 .delivered, nth 4 .delivered, nth 5 .delivered,
    nth 6 .delivered, nth 7 .delivered, nth 8 .delivered]

/-- Nothing is lost in these. -/
theorem calm_ops : ∀ op ∈ calmOps, Calm op := by
  simp [calmOps, Calm, nth]

end Line

/-- A new panel and a new reader. -/
theorem enrolment_completes_new :
    ∃ d, Pd.new 1 Line.plainSettings = .ok d ∧ ∃ before after, Line.calmOps = before ++ after ∧
      before.countP Line.talks ≤ 4 ∧
      (before.foldl (Line.step { scheme := .crc16, secure := some Line.plainChannel })
        { panel := .new 1, device := d }).Up :=
  ⟨_, rfl, enrolment_completes (b := { scheme := .crc16, secure := some Line.plainChannel }) rfl
    Line.agreeable_plain
    (Line.enrolling_of_new (p := .new 1) Line.agreeable_plain rfl (by decide)
      (Bus.Device.poised_new _ _) nofun rfl rfl rfl (by simp [Bus.Device.new]) (by decide) nofun rfl)
    Line.calmOps Line.calm_ops (by decide)⟩

end Osdp
