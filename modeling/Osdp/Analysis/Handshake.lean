import Osdp.Analysis.Agreement
import Osdp.Analysis.Answers

/-!
# The handshake over a line that loses frames

A reply of the handshake that the device made to this very question is accepted: both ends derive
the same keys from the same base key and the same random octets. So a reader that holds the
panel's base key loses its Secure Channel for good only by a reply that was made to another
question.
-/

set_option autoImplicit false

namespace Osdp

open Osdp.Secure (Session Rnd BaseKey CipherSuite)

/-! ## The device -/

namespace Pd.Device

/-- **What the device says, as far as the handshake goes.** -/
inductive Said (d : Device) (suite : CipherSuite) (f : Frame) (rndB : Rnd)
    (a : Message × Option SecurityBlock × Device) : Prop where
  | challenged {block : SecurityBlock} {out : Octets} {t : Session} (hf : f.security = some block)
      (hb : block.type = Secure.scs11)
      (ht : (Secure.newSession suite .pd d.key).answerChallenge f.data rndB
        (deviceUID d.cfg.identity) = (.ok out, t))
      (ha : a = ({ code := Code.cCrypt, data := out }, some { type := Secure.scs12 },
        { d with session := some t }))
  | proved {block : SecurityBlock} {out : Octets} {t t' : Session} (hf : f.security = some block)
      (hb : block.type = Secure.scs13) (hs : d.session = some t)
      (ht : t.answerServerCryptogram f.data = (.ok out, t'))
      (ha : a = ({ code := Code.rMacI, data := out }, some { type := Secure.scs14 },
        { d with session := some t' }))
  | reported (hcode : a.1.code = Code.pdCap) (hdata : a.1.data = d.capabilities.append [])
      (hblock : a.2.1 = none ∨
        ∃ block, f.security = some block ∧ Secure.BlockType.established block.type = true)
  | other (hcode : a.1.code ≠ Code.cCrypt ∧ a.1.code ≠ Code.rMacI ∧ a.1.code ≠ Code.pdCap)

variable {d e : Device} {suite : CipherSuite} {f : Frame} {rndB : Rnd}

/-- A reply of another code says nothing of the handshake. -/
theorem said_other {a : Message × Option SecurityBlock × Device} {c : Code} (ha : a.1.code = c)
    (hc : c ≠ Code.cCrypt ∧ c ≠ Code.rMacI ∧ c ≠ Code.pdCap) : d.Said suite f rndB a :=
  .other (by rw [ha]; exact hc)

/-- Nor does a refusal. -/
theorem said_nak (reason : NAKReason) : d.Said suite f rndB (nak reason, none, e) :=
  said_other (c := Code.nak) rfl (by decide)

/-- The table. -/
theorem said_table (hd : ∀ m ∈ d.pending, Code.enrols m.code = false) (hh : d.Civil)
    {payload : Octets} {secured : Bool} (s : Option Session) (block : Option SecurityBlock)
    (hblock : block = none ∨
      ∃ block, f.security = some block ∧ Secure.BlockType.established block.type = true) :
    d.Said suite f rndB (({ d with session := s }.dispatch f.code payload secured).1, block,
      ({ d with session := s }.dispatch f.code payload secured).2) := by
  cases henrols : Code.enrols ({ d with session := s }.dispatch f.code payload secured).1.code with
  | false =>
    refine .other ⟨?_, ?_, ?_⟩ <;> intro hc <;> rw [show _ = _ from hc] at henrols <;>
      exact absurd henrols (by decide)
  | true =>
    obtain ⟨-, hm⟩ | ⟨-, hm⟩ | ⟨-, hm⟩ := dispatch_enrols (d := { d with session := s }) hd hh henrols
    · exact said_other (c := Code.pdID) (by rw [hm]) (by decide)
    · exact .reported (by rw [hm]) (by rw [hm]) hblock
    · exact said_other (c := Code.com) hm (by decide)

/-- **What a device says of the handshake.** -/
theorem answerFor_said (hd : ∀ m ∈ d.pending, Code.enrols m.code = false) (hh : d.Civil)
    (hsuite : d.cfg.suite = some suite) (f : Frame) (seq : UInt8) (rndB : Rnd) :
    d.Said suite f rndB (d.answerFor f seq rndB) := by
  unfold answerFor
  split
  · exact said_nak _
  · unfold answer
    split
    · rename_i block hf
      simp only [answerSecure, hsuite]
      split
      · rename_i hb
        simp only [answerChallenge]
        split
        · exact said_nak _
        · rename_i out t ht
          exact .challenged hf hb ht rfl
      · split
        · rename_i hb
          unfold answerCryptogram
          split
          · exact said_nak _
          · rename_i t hs
            split
            · exact said_nak _
            · rename_i out t' ht
              exact .proved hf hb hs ht rfl
        · split
          · rename_i hb
            have hest : Secure.BlockType.established block.type = true := by
              rcases hb with hb | hb <;> (rw [hb]; decide)
            unfold answerEstablished
            split
            · exact said_nak _
            · split
              · exact said_nak _
              · split
                · exact said_nak _
                · exact said_table hd hh _ _ (.inr ⟨block, hf, hest⟩)
          · exact said_nak _
    · split
      · exact said_nak _
      · exact said_table hd hh d.session none (.inl rfl)

/-- A reply of the handshake carries its payload in the clear, and the session it was made from is
the one the device goes on with. -/
theorem handle_handshake (hset : d.Settled) {now : ℤ} {r : Frame} {m : Message}
    {block : SecurityBlock} {s : Option Session} (hheard : d.heard f = true)
    (hrep : d.replays now f = false) (hblock : Secure.BlockType.handshake block.type = true)
    (ha : (d.opening now f).answerFor f f.control.sequence rndB =
      (m, some block, { d.opening now f with session := s }))
    (hh : d.handle now rndB f = (.ok r, e)) : r.data = m.data ∧ e.session = s := by
  have he := handle_eq_replyTo hheard hrep rndB
  have hopen := settled_opening hset now f
  rw [hh, replyTo, ha] at he
  obtain ⟨err, t, hemit⟩ | ⟨g, t, hemit, hencode, -⟩ := emit_cases
    { d.opening now f with session := s } f f.control.sequence m (some block)
  · rw [hemit] at he
    cases he
  · rw [hemit] at he
    obtain ⟨hr, he⟩ := Prod.mk.inj he
    cases hr
    have hstored : ({ d.opening now f with session := t }.stored f.control.sequence r).Settled ∧
        ({ d.opening now f with session := t }.stored f.control.sequence r).session = t := by
      unfold stored
      split <;> exact ⟨hopen, rfl⟩
    rw [adoptAddress_of_none hstored.1.1, adoptKey_of_none hstored.1.2] at he
    simp only [encode, hblock, if_true, Message.encodeSecure] at hencode
    by_cases hv : Address.valid (d.opening now f).address = true
    · simp only [hv, not_true_eq_false, if_false, Prod.mk.injEq, Except.ok.injEq] at hencode
      refine ⟨by rw [← hencode.1]; rfl, ?_⟩
      rw [he, hstored.2]
      exact (congrArg Device.session hencode.2).symm
    · simp [hv] at hencode

/-- Civility is a matter of the configuration. -/
theorem Civil.of_cfg (h : d.Civil) (hcfg : e.cfg = d.cfg) : e.Civil := by
  intro code data
  have hsame : e.delegate code data = d.delegate code data := by
    simp only [delegate, hcfg]
  rw [hsame]
  exact h code data

/-! ### The capability report -/

/-- The device says that it has AES-128, and its configuration does not make it say otherwise
later. -/
structure Advertises (d : Device) : Prop where
  report : d.capabilities.secureChannel.1 = true
  configured : ∀ r, d.cfg.capabilities = some r → r.secureChannel.1 = true
  suite : d.cfg.suite.isSome = true

/-- The default report has AES-128 if there is a suite. -/
theorem secureChannel_default (inputs outputs readers : ℕ) (defaultKey : Bool) :
    (defaultCapabilities inputs outputs readers true defaultKey).secureChannel.1 = true := by
  simp [CapabilityReport.secureChannel, CapabilityReport.get, defaultCapabilities, funcContactStatus,
    funcOutputControl, funcCardDataFormat, funcCheckCharacter, funcCommSecurity, flag, securityAES128]

/-- A device that says it has AES-128 says so whatever its key. -/
theorem Advertises.refresh (h : d.Advertises) (key : BaseKey) (s : Option Session)
    (k : Option BaseKey) :
    ({ d with key := key, session := s, adoptingKey := k }.refreshCapabilities).Advertises := by
  unfold refreshCapabilities
  split
  · rename_i r hr
    exact ⟨h.configured r hr, h.configured, h.suite⟩
  · refine ⟨?_, h.configured, h.suite⟩
    have hs : { d with key := key, session := s, adoptingKey := k }.secureEnabled = true := h.suite
    simp only [hs]
    exact secureChannel_default _ _ _ _

/-- A new device with a suite advertises it. -/
theorem advertises_new {addr : Address} {cfg : Settings} (h : new addr cfg = .ok d)
    (hs : cfg.suite.isSome = true) (hc : d.capabilities.secureChannel.1 = true) : d.Advertises := by
  obtain ⟨-, -, -, c, rfl, hcap⟩ := new_ok h
  refine ⟨hc, fun r hr => ?_, hs⟩
  obtain hsome | ⟨hnone, -⟩ := hcap
  · obtain rfl : c = r := Option.some.inj (hsome.symm.trans hr)
    exact hc
  · cases hnone.symm.trans hr

/-- And goes on doing so, whatever it handles. -/
theorem handle_advertises (h : d.Advertises) (now : ℤ) (rndB : Rnd) (f : Frame) :
    (d.handle now rndB f).2.Advertises := by
  obtain ⟨-, e, -, he⟩ | ⟨-, -, he⟩ | ⟨-, -, he⟩ := handle_cases d now rndB f
  · rw [he]
    exact h
  · obtain ⟨s, c, q, v, ho⟩ := observe_eq d now
    rw [he, ho]
    exact ⟨h.report, h.configured, h.suite⟩
  · have hanswer : ((d.opening now f).answerFor f f.control.sequence rndB).2.2.Advertises := by
      have halike := alike_answerFor d now rndB f
      exact ⟨halike.capabilities ▸ h.report, halike.cfg ▸ h.configured, halike.cfg ▸ h.suite⟩
    rw [he, replyTo]
    generalize ((d.opening now f).answerFor f f.control.sequence rndB).2.2 = a at hanswer
    obtain ⟨err, s, hemit⟩ | ⟨g, s, hemit, -⟩ := emit_cases a f f.control.sequence
      ((d.opening now f).answerFor f f.control.sequence rndB).1
      ((d.opening now f).answerFor f f.control.sequence rndB).2.1
    · rw [hemit]
      exact ⟨hanswer.report, hanswer.configured, hanswer.suite⟩
    · rw [hemit]
      have hstored : ({ a with session := s }.stored f.control.sequence g).adoptAddress.Advertises := by
        unfold adoptAddress stored
        split <;> split <;> exact ⟨hanswer.report, hanswer.configured, hanswer.suite⟩
      unfold adoptKey
      split
      · exact hstored
      · exact hstored.refresh _ _ _

/-- And whatever it reports. -/
theorem report_advertises (h : d.Advertises) (r : Report) : (d.report r).2.Advertises := by
  obtain ⟨i, t, w, p, he⟩ := report_device d r
  rw [he]
  exact ⟨h.report, h.configured, h.suite⟩

end Pd.Device

/-! ## Two sessions of one handshake -/

namespace Secure.Session

/-- The panel's session and the device's, when the panel has checked the device's cryptogram. -/
structure Mated (s t : Session) : Prop where
  state : s.state = .cryptogram
  suite : t.suite = s.suite
  keys : t.keys = s.keys
  rndA : t.rndA = s.rndA
  rndB : t.rndB = s.rndB
  server : s.suite.serverCryptogram s.keys s.rndA s.rndB = .ok s.serverCryptogram

/-- Both sessions are established, with the same keys and the same value of the reply chain. -/
structure Joined (s t : Session) : Prop where
  panel : s.established = true
  device : t.established = true
  keys : t.keys = s.keys
  rmac : t.rmac = s.rmac

variable {s t t' : Session} {out : Octets}

/-- **The first half of the handshake.** A panel that asked with its own random octets takes the
answer of a device that holds its base key. -/
theorem mated_of_challenge {rndA rndB uid : Rnd} (hrole : s.role = .cp) (hsuite : t.suite = s.suite)
    (hbase : t.base = s.base)
    (hserver : ∀ keys a c, ∃ block, s.suite.serverCryptogram keys a c = .ok block)
    (ht : t.answerChallenge rndA.toList rndB uid = (.ok out, t')) :
    ∃ crypt s', { s with rndA := rndA, state := .challenged }.answerCryptogram out = (.ok crypt, s') ∧
      s'.role = s.role ∧ s'.suite = s.suite ∧ s'.base = s.base ∧ s'.Mated t' := by
  obtain ⟨-, keys, client, hkeys, hclient, rfl, rfl⟩ := answerChallenge_ok ht
  have hrnd : octetsAt 8 rndA.toList 0 = rndA := by
    simpa using octetsAt_append [] rndA []
  rw [hrnd, hsuite] at hkeys hclient
  rw [hbase] at hkeys
  obtain ⟨server, hblock⟩ := hserver keys rndA rndB
  refine ⟨_, _, answerCryptogram_of_client (s := { s with rndA := rndA, state := .challenged }) hrole
    rfl hkeys hclient hblock, rfl, rfl, rfl, ?_⟩
  exact { state := rfl, suite := hsuite, keys := rfl, rndA := hrnd, rndB := rfl, server := hblock }

/-- **The second half.** What the device answers to the server's cryptogram completes the panel's
handshake. -/
theorem joined_of_cryptogram {scrypt : Octets} (hrole : s.role = .cp) (h : s.Mated t)
    (ht : t.answerServerCryptogram scrypt = (.ok out, t')) :
    ∃ s', s.completeHandshake out = (.ok (), s') ∧ s'.Joined t' := by
  obtain ⟨-, expected, rmac, hexpected, -, hrmac, rfl, rfl⟩ := answerServerCryptogram_eq ht
  rw [h.suite, h.keys, h.rndA, h.rndB, h.server] at hexpected
  cases hexpected
  rw [h.suite, h.keys] at hrmac
  refine ⟨_, completeHandshake_of_rmac hrole h.state hrmac, ?_⟩
  exact { panel := rfl, device := rfl, keys := h.keys, rmac := rfl }

end Secure.Session

/-! ## The panel -/

namespace Bus

variable {b : Bus} {d e p q : Device} {block : SecurityBlock} {f r : Frame} {rndA : Rnd}
  {device : Pd.Device} {st : State}

/-- A command under a block that is none of a session's is sent as it is. -/
theorem compose_unsealed {m : Message} (hblock : Secure.BlockType.established block.type = false)
    (hplain : Secure.BlockType.encrypted block.type = false)
    (h : compose b d m (some block) = (.ok f, e)) : f.data = m.data ∧ e.session = d.session := by
  unfold compose at h
  simp only [sealCommand, hplain, Bool.false_eq_true, if_false, Device.nextSequence_eq, hblock,
    Message.encodeSecure] at h
  split at h
  · cases h
  · rename_i g hg
    split at hg
    · cases hg
    · cases hg
      cases h
      exact ⟨rfl, rfl⟩

/-- What the panel keeps of a Secure Channel it has not given up: a handshake has its session, of
the panel's own making, and a step that waits is one of the handshake. -/
structure Device.Poised (channel : SecureChannel) (d : Device) : Prop where
  undeclined : d.secureDeclined = false
  armed : d.Armed
  scripted : d.Scripted
  waiting : d.pending ≠ none → d.state = .secureHandshake
  handshake : d.state = .secureHandshake → ∃ s, d.session = some s ∧ s.role = .cp ∧
    s.suite = channel.suite ∧ d.baseKey channel.keys = some s.base

variable {channel : SecureChannel}

/-- Nothing waits of a handshake that is not under way. -/
theorem Device.Poised.pending_none (h : d.Poised channel) (hst : d.state ≠ .secureHandshake) :
    d.pending = none := by
  by_contra hp
  exact hst (h.waiting hp)

/-- No session is established during the handshake. -/
theorem Device.Poised.unestablished (h : d.Poised channel) (hst : d.state = .secureHandshake) :
    d.secureEstablished = false := by
  obtain ⟨s, hs, hest⟩ := h.armed.handshake hst
  simp [Device.secureEstablished, hs, hest]

/-- A record that differs in nothing that matters to the handshake. -/
theorem Device.Poised.of_queue (h : d.Poised channel) (o : List Message) (i : Option Message)
    (k : Option BaseKey) (n : Bool) :
    { d with outbox := o, inflight := i, pendingKey := k, deferCommands := n }.Poised channel :=
  ⟨h.undeclined, ⟨h.armed.secure, h.armed.handshake⟩, h.scripted, h.waiting, h.handshake⟩

/-- The record a command is chosen from. -/
theorem commandFor_poised (h : d.Poised channel) (rndA : Rnd) :
    (commandFor d rndA).2.2.Poised channel ∧ (commandFor d rndA).2.2.pending = none ∧
      (commandFor d rndA).2.2.state = d.state ∧
      (commandFor d rndA).2.2.baseKey channel.keys = d.baseKey channel.keys := by
  obtain ⟨m, ht, hc⟩ | ⟨-, hst, hc⟩ | ⟨-, hst, hc⟩ | ⟨-, hst, hc⟩ | ⟨-, hst, hc⟩ :=
    commandFor_cases d rndA
  · have hne : d.state ≠ .secureHandshake := by
      obtain ⟨hst | hst, -⟩ := Device.takes_eq_some ht <;> rw [hst] <;> decide
    rw [hc]
    exact ⟨h.of_queue _ _ _ _, h.pending_none hne, rfl, rfl⟩
  · rw [hc]
    exact ⟨h, h.pending_none (by rw [hst]; decide), rfl, rfl⟩
  · rw [hc]
    exact ⟨h, h.pending_none (by rw [hst]; decide), rfl, rfl⟩
  · obtain ⟨s, hs, hrole, hsuite, hbase⟩ := h.handshake hst
    rw [hc]
    unfold handshakeCommand
    split
    · exact ⟨⟨h.undeclined, ⟨h.armed.secure, h.armed.handshake⟩, nofun, nofun,
        h.handshake⟩, rfl, rfl, rfl⟩
    · rename_i hp
      simp only [hs, Session.beginChallenge_of_cp hrole]
      refine ⟨⟨h.undeclined, ⟨?_, fun _ => ⟨_, rfl, rfl⟩⟩, ?_, ?_, ?_⟩, hp, trivial, rfl⟩
      · intro hsec
        rw [show d.state = .secure from hsec] at hst
        cases hst
      · exact h.scripted
      · exact fun _ => hst
      · exact fun _ => ⟨_, rfl, hrole, hsuite, hbase⟩
  · have hne : d.state ≠ .secureHandshake := by
      obtain hst | hst := hst <;> rw [hst] <;> decide
    rw [hc]
    exact ⟨h.of_queue _ _ _ _, h.pending_none hne, rfl, rfl⟩

/-- **A question leaves the panel poised**, with nothing waiting. -/
theorem transact_poised (b : Bus) (h : d.Poised channel) (rndA : Rnd) :
    (transact b d rndA).2.Poised channel ∧ (transact b d rndA).2.pending = none ∧
      (transact b d rndA).2.state = d.state ∧
      (transact b d rndA).2.baseKey channel.keys = d.baseKey channel.keys := by
  obtain ⟨hc, hpending, hstate, hkey⟩ := commandFor_poised h rndA
  have harmed : (transact b d rndA).2.Armed := (transact_keepsAgreement b d rndA).1 h.armed
  have hsession := compose_session b (commandFor d rndA).2.2 (commandFor d rndA).1
    (commandFor d rndA).2.1
  obtain ⟨q, r, s, he⟩ :=
    compose_device b (commandFor d rndA).2.2 (commandFor d rndA).1 (commandFor d rndA).2.1
  have ht : (transact b d rndA).2 = { (commandFor d rndA).2.2 with seq := q, repeatSequence := r,
                                                                   session := s } := he
  rw [he] at hsession
  rw [ht] at harmed ⊢
  refine ⟨⟨hc.undeclined, harmed, hc.scripted, hc.waiting, fun hst => ?_⟩, hpending, hstate, hkey⟩
  obtain ⟨t, ht, hrole, hsuite, hbase⟩ := hc.handshake hst
  obtain hs | ⟨t', mac, ht', hs⟩ := hsession
  · exact ⟨t, hs.trans ht, hrole, hsuite, hbase⟩
  · rw [ht] at ht'
    cases ht'
    exact ⟨_, hs, by simpa using hrole, by simpa using hsuite,
      by rw [Secure.Session.commit_base]; exact hbase⟩

/-- A command under a block that is none of a session's is the handshake's. -/
theorem transact_handshake (ht : transact b d rndA = (.ok f, p)) (hf : f.security = some block)
    (hblock : Secure.BlockType.established block.type = false)
    (hplain : Secure.BlockType.encrypted block.type = false) :
    d.state = .secureHandshake ∧ (handshakeCommand d rndA).2.1 = some block ∧
      f.data = (handshakeCommand d rndA).1.data ∧
      p.session = (handshakeCommand d rndA).2.2.session := by
  have hsome : (commandFor d rndA).2.1 = some block := (transact_ok ht).security.symm.trans hf
  have hcompose : compose b (commandFor d rndA).2.2 (commandFor d rndA).1 (some block) =
      (.ok f, p) := by
    rw [← hsome]
    exact ht
  have hclear := compose_unsealed hblock hplain hcompose
  have hsealed : ∀ n, (if d.state = .secure then some (blockForCommand n) else none) ≠ some block := by
    intro n hn
    split at hn <;> cases hn
    unfold blockForCommand at hblock
    split at hblock <;> exact absurd hblock (by decide)
  obtain ⟨m, -, hc⟩ | ⟨-, -, hc⟩ | ⟨-, -, hc⟩ | ⟨-, hst, hc⟩ | ⟨-, -, hc⟩ := commandFor_cases d rndA
  · rw [hc] at hsome
    exact absurd hsome (hsealed _)
  · rw [hc] at hsome
    cases hsome
  · rw [hc] at hsome
    cases hsome
  · rw [hc] at hsome hclear
    exact ⟨hst, hsome, hclear⟩
  · rw [hc] at hsome
    exact absurd hsome (hsealed _)

/-- A challenge carries the panel's random octets, and the panel's session waits for an answer to
them. -/
theorem transact_challenge (h : d.Poised channel) (ht : transact b d rndA = (.ok f, p))
    (hf : f.security = some block) (hblock : block.type = Secure.scs11) :
    d.state = .secureHandshake ∧ f.data = rndA.toList ∧ ∃ s, d.session = some s ∧
      p.session = some { s with rndA := rndA, state := .challenged } := by
  obtain ⟨hst, hsome, hdata, hsession⟩ :=
    transact_handshake ht hf (by rw [hblock]; decide) (by rw [hblock]; decide)
  obtain ⟨s, hs, hrole, -, -⟩ := h.handshake hst
  cases hp : d.pending with
  | some step =>
    simp only [handshakeCommand, hp, Option.some.injEq] at hsome
    rw [← hsome, h.scripted step hp] at hblock
    exact absurd hblock (by decide)
  | none =>
    simp only [handshakeCommand, hp, hs, Session.beginChallenge_of_cp hrole] at hdata hsession
    exact ⟨hst, hdata, s, hs, hsession⟩

/-- The server's cryptogram is what waited, and the panel's session stays. -/
theorem transact_cryptogram (h : d.Poised channel) (ht : transact b d rndA = (.ok f, p))
    (hf : f.security = some block) (hblock : block.type = Secure.scs13) :
    d.state = .secureHandshake ∧ d.pending ≠ none ∧ p.session = d.session := by
  obtain ⟨hst, hsome, -, hsession⟩ :=
    transact_handshake ht hf (by rw [hblock]; decide) (by rw [hblock]; decide)
  obtain ⟨s, hs, hrole, -, -⟩ := h.handshake hst
  cases hp : d.pending with
  | some step =>
    simp only [handshakeCommand, hp] at hsession
    exact ⟨hst, by simp, hsession⟩
  | none =>
    simp only [handshakeCommand, hp, hs, Session.beginChallenge_of_cp hrole,
      Option.some.injEq] at hsome
    rw [← hsome] at hblock
    exact absurd hblock (by decide)

/-! ### What a message does to the handshake -/

/-- **What the dispatcher makes of a message, as far as the handshake goes.** -/
inductive Weighed (b : Bus) (d : Device) (m : Message) (r : Except Error Event × Device) : Prop where
  | report {report : CapabilityReport} {e : Event} (hm : m.code = Code.pdCap)
      (hparse : parseCapabilities m.data = some report)
      (he : e ≠ .secureFailed ∧ ∀ k, e ≠ .secure k)
      (hr : r = (.ok e, afterCapabilities b { d with caps := report }))
  | cryptogram (hm : m.code = Code.cCrypt)
      (hr : r = (.ok (onCryptogram d m.data).1, (onCryptogram d m.data).2))
  | initialRMAC (hm : m.code = Code.rMacI)
      (hr : r = (.ok (onInitialRMAC d m.data).1, (onInitialRMAC d m.data).2))
  | other (hdeclined : r.2.secureDeclined = d.secureDeclined)
      (hevent : r.1 ≠ .ok .secureFailed ∧ ∀ k, r.1 ≠ .ok (.secure k))
      (hpending : r.2.pending = d.pending ∨ r.2.pending = none)
      (hstate : r.2.state = .secureHandshake → d.state = .secureHandshake ∧
        r.2.session = d.session ∧ r.2.installedKey = d.installedKey ∧ r.2.address = d.address)

/-- **What a message weighs in the handshake.** -/
theorem dispatch_weighed (b : Bus) (d : Device) (m : Message) : Weighed b d m (dispatch b d m) := by
  have hsame : ∀ (res : Except Error Event), res ≠ .ok .secureFailed →
      (∀ k, res ≠ .ok (.secure k)) → Weighed b d m (res, d) :=
    fun res h1 h2 => .other rfl ⟨h1, h2⟩ (.inl rfl) fun h => ⟨h, rfl, rfl, rfl⟩
  apply dispatch_rows b d m (motive := Weighed b d m)
  case malformed => exact fun _ => hsame _ nofun fun _ => nofun
  case identified => exact fun _ _ _ => .other rfl ⟨nofun, fun _ => nofun⟩ (.inl rfl) nofun
  case capabilities =>
    rintro report e h hreport (rfl | ⟨rfl, -⟩)
    · exact .report (e := .capabilities report) h hreport ⟨nofun, fun _ => nofun⟩ rfl
    · exact .report (e := .online report) h hreport ⟨nofun, fun _ => nofun⟩ rfl
  case status =>
    rintro ss e - (rfl | ⟨changed, -, rfl⟩)
    · exact .other rfl ⟨nofun, fun _ => nofun⟩ (.inl rfl) fun h => ⟨h, rfl, rfl, rfl⟩
    · exact .other rfl ⟨nofun, fun _ => nofun⟩ (.inl rfl) fun h => ⟨h, rfl, rfl, rfl⟩
  case cryptogram => exact fun h => .cryptogram h rfl
  case initialRMAC => exact fun h => .initialRMAC h rfl
  case card => exact fun _ _ _ => hsame _ nofun fun _ => nofun
  case keypad => exact fun _ _ _ => hsame _ nofun fun _ => nofun
  case refused =>
    exact fun _ _ => .other rfl ⟨nofun, fun _ => nofun⟩ (.inl rfl) fun h => ⟨h, rfl, rfl, rfl⟩
  case manufacturer => exact fun _ _ _ => hsame _ nofun fun _ => nofun
  case moved =>
    exact fun _ _ _ => .other (by simp [Device.resync_eq]) ⟨nofun, fun _ => nofun⟩ (.inr rfl) nofun
  case busy =>
    intro _
    rw [Device.reclaim_eq]
    split <;>
      exact .other rfl ⟨nofun, fun _ => nofun⟩ (.inl rfl) fun h => ⟨h, rfl, rfl, rfl⟩
  case installed => exact fun _ _ _ _ => .other rfl ⟨nofun, fun _ => nofun⟩ (.inr rfl) nofun
  case answer =>
    intro _
    obtain ⟨-, he⟩ | ⟨-, he⟩ := onAnswer_cases d
    · rw [he]
      exact .other rfl ⟨nofun, fun _ => nofun⟩ (.inl rfl) nofun
    · rw [he]
      exact hsame _ nofun fun _ => nofun

/-- What a turn of the panel may come to while the Secure Channel is not given up. `st` is the state
the panel was in. -/
structure Turn (channel : SecureChannel) (device : Pd.Device) (st : State) (e : Option Event)
    (q : Device) : Prop where
  poised : q.Poised channel
  mated : q.pending ≠ none → ∃ s t, q.session = some s ∧ device.session = some t ∧ s.Mated t
  unfailed : st = .secureHandshake → e ≠ some .secureFailed
  joined : ∀ k, e = some (.secure k) → ∃ s t, q.session = some s ∧ device.session = some t ∧ s.Joined t

/-- A turn that leaves nothing waiting and says nothing of the handshake. -/
theorem turn_of_poised {e : Option Event} (h : q.Poised channel) (hpending : q.pending = none)
    (he : st = .secureHandshake → e ≠ some .secureFailed) (hsecure : ∀ k, e ≠ some (.secure k)) :
    Turn channel device st e q :=
  ⟨h, fun hp => absurd hpending hp, he, fun k hk => absurd hk (hsecure k)⟩

/-- A device that starts over is poised. -/
theorem poised_resync (h : d.secureDeclined = false) : d.resync.Poised channel := by
  rw [Device.resync_eq]
  exact ⟨h, Device.armed_plain ⟨nofun, nofun⟩, nofun, fun hp => absurd rfl hp, nofun⟩

/-- A timeout is a turn that keeps the channel open. -/
theorem timeout_turn (h : p.Poised channel) (hpending : p.pending = none) :
    Turn channel device st (some (timeout p).1) (timeout p).2 := by
  obtain ⟨-, he⟩ | ⟨-, -, he⟩ := timeout_cases p
  · rw [he, Device.retransmit_eq]
    refine turn_of_poised ?_ hpending (fun _ => nofun) fun _ => nofun
    exact ⟨h.undeclined, ⟨h.armed.secure, h.armed.handshake⟩, h.scripted, h.waiting, h.handshake⟩
  · rw [he]
    refine turn_of_poised (poised_resync ?_) (by simp [Device.resync_eq]) (fun _ => nofun)
      fun _ => nofun
    simpa [Device.retransmit_eq] using h.undeclined

/-- What may be assumed of a reply once it is open: a report has AES-128, and the steps of the
handshake are those the panel waits for, made by the device it goes on with. -/
structure Fit (device : Pd.Device) (p : Device) (r : Frame) (data : Octets) : Prop where
  report : r.code = Code.pdCap → ∀ report, parseCapabilities data = some report →
    report.secureChannel.1 = true
  cryptogram : r.code = Code.cCrypt → p.state = .secureHandshake ∧ ∃ s s' t out, p.session = some s ∧
    s.answerCryptogram r.data = (.ok out, s') ∧ s'.role = s.role ∧ s'.suite = s.suite ∧
    s'.base = s.base ∧ device.session = some t ∧ s'.Mated t
  initialRMAC : r.code = Code.rMacI → p.state = .secureHandshake ∧ ∃ s s' t, p.session = some s ∧
    s.completeHandshake r.data = (.ok (), s') ∧ device.session = some t ∧ s'.Joined t

/-- Without an established session a reply is taken as it is. -/
theorem openIfEstablished_unestablished {g : Frame} (hest : d.secureEstablished = false)
    (h : openIfEstablished d f = .ok (g, e)) : g = f ∧ e = d := by
  unfold openIfEstablished at h
  split at h
  · cases h
    exact ⟨rfl, rfl⟩
  · rename_i s hs
    have hno : s.established = false := by simpa [Device.secureEstablished, hs] using hest
    rw [hno] at h
    cases h
    exact ⟨rfl, rfl⟩

/-- The record `d` that is dispatched when a panel's record `p` has taken a reply under session `s`. -/
structure Admitted (channel : SecureChannel) (p : Device) (s : Option Session) (d : Device) : Prop where
  state : d.state = p.state
  session : d.session = s
  pending : d.pending = none
  undeclined : d.secureDeclined = false
  baseKey : d.baseKey channel.keys = p.baseKey channel.keys

/-- A reply to a poised device is admitted. -/
theorem admitted_delivered (h : p.Poised channel) (hpending : p.pending = none) (s : Option Session) :
    Admitted channel p s { p with misses := 0, session := s }.delivered := by
  rw [Device.delivered_eq]
  exact ⟨rfl, rfl, hpending, h.undeclined, rfl⟩

section Rows

variable {b : Bus} {device : Pd.Device} {p d : Device} {s : Option Session}

/-- A report begins the handshake. -/
theorem turn_report (hb : b.secure = some channel) (hd : Admitted channel p s d)
    (hkey : ∃ key, p.baseKey channel.keys = some key) {report : CapabilityReport}
    (haes : report.secureChannel.1 = true) {e : Event} (he : e ≠ .secureFailed ∧ ∀ k, e ≠ .secure k)
    (harmed : (afterCapabilities b { d with caps := report }).Armed) :
    Turn channel device p.state (some e) (afterCapabilities b { d with caps := report }) := by
  obtain ⟨key, hkey⟩ := hkey
  have hbase : d.baseKey channel.keys = some key := hd.baseKey.trans hkey
  rw [afterCapabilities_begins (d := { d with caps := report }) hb hd.undeclined haes hbase] at harmed ⊢
  refine turn_of_poised ⟨hd.undeclined, harmed, ?_, fun hp => absurd hd.pending hp, ?_⟩ hd.pending ?_ ?_
  · exact fun step hs => absurd (hd.pending.symm.trans hs) (by simp)
  · exact fun _ => ⟨_, rfl, rfl, rfl, hbase⟩
  · exact fun _ hk => he.1 (Option.some.inj hk)
  · exact fun k hk => he.2 k (Option.some.inj hk)

/-- The cryptogram is answered, and the answer waits. -/
theorem turn_cryptogram (h : p.Poised channel) (hd : Admitted channel p p.session d)
    (hfit : p.state = .secureHandshake ∧ ∃ s s' t out, p.session = some s ∧
      s.answerCryptogram r.data = (.ok out, s') ∧ s'.role = s.role ∧ s'.suite = s.suite ∧
      s'.base = s.base ∧ device.session = some t ∧ s'.Mated t)
    (harmed : (onCryptogram d r.data).2.Armed) :
    Turn channel device p.state (some (onCryptogram d r.data).1) (onCryptogram d r.data).2 := by
  obtain ⟨hhand, s₀, s', t, out, hs₀, hok, hrole, hsuite, hbase, ht, hmated⟩ := hfit
  obtain ⟨s₁, hs₁, hrole₁, hsuite₁, hkey₁⟩ := h.handshake hhand
  rw [hs₀] at hs₁
  cases hs₁
  simp only [onCryptogram, hd.session, hs₀, hok] at harmed ⊢
  refine ⟨⟨hd.undeclined, harmed, ?_, fun _ => hd.state.trans hhand, fun _ => ?_⟩, fun _ => ?_,
    by simp, by simp⟩
  · rintro step ⟨⟩
    rfl
  · exact ⟨s', rfl, hrole.trans hrole₁, hsuite.trans hsuite₁,
      hd.baseKey.trans (hkey₁.trans (congrArg some hbase.symm))⟩
  · exact ⟨s', t, rfl, ht, hmated⟩

/-- The device's code ends the handshake. -/
theorem turn_initialRMAC (hd : Admitted channel p p.session d)
    (hfit : p.state = .secureHandshake ∧ ∃ s s' t, p.session = some s ∧
      s.completeHandshake r.data = (.ok (), s') ∧ device.session = some t ∧ s'.Joined t)
    (harmed : (onInitialRMAC d r.data).2.Armed) :
    Turn channel device p.state (some (onInitialRMAC d r.data).1) (onInitialRMAC d r.data).2 := by
  obtain ⟨-, s₀, s', t, hs₀, hok, ht, hjoined⟩ := hfit
  simp only [onInitialRMAC, hd.session, hs₀, hok] at harmed ⊢
  refine ⟨⟨hd.undeclined, harmed, ?_, fun hp => absurd hd.pending hp, by rintro ⟨⟩⟩,
    fun hp => absurd hd.pending hp, by simp, fun k _ => ⟨s', t, rfl, ht, hjoined⟩⟩
  exact fun step hs => absurd (hd.pending.symm.trans hs) (by simp)

/-- Any other message leaves a handshake under way as it is. -/
theorem poised_other (h : p.Poised channel) (hd : Admitted channel p s d)
    (hsession : p.state = .secureHandshake → s = p.session) (harmed : q.Armed)
    (hdeclined : q.secureDeclined = d.secureDeclined)
    (hpending : q.pending = d.pending ∨ q.pending = none)
    (hstate : q.state = .secureHandshake → d.state = .secureHandshake ∧
      q.session = d.session ∧ q.installedKey = d.installedKey ∧ q.address = d.address) :
    q.Poised channel ∧ q.pending = none := by
  have hnone : q.pending = none := by
    obtain hp | hp := hpending
    · exact hp.trans hd.pending
    · exact hp
  refine ⟨⟨hdeclined.trans hd.undeclined, harmed, ?_, fun hp => absurd hnone hp, fun hhand => ?_⟩, hnone⟩
  · exact fun step hs => absurd (hnone.symm.trans hs) (by simp)
  · obtain ⟨hst, hse, hin, had⟩ := hstate hhand
    have hp := hd.state.symm.trans hst
    obtain ⟨s₁, hs₁, hrole₁, hsuite₁, hkey₁⟩ := h.handshake hp
    refine ⟨s₁, ?_, hrole₁, hsuite₁, ?_⟩
    · rw [hse, hd.session, hsession hp, hs₁]
    · rw [← hkey₁, ← hd.baseKey]
      simp only [Device.baseKey, hin, had]

end Rows

/-- **A reply that fits keeps the Secure Channel.** -/
theorem reply_turn (hb : b.secure = some channel) (h : p.Poised channel)
    (hpending : p.pending = none) (hkey : ∃ key, p.baseKey channel.keys = some key)
    (hfit : ∀ data s, r.isReply = true → r.address = p.address → r.control.sequence ≠ 0 →
      openIfEstablished { p with misses := 0 } r =
      .ok ({ r with data := data }, { p with misses := 0, session := s }) → Fit device p r data) :
    (∀ e, (reply b p r).1 = .ok e → Turn channel device p.state (some e) (reply b p r).2) ∧
    (∀ err, (reply b p r).1 = .error err → (reply b p r).2.Poised channel ∧
      (reply b p r).2.pending = none) := by
  obtain ⟨-, err, he⟩ | ⟨hr, ha, ⟨-, he⟩ | ⟨-, ⟨err, herr⟩, he⟩ | ⟨hz, data, s, hopen, he⟩⟩ :=
    reply_cases b p r
  · rw [he]
    exact ⟨by rintro e ⟨⟩, fun _ _ => ⟨h, hpending⟩⟩
  · rw [he]
    refine ⟨?_, by rintro err ⟨⟩⟩
    rintro e ⟨⟩
    exact turn_of_poised (poised_resync h.undeclined) (by simp [Device.resync_eq]) (by simp)
      (by simp)
  · -- only an established session refuses a reply, and then there is no handshake
    rw [he]
    refine ⟨?_, by rintro err ⟨⟩⟩
    rintro e ⟨⟩
    refine turn_of_poised (poised_resync h.undeclined) (by simp [Device.resync_eq]) (fun hst => ?_)
      (by simp)
    exfalso
    obtain ⟨s, hs, hest⟩ := h.armed.handshake hst
    simp [openIfEstablished, hs, hest] at herr
  · have harmed := (reply_keepsAgreement b p r).1 h.armed
    have hf := hfit data s hr ha hz hopen
    have hd := admitted_delivered h hpending s
    rw [he] at harmed ⊢
    -- in the handshake the reply is read as it is
    have hclear : p.state = .secureHandshake → data = r.data ∧ s = p.session := by
      intro hst
      obtain ⟨h1, h2⟩ := openIfEstablished_unestablished (d := { p with misses := 0 })
        (h.unestablished hst) hopen
      exact ⟨congrArg Frame.data h1, congrArg Device.session h2⟩
    generalize { p with misses := 0, session := s }.delivered = d at hd harmed ⊢
    cases dispatch_weighed b d { code := r.code, isReply := r.isReply, data := data } with
    | @report report e hm hparse hev hr =>
      rw [hr] at harmed ⊢
      refine ⟨?_, by rintro err ⟨⟩⟩
      rintro e' ⟨⟩
      exact turn_report hb hd hkey (hf.report hm report hparse) hev harmed
    | cryptogram hm hr =>
      obtain ⟨rfl, rfl⟩ := hclear (hf.cryptogram hm).1
      rw [hr] at harmed ⊢
      refine ⟨?_, by rintro err ⟨⟩⟩
      rintro e ⟨⟩
      exact turn_cryptogram h hd (hf.cryptogram hm) harmed
    | initialRMAC hm hr =>
      obtain ⟨rfl, rfl⟩ := hclear (hf.initialRMAC hm).1
      rw [hr] at harmed ⊢
      refine ⟨?_, by rintro err ⟨⟩⟩
      rintro e ⟨⟩
      exact turn_initialRMAC hd (hf.initialRMAC hm) harmed
    | other hdeclined hevent hpen hstate =>
      generalize dispatch b d { code := r.code, isReply := r.isReply, data := data } = res
        at harmed hdeclined hevent hpen hstate ⊢
      have hpoised := poised_other h hd (fun hst => (hclear hst).2) harmed hdeclined hpen hstate
      refine ⟨fun e hok => ?_, fun _ _ => hpoised⟩
      refine turn_of_poised hpoised.1 hpoised.2 (fun _ hk => ?_) fun k hk => ?_
      · cases hk
        exact hevent.1 hok
      · cases hk
        exact hevent.2 k hok

end Bus

/-! ## The line -/

namespace Line

variable {b : Bus} {channel : Bus.SecureChannel} {l : Line} {r f : Frame} {p : Bus.Device}
  {data : Octets} {s : Option Session} {cfg : Pd.Settings}

/-- The panel's turn. -/
theorem await_turn (hb : b.secure = some channel) (h : l.panel.Poised channel)
    (hpending : l.panel.pending = none) (hkey : ∃ key, l.panel.baseKey channel.keys = some key)
    (x : Exchange) {r : Option Frame}
    (hfit : ∀ f, r = some f → ∀ data s, f.isReply = true → f.address = l.panel.address →
      f.control.sequence ≠ 0 → Bus.openIfEstablished { l.panel with misses := 0 } f =
        .ok ({ f with data := data }, { l.panel with misses := 0, session := s }) →
      Bus.Fit l.device l.panel f data) :
    Bus.Turn channel l.device l.panel.state (l.await b x r).1 (l.await b x r).2.panel := by
  cases r with
  | none => exact Bus.timeout_turn h hpending
  | some f =>
    obtain ⟨hok, herror⟩ := Bus.reply_turn hb h hpending hkey (hfit f rfl)
    cases hreply : Bus.reply b l.panel f with
    | mk res q =>
      rw [hreply] at hok herror
      cases res with
      | ok e =>
        rw [await_ok hreply]
        exact hok e rfl
      | error err =>
        obtain ⟨hq, hnone⟩ := herror err rfl
        rw [await_error hreply]
        split
        · exact Bus.timeout_turn hq hnone
        · exact Bus.turn_of_poised hq hnone (fun _ => nofun) fun _ => nofun

/-- What the bus hands to its dispatcher in an exchange. -/
def opened (b : Bus) (l : Line) (x : Exchange) : Option Message :=
  (l.asks b x).bind fun q => (l.processed b x).bind fun r =>
    if r.control.sequence = 0 then none
    else
      match Bus.openIfEstablished { q.2 with misses := 0 } r with
      | .error _ => none
      | .ok (g, _) => some (Message.decode g)

/-- The bus takes a step of the handshake that the device made to an earlier question, or a report
without AES-128 that the device made to an earlier question or that came over a session. -/
def misleads (b : Bus) (l : Line) (x : Exchange) : Bool :=
  (l.opened b x).any fun m =>
    (l.repeats b x && (m.code == Code.cCrypt || m.code == Code.rMacI)) ||
    (m.code == Code.pdCap && (l.repeats b x || decide (l.panel.state = .secure)) &&
      (parseCapabilities m.data).any fun report => !report.secureChannel.1)

/-- Both ends hold the same base key. -/
def SameKey (channel : Bus.SecureChannel) (l : Line) : Prop :=
  l.panel.baseKey channel.keys = some l.device.key

/-- An exchange that leaves the reader its Secure Channel: it is not declined, the handshake does
not fail, and a session that comes up is the same at both ends. -/
structure Spared (b : Bus) (l : Line) (x : Exchange) : Prop where
  undeclined : (l.exchange b x).2.panel.secureDeclined = false
  unfailed : l.panel.state = .secureHandshake → (l.exchange b x).1 ≠ some .secureFailed
  joined : ∀ k, (l.exchange b x).1 = some (.secure k) → ∃ s t,
    (l.exchange b x).2.panel.session = some s ∧ (l.exchange b x).2.device.session = some t ∧
      s.Joined t

/-- A panel that has not given the Secure Channel up, and a reader that offers it. -/
structure Honest (channel : Bus.SecureChannel) (cfg : Pd.Settings) (l : Line) : Prop where
  panel : l.panel.Poised channel
  number : l.panel.repeatSequence = true → IsNumber l.panel.seq
  device : l.device.WellFormed cfg
  regular : l.device.Regular
  civil : l.device.Civil
  advertises : l.device.Advertises
  mated : l.panel.pending ≠ none → ∃ s t, l.panel.session = some s ∧ l.device.session = some t ∧
    s.Mated t

section Exchange

variable {b : Bus} {channel : Bus.SecureChannel} {cfg : Pd.Settings} {l : Line} {x : Exchange}

/-- What the bus opens is what it hands on. -/
theorem opened_eq (ht : Bus.transact b l.panel x.rndA = (.ok f, p))
    (hprocessed : l.processed b x = some r) (hz : r.control.sequence ≠ 0)
    (hopen : Bus.openIfEstablished { p with misses := 0 } r =
      .ok ({ r with data := data }, { p with misses := 0, session := s })) :
    l.opened b x = some { code := r.code, isReply := r.isReply, data := data } := by
  simp [opened, asks_eq ht, hprocessed, hz, hopen, Message.decode]

/-- A report that does not mislead. -/
theorem report_of_misleads {m : Message} (h : l.misleads b x = false) (hm : l.opened b x = some m)
    (hcode : m.code = Code.pdCap) (hwhy : l.repeats b x = true ∨ l.panel.state = .secure)
    {report : CapabilityReport} (hparse : parseCapabilities m.data = some report) :
    report.secureChannel.1 = true := by
  by_contra hno
  rw [Bool.not_eq_true] at hno
  have hyes : l.misleads b x = true := by
    obtain hwhy | hwhy := hwhy <;> simp [misleads, hm, hcode, hwhy, hparse, hno]
  rw [h] at hyes
  cases hyes

/-- A reply that is said again and does not mislead. -/
theorem fit_repeated (h : l.misleads b x = false) (hrepeats : l.repeats b x = true)
    {device : Pd.Device} (ht : Bus.transact b l.panel x.rndA = (.ok f, p))
    (hprocessed : l.processed b x = some r) (hz : r.control.sequence ≠ 0)
    (hopen : Bus.openIfEstablished { p with misses := 0 } r =
      .ok ({ r with data := data }, { p with misses := 0, session := s })) :
    Bus.Fit device p r data := by
  have hopened := opened_eq ht hprocessed hz hopen
  have hcode : r.code ≠ Code.cCrypt ∧ r.code ≠ Code.rMacI := by
    constructor <;> intro hc <;> simp [misleads, hopened, hrepeats, hc] at h
  refine ⟨fun hm report hparse => ?_, fun hm => absurd hm hcode.1, fun hm => absurd hm hcode.2⟩
  exact report_of_misleads h hopened hm (.inl hrepeats) hparse

/-- **A reply that the device makes** is the one the panel waits for. -/
theorem fit_answered (hs : cfg.suite = some channel.suite)
    (hserver : ∀ keys a c, ∃ block, channel.suite.serverCryptogram keys a c = .ok block)
    (h : l.Honest channel cfg) (hkey : l.SameKey channel) (hno : l.misleads b x = false)
    {e : Pd.Device} (ht : Bus.transact b l.panel x.rndA = (.ok f, p))
    (hheard : l.device.heard f = true) (hreplays : l.device.replays x.now f = false)
    (hh : l.device.handle x.now x.rndB f = (.ok r, e)) (hr : l.device.Served x.now x.rndB f r e)
    (hprocessed : l.processed b x = some r) (hz : r.control.sequence ≠ 0)
    (hopen : Bus.openIfEstablished { p with misses := 0 } r =
      .ok ({ r with data := data }, { p with misses := 0, session := s })) :
    Bus.Fit e p r data := by
  have hstate : p.state = l.panel.state := by
    have hp := (Bus.transact_poised b h.panel x.rndA).2.2.1
    rwa [ht] at hp
  -- what the device was when it answered
  have hopening : (l.device.opening x.now f).cfg = cfg ∧
      (l.device.opening x.now f).pending = l.device.pending ∧
      (l.device.opening x.now f).key = l.device.key ∧
      (l.device.opening x.now f).capabilities = l.device.capabilities := by
    obtain ⟨s, c, q, v, n, ho⟩ := Pd.Device.opening_eq l.device x.now f
    rw [ho]
    exact ⟨h.device.configured, rfl, rfl, rfl⟩
  obtain ⟨hcfg, hpend, hown, hcaps⟩ := hopening
  have hcivil : (l.device.opening x.now f).Civil :=
    h.civil.of_cfg (hcfg.trans h.device.configured.symm)
  have hcode := hr.code
  cases Pd.Device.answerFor_said (d := l.device.opening x.now f) (hpend ▸ h.regular.pending) hcivil
    (hcfg ▸ hs) f f.control.sequence x.rndB with
  | challenged hf hb hchallenge ha =>
    obtain ⟨hst, hdata, s₀, hs₀, hps⟩ := Bus.transact_challenge h.panel ht hf hb
    obtain ⟨s₁, hs₁, hrole, hsuite, hbase⟩ := h.panel.handshake hst
    rw [hs₀] at hs₁
    cases hs₁
    obtain ⟨hrdata, hes⟩ := Pd.Device.handle_handshake h.device.settled hheard hreplays
      (by decide) ha hh
    rw [hkey] at hbase
    rw [hdata, hown] at hchallenge
    obtain ⟨crypt, s', hok, h1, h2, h3, hmated⟩ := Secure.Session.mated_of_challenge hrole
      hsuite.symm (Option.some.inj hbase) (hsuite ▸ hserver) hchallenge
    have hcode : r.code = Code.cCrypt := by rw [hcode, ha]
    refine ⟨fun hm => absurd (hcode.symm.trans hm) (by decide), fun _ => ?_,
      fun hm => absurd (hcode.symm.trans hm) (by decide)⟩
    exact ⟨hstate.trans hst, _, s', _, crypt, hps, by rw [hrdata]; exact hok, h1, h2, h3, hes,
      hmated⟩
  | proved hf hb hsession hproof ha =>
    obtain ⟨hst, hpending, hps⟩ := Bus.transact_cryptogram h.panel ht hf hb
    obtain ⟨s₁, hs₁, hrole, -, -⟩ := h.panel.handshake hst
    obtain ⟨s₂, t, hs₂, ht₂, hmated⟩ := h.mated hpending
    rw [hs₁] at hs₂
    cases hs₂
    obtain ⟨hrdata, hes⟩ := Pd.Device.handle_handshake h.device.settled hheard hreplays
      (by decide) ha hh
    have hsame := Pd.Device.opening_session hsession
    rw [ht₂] at hsame
    cases hsame
    obtain ⟨s', hok, hjoined⟩ := Secure.Session.joined_of_cryptogram hrole hmated hproof
    have hcode : r.code = Code.rMacI := by rw [hcode, ha]
    refine ⟨fun hm => absurd (hcode.symm.trans hm) (by decide),
      fun hm => absurd (hcode.symm.trans hm) (by decide), fun _ => ?_⟩
    exact ⟨hstate.trans hst, s₁, s', _, hps.trans hs₁, by rw [hrdata]; exact hok, hes, hjoined⟩
  | reported hpdcap hdata hblock =>
    rw [hpdcap] at hcode
    refine ⟨fun hm report hparse => ?_, fun hm => absurd (hcode.symm.trans hm) (by decide),
      fun hm => absurd (hcode.symm.trans hm) (by decide)⟩
    obtain hblock | ⟨block, hf, hest⟩ := hblock
    · -- in the clear it is what the device says of itself
      obtain ⟨-, hsame⟩ := Bus.openIfEstablished_clear (hr.security.trans hblock) hopen
      rw [show data = r.data from congrArg Frame.data hsame, hr.plain hblock, hdata, hcaps,
        parseCapabilities_append] at hparse
      cases hparse
      exact h.advertises.report
    · obtain ⟨-, hst⟩ := Bus.transact_secured h.panel.scripted ht hf hest
      exact report_of_misleads hno (opened_eq ht hprocessed hz hopen) hm (.inr hst) hparse
  | other hne =>
    rw [← hcode] at hne
    exact ⟨fun hm => absurd hm hne.2.2, fun hm => absurd hm hne.1, fun hm => absurd hm hne.2.1⟩

/-- **One exchange.** -/
theorem honest_exchange (hb : b.secure = some channel) (hs : cfg.suite = some channel.suite)
    (hserver : ∀ keys a c, ∃ block, channel.suite.serverCryptogram keys a c = .ok block)
    (h : l.Honest channel cfg) (hkey : l.SameKey channel) (hno : l.misleads b x = false) :
    l.Spared b x ∧ (l.exchange b x).2.Honest channel cfg := by
  have hcame : l.Came b x (l.exchange b x) := came (Bus.Device.isNumber_number h.number) x
  have hturn : Bus.Turn channel (l.exchange b x).2.device l.panel.state (l.exchange b x).1
      (l.exchange b x).2.panel := by
    obtain ⟨hp, hpending, hst, hbase⟩ := Bus.transact_poised b h.panel x.rndA
    have hkey' : ∃ key, (Bus.transact b l.panel x.rndA).2.baseKey channel.keys = some key :=
      ⟨_, hbase.trans hkey⟩
    generalize l.exchange b x = res at hcame ⊢
    cases hcame with
    | unasked ht =>
      rw [ht] at hp hpending
      exact Bus.turn_of_poised hp hpending (fun _ => nofun) fun _ => nofun
    | unheard ht =>
      rw [ht] at hp hpending
      exact Bus.timeout_turn hp hpending
    | failed ht =>
      rw [ht] at hp hpending
      exact Bus.timeout_turn hp hpending
    | @repeated f p ht hserving hheard hvalid hseq hprocessed hrepeats =>
      rw [ht] at hp hpending hst hkey'
      rw [(await_device b _ x _).1, ← show p.state = l.panel.state from hst]
      refine await_turn (l := { l with panel := p, device := l.device.noticed x.now }) hb hp hpending
        hkey' x fun r hr data s hreply haddr hz hopen => ?_
      rw [hr] at hprocessed
      exact fit_repeated hno hrepeats ht (by simp [hprocessed, Option.filter_some, hreply, haddr]) hz hopen
    | @answered f r p e ht hserving hheard hreplays hh hr hprocessed =>
      rw [ht] at hp hpending hst hkey'
      rw [(await_device b _ x _).1, ← show p.state = l.panel.state from hst]
      refine await_turn (l := { l with panel := p, device := e }) hb hp hpending
        hkey' x fun r' hr' data s hreply haddr hz hopen => ?_
      rw [hr'] at hprocessed
      have hsome : r' = r := by
        unfold Exchange.returns at hr'
        split at hr' <;> cases hr'
        rfl
      subst hsome
      exact fit_answered hs hserver h hkey hno ht hheard hreplays hh hr
        (by simp [hprocessed, Option.filter_some, hreply, haddr]) hz hopen
  refine ⟨⟨hturn.poised.undeclined, hturn.unfailed, hturn.joined⟩, ?_⟩
  have hdevice : (l.exchange b x).2.device.WellFormed cfg ∧ (l.exchange b x).2.device.Regular ∧
      (l.exchange b x).2.device.Advertises := by
    exact ⟨exchange_keeps b x h.device fun f => (Pd.Device.handle_wellFormed h.device _ _ f).1,
      exchange_keeps b x h.regular (Pd.Device.handle_regular h.regular _ _),
      exchange_keeps b x h.advertises (Pd.Device.handle_advertises h.advertises _ _)⟩
  obtain ⟨hwf, hreg, hadv⟩ := hdevice
  exact { panel := hturn.poised, number := exchange_number b h.number x, device := hwf,
          regular := hreg, civil := h.civil.of_cfg (hwf.configured.trans h.device.configured.symm),
          advertises := hadv, mated := hturn.mated }

end Exchange

/-! ## Runs -/

/-- The operation is an exchange that misleads the bus. -/
def misled (b : Bus) (l : Line) : LineOp → Bool
  | .exchange x => l.misleads b x
  | _ => false

/-- **Every step** that does not mislead keeps both ends honest. -/
theorem honest_step (hb : b.secure = some channel) (hs : cfg.suite = some channel.suite)
    (hserver : ∀ keys a c, ∃ block, channel.suite.serverCryptogram keys a c = .ok block)
    (h : l.Honest channel cfg) (hkey : l.SameKey channel) (op : LineOp)
    (hno : l.misled b op = false) :
    (∀ x, op = .exchange x → l.Spared b x) ∧ (l.step b op).Honest channel cfg := by
  cases op with
  | send m =>
    refine ⟨by rintro x ⟨⟩, ?_⟩
    obtain ⟨o, he⟩ := Bus.send_queue b l.panel m
    simp only [step, he]
    exact { h with panel := h.panel.of_queue _ _ _ _ }
  | installKey key =>
    refine ⟨by rintro x ⟨⟩, ?_⟩
    obtain ⟨o, k, he⟩ := Bus.installKey_queue l.panel key
    simp only [step, he]
    exact { h with panel := h.panel.of_queue _ _ _ _ }
  | report r =>
    refine ⟨by rintro x ⟨⟩, ?_⟩
    have hwf := Pd.Device.report_wellFormed h.device r
    have hreg := Pd.Device.report_regular h.regular r
    have hadv := Pd.Device.report_advertises h.advertises r
    obtain ⟨i, t, p, q, he⟩ := Pd.Device.report_device l.device r
    rw [he] at hwf hreg hadv
    simp only [step, he]
    exact { panel := h.panel, number := h.number, device := hwf, regular := hreg,
            civil := h.civil.of_cfg rfl, advertises := hadv, mated := h.mated }
  | exchange x =>
    obtain ⟨hspared, hnext⟩ := honest_exchange hb hs hserver h hkey hno
    refine ⟨?_, hnext⟩
    rintro _ ⟨⟩
    exact hspared

/-- A new line is honest. -/
theorem honest_new {a : Address} {d : Pd.Device} (hnew : Pd.new a cfg = .ok d)
    (hs : cfg.suite = some channel.suite) (hcivil : d.Civil)
    (haes : d.capabilities.secureChannel.1 = true) (addr : Address) :
    Honest channel cfg { panel := .new addr, device := d } where
  panel := ⟨rfl, Bus.Device.armed_plain ⟨nofun, nofun⟩, nofun, fun hp => absurd rfl hp, nofun⟩
  number := nofun
  device := Pd.Device.wellFormed_new hnew
  regular := Pd.Device.regular_new hnew
  civil := hcivil
  advertises := Pd.Device.advertises_new hnew (by rw [hs]; rfl) haes
  mated := fun hp => absurd rfl hp

end Line

/-- **An honest reader keeps its Secure Channel**, whatever the line loses, unless the bus takes a
reply that the reader made to an earlier question. Let a reader that offers AES-128 hold the
panel's base key throughout. If no exchange of a run misleads the bus, then none makes it decline
the Secure Channel or report that the handshake failed, and a session that comes up has the same
keys and the same reply chain at both ends. -/
theorem honest_reader_spared (b : Bus) {channel : Bus.SecureChannel} (hb : b.secure = some channel)
    (hserver : ∀ keys a c, ∃ block, channel.suite.serverCryptogram keys a c = .ok block)
    {a : Address} {cfg : Pd.Settings} {d : Pd.Device} (hnew : Pd.new a cfg = .ok d)
    (hs : cfg.suite = some channel.suite) (hcivil : d.Civil)
    (haes : d.capabilities.secureChannel.1 = true) (addr : Address) (ops : List LineOp)
    (hkey : ∀ q ∈ Run.trace (Line.step b) { panel := .new addr, device := d } ops,
      q.1.SameKey channel)
    (hno : ∀ q ∈ Run.trace (Line.step b) { panel := .new addr, device := d } ops,
      q.1.misled b q.2 = false) :
    ∀ q ∈ Run.trace (Line.step b) { panel := .new addr, device := d } ops,
      ∀ x, q.2 = .exchange x → q.1.Spared b x := by
  have hinv := (Run.invariant_of_trace (I := Line.Honest channel cfg)
    (C := fun l op => l.SameKey channel ∧ l.misled b op = false)
    (fun l op h hC => (Line.honest_step hb hs hserver h hC.1 op hC.2).2)
    (Line.honest_new hnew hs hcivil haes addr) ops fun q hq => ⟨hkey q hq, hno q hq⟩).1
  intro q hq x hx
  exact (Line.honest_step hb hs hserver (hinv q hq) (hkey q hq) q.2 (hno q hq)).1 x hx

namespace Line

instance (channel : Bus.SecureChannel) (l : Line) : Decidable (l.SameKey channel) :=
  inferInstanceAs (Decidable (_ = _))

/-- A suite whose cryptograms are the random octets they prove knowledge of. -/
def nonceSuite : CipherSuite where
  deriveSessionKeys base _ := .ok ⟨base, base, base⟩
  clientCryptogram _ rndA rndB := .ok (octetsAt 16 (rndA.toList ++ rndB.toList) 0)
  serverCryptogram _ rndA rndB := .ok (octetsAt 16 (rndB.toList ++ rndA.toList) 0)
  initialRMAC _ server := .ok server
  sealPayload _ _ plaintext := .ok plaintext
  openPayload _ _ ciphertext := .ok ciphertext
  mac _ chain _ := .ok (chain.map (· + 1))

def nonceChannel : Bus.SecureChannel := { suite := nonceSuite, keys := fun _ => some Secure.zeroBlock }

def nonceBus : Bus := { scheme := .checksum, secure := some nonceChannel }

def nonceSettings : Pd.Settings := { suite := some nonceSuite }

/-- The exchange with these random octets. -/
def nth (n : UInt8) (fate : Fate) : LineOp :=
  .exchange { rndA := List.Vector.replicate 8 n, rndB := List.Vector.replicate 8 (n + 100),
              fate := fate }

/-- The reader is enrolled; the answer to the first challenge is lost; the second challenge and the
server's cryptogram get through. -/
def retriedHandshakeOps : List LineOp :=
  [nth 1 .delivered, nth 2 .delivered, nth 3 .replyLost, nth 4 .delivered, nth 5 .delivered]

/-- The reader is enrolled; the first challenge is answered; the server's cryptogram and the second
challenge are lost; the third challenge gets through. -/
def restartedHandshakeOps : List LineOp :=
  [nth 1 .delivered, nth 2 .delivered, nth 3 .delivered, nth 4 .commandLost, nth 5 .commandLost]

end Line

/-- A handshake whose replies are lost once each. -/
theorem honest_reader_spared_retried :
    ∃ d, Pd.new 1 Line.nonceSettings = .ok d ∧
      (Line.retriedHandshakeOps.foldl (Line.step Line.nonceBus)
        { panel := .new 1, device := d }).panel.state = .secure ∧
      ∀ q ∈ Run.trace (Line.step Line.nonceBus) { panel := .new 1, device := d }
          Line.retriedHandshakeOps,
        ∀ x, q.2 = .exchange x → q.1.Spared Line.nonceBus x :=
  ⟨_, rfl, by decide +kernel,
    @honest_reader_spared Line.nonceBus Line.nonceChannel rfl (fun _ _ _ => ⟨_, rfl⟩) 1
      Line.nonceSettings _ rfl rfl (fun _ _ => rfl) rfl 1 Line.retriedHandshakeOps
      (by decide +kernel) (by decide +kernel)⟩

/-- The third challenge has the number of the first, so the reader answers it from its cache with
the cryptogram of the first. The bus declines the Secure Channel of a reader that holds its key,
two exchanges lost in a row. -/
theorem lost_cryptogram_declines_reader :
    ∃ d, Pd.new 1 Line.nonceSettings = .ok d ∧ d.capabilities.secureChannel.1 = true ∧
      (∀ q ∈ Run.trace (Line.step Line.nonceBus) { panel := .new 1, device := d }
          (Line.restartedHandshakeOps ++ [Line.nth 6 .delivered]),
        q.1.SameKey Line.nonceChannel) ∧
      let l := Line.restartedHandshakeOps.foldl (Line.step Line.nonceBus)
        { panel := .new 1, device := d }
      let res := l.exchange Line.nonceBus
        { rndA := List.Vector.replicate 8 6, rndB := List.Vector.replicate 8 106, fate := .delivered }
      l.panel.state = .secureHandshake ∧ l.panel.misses = 2 ∧ res.1 = some .secureFailed ∧
        res.2.panel.secureDeclined = true :=
  ⟨_, rfl, by decide +kernel, by decide +kernel, by decide +kernel⟩

end Osdp
