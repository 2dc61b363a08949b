import Osdp.Analysis.ChannelSpec
import Osdp.Analysis.Refusal

/-!
# The two ends of a Secure Channel stay together

A command is sealed from the code of the last reply and a reply from the code of the command it
answers, so each end must know which frame the other saw last. Between two exchanges the ends are in
step (`Line.InStep`), or the device is one reply ahead (`Line.Ahead`): it has answered a command whose
reply was lost, and the panel is to send the same frame again. Only commands the panel repeats can
leave the device ahead, which is why a lost reply to a poll is not covered.
-/

set_option autoImplicit false

namespace Osdp

open Osdp.Secure (Session Block Rnd)

namespace Line

/-- Both ends hold a session of the same keys, and the panel takes itself for secure. -/
structure Joined (l : Line) (s t : Session) : Prop where
  state : l.panel.state = .secure
  panel : l.panel.session = some s
  device : l.device.session = some t
  paired : s.Paired t

/-- The ends agree on the chain of the next command, and its number is not the cached one. -/
structure InStep (l : Line) (s t : Session) : Prop where
  chain : t.rmac = s.rmac
  fresh : l.panel.repeatSequence = true → l.device.cachedValid = true →
    l.device.cachedSeq ≠ l.panel.seq

/-- The device is one reply ahead: the panel is to send the same frame again, and the cached reply
opens in its session and takes it to where the device is. -/
structure Ahead (b : Bus) (l : Line) (s t : Session) : Prop where
  repeating : l.panel.repeatSequence = true
  holds : l.device.Holds (fun c => Code.enrols c = false) l.panel.seq l.panel.address
  sends : ∃ m f, l.panel.takes = some m ∧ ∀ rndA, ∃ e, Bus.transact b l.panel rndA = (.ok f, e) ∧
    e.session = l.panel.session
  opens : ∃ payload s', Bus.openReply s l.device.cached = .ok (payload, s') ∧ s'.rmac = t.rmac

/-- What holds between the exchanges of a Secure Channel. -/
structure Linked (b : Bus) (l : Line) : Prop where
  inflight : ∀ m, l.panel.inflight = some m → m.code ≠ Code.keySet
  sessions : ∃ s t, l.Joined s t ∧ s.suite.Lawful ∧ (l.InStep s t ∨ l.Ahead b s t)

/-- The exchanges the channel is kept through. The command does not end the session. A reply is lost
only if its command will be repeated. No command goes out for the first time under the number of the
cached reply. A command that arrives finds the device awake, and a strict device the number it
expects. -/
def undisturbed (l : Line) (x : Exchange) : Bool :=
  (l.panel.takes.all fun m => !Code.endsSession m.code) &&
  (l.panel.takes.isSome || x.fate != .replyLost) &&
  (l.panel.repeatSequence || !l.device.cachedValid || l.panel.number != l.device.cachedSeq) &&
  (x.fate == .commandLost || (!l.device.silent x.now &&
    (!l.device.cfg.strict || !l.device.cachedValid || l.panel.number == l.device.cachedSeq ||
      l.panel.number == Pd.nextSequence l.device.cachedSeq)))

/-- The same as a proposition. -/
structure Undisturbed (l : Line) (x : Exchange) : Prop where
  ordinary : Code.endsSession (l.panel.takes.getD Bus.Device.pollMessage).code = false
  repeated : x.fate = .replyLost → ∃ m, l.panel.takes = some m
  fresh : l.panel.repeatSequence = false → l.device.cachedValid = true →
    l.device.cachedSeq ≠ l.panel.number
  awake : x.fate ≠ .commandLost → l.device.silent x.now = false
  strict : x.fate ≠ .commandLost → l.device.cfg.strict = true → l.device.cachedValid = true →
    l.device.cachedSeq ≠ l.panel.number → l.panel.number = Pd.nextSequence l.device.cachedSeq

variable {l l' : Line} {x : Exchange} {m : Message} {s t s' : Session} {n : UInt8} {mac : Block}
  {payload : Octets}

/-- What the test of an exchange says. -/
theorem undisturbed_spec (h : l.undisturbed x = true) : l.Undisturbed x := by
  simp only [undisturbed, Bool.and_eq_true, Bool.or_eq_true, Bool.not_eq_true', bne_iff_ne, ne_eq,
    beq_iff_eq] at h
  obtain ⟨⟨⟨hcode, hlost⟩, hfresh⟩, hreached⟩ := h
  refine ⟨?_, fun hx => ?_, fun hrep hv he => ?_, fun hx => ?_, fun hx hs hv hne => ?_⟩
  · cases ht : l.panel.takes with
    | none => rfl
    | some m => simpa [ht] using hcode
  · rcases hlost with h | h
    · exact Option.isSome_iff_exists.mp h
    · exact absurd hx h
  · rcases hfresh with (h | h) | h
    · rw [hrep] at h
      cases h
    · rw [hv] at h
      cases h
    · exact h he.symm
  · rcases hreached with h | h
    · exact absurd h hx
    · exact h.1
  · rcases hreached with h | ⟨-, ((h | h) | h) | h⟩
    · exact absurd h hx
    · rw [hs] at h
      cases h
    · rw [hv] at h
      cases h
    · exact absurd h.symm hne
    · exact h

/-- What an exchange must not break: a command that is heard is answered from the cache or opens, a
reply that comes back opens, and both ends keep their session. -/
structure Kept (b : Bus) (l : Line) (x : Exchange) : Prop where
  command : ∀ f p, Bus.transact b l.panel x.rndA = (.ok f, p) → l.serving = true →
    x.fate ≠ .commandLost → l.device.heard f = true →
    l.device.replays x.now f = true ∨ ∃ block t payload t', f.security = some block ∧
      l.device.session = some t ∧ Pd.Device.openCommand t f block = .ok (payload, t')
  reply : ∀ f p r, Bus.transact b l.panel x.rndA = (.ok f, p) →
    ({ l with panel := p }.carry x f).1 = some r →
    ∃ s payload s', p.session = some s ∧ Bus.openReply s r = .ok (payload, s')
  state : (l.exchange b x).2.panel.state = .secure
  panel : (l.exchange b x).2.panel.session.any Session.established = true
  device : (l.exchange b x).2.device.session.any Session.established = true

/-! ## The panel asks -/

section Exchange

variable {b : Bus} {l : Line} {x : Exchange} {f : Frame} {p : Bus.Device}

/-- What a command sent in an undisturbed exchange bears, and what it leaves of the panel. -/
structure Sent (l : Line) (f : Frame) (p : Bus.Device) : Prop where
  number : f.control.sequence = l.panel.number
  address : f.address = l.panel.address
  code : Code.endsSession f.code = false
  seq : p.seq = l.panel.number
  repeatSequence : p.repeatSequence = false
  panelAddress : p.address = l.panel.address
  state : p.state = .secure
  inflight : ∀ m, p.inflight = some m → m.code ≠ Code.keySet

/-- An undisturbed exchange takes no key. -/
theorem keySet_of_ordinary (hx : l.Undisturbed x) (h : l.panel.takes = some m) :
    m.code ≠ Code.keySet := by
  have hcode := hx.ordinary
  rw [h] at hcode
  simp only [Option.getD_some, Code.endsSession, Bool.or_eq_false_iff, beq_eq_false_iff_ne,
    ne_eq] at hcode
  exact hcode.2

/-- Nor does it leave one in flight. -/
theorem inflight_of_asked (hx : l.Undisturbed x)
    (hin : ∀ m, l.panel.inflight = some m → m.code ≠ Code.keySet) {p : Bus.Device}
    (h : Bus.Asked l.panel p s) : ∀ m, p.inflight = some m → m.code ≠ Code.keySet := by
  intro m hm
  rw [h.inflight] at hm
  cases ht : l.panel.takes with
  | none =>
    rw [ht] at hm
    exact hin m hm
  | some q =>
    rw [ht] at hm
    cases hm
    exact keySet_of_ordinary hx ht

/-- What an undisturbed panel sends over the channel. -/
theorem sent_of_transact (hn : IsNumber l.panel.number) (hx : l.Undisturbed x)
    (hin : ∀ m, l.panel.inflight = some m → m.code ≠ Code.keySet) (hst : l.panel.state = .secure)
    (hs : l.panel.session = some s) (h : Bus.transact b l.panel x.rndA = (.ok f, p)) :
    l.Sent f p := by
  have hc := Bus.transact_ok h
  have hnum := Bus.commandFor_number l.panel x.rndA
  obtain ⟨block, mac, -, -, hcode, hasked⟩ := Bus.transact_sealed hst hs h
  have haddr := Bus.transact_address b l.panel x.rndA
  rw [h] at haddr
  exact {
    number := by rw [hc.number (hnum ▸ hn.le), hnum]
    address := hc.address.trans (Bus.commandFor_address l.panel x.rndA)
    code := by rw [hcode]; exact hx.ordinary
    seq := hc.seq.trans hnum
    repeatSequence := hc.repeatSequence
    panelAddress := haddr
    state := hasked.state
    inflight := inflight_of_asked hx hin hasked }

/-- A device that hears a command of an enrolled panel has the panel's address. -/
theorem address_of_heard (hsound : l.Sound) (hst : l.panel.state = .secure)
    (ha : f.address = l.panel.address) (h : l.device.heard f = true) :
    l.device.address = l.panel.address := by
  have hown : l.panel.address ≠ broadcastAddress := hsound.enrolled (by rw [hst]; decide)
  simp only [Pd.Device.heard, Pd.Device.addressed, ha, Bool.and_eq_true, Bool.or_eq_true,
    beq_iff_eq] at h
  rcases h.2 with h | ⟨-, h⟩
  · exact h.symm
  · exact absurd h hown

/-! ## The device's turn in step -/

/-- What the device's turn comes to when the ends are in step: the chain of the next command stays
where it was, or the device holds a reply that opens with the chain of this one. -/
inductive Answered (x : Exchange) (l l' : Line) (n : UInt8) (t : Session) (mac : Block) (r : Option Frame) : Prop
  | silent (t' : Session) (hs : l'.device.session = some t') (ht : t' = t ∨ t' = t.commit true mac)
      (hseq : l'.device.cachedSeq = l.device.cachedSeq)
      (hvalid : l'.device.cachedValid = l.device.cachedValid) (hr : r = none)
  | sealed (block : SecurityBlock) (plain : Octets) (mac' : Block)
      (haddr : l.device.address = l.panel.address)
      (hholds : l'.device.Holds (fun c => Code.enrols c = false) n l.panel.address)
      (hsealed : Sealed (t.commit true mac) false block plain mac' l'.device.cached)
      (hs : l'.device.session = some ((t.commit true mac).commit false mac'))
      (hr : (r = none ∧ x.fate = .replyLost) ∨ r = some l'.device.cached)

/-- An answer may be lost on its way. -/
theorem Answered.lose {r : Option Frame} (h : Answered x l l' n t mac r)
    (hlost : x.fate = .replyLost) : Answered x l l' n t mac none := by
  cases h with
  | silent t' hs ht hseq hvalid _ => exact .silent t' hs ht hseq hvalid rfl
  | sealed block plain mac' haddr hholds hsealed hs _ =>
    exact .sealed block plain mac' haddr hholds hsealed hs (.inl ⟨rfl, hlost⟩)

/-- The next number is not the cached one. -/
theorem fresh_number (h : l.InStep s t) (hx : l.Undisturbed x) (hv : l.device.cachedValid = true) :
    l.device.cachedSeq ≠ l.panel.number := by
  cases hrep : l.panel.repeatSequence with
  | false => exact hx.fresh hrep hv
  | true =>
    simp only [Bus.Device.number, hrep, if_true]
    exact h.fresh hrep hv

/-- **The device's turn in step.** -/
theorem carry_inStep (hsound : l.Sound) (hreg : l.device.Regular) (hh : l.device.Civil)
    (hj : l.Joined s t) (hlaw : s.suite.Lawful) (hstep : l.InStep s t) (hx : l.Undisturbed x)
    (hsent : l.Sent f p) {block : SecurityBlock} {plain : Octets}
    (hblock : block.type = Secure.scs15 ∨ block.type = Secure.scs17)
    (hf : Sealed s true block plain mac f) :
    Answered x l ({ l with panel := p }.carry x f).2 l.panel.number t mac
      ({ l with panel := p }.carry x f).1 := by
  have hsuite : l.device.secureEnabled = true := by
    cases hs : l.device.cfg.suite with
    | none =>
      have hnone := hreg.keyed hs
      rw [hj.device] at hnone
      cases hnone
    | some suite => simp [Pd.Device.secureEnabled, hs]
  have hn : IsNumber f.control.sequence := hsent.number ▸ hsound.isNumber
  have hserve : x.fate ≠ .commandLost → Answered x l ({ l with panel := p }.serve x f).2 l.panel.number
      t mac ({ l with panel := p }.serve x f).1 := by
    intro hfate
    unfold serve
    cases hserving : l.serving with
    | false =>
      simp only [Bool.false_eq_true, if_false]
      exact .silent t hj.device (.inl rfl) rfl rfl rfl
    | true =>
      simp only [if_true]
      cases hheard : l.device.heard f with
      | false =>
        obtain ⟨-, e, -, he⟩ | ⟨h, -⟩ | ⟨h, -⟩ := Pd.Device.handle_cases l.device x.now x.rndB f
        · rw [he]
          exact .silent t hj.device (.inl rfl) rfl rfl rfl
        · rw [hheard] at h
          cases h
        · rw [hheard] at h
          cases h
      | true =>
        have hawake := hx.awake hfate
        have hrep : l.device.replays x.now f = false := by
          simp only [Pd.Device.replays, Pd.Device.observe_of_not_silent hawake, hsent.number]
          cases hv : l.device.cachedValid with
          | false => simp [Pd.Device.noticed, hv]
          | true => simp [Pd.Device.noticed, (fresh_number hstep hx hv).symm]
        have hstrict : l.device.cfg.strict = true → l.device.cachedValid = true →
            f.control.sequence = Pd.nextSequence l.device.cachedSeq := fun hs hv => by
          rw [hsent.number]
          exact hx.strict hfate hs hv (fresh_number hstep hx hv)
        obtain ⟨hrun, hhandle⟩ := Pd.Device.handle_sealed hlaw hj.paired hstep.chain hj.device hsuite
          hsound.device.settled hreg.pending hh hf hblock hsent.code hn.ne_zero hawake hheard hrep
          hstrict x.rndB
        have haddr := address_of_heard hsound hj.state hsent.address hheard
        obtain ⟨err, e, he, hs, hseq, hvalid⟩ | ⟨g, e, block', plain', mac', he, hsealed, hs⟩ := hhandle
        · rw [he]
          exact .silent _ hs (.inr rfl) hseq hvalid rfl
        · have hok : ∀ s', Code.enrols ({ l.device.opening x.now f with session := s' }.dispatch f.code
              plain true).1.code = false := by
            intro s'
            obtain ⟨_, c, q, v, n, ho⟩ := Pd.Device.opening_eq l.device x.now f
            refine (Pd.Device.dispatch_ordinary ?_ ?_ hsent.code plain true).1
            · rw [ho]
              exact hreg.pending
            · rw [ho]
              exact hh
          obtain ⟨-, ⟨err, e', he', -⟩ | ⟨e', he', hholds⟩⟩ :=
            Pd.Device.handle_dispatched (P := fun c => Code.enrols c = false) hn hrun x.rndB hok
          · rw [he] at he'
            cases he'
          · rw [he] at he'
            cases he'
            rw [he]
            rw [hsent.number, haddr] at hholds
            exact .sealed block' plain' mac' haddr hholds hsealed hs (.inr rfl)
  unfold carry
  split
  · exact .silent t hj.device (.inl rfl) rfl rfl rfl
  · rename_i hfate
    exact (hserve (by rw [hfate]; decide)).lose hfate
  · rename_i hfate
    exact hserve (by rw [hfate]; decide)

/-! ## The panel's turn -/

/-- An exchange in which the panel asks. -/
theorem exchange_ok (h : Bus.transact b l.panel x.rndA = (.ok f, p)) :
    l.exchange b x = ({ l with panel := p }.carry x f).2.await b x ({ l with panel := p }.carry x f).1 := by
  simp only [exchange, h]

/-- A silence that is not the third leaves the panel where it was, with the number to be repeated. -/
theorem await_silence (hevent : (l'.await b x none).1 ≠ some .offline) :
    (l'.await b x none).2.panel = (Bus.timeout l'.panel).2 ∧ (Bus.timeout l'.panel).1 ≠ .offline :=
  ⟨rfl, fun hoff => hevent (by simp only [await, silence, hoff])⟩

/-- Silence leaves the two ends joined unless the device goes offline. -/
theorem joined_of_silence (hst : l'.panel.state = .secure) (hs : l'.panel.session = some s)
    (ht : l'.device.session = some t) (hp : s.Paired t)
    (hevent : (l'.await b x none).1 ≠ some .offline) : (l'.await b x none).2.Joined s t := by
  obtain ⟨hpanel, honline⟩ := await_silence hevent
  obtain ⟨hstate, hsession, -⟩ := Bus.timeout_keeps honline
  exact ⟨by rw [hpanel, hstate, hst], by rw [hpanel, hsession, hs], ht, hp⟩

/-- And then leaves nothing in flight. -/
theorem inflight_of_silence (hevent : (l'.await b x none).1 ≠ some .offline) :
    ∀ m, (l'.await b x none).2.panel.inflight = some m → m.code ≠ Code.keySet := by
  obtain ⟨hpanel, honline⟩ := await_silence hevent
  obtain ⟨-, -, hin, -⟩ := Bus.timeout_keeps honline
  intro m hm
  rw [hpanel, hin] at hm
  cases hm

/-- A lost reply to a command that will be repeated leaves the device ahead. -/
theorem ahead_of_silence (hp : l'.panel = p) (h : Bus.transact b l.panel x.rndA = (.ok f, p))
    (ht : l.panel.takes = some m) (hm : m.code ≠ Code.keySet)
    (hholds : l'.device.Holds (fun c => Code.enrols c = false) l.panel.number l.panel.address)
    (hopen : Bus.openReply s l'.device.cached = .ok (payload, s')) (hrmac : s'.rmac = t.rmac)
    (hevent : (l'.await b x none).1 ≠ some .offline) : (l'.await b x none).2.Ahead b s t := by
  obtain ⟨hpanel, honline⟩ := await_silence hevent
  rw [hp] at hpanel honline
  have hret := Bus.retried_of_timeout ht hm h honline
  refine ⟨by rw [hpanel]; exact hret.repeatSequence, ?_, ?_, payload, s', hopen, hrmac⟩
  · rw [hpanel, hret.seq, hret.address]
    exact hholds
  · rw [hpanel]
    exact ⟨m, f, hret.takes, hret.again⟩

/-- A cached reply that opens brings the ends in step. -/
theorem linked_of_reply {a : Address} (hlaw : s.suite.Lawful) (hst : l'.panel.state = .secure)
    (hs : l'.panel.session = some s) (ht : l'.device.session = some t) (hp : s.Paired t)
    (hrep : l'.panel.repeatSequence = false)
    (hin : ∀ m, l'.panel.inflight = some m → m.code ≠ Code.keySet)
    (hholds : l'.device.Holds (fun c => Code.enrols c = false) n a) (hz : n ≠ 0)
    (haddr : a = l'.panel.address) (hopen : Bus.openReply s l'.device.cached = .ok (payload, s'))
    (hrmac : s'.rmac = t.rmac) : (l'.await b x (some l'.device.cached)).2.Linked b := by
  obtain ⟨hstate, hsession, hinflight, hrepeat⟩ := await_opened b hst hs hp.established hrep hin
    hholds.isReply (hholds.address.trans haddr) (by rw [hholds.number]; exact hz) hholds.code hopen x
  obtain ⟨mac, rfl⟩ := Bus.openReply_ok hopen
  have hdevice := (await_device b l' x (some l'.device.cached)).1
  refine ⟨fun m hm => ?_, s.commit false mac, t, ⟨hstate, hsession, ?_, hp.commit_left _ _⟩, hlaw,
    .inl ⟨hrmac.symm, fun h => ?_⟩⟩
  · rw [hinflight] at hm
    cases hm
  · rw [hdevice, ht]
  · rw [hrepeat] at h
    cases h

/-! ## One exchange -/

/-- A linked line has both sessions established. -/
theorem established_of_linked (h : l'.Linked b) : l'.panel.state = .secure ∧
    l'.panel.session.any Session.established = true ∧
    l'.device.session.any Session.established = true := by
  obtain ⟨-, s, t, hj, -⟩ := h
  refine ⟨hj.state, ?_, ?_⟩
  · rw [hj.panel]
    exact hj.paired.established
  · rw [hj.device]
    exact hj.paired.peer

/-- A command that could not be sealed leaves the ends in step. -/
theorem linked_of_error (hj : l.Joined s t) (hlaw : s.suite.Lawful) (hstep : l.InStep s t)
    (hx : l.Undisturbed x) (hin : ∀ m, l.panel.inflight = some m → m.code ≠ Code.keySet)
    {err : Bus.Error} (h : Bus.transact b l.panel x.rndA = (.error err, p)) :
    { l with panel := p }.Linked b := by
  have hasked := Bus.transact_unsealed hj.state hj.panel h
  have hnumber := Bus.transact_number b l.panel x.rndA
  rw [h] at hnumber
  refine ⟨inflight_of_asked hx hin hasked, s, t, ⟨hasked.state, hasked.session, hj.device, hj.paired⟩,
    hlaw, .inl ⟨hstep.chain, fun hrep hv => ?_⟩⟩
  rcases hnumber with ⟨-, hno⟩ | ⟨hseq, hsame⟩
  · rw [show p.repeatSequence = true from hrep] at hno
    cases hno
  · show l.device.cachedSeq ≠ p.seq
    rw [hseq]
    exact hstep.fresh (hsame.symm.trans hrep) hv

/-- **An exchange that starts in step.** -/
theorem kept_of_inStep (hsound : l.Sound) (hreg : l.device.Regular) (hh : l.device.Civil)
    (hj : l.Joined s t) (hlaw : s.suite.Lawful) (hstep : l.InStep s t)
    (hin : ∀ m, l.panel.inflight = some m → m.code ≠ Code.keySet) (hx : l.Undisturbed x)
    (hevent : (l.exchange b x).1 ≠ some .offline) (h : Bus.transact b l.panel x.rndA = (.ok f, p)) :
    (∃ block payload t', f.security = some block ∧
      Pd.Device.openCommand t f block = .ok (payload, t')) ∧
    (∀ r, ({ l with panel := p }.carry x f).1 = some r →
      ∃ s payload s', p.session = some s ∧ Bus.openReply s r = .ok (payload, s')) ∧
    (l.exchange b x).2.Linked b := by
  obtain ⟨block, mac, hblock, hsealed, -, hasked⟩ := Bus.transact_sealed hj.state hj.panel h
  have hsent := sent_of_transact hsound.isNumber hx hin hj.state hj.panel h
  have hp := (carry_spec (l := { l with panel := p }) hsound.device x f).1
  have hcarry := carry_inStep hsound hreg hh hj hlaw hstep hx hsent hblock hsealed
  have hlaw' : (s.commit true mac).suite.Lawful := hlaw
  refine ⟨⟨block, _, _, hsealed.security, hsealed.opens hlaw hj.paired hstep.chain⟩, ?_⟩
  rw [exchange_ok h] at hevent ⊢
  generalize hres : { l with panel := p }.carry x f = res at hp hcarry hevent
  obtain ⟨r, l'⟩ := res
  simp only at hp hcarry hevent ⊢
  have hstate : l'.panel.state = .secure := by rw [hp]; exact hasked.state
  have hsession : l'.panel.session = some (s.commit true mac) := by rw [hp]; exact hasked.session
  cases hcarry with
  | silent t' hs ht hseq hvalid hr =>
    subst hr
    have hpair : (s.commit true mac).Paired t' := by
      rcases ht with rfl | rfl
      · exact hj.paired.commit_left true mac
      · exact (hj.paired.commit_left true mac).commit_right true mac
    have hchain : t'.rmac = s.rmac := by
      rcases ht with rfl | rfl <;> exact hstep.chain
    obtain ⟨hpanel, honline⟩ := await_silence hevent
    obtain ⟨-, -, -, hsame, -⟩ := Bus.timeout_keeps honline
    refine ⟨fun r hr => (by cases hr), inflight_of_silence hevent, _, t',
      joined_of_silence hstate hsession hs hpair hevent, hlaw', .inl ⟨hchain, fun _ hv => ?_⟩⟩
    show l'.device.cachedSeq ≠ _
    rw [hpanel, hsame, hp, hsent.seq, hseq]
    exact fresh_number hstep hx (hvalid.symm.trans hv)
  | sealed block' plain' mac' haddr hholds hreply hs hr =>
    have hpair : (s.commit true mac).Paired ((t.commit true mac).commit false mac') :=
      ((hj.paired.commit_left true mac).commit_right true mac).commit_right false mac'
    have hopen : Bus.openReply (s.commit true mac) l'.device.cached =
        .ok (plain', (s.commit true mac).commit false mac') := by
      rw [openReply_eq _ hreply.security]
      refine hreply.opens ?_ ((hj.paired.commit_left true mac).commit_right true mac).symm rfl
      show t.suite.Lawful
      rw [hj.paired.suite]
      exact hlaw
    refine ⟨fun r' hr' => ?_, ?_⟩
    · rcases hr with ⟨rfl, -⟩ | rfl
      · cases hr'
      · cases hr'
        exact ⟨_, _, _, hasked.session, hopen⟩
    · rcases hr with ⟨rfl, hlost⟩ | rfl
      · -- the reply was lost, so the command is one the panel repeats
        obtain ⟨m, hm⟩ := hx.repeated hlost
        exact ⟨inflight_of_silence hevent, _, _,
          joined_of_silence hstate hsession hs hpair hevent, hlaw',
          .inr (ahead_of_silence hp h hm (keySet_of_ordinary hx hm) hholds hopen rfl hevent)⟩
      · refine linked_of_reply hlaw' hstate hsession hs hpair ?_ ?_ hholds hsound.isNumber.ne_zero ?_
          hopen rfl
        · rw [hp]
          exact hsent.repeatSequence
        · rw [hp]
          exact hsent.inflight
        · rw [hp, hsent.panelAddress]

/-- **An exchange that starts with the device ahead.** -/
theorem kept_of_ahead (hsound : l.Sound) (hj : l.Joined s t) (hlaw : s.suite.Lawful)
    (hahead : l.Ahead b s t) (hin : ∀ m, l.panel.inflight = some m → m.code ≠ Code.keySet)
    (hx : l.Undisturbed x) (hevent : (l.exchange b x).1 ≠ some .offline) :
    ∃ f p, Bus.transact b l.panel x.rndA = (.ok f, p) ∧
      (x.fate ≠ .commandLost → l.device.replays x.now f = true) ∧
      (∀ r, ({ l with panel := p }.carry x f).1 = some r →
        ∃ s payload s', p.session = some s ∧ Bus.openReply s r = .ok (payload, s')) ∧
      (l.exchange b x).2.Linked b := by
  obtain ⟨m, f, hm, hsends⟩ := hahead.sends
  obtain ⟨p, h, hsession⟩ := hsends x.rndA
  obtain ⟨payload, s', hopen, hrmac⟩ := hahead.opens
  rw [hj.panel] at hsession
  have hsent := sent_of_transact hsound.isNumber hx hin hj.state hj.panel h
  have hnumber : l.panel.number = l.panel.seq := by
    simp only [Bus.Device.number, hahead.repeating, if_true]
  have hz : l.panel.seq ≠ 0 := hnumber ▸ hsound.isNumber.ne_zero
  have hseq : f.control.sequence = l.panel.seq := hsent.number.trans hnumber
  refine ⟨f, p, h, fun hfate => ?_, ?_⟩
  · simp [Pd.Device.replays, Pd.Device.observe_of_not_silent (hx.awake hfate), Pd.Device.noticed, hseq,
      hz, hahead.holds.valid, hahead.holds.seq]
  have hp := (carry_spec (l := { l with panel := p }) hsound.device x f).1
  obtain ⟨hdevice, hr⟩ := carry_again (l := { l with panel := p }) hahead.holds hz x hseq
    fun _ hfate _ => hx.awake hfate
  rw [exchange_ok h] at hevent ⊢
  generalize { l with panel := p }.carry x f = res at hp hdevice hr hevent ⊢
  obtain ⟨r, l'⟩ := res
  simp only at hp hdevice hr hevent ⊢
  have hstate : l'.panel.state = .secure := by rw [hp]; exact hsent.state
  have hpanel : l'.panel.session = some s := by rw [hp]; exact hsession
  have hdev : l'.device.session = some t ∧ l'.device.cached = l.device.cached ∧
      l'.device.Holds (fun c => Code.enrols c = false) l.panel.number l.panel.address := by
    rw [hnumber]
    rcases hdevice with he | he
    · rw [he]
      exact ⟨hj.device, rfl, hahead.holds⟩
    · rw [he]
      have hh := hahead.holds
      exact ⟨hj.device, rfl, ⟨hh.valid, hh.seq, hh.isReply, hh.address, hh.number, hh.code⟩⟩
  obtain ⟨hs, hcached, hholds⟩ := hdev
  rw [← hcached] at hopen hr
  refine ⟨fun r' hr' => ?_, ?_⟩
  · rcases hr with rfl | rfl
    · cases hr'
    · cases hr'
      exact ⟨s, payload, s', hsession, hopen⟩
  · rcases hr with rfl | rfl
    · exact ⟨inflight_of_silence hevent, s, t, joined_of_silence hstate hpanel hs hj.paired hevent, hlaw,
        .inr (ahead_of_silence hp h hm (keySet_of_ordinary hx hm) hholds hopen hrmac hevent)⟩
    · refine linked_of_reply hlaw hstate hpanel hs hj.paired ?_ ?_ hholds hsound.isNumber.ne_zero ?_
        hopen hrmac
      · rw [hp]
        exact hsent.repeatSequence
      · rw [hp]
        exact hsent.inflight
      · rw [hp, hsent.panelAddress]

/-- **An undisturbed exchange keeps the channel.** -/
theorem linked_exchange (hsound : l.Sound) (hreg : l.device.Regular) (hh : l.device.Civil)
    (h : l.Linked b) (hx : l.Undisturbed x) (hevent : (l.exchange b x).1 ≠ some .offline) :
    l.Kept b x ∧ (l.exchange b x).2.Linked b := by
  obtain ⟨hin, s, t, hj, hlaw, hstep | hahead⟩ := h
  · cases hnext : Bus.transact b l.panel x.rndA with
    | mk r p =>
      cases r with
      | error err =>
        have hlinked : (l.exchange b x).2.Linked b := by
          simp only [exchange, hnext]
          exact linked_of_error hj hlaw hstep hx hin hnext
        obtain ⟨hstate, hpanel, hdevice⟩ := established_of_linked hlinked
        refine ⟨⟨fun f p' hok => ?_, fun f p' r hok => ?_, hstate, hpanel, hdevice⟩, hlinked⟩
        · rw [hnext] at hok
          cases hok
        · rw [hnext] at hok
          cases hok
      | ok f =>
        obtain ⟨⟨block, payload, t', hsec, hopen⟩, hreply, hlinked⟩ :=
          kept_of_inStep hsound hreg hh hj hlaw hstep hin hx hevent hnext
        obtain ⟨hstate, hpanel, hdevice⟩ := established_of_linked hlinked
        refine ⟨⟨fun f' p' hok _ _ _ => ?_, fun f' p' r hok => ?_, hstate, hpanel, hdevice⟩, hlinked⟩
        · rw [hnext] at hok
          cases hok
          exact .inr ⟨block, t, payload, t', hsec, hj.device, hopen⟩
        · rw [hnext] at hok
          cases hok
          exact hreply r
  · obtain ⟨f, p, hnext, hreplay, hreply, hlinked⟩ := kept_of_ahead hsound hj hlaw hahead hin hx hevent
    obtain ⟨hstate, hpanel, hdevice⟩ := established_of_linked hlinked
    refine ⟨⟨fun f' p' hok _ hfate _ => ?_, fun f' p' r hok => ?_, hstate, hpanel, hdevice⟩, hlinked⟩
    · rw [hnext] at hok
      cases hok
      exact .inl (hreplay hfate)
    · rw [hnext] at hok
      cases hok
      exact hreply r

end Exchange

end Line

/-! ## Runs -/

namespace Journal

/-- What the ends of a line that was run from its start keep, whatever happened on it. -/
structure Grounded (cfg : Pd.Settings) (j : Journal) : Prop where
  sound : j.line.Sound
  regular : j.line.device.Regular
  cfg : j.line.device.cfg = cfg

variable {b : Bus} {cfg : Pd.Settings} {j : Journal} {l : Line}

/-- Every operation keeps the ground. -/
theorem grounded_step (h : j.Grounded cfg) (op : LineOp) : (j.step b op).Grounded cfg := by
  cases op with
  | send m =>
    rcases j.step_send b m with hstep | hstep
    · rw [hstep]
      exact h
    · rw [hstep]
      exact ⟨⟨h.sound.number, h.sound.enrolled, h.sound.device⟩, h.regular, h.cfg⟩
  | installKey key =>
    rcases j.step_installKey b key with hstep | ⟨-, hstep⟩
    · rw [hstep]
      exact h
    · rw [hstep]
      exact ⟨⟨h.sound.number, h.sound.enrolled, h.sound.device⟩, h.regular, h.cfg⟩
  | report r =>
    have hreg := Pd.Device.report_regular h.regular r
    obtain ⟨i, t, w, p, he⟩ := Pd.Device.report_device j.line.device r
    have hline : (j.step b (.report r)).line =
        { j.line with device := (j.line.device.report r).2 } := rfl
    rw [he] at hreg hline
    refine ⟨?_, by rw [hline]; exact hreg, by rw [hline]; exact h.cfg⟩
    rw [hline]
    exact ⟨h.sound.number, h.sound.enrolled,
      ⟨h.sound.device.address, h.sound.device.cached, h.sound.device.settled⟩⟩
  | exchange x =>
    refine ⟨Line.sound_exchange b h.sound x, ?_, ?_⟩
    · exact Line.exchange_keeps b x h.regular (Pd.Device.handle_regular h.regular _ _)
    · exact Line.exchange_keeps (P := fun d => d.cfg = _) b x h.cfg fun f =>
        (Pd.Device.handle_settled h.sound.device.settled _ _ f).2.trans h.cfg

/-- A new line is grounded. -/
theorem grounded_new (addr : Address) {addr' : Address} {d : Pd.Device}
    (h : Pd.new addr' cfg = .ok d) : (new addr d).Grounded d.cfg where
  sound := ⟨by simp [new, Bus.Device.new], fun hoff => absurd rfl hoff, Pd.Device.unicast_new h⟩
  regular := Pd.Device.regular_new h
  cfg := rfl

/-- What the application does between two exchanges leaves the channel alone. -/
theorem linked_enqueue (h : l.Linked b) (key : Option Secure.BaseKey) (m : Message) :
    { l with panel := { l.panel with pendingKey := key }.enqueue m }.Linked b := by
  obtain ⟨hin, s, t, hj, hlaw, hstep | hahead⟩ := h
  · exact ⟨hin, s, t, ⟨hj.state, hj.panel, hj.device, hj.paired⟩, hlaw, .inl ⟨hstep.chain, hstep.fresh⟩⟩
  · obtain ⟨q, f, ht, hagain⟩ := hahead.sends
    have ht' : ({ l.panel with pendingKey := key }.enqueue m).takes = some q := takes_enqueue ht m
    refine ⟨hin, s, t, ⟨hj.state, hj.panel, hj.device, hj.paired⟩, hlaw,
      .inr ⟨hahead.repeating, hahead.holds, ⟨q, f, ht', fun rndA => ?_⟩, hahead.opens⟩⟩
    obtain ⟨e, he, hse⟩ := hagain rndA
    exact ⟨_, Bus.transact_again ht he ht' rfl rfl rfl (.inl rfl) rndA, hse⟩

/-- A report leaves the line linked. -/
theorem linked_report (h : l.Linked b) (r : Pd.Report) :
    { l with device := (l.device.report r).2 }.Linked b := by
  obtain ⟨i, tamper, w, p, he⟩ := Pd.Device.report_device l.device r
  rw [he]
  obtain ⟨hin, s, t, hj, hlaw, hstep | hahead⟩ := h
  · exact ⟨hin, s, t, ⟨hj.state, hj.panel, hj.device, hj.paired⟩, hlaw, .inl ⟨hstep.chain, hstep.fresh⟩⟩
  · have hh := hahead.holds
    exact ⟨hin, s, t, ⟨hj.state, hj.panel, hj.device, hj.paired⟩, hlaw,
      .inr ⟨hahead.repeating, ⟨hh.valid, hh.seq, hh.isReply, hh.address, hh.number, hh.code⟩,
        hahead.sends, hahead.opens⟩⟩

/-- A step that is no exchange, or an undisturbed one that does not end in the panel giving the
device up. -/
def smooth (b : Bus) (j : Journal) : LineOp → Bool
  | .exchange x => j.line.undisturbed x && (j.line.exchange b x).1 != some .offline
  | _ => true

/-- Both ends hold an established session, and an exchange has not broken it. -/
def Unbroken (b : Bus) (j : Journal) (op : LineOp) : Prop :=
  (∀ x, op = .exchange x → j.line.Kept b x) ∧ (j.step b op).line.panel.state = .secure ∧
    (j.step b op).line.panel.session.any Session.established = true ∧
    (j.step b op).line.device.session.any Session.established = true

/-- **Every smooth operation** keeps the line linked. -/
theorem linked_step (hg : j.Grounded cfg) (hh : j.line.device.Civil) (h : j.line.Linked b)
    {op : LineOp} (hop : j.smooth b op = true) :
    (∀ x, op = .exchange x → j.line.Kept b x) ∧ (j.step b op).line.Linked b := by
  cases op with
  | send m =>
    refine ⟨fun x hx => (by cases hx), ?_⟩
    rcases j.step_send b m with hstep | hstep
    · rw [hstep]
      exact h
    · rw [hstep]
      exact linked_enqueue h j.line.panel.pendingKey m
  | installKey key =>
    refine ⟨fun x hx => (by cases hx), ?_⟩
    rcases j.step_installKey b key with hstep | ⟨-, hstep⟩
    · rw [hstep]
      exact h
    · rw [hstep]
      exact linked_enqueue h (some key) _
  | report r => exact ⟨fun x hx => (by cases hx), linked_report h r⟩
  | exchange x =>
    obtain ⟨hx, hevent⟩ : j.line.undisturbed x = true ∧ (j.line.exchange b x).1 ≠ some .offline := by
      simpa [smooth] using hop
    obtain ⟨hkept, hlinked⟩ :=
      Line.linked_exchange hg.sound hg.regular hh h (Line.undisturbed_spec hx) hevent
    refine ⟨fun x' hx' => ?_, hlinked⟩
    cases hx'
    exact hkept

end Journal

/-- **A lost frame does not break the channel, within limits.** Take any panel and any device whose
handler gives no reply of enrolment, at any moment of any run of theirs at which both hold an
established session of the same keys of a suite in which `Open` inverts `Seal`, agree on the reply
chain, and have nothing in flight or to repeat. In every continuation whose exchanges are undisturbed
and end without the panel giving the device up, whatever frames the channel drops in it, every command
that the device hears is answered from its cache or opens, every reply that comes back opens, and
neither end loses its session. -/
theorem channel_survives_loss (b : Bus) (addr addr' : Address) {cfg : Pd.Settings} {d : Pd.Device}
    (hnew : Pd.new addr' cfg = .ok d) (hh : d.Civil) (before ops : List LineOp) {s t : Session}
    (hjoined : (before.foldl (Journal.step b) (Journal.new addr d)).line.Joined s t)
    (hlaw : s.suite.Lawful) (hchain : t.rmac = s.rmac)
    (hrest : (before.foldl (Journal.step b) (Journal.new addr d)).line.panel.inflight = none ∧
      (before.foldl (Journal.step b) (Journal.new addr d)).line.panel.repeatSequence = false)
    (hsmooth : ∀ p ∈ Run.trace (Journal.step b)
      (before.foldl (Journal.step b) (Journal.new addr d)) ops, p.1.smooth b p.2 = true) :
    ∀ p ∈ Run.trace (Journal.step b) (before.foldl (Journal.step b) (Journal.new addr d)) ops,
      p.1.Unbroken b p.2 := by
  have hground : (before.foldl (Journal.step b) (Journal.new addr d)).Grounded d.cfg :=
    Run.invariant (I := Journal.Grounded d.cfg) (fun _ op h => Journal.grounded_step h op)
      (Journal.grounded_new addr hnew) before
  generalize before.foldl (Journal.step b) (Journal.new addr d) = j at *
  have hlinked : j.line.Linked b := by
    refine ⟨fun m hm => ?_, s, t, hjoined, hlaw, .inl ⟨hchain, fun hrep => ?_⟩⟩
    · rw [hrest.1] at hm
      cases hm
    · rw [hrest.2] at hrep
      cases hrep
  have hcivil : ∀ j' : Journal, j'.Grounded d.cfg → j'.line.device.Civil := by
    intro j' hg code data
    have hdelegate : j'.line.device.delegate code data = d.delegate code data := by
      simp only [Pd.Device.delegate, hg.cfg]
    rw [hdelegate]
    exact hh code data
  have hstep : ∀ (j' : Journal) (op : LineOp), j'.Grounded d.cfg ∧ j'.line.Linked b →
      j'.smooth b op = true →
      (j'.step b op).Grounded d.cfg ∧ (j'.step b op).line.Linked b := fun j' op h hop =>
    ⟨Journal.grounded_step h.1 op, (Journal.linked_step h.1 (hcivil j' h.1) h.2 hop).2⟩
  intro p hp
  have hbefore := (Run.invariant_of_trace hstep ⟨hground, hlinked⟩ ops hsmooth).1 p hp
  obtain ⟨hkept, hafter⟩ := Journal.linked_step hbefore.1 (hcivil p.1 hbefore.1) hbefore.2 (hsmooth p hp)
  exact ⟨hkept, Line.established_of_linked hafter⟩

/-- The device is enrolled and its channel set up. -/
def Journal.joinOps : List LineOp := List.replicate 4 heardExchange

/-- A poll is lost on its way, an `osdp_OUT` loses its reply twice, and all is heard again. -/
def Journal.roughOps : List LineOp :=
  [unheardExchange, heardExchange, .send energise, halfExchange, halfExchange, heardExchange,
    heardExchange]

/-- A line that loses frames both ways. -/
theorem channel_survives_rough_line :
    ∃ d, Pd.new 1 Pd.secureSettings = .ok d ∧
      ∀ p ∈ Run.trace (Journal.step Bus.secureBus)
        (Journal.joinOps.foldl (Journal.step Bus.secureBus) (Journal.new 1 d)) Journal.roughOps,
        p.1.Unbroken Bus.secureBus p.2 := by
  refine ⟨_, rfl, ?_⟩
  refine @channel_survives_loss Bus.secureBus 1 1 Pd.secureSettings _ rfl (fun _ _ => rfl)
    Journal.joinOps Journal.roughOps _ _ ⟨rfl, rfl, rfl, ⟨rfl, rfl, rfl, rfl⟩⟩ ?_ rfl ⟨rfl, rfl⟩ (by decide)
  intro keys iv plain cipher h
  cases h
  rfl

/-- The reply to one poll is lost and the next poll no longer verifies: the panel gives the session up
and so does the device, though no three exchanges were lost in a row. And a new base key ends the
session at both ends with nothing lost at all. -/
theorem lost_poll_reply_breaks_channel :
    ∃ d, Pd.new 1 Pd.secureSettings = .ok d ∧
      let joined := Journal.joinOps.foldl (Journal.step Bus.secureBus) (Journal.new 1 d)
      let lossy := [Journal.halfExchange, Journal.heardExchange].foldl (Journal.step Bus.secureBus) joined
      let keyed := [.installKey Secure.zeroBlock, Journal.heardExchange].foldl
        (Journal.step Bus.secureBus) joined
      (joined.line.panel.state = .secure ∧ joined.line.device.secured = true) ∧
      (lossy.line.panel.session.isNone = true ∧ lossy.line.device.session.isNone = true ∧
        .secureFailed ∈ lossy.events ∧ .offline ∉ lossy.events) ∧
      (keyed.line.panel.session.isNone = true ∧ keyed.line.device.session.isNone = true ∧
        .offline ∉ keyed.events) :=
  ⟨_, rfl, by decide⟩

end Osdp
