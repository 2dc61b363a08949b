import Osdp.Analysis.Enrolment

/-!
# Conversation over a Secure Channel

One exchange without loss between a panel and a reader that hold the same session. The command that the
panel takes from its queue, or a poll, is sealed, opened, run by the reader's table, answered under
seal and opened again (`Line.exchange_live`), so that what reaches the panel's dispatch is what the
reader's table returned. `Line.conducted` is what that comes to when the answer is not one that makes
the panel start again: the channel is still up, and the queue, the events that wait and the events that
are returned follow from the command alone.
-/

set_option autoImplicit false

namespace Osdp

open Osdp.Secure (Session Rnd BaseKey CipherSuite Block)

/-! ## The panel -/

namespace Bus

/-- The record when the answer has come. -/
def Device.heardBack (d : Device) (s : Session) : Device := { d.asking s with misses := 0 }.delivered

/-- What waits once the command is chosen. -/
def Device.rest (d : Device) : List Message := if d.takes.isSome then d.outbox.tail else d.outbox

/-- What is taken and the rest are the outbox. -/
theorem Device.takes_rest (d : Device) : d.takes.toList ++ d.rest = d.outbox := by
  unfold rest
  cases ht : d.takes with
  | none => rfl
  | some m =>
    obtain ⟨-, -, -, rest, ho⟩ := takes_eq_some ht
    simp [ho]

variable {d p : Device} {r : Frame} {s s' : Session} {plain : Octets}

/-- The panel after an answer over the channel. -/
theorem Device.heardBack_eq (hidle : d.inflight = none) (s : Session) :
    d.heardBack s = { d with
      outbox := d.rest, inflight := none, deferCommands := false, seq := d.number
      repeatSequence := false, session := some s, misses := 0, released := d.takes
      acknowledged := d.utterance.code } := by
  unfold heardBack asking uttered delivered rest utterance
  cases ht : d.takes with
  | none => simp [hidle, pollMessage]
  | some m => simp [(takes_eq_some ht).2.1]

/-- **An ordinary answer** leaves the session, the queue and the keys alone. -/
theorem dispatch_modest (b : Bus) {m : Message} (hst : d.state = .secure)
    (hcode : Code.enrols m.code = false) (hbusy : m.code ≠ Code.busy)
    (hack : m.code = Code.ack → d.acknowledged ≠ Code.keySet) :
    ∃ ss k, (dispatch b d m).2 = { d with status := ss, pendingKey := k } := by
  simp only [Code.enrols, Bool.or_eq_false_iff, beq_eq_false_iff_ne, ne_eq] at hcode
  obtain ⟨⟨⟨⟨hid, hcap⟩, hcrypt⟩, hrmac⟩, hcom⟩ := hcode
  apply dispatch_rows b d m (motive := fun r => ∃ ss k, r.2 = { d with status := ss, pendingKey := k })
  case malformed => exact fun _ => ⟨_, _, rfl⟩
  case identified => exact fun _ h _ => absurd h hid
  case capabilities => exact fun _ _ h _ _ => absurd h hcap
  case status => exact fun _ _ _ _ => ⟨_, _, rfl⟩
  case cryptogram => exact fun h => absurd h hcrypt
  case initialRMAC => exact fun h => absurd h hrmac
  case card => exact fun _ _ _ => ⟨_, _, rfl⟩
  case keypad => exact fun _ _ _ => ⟨_, _, rfl⟩
  case refused => exact fun _ _ => ⟨_, _, rfl⟩
  case manufacturer => exact fun _ _ _ => ⟨_, _, rfl⟩
  case moved => exact fun _ h _ => absurd h hcom
  case busy => exact fun h => absurd h hbusy
  case installed => exact fun _ hcode _ h => absurd h (hack hcode)
  case answer =>
    intro _
    obtain ⟨ho, -⟩ | ⟨-, he⟩ := onAnswer_cases d
    · exact absurd (hst.symm.trans ho) (by decide)
    · exact ⟨_, _, by rw [he]⟩

/-- An established session opens the reply. -/
theorem openIfEstablished_opens (hs : p.session = some s) (hest : s.established = true)
    (hopen : openReply s r = .ok (plain, s')) :
    openIfEstablished p r = .ok ({ r with data := plain }, { p with session := some s' }) := by
  simp [openIfEstablished, hs, hest, hopen]

/-- What an answer comes to that opens in the session. -/
theorem reply_opens (b : Bus) (hs : p.session = some s) (hest : s.established = true)
    (hr : r.isReply = true) (ha : r.address = p.address) (hz : r.control.sequence ≠ 0)
    (hopen : openReply s r = .ok (plain, s')) :
    reply b p r = dispatch b { p with misses := 0, session := some s' }.delivered
      { code := r.code, isReply := true, data := plain } := by
  have hopened := openIfEstablished_opens (p := { p with misses := 0 }) hs hest hopen
  simp [reply, hr, ha, hz, hopened, Message.decode]

end Bus

/-! ## The device -/

namespace Pd.Device

variable {cfg : Settings} {d : Device}

/-- A reply of a session is none of the handshake. -/
theorem replyBlock_plain (n : ℕ) : Secure.BlockType.handshake (replyBlock n).type = false := by
  unfold replyBlock
  split <;> decide

variable {t s : Session} {suite : CipherSuite} {f : Frame} {block : SecurityBlock} {plain : Octets}
  {mac : Block}

/-- A reply over an established session can always be built. -/
theorem sealReply_succeeds (hs : d.session = some t) (hest : t.established = true)
    (htotal : t.suite.Total) (hv : Address.valid d.address = true) (m : Message) (seq : UInt8)
    (scheme : Scheme) (block : SecurityBlock) :
    ∃ g e, d.sealReply m seq scheme block = (.ok g, e) := by
  obtain ⟨payload, hpayload⟩ : ∃ payload, (if Secure.BlockType.encrypted block.type then
      t.sealPayload m.data false else .ok m.data) = .ok payload := by
    split
    · obtain ⟨c, hc⟩ := htotal.sealing t.keys (t.chainFor false) m.data
      exact ⟨c, by simp [Session.sealPayload, hest, hc]⟩
    · exact ⟨_, rfl⟩
  simp only [sealReply, hs, hpayload, Message.encodeSecure, hv, not_true_eq_false, if_false]
  generalize hbody : (Frame.appendBody _ []) = body
  obtain ⟨mac, hmac⟩ := htotal.coding t.keys (t.chainFor false)
    (body.take (body.length - Secure.macTagSize))
  simp [Session.authenticate, hest, hmac]

/-- **A reply over an established session** is sealed and cached, and takes the adoptions with it. -/
theorem emit_live (hs : d.session = some t) (hest : t.established = true) (htotal : t.suite.Total)
    (hv : Address.valid d.address = true) (command : Frame) {seq : UInt8} (hz : seq ≠ 0)
    (m : Message) :
    ∃ g mac, d.emit command seq m (some (replyBlock m.data.length)) =
        (.ok g, { d with session := some (t.commit false mac), cached := g, cachedSeq := seq
                         cachedValid := true }.adoptAddress.adoptKey) ∧
      Sealed t false (replyBlock m.data.length) m.data mac g ∧
      Replied d m seq (some (replyBlock m.data.length)) g := by
  obtain ⟨g, e, hseal⟩ := sealReply_succeeds hs hest htotal hv { m with isReply := true } seq
    command.control.scheme (replyBlock m.data.length)
  obtain ⟨u, mac, hu, hsealed, rfl⟩ := sealed_of_sealReply hseal
  rw [hs] at hu
  cases hu
  have hencode : d.encode { m with isReply := true } seq command.control.scheme
      (some (replyBlock m.data.length)) = (.ok g, { d with session := some (t.commit false mac) }) := by
    simp only [encode, replyBlock_plain, Bool.false_eq_true, if_false, hseal]
  obtain ⟨h1, h2, h3, h4, h5, h6⟩ := encode_ok rfl hencode
  refine ⟨g, mac, ?_, hsealed, ⟨h1, h2, h3, h4, h5, h6⟩⟩
  simp [emit, hencode, hz]

/-- The table does not look at the session. -/
theorem dispatch_session (d : Device) (s : Option Session) (code : Code) (data : Octets)
    (secured : Bool) : { d with session := s }.dispatch code data secured =
      ((d.dispatch code data secured).1, { (d.dispatch code data secured).2 with session := s }) := by
  have happly : ∀ {c : Prop} [Decidable c] (x y : Message × Device),
      (if c then ((x.1, { x.2 with session := s }) : Message × Device)
        else (y.1, { y.2 with session := s })) =
      ((if c then x else y).1, { (if c then x else y).2 with session := s }) := by
    intro c _ x y
    split <;> rfl
  have hpoll : { d with session := s }.pollReply = (d.pollReply.1, { d.pollReply.2 with session := s }) := by
    cases hp : d.pending <;> simp only [pollReply, hp]
  have houtputs : { d with session := s }.applyOutputs data =
      ((d.applyOutputs data).1, { (d.applyOutputs data).2 with session := s }) := by
    unfold applyOutputs
    split
    · rfl
    · simp only
      split <;> rfl
  have haddress : { d with session := s }.applyCommunication data =
      ((d.applyCommunication data).1, { (d.applyCommunication data).2 with session := s }) := by
    unfold applyCommunication
    split
    · rfl
    · split <;> rfl
  have hkey : { d with session := s }.installKey data =
      ((d.installKey data).1, { (d.installKey data).2 with session := s }) := by
    unfold installKey
    split
    · rfl
    · split <;> rfl
  simp only [dispatch, hpoll, houtputs, haddress, hkey, ← happly]
  rfl

/-- **A command over the session** that both ends hold is opened and run, and answered over it. -/
theorem handle_live (hwf : d.WellFormed cfg) (hc : cfg.Defaults) (hl : cfg.strict = false)
    (hsuite : cfg.suite = some suite) (now : ℤ) (rndB : Rnd) (hheard : d.heard f = true)
    (hn : IsNumber f.control.sequence)
    (hfresh : d.cachedValid = true → d.cachedSeq ≠ f.control.sequence) (ht : d.session = some t)
    (hp : s.Paired t) (hchain : t.rmac = s.rmac) (hlaw : s.suite.Lawful) (htotal : s.suite.Total)
    (hblock : block.type = Secure.scs15 ∨ block.type = Secure.scs17)
    (hsealed : Sealed s true block plain mac f) :
    ∃ g mac', d.handle now rndB f = (.ok g, { ((d.noticed now).dispatch f.code plain true).2 with
        session := some ((t.commit true mac).commit false mac'), cached := g
        cachedSeq := f.control.sequence, cachedValid := true }.adoptAddress.adoptKey) ∧
      Sealed (t.commit true mac) false
        (replyBlock ((d.noticed now).dispatch f.code plain true).1.data.length)
        ((d.noticed now).dispatch f.code plain true).1.data mac' g ∧
      Replied d ((d.noticed now).dispatch f.code plain true).1 f.control.sequence
        (some (replyBlock ((d.noticed now).dispatch f.code plain true).1.data.length)) g := by
  have hopen : openCommand t f block = .ok (plain, t.commit true mac) :=
    hsealed.opens hlaw hp hchain
  have hcfg : (d.noticed now).cfg.suite = some suite := by
    rw [← hsuite, ← hwf.configured]
    rfl
  have h11 : block.type ≠ Secure.scs11 := by
    obtain hb | hb := hblock <;> rw [hb] <;> decide
  have h13 : block.type ≠ Secure.scs13 := by
    obtain hb | hb := hblock <;> rw [hb] <;> decide
  have hsession : (d.noticed now).session = some t := ht
  have hanswer : (d.noticed now).answer f rndB =
      (((d.noticed now).dispatch f.code plain true).1,
        some (replyBlock ((d.noticed now).dispatch f.code plain true).1.data.length),
        { ((d.noticed now).dispatch f.code plain true).2 with
          session := some (t.commit true mac) }) := by
    simp only [answer, hsealed.security, answerSecure, hcfg, if_neg h11, if_neg h13, if_pos hblock,
      answerEstablished, hsession, hp.peer, not_true_eq_false, if_false, hopen, dispatch_session]
  obtain ⟨p, o, a, k, hdevice⟩ := dispatch_device (d.noticed now) f.code plain true
  have hv : Address.valid ({ ((d.noticed now).dispatch f.code plain true).2 with
      session := some (t.commit true mac) } : Device).address = true := by
    rw [hdevice]
    exact hwf.valid
  obtain ⟨g, mac', hemit, hg, hr⟩ := emit_live
    (d := { ((d.noticed now).dispatch f.code plain true).2 with session := some (t.commit true mac) })
    rfl (hp.commit_right true mac).peer (by simpa [Session.commit, hp.suite] using htotal) hv f
    hn.ne_zero ((d.noticed now).dispatch f.code plain true).1
  refine ⟨g, mac', ?_, hg, ⟨hr.isReply, ?_, hr.number, hr.code, hr.security, hr.plain⟩⟩
  · rw [handle_fresh hwf hc hl hheard hn.ne_zero hfresh, hanswer, hemit]
  · rw [hr.address, hdevice]
    rfl

/-- It is the table that is run on it. -/
theorem dispatched_live (hwf : d.WellFormed cfg) (hc : cfg.Defaults) (hl : cfg.strict = false)
    (hsuite : cfg.suite = some suite) {now : ℤ} (hheard : d.heard f = true)
    (hreplays : d.replays now f = false) (hz : f.control.sequence ≠ 0) (ht : d.session = some t)
    (hp : s.Paired t) (hchain : t.rmac = s.rmac) (hlaw : s.suite.Lawful)
    (hblock : block.type = Secure.scs15 ∨ block.type = Secure.scs17)
    (hsealed : Sealed s true block plain mac f) : d.dispatched now f = some (plain, true) := by
  have hopen : openCommand t f block = .ok (plain, t.commit true mac) :=
    hsealed.opens hlaw hp hchain
  have hcfg : (d.noticed now).cfg = cfg := hwf.configured
  have henabled : (d.noticed now).secureEnabled = true := by simp [secureEnabled, hcfg, hsuite]
  have hsession : (d.noticed now).session = some t := ht
  simp [dispatched, hheard, hreplays, opening, hz, hwf.observe hc, dispatchFor, hcfg, hl, dispatchOf,
    hsealed.security, henabled, hblock, hsession, hp.peer, hopen]

/-- The device when it has answered over the session. -/
def replied (d : Device) (t : Session) (r : Frame) (n : UInt8) : Device :=
  { d with session := some t, cached := r, cachedSeq := n, cachedValid := true }

/-- No event that waits says that the device is busy. -/
def Available (d : Device) : Prop := ∀ m ∈ d.pending, m.code ≠ Code.busy

/-- A device without a handler of its own never is. -/
theorem dispatch_available (hc : d.cfg.handler = none) (h : d.Available) (code : Code)
    (data : Octets) (secured : Bool) :
    (d.dispatch code data secured).1.code ≠ Code.busy ∧ (d.dispatch code data secured).2.Available := by
  have hroutine : ∀ c ∈ routine, c ≠ Code.busy := by decide +kernel
  apply dispatch_rows d code data secured (motive := fun r => r.1.code ≠ Code.busy ∧ r.2.Available)
  case idle => exact fun _ _ => ⟨show Code.ack ≠ Code.busy by decide, h⟩
  case event =>
    intro m rest _ hp
    rw [Available, hp] at h
    exact ⟨h m (by simp), fun w hw => h w (List.mem_cons_of_mem _ hw)⟩
  case identity => exact fun _ => ⟨show Code.pdID ≠ Code.busy by decide, h⟩
  case capabilities => exact fun _ => ⟨show Code.pdCap ≠ Code.busy by decide, h⟩
  case answered => exact fun m _ hm => ⟨hroutine _ hm.code, h⟩
  case outputs => exact fun _ _ => ⟨show Code.ack ≠ Code.busy by decide, h⟩
  case address => exact fun _ _ _ _ => ⟨show Code.com ≠ Code.busy by decide, h⟩
  case key => exact fun _ _ _ _ _ => ⟨show Code.ack ≠ Code.busy by decide, h⟩
  case delegated =>
    intro _
    refine ⟨?_, h⟩
    simp only [delegate, hc]
    exact show Code.nak ≠ Code.busy by decide

end Pd.Device

/-! ## One exchange -/

namespace Line

variable {r : Frame}

section Exchange

variable {b : Bus} {channel : Bus.SecureChannel} {cfg : Pd.Settings} {l : Line} {x : Exchange}

/-- The reader has no handler of its own. -/
theorem Met.handler (ha : Agreeable channel cfg) (h : l.Met channel cfg) (now : ℤ) :
    (l.device.noticed now).cfg.handler = none := by
  rw [← ha.defaults.handler, ← h.honest.device.configured]
  rfl

/-- What the reader's table makes of the next command. -/
def ran (l : Line) (now : ℤ) : Message × Pd.Device :=
  (l.device.noticed now).dispatch l.panel.utterance.code l.panel.utterance.data true

/-- The reader when it has answered that over the session. -/
def rejoined (l : Line) (now : ℤ) (t : Session) (r : Frame) : Pd.Device :=
  ((l.ran now).2.replied t r l.panel.number).adoptAddress.adoptKey

/-- A reader with nothing to adopt has just replied. -/
theorem rejoined_settled {now : ℤ} (h : (l.ran now).2.Settled) (t : Session) (r : Frame) :
    l.rejoined now t r = (l.ran now).2.replied t r l.panel.number := by
  rw [rejoined, Pd.Device.adoptAddress_of_none (d := (l.ran now).2.replied t r l.panel.number) h.1,
    Pd.Device.adoptKey_of_none (d := (l.ran now).2.replied t r l.panel.number) h.2]

/-- What an exchange over the Secure Channel comes to in which nothing is lost: the reader runs the
command, the panel takes what the table answered, and the two still hold the same session. -/
structure Conversed (channel : Bus.SecureChannel) (b : Bus) (l : Line) (x : Exchange) (s t : Session)
    (p : Bus.Device) (r : Frame) : Prop where
  paired : s.Paired t
  chain : t.rmac = s.rmac
  suite : s.suite = channel.suite
  heard : ∃ f, Bus.transact b l.panel x.rndA = (.ok f, p) ∧
    l.device.dispatched x.now f = some (l.panel.utterance.data, true)
  replied : Pd.Device.Replied l.device (l.ran x.now).1 l.panel.number
    (some (Pd.replyBlock (l.ran x.now).1.data.length)) r
  exchange : l.exchange b x = { l with panel := p, device := l.rejoined x.now t r }.await b x (some r)
  reply : Bus.reply b p r = Bus.dispatch b (l.panel.heardBack s)
    { code := (l.ran x.now).1.code, isReply := true, data := (l.ran x.now).1.data }
  sealed : ∃ u mac, u.suite = channel.suite ∧
    Sealed u false (Pd.replyBlock (l.ran x.now).1.data.length) (l.ran x.now).1.data mac r
  opened : ∀ m, l.opened b x = some m →
    m = { code := (l.ran x.now).1.code, isReply := true, data := (l.ran x.now).1.data }

/-- **An exchange over the channel** is a conversation. -/
theorem exchange_live (ha : Agreeable channel cfg) (hlaw : channel.suite.Lawful)
    (h : l.Live channel cfg) (hx : x.fate = .delivered) (b : Bus) :
    ∃ s t p r, l.Conversed channel b x s t p r := by
  obtain ⟨s, t, hjoined, hchain⟩ := h.up
  have hsuite := h.suites s hjoined.panel
  have htotal : s.suite.Total := hsuite ▸ ha.total
  obtain ⟨f, mac, ht, hsealed, hcode, hreply⟩ := Bus.transact_live (b := b) h.valid hjoined.state
    hjoined.panel hjoined.paired.established htotal x.rndA
  have hcommand : f.isReply = false := hreply.trans (Bus.Device.utterance_isReply h.commands)
  have hput := Bus.transact_put h.isNumber ht
  have hnew : l.device.cachedValid = true → l.device.cachedSeq ≠ f.control.sequence := by
    intro hv heq
    have hfresh := h.fresh
    rw [hput.number] at heq
    simp [stale, hv, heq] at hfresh
  obtain ⟨r, mac', hhandle, hr, hreplied⟩ := Pd.Device.handle_live h.honest.device
    ha.defaults ha.lenient ha.suite x.now x.rndB (h.heard ha ht hcommand)
    (hput.number ▸ h.isNumber) hnew hjoined.device hjoined.paired hchain (hsuite ▸ hlaw) htotal
    (Bus.blockForCommand_type _) hsealed
  rw [hput.number, hcode] at hhandle hreplied
  rw [hcode] at hr
  have hpaired := (hjoined.paired.commit_left true mac).commit_right true mac
  have hserve : { l with panel := l.panel.asking (s.commit true mac) }.serve x f =
      (some r, { l with
        panel := l.panel.asking (s.commit true mac)
        device := l.rejoined x.now ((t.commit true mac).commit false mac') r }) := by
    simp [serve, h.serving, hhandle, rejoined, ran, Pd.Device.replied]
  have hcarry : { l with panel := l.panel.asking (s.commit true mac) }.carry x f =
      (some r, { l with
        panel := l.panel.asking (s.commit true mac)
        device := l.rejoined x.now ((t.commit true mac).commit false mac') r }) := by
    rw [carry_of_serve (by rw [hx]; decide) hserve]
    simp [Exchange.returns, hx]
  have hz : r.control.sequence ≠ 0 := by
    rw [hreplied.number h.isNumber.le]
    exact h.isNumber.ne_zero
  have hopen := hr.opens (t := s.commit true mac) (by simpa [Session.commit, hjoined.paired.suite, hsuite] using hlaw)
    hpaired.symm rfl
  have hopen' : Bus.openReply (s.commit true mac) r = _ := (openReply_eq _ hreplied.security).trans hopen
  have hreply := Bus.reply_opens b (p := l.panel.asking (s.commit true mac)) rfl hpaired.established
    hreplied.isReply (by rw [hreplied.address, Bus.Device.asking_address, h.address]) hz hopen'
  rw [hreplied.code] at hreply
  refine ⟨(s.commit true mac).commit false mac', (t.commit true mac).commit false mac', _, r,
    { paired := (hpaired.commit_left false mac').commit_right false mac', chain := rfl
      suite := hsuite, heard := ⟨f, ht, ?_⟩, replied := hreplied
      exchange := exchange_of_carry ht hcarry, reply := hreply
      sealed := ⟨t.commit true mac, mac', hjoined.paired.suite.trans hsuite, hr⟩, opened := ?_ }⟩
  · exact Pd.Device.dispatched_live h.honest.device ha.defaults ha.lenient ha.suite
      (h.heard ha ht hcommand) ((h.replays ha ht).trans h.fresh)
      (by rw [hput.number]; exact h.isNumber.ne_zero) hjoined.device hjoined.paired hchain
      (hsuite ▸ hlaw) (Bus.blockForCommand_type _) hsealed
  · intro m hm
    obtain ⟨-, g, e, hg, rfl⟩ := opened_some ht hcarry hm
    have hyes := Bus.openIfEstablished_opens
      (p := { l.panel.asking (s.commit true mac) with misses := 0 }) rfl hpaired.established hopen'
    obtain ⟨rfl, -⟩ := Prod.mk.inj (Except.ok.inj (hyes.symm.trans hg))
    simp only [Message.decode, hreplied.code, hreplied.isReply]
    rfl

/-- An old report of the reader's capabilities does not mislead the panel. -/
theorem Live.misleads_false (ha : Agreeable channel cfg) (h : l.Live channel cfg) {s t : Session}
    {p : Bus.Device} (hc : l.Conversed channel b x s t p r) : l.misleads b x = false := by
  cases hopened : l.opened b x with
  | none => simp [misleads, hopened]
  | some m =>
    obtain rfl := hc.opened m hopened
    simp only [misleads, hopened, Option.any_some, repeats_fresh ha h.toMet h.fresh, Bool.false_and,
      Bool.false_or, Bool.and_eq_false_iff]
    by_cases hcap : (l.ran x.now).1.code = Code.pdCap
    · right
      have henrols : Code.enrols (l.ran x.now).1.code = true := by rw [hcap]; rfl
      obtain ⟨-, hm⟩ | ⟨-, hm⟩ | ⟨-, hm⟩ := Pd.Device.dispatch_enrols
        (d := l.device.noticed x.now) h.honest.regular.pending h.honest.civil henrols
      · rw [ran, hm] at hcap
        exact absurd (show Code.pdID = Code.pdCap from hcap) (by decide)
      · have haes : (l.device.noticed x.now).capabilities.secureChannel.1 = true :=
          h.honest.advertises.report
        rw [ran, hm, parseCapabilities_append]
        simp [haes]
      · rw [ran, hm] at hcap
        exact absurd hcap (by decide)
    · exact .inl (.inl (beq_eq_false_iff_ne.mpr hcap))

/-- What the panel does when the answer is there: one it cannot read counts as a silence. -/
theorem await_dispatched {d q : Bus.Device} {m : Message}
    (hreply : Bus.reply b l.panel r = Bus.dispatch b d m) (hq : (Bus.dispatch b d m).2 = q)
    (hidle : q.inflight = none) (hmisses : q.misses = 0) :
    (∃ n, (l.await b x (some r)).2 = { l with panel := { q with misses := n } }) ∧
      (l.await b x (some r)).1.toList.filter Bus.Event.isReport = m.event.toList := by
  obtain ⟨res, hres⟩ : ∃ res, Bus.dispatch b d m = (res, q) := ⟨_, Prod.ext rfl hq⟩
  rw [hres] at hreply
  cases res with
  | ok e =>
    rw [await_ok hreply]
    refine ⟨⟨q.misses, rfl⟩, ?_⟩
    cases hevent : m.event with
    | none => simp [Bus.dispatch_silent b d hevent (by rw [hres])]
    | some e' =>
      rw [Bus.dispatch_report b d hevent] at hres
      cases hres
      simp [Message.event_isReport hevent]
  | error err =>
    have hnone : m.event = none := by
      cases hevent : m.event with
      | none => rfl
      | some e' =>
        rw [Bus.dispatch_report b d hevent] at hres
        cases hres
    rw [await_error hreply, hnone]
    split
    · refine ⟨?_, silence_event _⟩
      obtain ⟨-, he⟩ | ⟨hm, -, -⟩ := Bus.timeout_cases q
      · refine ⟨q.misses + 1, ?_⟩
        simp only [silence, he, Bus.Device.retransmit_eq, hidle, Option.toList_none, List.nil_append,
          Option.isSome_none, Bool.false_or]
      · rw [hmisses] at hm
        exact absurd hm (by decide)
    · exact ⟨⟨q.misses, rfl⟩, rfl⟩

/-- What an exchange does whose answer leaves the channel up. -/
structure Conducted (channel : Bus.SecureChannel) (cfg : Pd.Settings) (l : Line) (x : Exchange)
    (res : Option Bus.Event × Line) : Prop where
  live : res.2.Live channel cfg
  outbox : res.2.panel.outbox = l.panel.rest
  undeferred : res.2.panel.deferCommands = false
  pending : res.2.device.pending = (l.ran x.now).2.pending
  returned : res.1.toList.filter Bus.Event.isReport = (l.ran x.now).1.event.toList

/-- **An answer that does not enrol**, and with which nothing is adopted, leaves the channel up. -/
theorem conducted (hb : b.secure = some channel) (ha : Agreeable channel cfg)
    (hlaw : channel.suite.Lawful) (h : l.Live channel cfg) (hx : x.fate = .delivered)
    (havailable : l.device.Available) (henrols : Code.enrols (l.ran x.now).1.code = false)
    (hset : (l.ran x.now).2.Settled)
    (hack : (l.ran x.now).1.code = Code.ack → l.panel.utterance.code ≠ Code.keySet) :
    Conducted channel cfg l x (l.exchange b x) := by
  obtain ⟨s, t, p, r, hc⟩ := exchange_live ha hlaw h hx b
  have hhonest := (honest_exchange hb ha.suite ha.derives.server h.honest h.key
    (h.misleads_false ha hc)).2
  have hbusy := (Pd.Device.dispatch_available (h.handler ha x.now) havailable l.panel.utterance.code
    l.panel.utterance.data true).1
  obtain ⟨s₀, t₀, hjoined, -⟩ := h.up
  obtain ⟨ss, k, hq⟩ := Bus.dispatch_modest b (d := l.panel.heardBack s) (m := {
      code := (l.ran x.now).1.code, isReply := true, data := (l.ran x.now).1.data })
    (by rw [Bus.Device.heardBack_eq h.idle]; exact hjoined.state) henrols hbusy
    (by rw [Bus.Device.heardBack_eq h.idle]; exact hack)
  obtain ⟨⟨n, hline⟩, hreturned⟩ := await_dispatched (b := b) (x := x)
    (l := { l with panel := p, device := l.rejoined x.now t r }) hc.reply hq
    (by rw [Bus.Device.heardBack_eq h.idle]) (by rw [Bus.Device.heardBack_eq h.idle])
  rw [← hc.exchange, Bus.Device.heardBack_eq h.idle, rejoined_settled hset] at hline
  rw [← hc.exchange] at hreturned
  obtain ⟨e, o, a', k', hran⟩ := Pd.Device.dispatch_device (l.device.noticed x.now)
    l.panel.utterance.code l.panel.utterance.data true
  have hkept : ((l.ran x.now).2.replied t r l.panel.number).key = l.device.key ∧
      ((l.ran x.now).2.replied t r l.panel.number).address = l.device.address := by
    rw [ran, hran]
    exact ⟨rfl, rfl⟩
  rw [hline] at hhonest
  refine { live := ?_, outbox := by rw [hline], undeferred := by rw [hline]
           pending := by rw [hline]; rfl, returned := hreturned }
  rw [hline]
  exact { honest := hhonest
          key := h.key.trans (congrArg some hkept.1.symm)
          address := h.address.trans hkept.2.symm
          serving := h.serving
          idle := rfl
          commands := fun m hm => h.commands m (by rw [← l.panel.takes_rest]; exact List.mem_append_right _ hm)
          up := ⟨s, t, ⟨hjoined.state, rfl, rfl, hc.paired⟩, hc.chain⟩
          fresh := stale_after h.isNumber rfl rfl rfl
          suites := by rintro _ ⟨⟩; exact hc.suite }

/-- An ordinary command is answered so. -/
theorem conducted_ordinary (hb : b.secure = some channel) (ha : Agreeable channel cfg)
    (hlaw : channel.suite.Lawful) (h : l.Live channel cfg) (hx : x.fate = .delivered)
    (havailable : l.device.Available)
    (hordinary : Code.endsSession l.panel.utterance.code = false) :
    Conducted channel cfg l x (l.exchange b x) := by
  obtain ⟨henrols, hadopting, hadoptingKey⟩ := Pd.Device.dispatch_ordinary
    (d := l.device.noticed x.now) h.honest.regular.pending h.honest.civil hordinary
    l.panel.utterance.data true
  have hset := h.honest.device.settled
  refine conducted hb ha hlaw h hx havailable henrols ⟨hadopting.trans hset.1,
    hadoptingKey.trans hset.2⟩ fun _ hk => ?_
  rw [hk] at hordinary
  cases hordinary

/-- What is queued and reported meanwhile leaves the channel up. -/
theorem live_queue (hb : b.secure = some channel) (ha : Agreeable channel cfg)
    (h : l.Live channel cfg) {op : LineOp} (hcalm : Calm op) (hop : talks op = false) :
    (l.step b op).Live channel cfg := by
  obtain ⟨hmet, o, k, i, t, w, p, he⟩ := met_queue hb ha h.toMet hcalm hop
  obtain ⟨s, u, hjoined, hchain⟩ := h.up
  rw [he] at hmet ⊢
  exact { hmet with
    up := ⟨s, u, ⟨hjoined.state, hjoined.panel, hjoined.device, hjoined.paired⟩, hchain⟩
    fresh := h.fresh
    suites := h.suites }

end Exchange

end Line

end Osdp
