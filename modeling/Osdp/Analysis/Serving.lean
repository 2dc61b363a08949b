import Osdp.Model.Serve
import Osdp.Analysis.Representation
import Osdp.Analysis.Assembly
import Osdp.Analysis.Addresses
import Osdp.Analysis.Sizes

/-!
# What ends the loop that serves a device

`Handle` answers or keeps silent, and a reply goes out unless it is longer than a frame can be:
the addresses, the blocks and the session are always such that a reply can be built. Long
replies come from long card reads and long capability reports only, and nothing bounds those.
A command is read where it lies in the scanner's buffer, and what is said of the loop does not
depend on what it then reads as.
-/

set_option autoImplicit false

namespace Osdp

open Osdp.Secure (Session CipherSuite Rnd macTagSize)

namespace Pd.Device

/-! ## Building a reply -/

/-- The length of the frame that carries a message under a block. -/
def replyLength (m : Message) (block : Option SecurityBlock) (scheme : Scheme) : ℕ :=
  match block with
  | none => headerSize + 1 + m.data.length + scheme.size
  | some b =>
    headerSize + SecurityBlock.wireLen (some b) + 1 +
      (if Secure.BlockType.handshake b.type then m.data.length
        else (if Secure.BlockType.encrypted b.type then Bus.paddedLength m.data.length
          else m.data.length) + macTagSize) + scheme.size

/-- The block of an answer is one of the handshake, or one the session can seal under. -/
def Sealable (d : Device) (block : Option SecurityBlock) : Prop :=
  ∀ b, block = some b → b.data = [] ∧ (Secure.BlockType.handshake b.type = true ∨
    ∃ t, d.session = some t ∧ t.established = true ∧ t.suite.Total ∧ t.suite.Pads)

variable {d : Device} {block : Option SecurityBlock} {cfg : Settings} {f : Frame} {rndB : Rnd}
  {m : Message}

/-- A session seals every reply, to the length expected. -/
theorem sealReply_total (hv : Address.valid d.address = true) (m : Message) (seq : UInt8)
    (scheme : Scheme) (block : SecurityBlock) {t : Session} (ht : d.session = some t)
    (hest : t.established = true) (htotal : t.suite.Total) (hpads : t.suite.Pads) :
    ∃ g e, d.sealReply m seq scheme block = (.ok g, e) ∧
      g.len = headerSize + SecurityBlock.wireLen (some block) + 1 +
        ((if Secure.BlockType.encrypted block.type then Bus.paddedLength m.data.length
          else m.data.length) + macTagSize) + scheme.size := by
  -- the payload, enciphered or not, and how long it is
  obtain ⟨payload, hpayload, hlen⟩ : ∃ payload,
      (if Secure.BlockType.encrypted block.type then t.sealPayload m.data false
        else .ok m.data) = .ok payload ∧
      payload.length = if Secure.BlockType.encrypted block.type then Bus.paddedLength m.data.length
        else m.data.length := by
    split
    · obtain ⟨c, hc⟩ := htotal.sealing t.keys (t.chainFor false) m.data
      exact ⟨c, by simp only [Session.sealPayload, hest, not_true_eq_false, if_false, hc],
        hpads _ _ _ _ hc⟩
    · exact ⟨m.data, rfl, rfl⟩
  have hauth : ∀ frame, ∃ tag u, t.authenticate frame false = .ok (tag, u) ∧
      tag.length = macTagSize := by
    intro frame
    obtain ⟨mac, hmac⟩ := htotal.coding t.keys (t.chainFor false) frame
    refine ⟨_, _, by simp only [Session.authenticate, hest, not_true_eq_false, if_false, hmac]; rfl, ?_⟩
    simp [macTagSize]
  unfold sealReply
  simp only [ht, hpayload, Message.encodeSecure, hv, not_true_eq_false, if_false]
  generalize List.take _ (Frame.appendBody _ _) = cover
  obtain ⟨tag, u, htag, htaglen⟩ := hauth cover
  refine ⟨_, _, by simp only [htag]; rfl, ?_⟩
  simp only [Frame.len, Frame.sealCheck, newControl_scheme, List.length_append, hlen, htaglen]

/-- **A reply can always be built**, and is as long as its message makes it. -/
theorem encode_total (hv : Address.valid d.address = true) (m : Message) (seq : UInt8)
    (scheme : Scheme) (hblock : d.Sealable block) :
    ∃ g e, d.encode m seq scheme block = (.ok g, e) ∧ g.len = replyLength m block scheme := by
  cases block with
  | none =>
    refine ⟨_, _, by simp only [encode, Message.encode, hv, not_true_eq_false, if_false]; rfl, ?_⟩
    simp [Frame.len, Frame.sealCheck, newControl_scheme, replyLength, SecurityBlock.wireLen]
  | some b =>
    obtain ⟨-, hsealable⟩ := hblock b rfl
    by_cases hhand : Secure.BlockType.handshake b.type = true
    · refine ⟨_, _, by
        simp only [encode, hhand, if_true, Message.encodeSecure, hv, not_true_eq_false, if_false]
        rfl, ?_⟩
      simp [Frame.len, Frame.sealCheck, newControl_scheme, replyLength, hhand]
    · obtain h | ⟨t, ht, hest, htotal, hpads⟩ := hsealable
      · exact absurd h hhand
      · obtain ⟨g, e, hg, hlen⟩ := sealReply_total hv m seq scheme b ht hest htotal hpads
        refine ⟨g, e, by simp only [encode, hhand, Bool.false_eq_true, if_false]; exact hg, ?_⟩
        rw [hlen]
        simp [replyLength, hhand]

/-! ## The session a device answers with -/

/-- The session, if there is one, is of the device's suite. -/
def Suited (d : Device) : Prop := ∀ t, d.session = some t → d.cfg.suite = some t.suite

/-- Sessions keep their suite. -/
theorem carries_suite (d : Device) : d.Carries fun t => d.cfg.suite = some t.suite where
  challenge := by
    intro suite chlng rndB uid out t hsuite ht
    obtain ⟨-, keys, client, -, -, -, rfl⟩ := Secure.Session.answerChallenge_ok ht
    exact hsuite
  cryptogram := by
    intro t scrypt out u h hu
    obtain ⟨-, expected, r, -, -, -, -, rfl⟩ := Secure.Session.answerServerCryptogram_eq hu
    exact h
  commit := by
    intro t isCommand mac h
    rwa [Secure.Session.commit_suite]

/-- A reply is built by the session, and may end it. -/
theorem emit_session (d : Device) (command : Frame) (seq : UInt8) (m : Message)
    (block : Option SecurityBlock) :
    (d.emit command seq m block).2.session = none ∨ (d.emit command seq m block).2.session =
      (d.encode { m with isReply := true } seq command.control.scheme block).2.session := by
  unfold emit
  split
  · rename_i e e' he
    exact .inr (by rw [he])
  · rename_i reply e he
    have hstored : (if seq = 0 then { e with cachedValid := false }
        else { e with cached := reply, cachedSeq := seq, cachedValid := true }).session =
          e.session := by
      split <;> rfl
    obtain ⟨a, k, c, s, hadopted, hs, -⟩ := adopted_eq (if seq = 0 then { e with cachedValid := false }
      else { e with cached := reply, cachedSeq := seq, cachedValid := true })
    simp only [hadopted, he]
    rwa [hstored] at hs

/-- Beginning an answer keeps the session of the suite. -/
theorem opening_suited (h : d.Suited) (now : ℤ) (f : Frame) : (d.opening now f).Suited := by
  intro t ht
  have hcfg : (d.opening now f).cfg = d.cfg := by
    obtain ⟨s, c, q, v, n, he⟩ := opening_eq d now f
    rw [he]
  rw [hcfg]
  exact h t (opening_session ht)

/-- So does `Handle`. -/
theorem handle_suited (hwf : d.WellFormed cfg) (h : d.Suited) (now : ℤ) (rndB : Rnd) (f : Frame) :
    (d.handle now rndB f).2.Suited := by
  have hcfg : (d.handle now rndB f).2.cfg = d.cfg := (handle_settled hwf.settled now rndB f).2
  intro t ht
  rw [hcfg]
  obtain ⟨-, e, -, he⟩ | ⟨-, -, he⟩ | ⟨-, -, he⟩ := handle_cases d now rndB f
  · rw [he] at ht
    exact h t ht
  · rw [he] at ht
    unfold observe at ht
    simp only at ht
    split at ht
    · cases ht
    · exact h t ht
  · have hopen := opening_suited h now f
    obtain ⟨s, c, q, v, n, hopening⟩ := opening_eq d now f
    have hcfg' : (d.opening now f).cfg = d.cfg := by rw [hopening]
    have hans := answerFor_session (d.opening now f).carries_suite hopen f f.control.sequence rndB
    have hcfg'' := (alike_answerFor d now rndB f).cfg
    rw [he, replyTo] at ht
    rw [hcfg'] at hans
    obtain hnone | hsame := emit_session ((d.opening now f).answerFor f f.control.sequence rndB).2.2 f
      f.control.sequence ((d.opening now f).answerFor f f.control.sequence rndB).1
      ((d.opening now f).answerFor f f.control.sequence rndB).2.1
    · rw [hnone] at ht
      cases ht
    · rw [hsame] at ht
      have henc := encode_session ((d.opening now f).answerFor f f.control.sequence
        rndB).2.2.carries_suite (by rw [hcfg'']; exact hans) _ _ _ _ t ht
      rwa [hcfg''] at henc

/-- The block of an answer has no data of its own. -/
theorem answerFor_block_data {seq : UInt8} {b : SecurityBlock}
    (h : (d.answerFor f seq rndB).2.1 = some b) : b.data = [] := by
  have hreply : ∀ n, (replyBlock n).data = [] := by
    intro n
    unfold replyBlock
    split <;> rfl
  unfold answerFor answer answerSecure answerChallenge answerCryptogram answerEstablished at h
  simp only at h
  repeat' split at h
  all_goals first
    | cases h; done
    | cases h; rfl
    | cases h; exact hreply _

/-- An answer travels under a block the device can build a reply with. -/
theorem answerFor_sealable (h : d.Suited) (hsuite : ∀ c, d.cfg.suite = some c → c.Total ∧ c.Pads)
    (f : Frame) (seq : UInt8) (rndB : Rnd) :
    (d.answerFor f seq rndB).2.2.Sealable (d.answerFor f seq rndB).2.1 := by
  intro b hb
  refine ⟨answerFor_block_data hb, ?_⟩
  cases hd : d.dispatchFor f seq with
  | none =>
    obtain ⟨s, m, block, he, hhand, -⟩ := answerFor_of_none hd rndB
    rw [he] at hb
    exact .inl (hhand b hb)
  | some q =>
    obtain ⟨payload, secured⟩ := q
    obtain ⟨s, he, hcarried⟩ := answerFor_of_dispatchFor hd rndB
    rw [he] at hb ⊢
    obtain ⟨rfl, -⟩ | ⟨rfl, k, t, t', hf, ht, hopen, rfl⟩ := hcarried
    · cases hb
    · obtain ⟨mac, rfl⟩ := openCommand_commit hopen
      obtain ⟨p, o, a, key, hdev⟩ :=
        dispatch_device { d with session := some (t.commit true mac) } f.code payload true
      have hest := established_of_dispatchFor hf ht hd
      obtain ⟨htotal, hpads⟩ := hsuite t.suite (h t ht)
      refine .inr ⟨t.commit true mac, ?_, ?_, ?_, ?_⟩
      · simp only [tableAnswer, hdev]
      · simpa [Session.established] using hest
      · rwa [Secure.Session.commit_suite]
      · rwa [Secure.Session.commit_suite]

/-- The device that answers a command has an address and a session to build the reply with. -/
theorem answerFor_ready (hwf : d.WellFormed cfg) (hs : d.Suited)
    (hsuite : ∀ c, cfg.suite = some c → c.Total ∧ c.Pads) (now : ℤ) (rndB : Rnd) (f : Frame) :
    Address.valid ((d.opening now f).answerFor f f.control.sequence rndB).2.2.address = true ∧
      ((d.opening now f).answerFor f f.control.sequence rndB).2.2.Sealable
        ((d.opening now f).answerFor f f.control.sequence rndB).2.1 := by
  have hcfg : (d.opening now f).cfg = cfg := by
    obtain ⟨s, c, q, v, n, hopening⟩ := opening_eq d now f
    rw [hopening]
    exact hwf.configured
  refine ⟨?_, answerFor_sealable (opening_suited hs now f) (by rw [hcfg]; exact hsuite) f _ rndB⟩
  rw [(alike_answerFor d now rndB f).address]
  exact decide_eq_true (UInt8.le_of_lt hwf.address)

/-- **A device whose suite does not fail has a reply to every command it answers.** -/
theorem replyTo_total (hwf : d.WellFormed cfg) (hs : d.Suited)
    (hsuite : ∀ c, cfg.suite = some c → c.Total ∧ c.Pads) (now : ℤ) (rndB : Rnd) (f : Frame) :
    ∃ g e, d.replyTo now rndB f = (.ok g, e) := by
  obtain ⟨hvalid, hseal⟩ := answerFor_ready hwf hs hsuite now rndB f
  unfold replyTo
  generalize (d.opening now f).answerFor f f.control.sequence rndB = a at hvalid hseal ⊢
  obtain ⟨g, e, hencode, -⟩ := encode_total hvalid { a.1 with isReply := true } f.control.sequence
    f.control.scheme hseal
  simp only [emit, hencode]
  exact ⟨g, _, rfl⟩

/-! ## What the loop gets from `Handle` -/

/-- The reply the device would repeat can be written. -/
def CachedFits (d : Device) : Prop :=
  d.cachedValid = true → ∃ out, d.cached.append [] = .ok out

/-- The reply to a command is no longer than a frame can be. -/
def AnswerFits (d : Device) (now : ℤ) (rndB : Rnd) (f : Frame) : Prop :=
  replyLength ((d.opening now f).answerFor f f.control.sequence rndB).1
    ((d.opening now f).answerFor f f.control.sequence rndB).2.1 f.control.scheme ≤ maxFrameSize

/-- **`Handle` keeps silent or makes a reply that can be written**, if it is short enough. -/
theorem handle_serves (hwf : d.WellFormed cfg) (hs : d.Suited)
    (hsuite : ∀ c, cfg.suite = some c → c.Total ∧ c.Pads) (hc : d.CachedFits) {now : ℤ}
    (hlength : d.AnswerFits now rndB f) :
    (∃ err, Error.isNoReply err = true ∧ d.handle now rndB f = (.error err, d)) ∨
    ∃ g e out, d.handle now rndB f = (.ok g, e) ∧ g.append [] = .ok out ∧ e.CachedFits := by
  obtain ⟨hheard, err, hno, he⟩ | ⟨hheard, hrep, he⟩ | ⟨hheard, hrep, he⟩ := handle_cases d now rndB f
  · exact .inl ⟨err, hno, he⟩
  · -- a repeated reply went out before
    have hvalid : (d.observe now).cachedValid = true := by
      simp only [replays, Bool.and_eq_true] at hrep
      exact hrep.1.2
    have hsame : d.cachedValid = true ∧ (d.observe now).cached = d.cached := by
      unfold observe at hvalid ⊢
      simp only at hvalid ⊢
      split at hvalid
      · cases hvalid
      · rename_i hsilent
        rw [if_neg hsilent]
        exact ⟨hvalid, rfl⟩
    obtain ⟨out, hout⟩ := hc hsame.1
    rw [← hsame.2] at hout
    exact .inr ⟨_, _, out, he, hout, fun _ => ⟨out, hout⟩⟩
  · obtain ⟨hvalid, hseal⟩ := answerFor_ready hwf hs hsuite now rndB f
    rw [replyTo] at he
    unfold AnswerFits at hlength
    generalize (d.opening now f).answerFor f f.control.sequence rndB = a at he hvalid hseal hlength
    obtain ⟨g, e, hencode, hlen⟩ := encode_total hvalid { a.1 with isReply := true } f.control.sequence
      f.control.scheme hseal
    have hreplied := encode_ok rfl hencode
    have hfits : ∃ out, g.append [] = .ok out := by
      have hblock : SecurityBlock.wireLen g.security ≤ maxSecurityBlockSize := by
        rw [hreplied.security]
        cases hb : a.2.1 with
        | none => exact Nat.zero_le _
        | some b =>
          simp only [SecurityBlock.wireLen, (hseal b hb).1]
          decide
      rw [Frame.append_ok_iff, hreplied.address, hlen]
      exact ⟨hvalid, hblock, hlength⟩
    obtain ⟨err, u, hemit⟩ | ⟨g', u, hemit, hencode', -⟩ := emit_cases a.2.2 f f.control.sequence a.1 a.2.1
    · simp [emit, hencode] at hemit
    · obtain rfl : g' = g := Except.ok.inj (congrArg Prod.fst (hencode'.symm.trans hencode))
      obtain ⟨out, hout⟩ := hfits
      refine .inr ⟨g', _, out, by rw [he, hemit], hout, ?_⟩
      obtain ⟨a', k', c', t', hadopted, -⟩ := adopted_eq ({ a.2.2 with session := u }.stored f.control.sequence g')
      rw [hadopted]
      unfold stored CachedFits
      split
      · rintro ⟨⟩
      · exact fun _ => ⟨out, hout⟩

/-! ## How long an answer can be -/

/-- The longest payload whose reply fits in a frame, with the error check and, for a device with a
Secure Channel, the block, the padding and the code. -/
def maxReply (cfg : Settings) : ℕ := if cfg.suite.isSome then 65519 else 65527

/-- A byte for every contact is far within the limit. -/
theorem maxReply_ge (cfg : Settings) : 0x101 ≤ maxReply cfg := by
  unfold maxReply
  split <;> decide

/-- A payload within the limit fits, whatever it travels under. -/
theorem replyLength_le (hm : m.data.length ≤ maxReply cfg)
    (hblock : ∀ b, block = some b → b.data = []) (hsuite : block ≠ none → cfg.suite.isSome = true)
    (scheme : Scheme) : replyLength m block scheme ≤ maxFrameSize := by
  have hsize : scheme.size ≤ 2 := by cases scheme <;> decide
  unfold replyLength maxFrameSize headerSize
  cases block with
  | none =>
    unfold maxReply at hm
    simp only
    split at hm <;> omega
  | some b =>
    rw [maxReply, if_pos (hsuite (by simp))] at hm
    simp only [SecurityBlock.wireLen, hblock b rfl, List.length_nil, Bus.paddedLength, Secure.blockSize,
      macTagSize]
    split
    · omega
    · split <;> omega

/-- What waits for a poll and the capability report are within a bound. -/
structure Bounded (bound : ℕ) (d : Device) : Prop where
  pending : ∀ m ∈ d.pending, m.data.length ≤ bound
  capabilities : 3 * d.capabilities.length ≤ bound

section Lengths

variable {bound : ℕ} {cfg : Settings} {d : Device}

/-- Each entry of a report takes three octets. -/
theorem length_capabilities (r : CapabilityReport) :
    (CapabilityReport.append r []).length = 3 * r.length := by
  simp [CapabilityReport.append, List.length_flatMap, Nat.mul_comm]

/-- The configuration `New` accepts. -/
theorem contacts_of_new {addr : Address} (h : new addr cfg = .ok d) :
    cfg.inputs ≤ 0xFF ∧ cfg.outputs ≤ 0xFF ∧ cfg.readers ≤ 0xFF := by
  obtain ⟨-, -, hvalid, -⟩ := new_ok h
  unfold Settings.validate at hvalid
  split at hvalid
  · cases hvalid
  · rename_i hc
    omega

/-- **The table's answers are short**, apart from those it takes from the queue and from the
configuration. -/
theorem dispatch_length (hB : 0x101 ≤ bound) (h : d.Bounded bound) (hh : d.cfg.handler = none)
    (hin : d.inputs.length ≤ 0xFF) (hout : d.outputs.length ≤ 0xFF) (hread : d.cfg.readers ≤ 0xFF)
    (code : Code) (data : Octets) (secured : Bool) :
    (d.dispatch code data secured).1.data.length ≤ bound := by
  apply dispatch_rows d code data secured (motive := fun r => r.1.data.length ≤ bound)
  case idle => exact fun _ _ => Nat.zero_le _
  case event => exact fun m rest _ hp => h.pending m (by simp [hp])
  case identity =>
    intro _
    simp only [appendDeviceID, littleEndian, List.nil_append, List.length_append, List.length_cons,
      List.length_nil, List.Vector.toList_length]
    omega
  case capabilities =>
    intro _
    simp only [length_capabilities]
    exact h.capabilities
  case answered =>
    intro m _ hm
    have hlength := hm.length
    simp only
    omega
  case outputs => exact fun _ _ => Nat.zero_le _
  case address =>
    intro want _ _ _
    simp only [communicationCommand, littleEndian, List.length_cons, List.length_nil]
    omega
  case key => exact fun _ _ _ _ _ => Nat.zero_le _
  case delegated =>
    intro _
    simp only [delegate, hh, nak, List.length_singleton]
    omega

/-- An answer comes from the table, or is one of the handshake or a refusal. -/
theorem answerFor_origin (d : Device) (f : Frame) (seq : UInt8) (rndB : Rnd) :
    (∃ s code payload secured, (d.answerFor f seq rndB).1 =
      ({ d with session := s }.dispatch code payload secured).1) ∨
    (d.answerFor f seq rndB).1.data.length ≤ 32 := by
  have hnak : ∀ reason, (nak reason : Message).data.length ≤ 32 := by
    intro reason
    simp [nak]
  unfold answerFor answer
  split
  · exact .inr (hnak _)
  · split
    · unfold answerSecure
      split
      · exact .inr (hnak _)
      · split
        · unfold answerChallenge
          simp only
          split
          · exact .inr (hnak _)
          · rename_i out u hu
            obtain ⟨-, keys, client, -, -, rfl, -⟩ := Secure.Session.answerChallenge_ok hu
            exact .inr (by simp)
        · split
          · unfold answerCryptogram
            split
            · exact .inr (hnak _)
            · split
              · exact .inr (hnak _)
              · rename_i out u hu
                obtain ⟨-, expected, r, -, -, -, rfl, -⟩ := Secure.Session.answerServerCryptogram_eq hu
                exact .inr (by simp)
          · split
            · unfold answerEstablished
              split
              · exact .inr (hnak _)
              · split
                · exact .inr (hnak _)
                · split
                  · exact .inr (hnak _)
                  · exact .inl ⟨_, _, _, _, rfl⟩
            · exact .inr (hnak _)
    · split
      · exact .inr (hnak _)
      · exact .inl ⟨d.session, _, _, _, rfl⟩

/-- **How long an answer is.** -/
theorem answerFor_length (hB : 0x101 ≤ bound) (h : d.Bounded bound) (hh : d.cfg.handler = none)
    (hin : d.inputs.length ≤ 0xFF) (hout : d.outputs.length ≤ 0xFF) (hread : d.cfg.readers ≤ 0xFF)
    (f : Frame) (seq : UInt8) (rndB : Rnd) :
    (d.answerFor f seq rndB).1.data.length ≤ bound := by
  obtain ⟨s, code, payload, secured, he⟩ | hshort := answerFor_origin d f seq rndB
  · rw [he]
    exact dispatch_length (d := { d with session := s }) hB ⟨h.pending, h.capabilities⟩ hh hin hout
      hread code payload secured
  · omega

/-- Only a device with a Secure Channel puts a block on its answer. -/
theorem answerFor_block_suite (hsuite : d.cfg.suite = none) (f : Frame) (seq : UInt8) (rndB : Rnd) :
    (d.answerFor f seq rndB).2.1 = none := by
  unfold answerFor answer
  split
  · rfl
  · split
    · simp only [answerSecure, hsuite]
    · split <;> rfl

/-! ### What the application and the panel do to the bound -/

/-- A short event keeps the bound. -/
theorem queue_bounded (h : d.Bounded bound) (hm : m.data.length ≤ bound) :
    (d.queue m).2.Bounded bound := by
  unfold queue
  split
  · exact h
  · refine ⟨?_, h.capabilities⟩
    intro w hw
    rcases List.mem_append.mp hw with hw | hw
    · exact h.pending w hw
    · rw [List.mem_singleton.mp hw]
      exact hm

/-- So does a status. -/
theorem coalesce_bounded (h : d.Bounded bound) (hm : m.data.length ≤ bound) :
    (d.coalesce m).2.Bounded bound := by
  unfold coalesce
  split
  · rename_i pending hp
    refine ⟨?_, h.capabilities⟩
    intro w hw
    rcases mem_replaceFirst hp hw with rfl | hw
    · exact hm
    · exact h.pending w hw
  · exact queue_bounded h hm

/-- A report within the bound keeps the queue within it; only a card read may be beyond. -/
theorem report_bounded (hB : 0x101 ≤ bound) (h : d.Bounded bound) (hin : d.inputs.length ≤ 0xFF)
    {r : Report} (hr : ∀ c, r = .cardRead c → 4 + c.data.length ≤ bound) :
    (d.report r).2.Bounded bound := by
  cases r with
  | cardRead c =>
    simp only [report, reportCardRead]
    split
    · exact h
    · refine queue_bounded h ?_
      have hc := hr c rfl
      simp only [appendCardRead, littleEndian, List.nil_append, List.length_append, List.length_cons,
        List.length_nil]
      omega
  | keypad k =>
    refine queue_bounded h ?_
    simp only [appendKeypad, List.nil_append, List.length_append, List.length_cons, List.length_nil]
    split
    · rw [List.length_take]
      omega
    · omega
  | input index active =>
    simp only [report, setInput]
    split
    · exact h
    · refine coalesce_bounded (d := { d with inputs := d.inputs.set index.toNat active })
        ⟨h.pending, h.capabilities⟩ ?_
      simp only [contactStatus, List.length_map, List.length_set]
      omega
  | tamper active =>
    exact coalesce_bounded (d := { d with tamper := active }) ⟨h.pending, h.capabilities⟩
      (show 2 ≤ bound by omega)
  | power failure =>
    exact coalesce_bounded (d := { d with powerFailure := failure }) ⟨h.pending, h.capabilities⟩
      (show 2 ≤ bound by omega)

/-- A reply leaves the report, or derives it anew. -/
theorem emit_capabilities (d : Device) (command : Frame) (seq : UInt8) (m : Message)
    (block : Option SecurityBlock) :
    (d.emit command seq m block).2.capabilities = d.capabilities ∨
      (d.emit command seq m block).2.capabilities.length = 8 ∨
      d.cfg.capabilities = some (d.emit command seq m block).2.capabilities := by
  obtain ⟨err, s, he⟩ | ⟨g, s, he, -⟩ := emit_cases d command seq m block
  · rw [he]
    exact .inl rfl
  · obtain ⟨a, k, c, t, hadopted, -, hc⟩ := adopted_eq ({ d with session := s }.stored seq g)
    have hsame : ({ d with session := s }.stored seq g).capabilities = d.capabilities ∧
        ({ d with session := s }.stored seq g).cfg = d.cfg := by
      unfold stored
      split <;> exact ⟨rfl, rfl⟩
    rw [he, hadopted]
    rwa [hsame.1, hsame.2] at hc

/-- No command brings anything longer in. -/
theorem handle_bounded (hB : 0x101 ≤ bound) (h : d.Bounded bound)
    (hcaps : ∀ r, d.cfg.capabilities = some r → 3 * r.length ≤ bound) (now : ℤ) (rndB : Rnd)
    (f : Frame) : (d.handle now rndB f).2.Bounded bound := by
  obtain ⟨-, e, -, he⟩ | ⟨-, -, he⟩ | ⟨-, -, he⟩ := handle_cases d now rndB f
  · rw [he]
    exact h
  · obtain ⟨s, c, q, v, ho⟩ := observe_eq d now
    rw [he, ho]
    exact ⟨h.pending, h.capabilities⟩
  · have halike := alike_answerFor d now rndB f
    have hpending : ((d.opening now f).answerFor f f.control.sequence rndB).2.2.pending <:+
        d.pending := by
      rw [← opening_pending d now f]
      cases hd : (d.opening now f).dispatchFor f f.control.sequence with
      | none =>
        obtain ⟨s, m, block, hans, -⟩ := answerFor_of_none hd rndB
        rw [hans]
      | some q =>
        obtain ⟨payload, secured⟩ := q
        obtain ⟨s, hans, -⟩ := answerFor_of_dispatchFor hd rndB
        rw [hans]
        exact (dispatch_sizes { d.opening now f with session := s } f.code payload secured).1
    rw [he, replyTo]
    refine ⟨?_, ?_⟩
    · rw [emit_pending]
      exact fun m hm => h.pending m (hpending.subset hm)
    · have hemit := emit_capabilities ((d.opening now f).answerFor f f.control.sequence rndB).2.2 f
        f.control.sequence ((d.opening now f).answerFor f f.control.sequence rndB).1
        ((d.opening now f).answerFor f f.control.sequence rndB).2.1
      rw [halike.capabilities, halike.cfg] at hemit
      obtain hkept | hdefault | hconfigured := hemit
      · rw [hkept]
        exact h.capabilities
      · rw [hdefault]
        omega
      · exact hcaps _ hconfigured

end Lengths

end Pd.Device

/-! ## The loop -/

/-- The device's scanner never gives up on noise. -/
theorem next_ne_failed (s : Scan.Scanner) (port : Scan.Port) (e : DecodeError) :
    (Pd.next s port).1 ≠ .failed e := by
  have hturn : ∀ s r t, Scan.turn false s = .returns r t → r ≠ .failed e := by
    intro s r t h
    unfold Scan.turn at h
    split at h
    · cases h
      exact nofun
    · cases h
      exact nofun
    · cases h
    · simp only [Bool.false_eq_true, if_false] at h
      split at h <;> cases h
  refine Scan.nextWith_induction (motive := fun _ _ _ res => res.1 ≠ .failed e) ?_ ?_ ?_ ?_ s
    port.stream port.reads
  · exact fun s stream reads r t h => hturn s r t h
  · exact fun _ _ _ _ => nofun
  · exact fun _ _ _ _ _ _ _ => nofun
  · exact fun _ _ _ _ _ _ _ _ _ _ _ _ ih => ih

namespace Pd.Server

/-- A loop about to start on a device. -/
def new (d : Device) : Server := { device := d }

/-- The frame an iteration hands to the device, if it comes to that. -/
def arrives (s : Server) (x : Iteration) : Option Frame :=
  match next s.scan x.port with
  | (.frame f, scan, _) | (.badCheck f, scan, _) => some (f.readBack scan.buf)
  | _ => none

/-- The port does not fail in an iteration. -/
def PortHolds (s : Server) : Op → Prop
  | .report _ => True
  | .iterate x => (next s.scan x.port).1 ≠ .portFailed

/-- What an iteration of a reader that serves on comes to: silence or one reply, and no error. -/
structure Serves (s : Server) (x : Iteration) : Prop where
  handled : ∀ f, s.arrives x = some f →
    (∃ e d, Error.isNoReply e = true ∧ s.device.handle x.now x.rndB f = (.error e, d)) ∨
    ∃ g d out, s.device.handle x.now x.rndB f = (.ok g, d) ∧ g.append [] = .ok out
  written : (s.step (.iterate x)).written = s.written ∨
    ∃ out, (s.step (.iterate x)).written = s.written ++ [out]
  runs : (s.step (.iterate x)).stopped = none

/-- The same for every step. -/
def ServesOn (s : Server) (op : Op) : Prop := ∀ x, op = .iterate x → s.Serves x

/-- What a reader that has served so far keeps. -/
structure Ready (cfg : Settings) (s : Server) : Prop where
  device : s.device.WellFormed cfg
  suited : s.device.Suited
  cached : s.device.CachedFits
  running : s.stopped = none

section Steps

variable {cfg : Settings} {s : Server} {x : Iteration}

/-- With a port that holds an iteration waits for a command or answers one. -/
theorem iterate_cases (hport : s.PortHolds (.iterate x)) :
    ∃ scan, (s.arrives x = none ∧ s.iterate x = { s with scan := scan }) ∨
      ∃ f, s.arrives x = some f ∧ s.iterate x = { s with scan := scan }.answer x f := by
  have hfailed := next_ne_failed s.scan x.port
  simp only [PortHolds] at hport
  unfold arrives iterate
  rcases hn : next s.scan x.port with ⟨r, scan, port⟩
  rw [hn] at hport hfailed
  cases r with
  | frame f => exact ⟨scan, .inr ⟨_, rfl, rfl⟩⟩
  | badCheck f => exact ⟨scan, .inr ⟨_, rfl, rfl⟩⟩
  | failed e => exact absurd rfl (hfailed e)
  | timeout => exact ⟨scan, .inl ⟨rfl, rfl⟩⟩
  | portFailed => exact absurd rfl hport

/-- A report leaves the loop as it was. -/
theorem ready_report (h : s.Ready cfg) (r : Report) : (s.step (.report r)).Ready cfg := by
  obtain ⟨i, t, w, p, he⟩ := Device.report_device s.device r
  have hwf := Device.report_wellFormed h.device r
  refine ⟨hwf, ?_, ?_, h.running⟩
  · simp only [step, he]
    exact h.suited
  · simp only [step, he]
    exact h.cached

/-- A reader whose replies fit serves on. -/
theorem serves_iterate (hsuite : ∀ c, cfg.suite = some c → c.Total ∧ c.Pads) (h : s.Ready cfg)
    (hport : s.PortHolds (.iterate x)) (hfits : ∀ f, s.device.AnswerFits x.now x.rndB f) :
    s.Serves x ∧ (s.step (.iterate x)).Ready cfg := by
  have hstep : s.step (.iterate x) = s.iterate x := by simp [step, h.running]
  obtain ⟨scan, ⟨hnone, he⟩ | ⟨f, hf, he⟩⟩ := iterate_cases hport
  · rw [he] at hstep
    refine ⟨⟨by simp [hnone], ?_, ?_⟩, ?_⟩
    · rw [hstep]
      exact .inl rfl
    · rw [hstep]
      exact h.running
    · rw [hstep]
      exact ⟨h.device, h.suited, h.cached, h.running⟩
  · have hwf := (Device.handle_wellFormed h.device x.now x.rndB f).1
    have hsuited := Device.handle_suited h.device h.suited x.now x.rndB f
    rw [he, answer] at hstep
    obtain ⟨err, hno, hh⟩ | ⟨g, d, out, hh, hout, hcached⟩ :=
      Device.handle_serves h.device h.suited hsuite h.cached (hfits f)
    · simp only [hh, hno, if_true] at hstep
      refine ⟨⟨?_, ?_, ?_⟩, ?_⟩
      · intro f' hf'
        cases hf.symm.trans hf'
        exact .inl ⟨err, _, hno, hh⟩
      · rw [hstep]
        exact .inl rfl
      · rw [hstep]
        exact h.running
      · rw [hstep]
        exact ⟨h.device, h.suited, h.cached, h.running⟩
    · rw [hh] at hwf hsuited
      simp only [hh, hout] at hstep
      refine ⟨⟨?_, ?_, ?_⟩, ?_⟩
      · intro f' hf'
        cases hf.symm.trans hf'
        exact .inr ⟨g, d, out, hh, hout⟩
      · rw [hstep]
        exact .inr ⟨out, rfl⟩
      · rw [hstep]
        exact h.running
      · rw [hstep]
        exact ⟨hwf, hsuited, hcached, h.running⟩

/-- A device within the limit makes no reply beyond it. -/
theorem answerFits_of_bounded (h : s.Ready cfg) (hh : cfg.handler = none)
    (hcontacts : cfg.inputs ≤ 0xFF ∧ cfg.outputs ≤ 0xFF ∧ cfg.readers ≤ 0xFF)
    (hb : s.device.Bounded (Device.maxReply cfg)) (now : ℤ) (rndB : Rnd) (f : Frame) :
    s.device.AnswerFits now rndB f := by
  have hB := Device.maxReply_ge cfg
  obtain ⟨se, c, q, v, n, hopening⟩ := Device.opening_eq s.device now f
  have hcfg : (s.device.opening now f).cfg = cfg := by
    rw [hopening]
    exact h.device.configured
  have hlength := Device.answerFor_length (d := s.device.opening now f) hB
    (by rw [hopening]; exact ⟨hb.pending, hb.capabilities⟩) (by rw [hcfg]; exact hh)
    (by rw [hopening]; exact h.device.inputs.le.trans hcontacts.1)
    (by rw [hopening]; exact h.device.outputs.le.trans hcontacts.2.1)
    (by rw [hcfg]; exact hcontacts.2.2) f f.control.sequence rndB
  refine Device.replyLength_le hlength (fun b hb => Device.answerFor_block_data hb) ?_ _
  intro hblock
  by_contra hsuite
  refine hblock (Device.answerFor_block_suite ?_ f f.control.sequence rndB)
  rw [hcfg]
  simpa using hsuite

/-- Every step keeps a device within the limit that reports within it. -/
theorem bounded_step (h : s.Ready cfg) (hin : cfg.inputs ≤ 0xFF) {op : Op}
    (hcard : ∀ c, op = .report (.cardRead c) → 4 + c.data.length ≤ Device.maxReply cfg)
    (hcaps : ∀ r, cfg.capabilities = some r → 3 * r.length ≤ Device.maxReply cfg)
    (hb : s.device.Bounded (Device.maxReply cfg)) :
    (s.step op).device.Bounded (Device.maxReply cfg) := by
  have hB := Device.maxReply_ge cfg
  cases op with
  | report r =>
    refine Device.report_bounded hB hb (h.device.inputs.le.trans hin) ?_
    rintro c rfl
    exact hcard c rfl
  | iterate x =>
    have hhandle : ∀ f, (s.device.handle x.now x.rndB f).2.Bounded (Device.maxReply cfg) := fun f =>
      Device.handle_bounded hB hb (by rw [h.device.configured]; exact hcaps) x.now x.rndB f
    have hanswer : ∀ scan f, ({ s with scan := scan }.answer x f).device.Bounded
        (Device.maxReply cfg) := by
      intro scan f
      have hf := hhandle f
      unfold answer
      split
      · rename_i e d hd
        rw [hd] at hf
        split <;> exact hf
      · rename_i g d hd
        rw [hd] at hf
        split <;> exact hf
    have hstep : s.step (.iterate x) = s.iterate x := by simp [step, h.running]
    rw [hstep, iterate]
    split
    · exact hb
    · exact hb
    · exact hb
    · exact hanswer _ _
    · exact hanswer _ _

end Steps

variable {addr : Address} {cfg : Settings} {d : Device} {c : CardRead}

/-- A new reader is ready. -/
theorem ready_new (h : Pd.new addr cfg = .ok d) : (new d).Ready cfg := by
  have hwf := Device.wellFormed_new h
  obtain ⟨-, -, -, c, rfl, -⟩ := new_ok h
  exact ⟨hwf, nofun, nofun, rfl⟩

/-- What the application may report for every reply to fit: card reads and a configured capability
report within the limit. -/
structure Fitting (cfg : Settings) (ops : List Op) : Prop where
  cards : ∀ c, .report (.cardRead c) ∈ ops → 4 + c.data.length ≤ Device.maxReply cfg
  capabilities : ∀ r, cfg.capabilities = some r → 3 * r.length ≤ Device.maxReply cfg

/-- A device is made within the limit. -/
theorem bounded_new (h : Pd.new addr cfg = .ok d)
    (hcaps : ∀ r, cfg.capabilities = some r → 3 * r.length ≤ Device.maxReply cfg) :
    d.Bounded (Device.maxReply cfg) := by
  have hlimit := Device.maxReply_ge cfg
  obtain ⟨-, -, -, c, rfl, hc | ⟨-, hc⟩⟩ := new_ok h
  · exact ⟨nofun, hcaps c hc⟩
  · refine ⟨nofun, ?_⟩
    simp only [hc]
    omega

/-- **A reader whose port holds serves on.** Without a handler, and with card reads and a capability
report within the limit, every command of every run is met with silence or with one reply that is
written, whatever octets arrive, in whatever reads and at whatever times. -/
theorem reader_serves_on {addr : Address} {cfg : Settings} {d : Device}
    (hnew : Pd.new addr cfg = .ok d) (hsuite : ∀ c, cfg.suite = some c → c.Total ∧ c.Pads)
    (hhandler : cfg.handler = none) {ops : List Op} (hfits : Fitting cfg ops)
    (hport : ∀ p ∈ Run.trace step (new d) ops, p.1.PortHolds p.2) :
    ∀ p ∈ Run.trace step (new d) ops, p.1.ServesOn p.2 := by
  have hcontacts := Device.contacts_of_new hnew
  have hserves : ∀ (s : Server) (op : Op), s.Ready cfg → s.device.Bounded (Device.maxReply cfg) →
      s.PortHolds op → s.ServesOn op ∧ (s.step op).Ready cfg := by
    intro s op h hb hp
    cases op with
    | report r => exact ⟨nofun, ready_report h r⟩
    | iterate x =>
      obtain ⟨hserves, hnext⟩ :=
        serves_iterate hsuite h hp (answerFits_of_bounded h hhandler hcontacts hb x.now x.rndB)
      exact ⟨by rintro y ⟨⟩; exact hserves, hnext⟩
  have hinv : ∀ p ∈ Run.trace step (new d) ops,
      p.1.Ready cfg ∧ p.1.device.Bounded (Device.maxReply cfg) := by
    refine (Run.invariant_of_trace
      (I := fun s : Server => s.Ready cfg ∧ s.device.Bounded (Device.maxReply cfg))
      (C := fun s op => s.PortHolds op ∧
        ∀ c, op = .report (.cardRead c) → 4 + c.data.length ≤ Device.maxReply cfg) ?_
      ⟨ready_new hnew, bounded_new hnew hfits.capabilities⟩ ops ?_).1
    · rintro s op ⟨h, hb⟩ ⟨hp, hcard⟩
      exact ⟨(hserves s op h hb hp).2, bounded_step h hcontacts.1 hcard hfits.capabilities hb⟩
    · rintro ⟨s, op⟩ hp
      refine ⟨hport _ hp, ?_⟩
      rintro c rfl
      obtain ⟨before, after, rfl, -⟩ := (Run.mem_trace step).mp hp
      exact hfits.cards c (by simp)
  exact fun p hp => (hserves p.1 p.2 (hinv p hp).1 (hinv p hp).2 (hport p hp)).1

/-- The octets of a poll, all read at once. -/
def pollIteration : Iteration :=
  { port := ⟨[0x53, 0x01, 0x07, 0x00, 0x01, 0x60, 0x44], [7]⟩ }

/-- A reader reports a card and is polled. -/
theorem reader_serves_on_polled :
    ∃ d, Pd.new 1 {} = .ok d ∧
      ∀ p ∈ Run.trace step (new d) [.report (.cardRead ⟨0, 1, 26, [1, 2, 3, 4]⟩), .iterate pollIteration],
        p.1.ServesOn p.2 := by
  refine ⟨_, rfl, @reader_serves_on 1 {} _ rfl nofun rfl _ ⟨?_, nofun⟩ ?_⟩
  · rintro c hc
    simp only [List.mem_cons, List.not_mem_nil, or_false, Op.report.injEq, Report.cardRead.injEq,
      reduceCtorEq] at hc
    subst hc
    decide
  · intro p hp
    simp only [Run.trace_cons, Run.trace_nil, List.mem_cons, List.not_mem_nil, or_false] at hp
    obtain rfl | rfl := hp
    · trivial
    · exact show (next Scan.new pollIteration.port).1 ≠ .portFailed by decide +kernel

/-- The frame of the poll. -/
def polled : Frame :=
  { isReply := false, address := 1, control := ⟨1⟩, code := Code.poll, data := [], check := 0x44 }

/-- It has nothing in the buffer that could be moved away under it. -/
theorem polled_readBack (buf : Octets) : polled.readBack buf = polled := by
  simp [Frame.readBack, Frame.dataSlice, Window.Slice.of, polled]

/-- A device as it is made, with one card read queued. -/
def holding (c : CardRead) : Device :=
  { Device.refreshCapabilities { cfg := {}, address := 1 } with
    pending := [{ code := Code.raw, data := appendCardRead [] c }] }

/-- A poll gets the card read as it is. -/
theorem holding_polled (c : CardRead) :
    ∃ g d, (holding c).handle 0 Secure.zeroRnd polled = (.ok g, d) ∧ g.address = 1 ∧
      g.security = none ∧ g.control.scheme = .checksum ∧ g.data = appendCardRead [] c :=
  ⟨_, _, rfl, rfl, rfl, newControl_scheme _ _ _, rfl⟩

/-- A frame with a long card read cannot be written. -/
theorem append_long_card {g : Frame} (haddr : g.address = 1) (hblock : g.security = none)
    (hscheme : g.control.scheme = .checksum) (hdata : g.data = appendCardRead [] c)
    (hlong : 65525 ≤ c.data.length) : g.append [] = .error .frameTooLong := by
  have hlen : maxFrameSize < g.len := by
    simp only [Frame.len, hblock, hscheme, hdata, appendCardRead, maxFrameSize, headerSize,
      SecurityBlock.wireLen, Scheme.size, List.length_append, List.length_cons, List.length_nil,
      littleEndian]
    omega
  have hvalid : Address.valid 1 = true := by decide
  have hshort : ¬ SecurityBlock.wireLen none > maxSecurityBlockSize := by decide
  simp only [Frame.append, Frame.representable, haddr, hblock, hvalid, hlen, hshort]
  rfl

/-- A card read too long for a frame is accepted, and the poll that asks for it ends the loop. -/
theorem long_card_stops_reader (hbits : bitOctets c.bitCount ≤ c.data.length)
    (hlong : 65525 ≤ c.data.length) :
    ∃ d, Pd.new 1 {} = .ok d ∧ (d.report (.cardRead c)).1 = .ok () ∧
      (([.report (.cardRead c), .iterate pollIteration] : List Op).foldl step (new d)).stopped =
        some (.encode .frameTooLong) := by
  have hshort : ¬ c.data.length < bitOctets c.bitCount := Nat.not_lt.mpr hbits
  have hreported : (Device.refreshCapabilities { cfg := {}, address := 1 }).report (.cardRead c) =
      (.ok (), holding c) := by
    simp only [Device.report, Device.reportCardRead, hshort, if_false]
    rfl
  have hiterated : ((new (holding c)).step (.iterate pollIteration)).stopped =
      some (.encode .frameTooLong) := by
    have hframe : (next Scan.new pollIteration.port).1 = .frame polled := by decide +kernel
    obtain ⟨g, d, hhandle, haddr, hblock, hscheme, hdata⟩ := holding_polled c
    have happend := append_long_card haddr hblock hscheme hdata hlong
    rcases hnext : next Scan.new pollIteration.port with ⟨r, scan, port⟩
    rw [hnext] at hframe
    cases hframe
    have hruns : (new (holding c)).step (.iterate pollIteration) =
        (new (holding c)).iterate pollIteration := rfl
    rw [hruns]
    simp only [iterate, new, hnext, answer, polled_readBack]
    rw [show pollIteration.now = 0 from rfl, show pollIteration.rndB = Secure.zeroRnd from rfl, hhandle]
    simp only [happend]
  refine ⟨Device.refreshCapabilities { cfg := {}, address := 1 }, rfl, by rw [hreported], ?_⟩
  rw [List.foldl_cons, List.foldl_cons, List.foldl_nil, step, new, hreported]
  exact hiterated

/-- Such a card: the 26 bits of it are followed by 65,521 octets nothing asks for. -/
theorem long_card_ends_service :
    ∃ c d, Pd.new 1 {} = .ok d ∧ (d.report (.cardRead c)).1 = .ok () ∧
      (([.report (.cardRead c), .iterate pollIteration] : List Op).foldl step (new d)).stopped =
        some (.encode .frameTooLong) := by
  refine ⟨{ reader := 0, format := 0, bitCount := 26, data := List.replicate 65525 0 }, ?_⟩
  exact long_card_stops_reader (by rw [List.length_replicate]; decide) (by rw [List.length_replicate])

end Pd.Server

end Osdp
