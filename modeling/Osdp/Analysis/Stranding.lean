import Osdp.Analysis.Delivery

/-!
# A reader that is told to stay

The one move that delivery does not cover. After an `osdp_COMSET` the panel starts again with number
one. A reader that moved elsewhere has no business with that number, but one that stays at its address
looks for it in its cache, and when the report of the move was sent under number one it says that
report again (`Line.exchange_stay`). The panel has no session any more, and takes the ciphertext of the
report for the report (`Line.exchange_misread`). From then on it asks at an address where the reader is
not, and no operation of the line ends that (`Line.lost_step`).
-/

set_option autoImplicit false

namespace Osdp

open Osdp.Secure (Session Rnd BaseKey CipherSuite)

namespace Line

section

variable {b : Bus} {channel : Bus.SecureChannel} {cfg : Pd.Settings} {l : Line}

/-- The panel asks for the identity of a reader that is not where it asks. -/
structure Lost (l : Line) : Prop where
  state : l.panel.state = .offline
  address : l.panel.address ≠ l.device.address
  configAddr : l.device.cfg.configAddr = false

/-- No command reaches such a reader. -/
theorem Lost.unheard (h : l.Lost) {f : Frame} (hf : f.address = l.panel.address) :
    l.device.heard f = false := by
  have hno : l.device.addressed f.address = false := by
    simp [Pd.Device.addressed, h.configAddr, hf, h.address]
  simp [Pd.Device.heard, hno]

/-- **Nothing brings it back.** -/
theorem lost_step (b : Bus) (h : l.Lost) (op : LineOp) : (l.step b op).Lost := by
  cases op with
  | send m =>
    obtain ⟨o, he⟩ := Bus.send_queue b l.panel m
    simp only [step, he]
    exact ⟨h.state, h.address, h.configAddr⟩
  | installKey key =>
    obtain ⟨o, k, he⟩ := Bus.installKey_queue l.panel key
    simp only [step, he]
    exact ⟨h.state, h.address, h.configAddr⟩
  | report r =>
    obtain ⟨i, t, w, p, he⟩ := Pd.Device.report_device l.device r
    simp only [step, he]
    exact ⟨h.state, h.address, h.configAddr⟩
  | exchange x =>
    obtain ⟨-, haddress, hstanding⟩ := Bus.transact_standing b l.panel x.rndA
    have hstate : (Bus.transact b l.panel x.rndA).2.state = .offline := by
      obtain ⟨hsame, -⟩ | ⟨hno, -⟩ := hstanding
      · exact hsame.trans h.state
      · exact absurd (h.state.symm.trans hno) (by decide)
    show (l.exchange b x).2.Lost
    cases ht : Bus.transact b l.panel x.rndA with
    | mk res p =>
      rw [ht] at haddress hstate
      cases res with
      | error e =>
        simp only [exchange, ht]
        exact ⟨hstate, haddress ▸ h.address, h.configAddr⟩
      | ok f =>
        have hasked : f.address = l.panel.address := by
          have hcommand : (Bus.commandFor l.panel x.rndA).2.2 = l.panel := by
            simp only [Bus.commandFor, h.state]
          rw [(Bus.transact_ok ht).address, hcommand]
        have hcarry : ({ l with panel := p }.carry x f).1 = none ∧
            ({ l with panel := p }.carry x f).2.panel = p ∧
            ({ l with panel := p }.carry x f).2.device = l.device := by
          have hserve : ({ l with panel := p }.serve x f).1 = none ∧
              ({ l with panel := p }.serve x f).2.panel = p ∧
              ({ l with panel := p }.serve x f).2.device = l.device := by
            unfold serve
            split
            · obtain ⟨-, e, -, he⟩ | ⟨hyes, -⟩ | ⟨hyes, -⟩ :=
                Pd.Device.handle_cases l.device x.now x.rndB f
              · simp [he]
              · exact absurd ((h.unheard hasked).symm.trans hyes) (by decide)
              · exact absurd ((h.unheard hasked).symm.trans hyes) (by decide)
            · exact ⟨rfl, rfl, rfl⟩
          unfold carry
          cases x.fate with
          | commandLost => exact ⟨rfl, rfl, rfl⟩
          | replyLost => exact ⟨rfl, hserve.2⟩
          | delivered => exact hserve
        obtain ⟨hnone, hpanel, hdevice⟩ := hcarry
        simp only [exchange, ht, hnone]
        obtain ⟨-, he⟩ | ⟨-, hno, -⟩ := Bus.timeout_cases p
        · refine ⟨?_, ?_, ?_⟩ <;>
            simp only [await, silence, hpanel, hdevice, he, Bus.Device.retransmit_eq]
          · exact hstate
          · exact haddress ▸ h.address
          · exact h.configAddr
        · exact absurd hstate hno

/-- A line that is lost is not up. -/
theorem Lost.down (h : l.Lost) : ¬ l.Up := by
  rintro ⟨s, t, hjoined, -⟩
  exact absurd (h.state.symm.trans hjoined.state) (by decide)

/-- The reader has reported the place it was at, and the panel has started again from nothing. The
report is in the reader's cache, enciphered, under the number the panel asks with next. -/
structure Stayed (channel : Bus.SecureChannel) (cfg : Pd.Settings) (c : Communication) (l : Line) :
    Prop extends l.Met channel cfg where
  offline : l.panel.state = .offline
  session : l.panel.session = none
  stale : l.stale = true
  code : l.device.cached.code = Code.com
  replied : l.device.cached.address = l.panel.address
  enciphered : ∃ u mac, u.suite = channel.suite ∧
    Sealed u false { type := Secure.scs18 } (communicationCommand c).data mac l.device.cached

/-- **A move to where the reader is**, under the number that a panel starts with. -/
theorem exchange_stay (hb : b.secure = some channel) (ha : Agreeable channel cfg)
    (hlaw : channel.suite.Lawful) (h : l.Live channel cfg) {x : Exchange} (hx : x.fate = .delivered)
    {c : Communication} (hutterance : l.panel.utterance = communicationCommand c)
    (hvalid : Address.valid c.address = true) (hbroadcast : c.address ≠ broadcastAddress)
    (hstay : c.address = l.panel.address) (hnumber : l.panel.number = 1) :
    (l.exchange b x).2.Stayed channel cfg c ∧
      (l.exchange b x).2.panel.address = l.panel.address := by
  obtain ⟨s, t, p, r, hc⟩ := exchange_live ha hlaw h hx b
  have hset := h.honest.device.settled
  obtain ⟨u, mac, hsuite, hsealed⟩ := hc.sealed
  have hran : l.ran x.now = (⟨Code.com, false, (communicationCommand ⟨c.address, c.baud⟩).data⟩,
      { l.device.noticed x.now with adopting := some c.address }) := by
    rw [ran, hutterance]
    obtain ⟨c', hc', he⟩ | ⟨hno, -⟩ := Pd.Device.dispatch_address (l.device.noticed x.now)
      (communicationCommand c).data true
    · rw [parseCommunication_command] at hc'
      cases hc'
      exact he
    · obtain hno | hno := hno c (parseCommunication_command c)
      · exact absurd hvalid hno
      · exact absurd hno hbroadcast
  obtain ⟨-, hcached, ⟨hseq, hvalidity⟩, haddress, hkept⟩ := l.rejoined_device x.now t r
  rw [hran] at haddress hkept
  have hplace : (l.rejoined x.now t r).address = c.address := haddress
  have hbase : { l.panel with address := c.address }.baseKey channel.keys =
      some (l.rejoined x.now t r).key := by
    rw [hkept, show ({ l.device.noticed x.now with adopting := some c.address } :
      Pd.Device).adoptingKey = none from hset.2, hstay]
    exact h.key
  have hq := Bus.dispatch_moved b (l.panel.heardBack s) (parseCommunication_command c)
  rw [Bus.Device.resync_eq, Bus.Device.heardBack_eq h.idle] at hq
  obtain ⟨hex, hmet⟩ := exchange_ended hb ha h hc hran (Bus.Device.heardBack_eq h.idle s) hq hbase
    hplace.symm rfl rfl
  rw [hex]
  refine ⟨{ hmet with offline := rfl, session := rfl, stale := ?_, code := ?_, replied := ?_
                      enciphered := ⟨u, mac, hsuite, ?_⟩ }, hstay⟩
  · show ((l.rejoined x.now t r).cachedValid && (l.rejoined x.now t r).cachedSeq == _) = true
    rw [hvalidity, hseq, hnumber]
    rfl
  · rw [hcached, hc.replied.code, hran]
  · rw [hcached, hc.replied.address, ← h.address]
    exact hstay.symm
  · rw [hcached]
    rw [hran] at hsealed
    exact hsealed

/-- **The report is said again**, enciphered as it was, and the panel reads the ciphertext. -/
theorem exchange_misread (ha : Agreeable channel cfg) (hpads : channel.suite.Pads)
    {c : Communication} (h : l.Stayed channel cfg c) {y : Exchange} (hy : y.fate = .delivered)
    (b : Bus) :
    ∃ m, m.address = l.device.cached.data.headD 0 ∧
      (l.exchange b y).1 = some (.communication m l.panel.address) ∧
      (l.exchange b y).2.panel.state = .offline ∧
      (l.exchange b y).2.panel.address = m.address ∧
      (l.exchange b y).2.device = l.device.noticed y.now := by
  obtain ⟨u, mac, hsuite, hsealed⟩ := h.enciphered
  obtain ⟨cipher, hdata, hcipher⟩ := hsealed.payload
  rw [if_pos (by decide)] at hcipher
  have hlong : cipher.length = 16 := by
    unfold Session.sealPayload at hcipher
    split at hcipher
    · cases hcipher
    · rw [hsuite] at hcipher
      rw [hpads _ _ _ _ hcipher]
      simp [communicationCommand, littleEndian, Bus.paddedLength, Secure.blockSize]
  obtain ⟨m, hm, hhead⟩ : ∃ m, parseCommunication l.device.cached.data = some m ∧
      m.address = l.device.cached.data.headD 0 := by
    have hshort : ¬ l.device.cached.data.length < communicationSize := by
      rw [hdata, List.length_append, hlong, communicationSize]
      omega
    refine ⟨_, if_neg hshort, ?_⟩
    cases l.device.cached.data <;> rfl
  have hvalid : l.device.cachedValid = true ∧ l.device.cachedSeq = l.panel.number := by
    simpa [Line.stale] using h.stale
  obtain ⟨-, hisReply, hseq, -⟩ := h.honest.device.cached hvalid.1
  have hz : l.device.cached.control.sequence ≠ 0 := by
    rw [hseq, hvalid.2]
    exact h.isNumber.ne_zero
  have ht := Bus.transact_enrolling b h.valid (.inl ⟨h.offline, rfl⟩) y.rndA
  have hcarry := carry_stale ha h.toMet h.stale hy ht rfl
  have hidle : ({ l.panel with seq := l.panel.number, repeatSequence := false } :
      Bus.Device).inflight = none := h.idle
  have hunest : ({ l.panel with seq := l.panel.number, repeatSequence := false } :
      Bus.Device).secureEstablished = false := by
    simp [Bus.Device.secureEstablished, h.session]
  have hreplied := Bus.reply_unestablished b hunest hisReply h.replied hz
  have hdecode : Message.decode l.device.cached =
      { code := Code.com, isReply := true, data := l.device.cached.data } := by
    simp only [Message.decode, h.code, hisReply]
  rw [Bus.Device.delivered_idle hidle, hdecode, Bus.dispatch_moved b _ hm,
    Bus.Device.resync_eq] at hreplied
  refine ⟨m, hhead, ?_⟩
  rw [exchange_of_carry ht hcarry, await_ok hreplied]
  exact ⟨rfl, rfl, rfl, rfl⟩

/-- What the panel has read decides where it asks from then on. -/
theorem lost_misread (ha : Agreeable channel cfg) (hpads : channel.suite.Pads) {c : Communication}
    (h : l.Stayed channel cfg c) {y : Exchange} (hy : y.fate = .delivered) (b : Bus)
    (hread : l.device.cached.data.headD 0 ≠ l.device.address) : (l.exchange b y).2.Lost := by
  obtain ⟨m, hm, -, hstate, haddress, hdevice⟩ := exchange_misread ha hpads h hy b
  refine ⟨hstate, ?_, ?_⟩
  · rw [haddress, hm, hdevice]
    exact hread
  · rw [hdevice]
    exact (congrArg Pd.Settings.configAddr h.honest.device.configured).trans ha.defaults.configAddr

end

end Line

/-- **A reader that is told to stay where it is can be lost for good.** Over the Secure Channel, under
the number that the panel starts a conversation with, the reader's report is still in its cache when
the panel begins again from nothing, and the panel reads the ciphertext of it: it publishes a move to
the first octet of that ciphertext, and unless that happens to be the reader's address, nothing that
is sent, reported or exchanged afterwards brings the channel up again. -/
theorem stay_strands_reader {b : Bus} {channel : Bus.SecureChannel} {cfg : Pd.Settings} {l : Line}
    {x y : Exchange} {c : Communication} (hb : b.secure = some channel)
    (ha : Line.Agreeable channel cfg) (hlaw : channel.suite.Lawful) (hpads : channel.suite.Pads)
    (h : l.Live channel cfg) (hutterance : l.panel.utterance = communicationCommand c)
    (hvalid : Address.valid c.address = true) (hbroadcast : c.address ≠ broadcastAddress)
    (hstay : c.address = l.panel.address) (hnumber : l.panel.number = 1) (hx : x.fate = .delivered)
    (hy : y.fate = .delivered) :
    ∃ u mac m, Sealed u false { type := Secure.scs18 } (communicationCommand c).data mac
        (l.exchange b x).2.device.cached ∧
      m.address = (l.exchange b x).2.device.cached.data.headD 0 ∧
      ((l.exchange b x).2.exchange b y).1 = some (.communication m l.panel.address) ∧
      (m.address ≠ (l.exchange b x).2.device.address → ∀ ops : List LineOp,
        ¬ (ops.foldl (Line.step b) ((l.exchange b x).2.exchange b y).2).Up) := by
  obtain ⟨hstayed, hplace⟩ :=
    Line.exchange_stay hb ha hlaw h hx hutterance hvalid hbroadcast hstay hnumber
  obtain ⟨u, mac, -, hsealed⟩ := hstayed.enciphered
  obtain ⟨m, hm, hevent, -⟩ := Line.exchange_misread ha hpads hstayed hy b
  refine ⟨u, mac, m, hsealed, hm, hplace ▸ hevent, fun hread ops => ?_⟩
  have hlost : (ops.foldl (Line.step b) ((l.exchange b x).2.exchange b y).2).Lost :=
    Run.invariant (I := Line.Lost) (fun _ op hl => Line.lost_step b hl op)
      (Line.lost_misread ha hpads hstayed hy b (hm ▸ hread)) ops
  exact hlost.down

namespace Line

def plainBus : Bus := { scheme := .crc16, secure := some plainChannel }

/-- The reader as it comes up. -/
def plainReader : Pd.Device :=
  Pd.Device.refreshCapabilities { cfg := plainSettings, address := 1, key := plainSettings.key }

/-- The channel comes up, the reader is polled twice, and is told to stay at its address. -/
def stayOps : List LineOp :=
  [nth 1 .delivered, nth 2 .delivered, nth 3 .delivered, nth 4 .delivered, nth 5 .delivered,
    nth 6 .delivered, .send (communicationCommand ⟨1, 9600⟩)]

def staying : Line :=
  (stayOps.foldl (Journal.step plainBus) (Journal.resume { panel := .new 1, device := plainReader })).line

/-- The sample is a line in use. -/
theorem live_staying : staying.Live plainChannel plainSettings := by
  have hup : staying.panel.secureEstablished = true ∧ staying.panel.state = .secure ∧
      staying.device.secured = true := by decide +kernel
  have horderly := (Run.invariant_of_trace (I := Journal.Orderly plainChannel plainSettings)
    (C := fun j op => j.line.Proper plainBus plainChannel op)
    (fun _ _ h hop => Journal.orderly_step (b := plainBus) rfl agreeable_plain h
      (Secure.aes128_lawful _) hop)
    (Journal.orderly_resume (enrolling_of_new (p := .new 1) (d := plainReader) agreeable_plain rfl
      (by decide) (Bus.Device.poised_new _ _) nofun rfl rfl rfl (by simp [Bus.Device.new]) (by decide)
      nofun rfl) (quiet_fresh rfl) (by simp [Pd.Device.Available]; decide)) stayOps
    (by decide +kernel)).2
  have hline : staying.Live plainChannel plainSettings ∨ staying.Enrolling plainChannel plainSettings :=
    horderly.line
  refine hline.resolve_right fun h => ?_
  have hno := (h.forgotten hup.1).2.2 hup.2.1
  rw [hup.2.2] at hno
  cases hno

/-- One more exchange. -/
def asked : Exchange := { rndA := List.Vector.replicate 8 7, fate := .delivered }

/-- What is left of the line after two of them. -/
def stranded : Line := ((staying.exchange plainBus asked).2.exchange plainBus asked).2

end Line

/-- Told to stay at address 1, the reader is looked for at 54. -/
theorem stay_strands_reader_polled :
    (Line.stranded.panel.address = 54 ∧ Line.stranded.device.address = 1) ∧
      ∀ ops : List LineOp, ¬ (ops.foldl (Line.step Line.plainBus) Line.stranded).Up := by
  refine ⟨by decide +kernel, ?_⟩
  obtain ⟨u, mac, m, -, hm, -, hlost⟩ := stay_strands_reader (b := Line.plainBus) (l := Line.staying)
    (x := Line.asked) (y := Line.asked) (c := ⟨1, 9600⟩) rfl Line.agreeable_plain
    (Secure.aes128_lawful _) (Secure.aes128_pads _) Line.live_staying (by decide +kernel) (by decide)
    (by decide) (by decide +kernel) (by decide +kernel) rfl rfl
  refine hlost ?_
  rw [hm]
  decide +kernel

end Osdp
