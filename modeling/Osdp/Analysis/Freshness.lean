import Osdp.Analysis.Answers

/-!
# What a restart leaves behind

The panel starts an exchange again by putting its own number back to zero, so its first command
has number one. The device knows a restart by number zero only. `Watch` follows a line that loses
nothing from a restart on and remembers whether the reply in the device's cache was made before
the panel's last restart. Unless the first command meets that reply under its number, it is
answered afresh, and from then on nothing older is left.
-/

set_option autoImplicit false

namespace Osdp

open Osdp.Secure (Session Rnd BaseKey)

/-! ## Restarts of the panel -/

namespace Bus

/-- Whether an event put the device back to the start of enrolment. -/
def restarts (e : Option Event) (p : Device) : Bool :=
  e.any Event.announcesRestart && decide (p.state = .offline)

namespace Device

/-- A record at the start of enrolment. -/
structure Restarted (p : Device) : Prop where
  state : p.state = .offline
  seq : p.seq = 0
  number : p.repeatSequence = false
  session : p.session = none
  pending : p.pending = none

/-- A record as `New` made it, or as a call left it that announced a restart. -/
def JustRestarted (p : Device) : Prop :=
  (∃ addr, p = new addr) ∨
    ∃ b d c e, call b d c = (.event e, p) ∧ e.announcesRestart = true ∧ p.state = .offline

/-- A device that starts over is restarted. -/
theorem restarted_resync (d : Device) : d.resync.Restarted := by
  rw [resync_eq]
  exact ⟨rfl, rfl, rfl, rfl, rfl⟩

end Device

/-- A silence leaves the panel's standing with the device alone, or puts it back to the start. -/
theorem timeout_standing (p : Device) :
    ((timeout p).1 = .none ∧ (timeout p).2.state = p.state ∧ (timeout p).2.session = p.session ∧
      (timeout p).2.id = p.id ∧ (timeout p).2.address = p.address ∧ (timeout p).2.seq = p.seq ∧
      (timeout p).2.repeatSequence = (p.inflight.isSome || p.repeatSequence) ∧
      (timeout p).2.pending = p.pending) ∨
    ((timeout p).1 = .offline ∧ p.state ≠ .offline ∧ (timeout p).2.Restarted ∧
      (timeout p).2.address = p.address) := by
  obtain ⟨-, he⟩ | ⟨-, hst, he⟩ := timeout_cases p
  · rw [he]
    exact .inl (by simp [Device.retransmit_eq])
  · rw [he]
    exact .inr ⟨rfl, hst, Device.restarted_resync _, by simp [Device.resync_eq]⟩

variable {d p : Device} {f r : Frame} {identity : DeviceID}

/-- A reply that announces a restart has made one. -/
theorem reply_restarted {b : Bus} {e : Event} (h : reply b d f = (.ok e, p))
    (he : e.announcesRestart = true) (hp : p.state = .offline) : p.Restarted := by
  obtain ⟨-, err, hr⟩ | ⟨-, -, ⟨-, hr⟩ | ⟨-, -, hr⟩ | ⟨-, data, s, -, hr⟩⟩ := reply_cases b d f
  · rw [hr] at h
    cases h
  · rw [hr] at h
    cases h
    exact Device.restarted_resync _
  · rw [hr] at h
    cases h
    exact Device.restarted_resync _
  · rw [h] at hr
    have htold := dispatch_told b { d with misses := 0, session := s }.delivered
      { code := f.code, isReply := f.isReply, data := data }
    rw [← hr] at htold
    cases htold with
    | named id hm hid hn =>
      cases hn
      cases he
    | moved c hm =>
      cases hm
      exact Device.restarted_resync _
    | other hid hoffline hnumber hscript hrefused hunnamed hrestart => exact absurd hp (hrestart e rfl he)

/-- So is one that just did. -/
theorem Device.JustRestarted.restarted (h : p.JustRestarted) : p.Restarted := by
  obtain ⟨addr, rfl⟩ | ⟨b, d, c, e, hcall, he, hp⟩ := h
  · exact ⟨rfl, rfl, rfl, rfl, rfl⟩
  · cases c with
    | send m =>
      simp only [call, Prod.mk.injEq] at hcall
      cases hs : (send b d m).1 <;> rw [hs] at hcall <;> cases hcall.1
    | installKey key =>
      simp only [call, Prod.mk.injEq] at hcall
      cases hs : (installKey d key).1 <;> rw [hs] at hcall <;> cases hcall.1
    | next rndA =>
      simp only [call, Prod.mk.injEq] at hcall
      cases hs : (transact b d rndA).1 <;> rw [hs] at hcall <;> cases hcall.1
    | reply f =>
      simp only [call, Prod.mk.injEq] at hcall
      cases hs : (reply b d f).1 with
      | error err =>
        rw [hs] at hcall
        cases hcall.1
      | ok e' =>
        rw [hs] at hcall
        cases hcall.1
        exact reply_restarted (Prod.ext hs hcall.2) he hp
    | timeout =>
      simp only [call, Prod.mk.injEq] at hcall
      obtain ⟨hnone, -⟩ | ⟨-, -, hr, -⟩ := timeout_standing d
      · rw [hnone] at hcall
        cases hcall.1
        cases he
      · rw [← hcall.2]
        exact hr

/-! ## What a processed reply leaves -/

/-- Opening a reply does not establish a session. -/
theorem openIfEstablished_established {g : Frame} {s : Option Session}
    (h : openIfEstablished d f = .ok (g, { d with session := s })) :
    s.any Session.established = d.secureEstablished := by
  obtain rfl | ⟨t, t', ht, rfl, hst, hst'⟩ := openIfEstablished_session h
  · rfl
  · simp [Device.secureEstablished, ht, Session.established, hst, hst']

/-- A panel's standing with a device that calls itself `identity`, after it processed the reply
`r`: it has the number it had; a device that is offline has no session; a device in enrolment or
beyond is recorded as what it is, unless a session that is still there brought another name, and
the question it is asked next ends that session. -/
structure Standing (identity : DeviceID) (r : Frame) (p q : Device) : Prop where
  address : q.address = p.address
  seq : q.seq = p.seq
  number : q.repeatSequence = false
  offline : q.state = .offline → q.session = none
  scripted : q.Scripted
  code : r.code = Code.pdID → (r.security = none ∧ r.data = Pd.appendDeviceID [] identity) ∨
    (q.secureEstablished = true ∧ (q.state = .secure ∨ q.state = .identifying))
  name : q.state ≠ .offline → q.id = identity ∨
    (q.state = .identifying ∧ q.secureEstablished = true)

/-- What may be assumed of a reply to a panel's question: to one that is offline it is the answer
of the device to that question, and it names the device as what it is, as far as the panel can
read it. -/
structure Truthful (identity : DeviceID) (p : Device) (r : Frame) : Prop where
  isReply : r.isReply = true
  address : r.address = p.address
  number : r.control.sequence ≠ 0
  repeats : p.repeatSequence = false
  unsecured : p.state = .offline → p.session = none
  scripted : p.Scripted
  asked : p.state = .offline → r.code = Code.nak ∨
    (r.code = Code.pdID ∧ r.data = Pd.appendDeviceID [] identity)
  name : p.state ≠ .offline → p.id = identity ∨
    (p.state = .identifying ∧ p.secureEstablished = true ∧ r.security = none)
  code : r.code = Code.pdID → (r.security = none ∧ r.data = Pd.appendDeviceID [] identity) ∨
    (p.secureEstablished = true ∧ (p.state = .secure ∨ p.state = .identifying))

/-- **A truthful reply** restarts the exchange or keeps the panel's standing. -/
theorem reply_standing (b : Bus) (h : Truthful identity p r) :
    (∃ e, (reply b p r).1 = .ok e ∧ e.announcesRestart = true ∧ (reply b p r).2.Restarted) ∨
    (Standing identity r p (reply b p r).2 ∧
      (∀ e, (reply b p r).1 = .ok e → e.announcesRestart = true → (reply b p r).2.state ≠ .offline) ∧
      ∀ caps, (reply b p r).1 = .ok (.online caps) → (reply b p r).2.id = identity) := by
  obtain ⟨hno, -⟩ | ⟨-, -, ⟨hz, -⟩ | ⟨-, -, he⟩ | ⟨-, data, s, hopen, he⟩⟩ := reply_cases b p r
  · rw [h.isReply, h.address] at hno
    obtain hno | hno := hno
    · cases hno
    · exact absurd rfl hno
  · exact absurd hz h.number
  · rw [he]
    exact .inl ⟨_, rfl, rfl, Device.restarted_resync _⟩
  · rw [he]
    have hest : s.any Session.established = p.secureEstablished :=
      openIfEstablished_established (d := { p with misses := 0 }) hopen
    -- a reply in the clear is read as it is
    have hclear : r.security = none → p.secureEstablished = false ∧ data = r.data := by
      intro hs
      obtain ⟨h1, h2⟩ := openIfEstablished_clear hs hopen
      exact ⟨h1, congrArg Frame.data h2⟩
    generalize hd : { p with misses := 0, session := s }.delivered = d
    have hfields : d.state = p.state ∧ d.session = s ∧ d.id = p.id ∧ d.address = p.address ∧
        d.seq = p.seq ∧ d.repeatSequence = false ∧ d.pending = p.pending := by
      rw [← hd]
      simp [Device.delivered_eq, h.repeats]
    obtain ⟨hst, hse, hid, haddr, hseq, hrep, hpending⟩ := hfields
    have hscripted : d.Scripted := fun step hs => h.scripted step (hpending ▸ hs)
    have hde : d.secureEstablished = p.secureEstablished := by
      rw [Device.secureEstablished, hse, hest]
    have hunsecured : p.state = .offline → d.session = none := by
      intro hoff
      rw [hse]
      obtain rfl | ⟨t, t', ht, -⟩ := openIfEstablished_session hopen
      · exact h.unsecured hoff
      · rw [h.unsecured hoff] at ht
        cases ht
    cases dispatch_told b d { code := r.code, isReply := r.isReply, data := data } with
    | named id hm hparse hn =>
      rw [hn]
      refine .inr ⟨?_, by rintro e ⟨⟩ ⟨⟩, by rintro caps ⟨⟩⟩
      have hcode := h.code hm
      refine { address := haddr, seq := hseq, number := hrep, offline := by rintro ⟨⟩, scripted := hscripted,
               code := fun _ => hcode.imp_right fun hc => ⟨hde.trans hc.1, .inr rfl⟩,
               name := fun _ => ?_ }
      obtain ⟨hs, hdata⟩ | ⟨hs, -⟩ := hcode
      · -- the name was read in the clear
        left
        rw [(hclear hs).2, hdata, parseDeviceID_append] at hparse
        cases hparse
        rfl
      · exact .inr ⟨rfl, hde.trans hs⟩
    | moved c hm =>
      rw [hm]
      exact .inl ⟨_, rfl, rfl, Device.restarted_resync _⟩
    | other hid' hoffline hnumber hscript hrefused hunnamed hrestart =>
      generalize hres : dispatch b d { code := r.code, isReply := r.isReply, data := data } = res
        at hid' hoffline hnumber hscript hrefused hunnamed hrestart
      -- a device that was recorded stays recorded
      have hname : p.state ≠ .offline → res.2.id = identity := by
        intro hoff
        obtain hn | ⟨-, hsec, hs⟩ := h.name hoff
        · rw [hid', hid, hn]
        · rw [(hclear hs).1] at hsec
          cases hsec
      have hgone : res.2.state = .offline → p.state = .offline := fun hq => hst ▸ hoffline hq
      have hasked : p.state = .offline → res.2.session = none ∧ ∀ caps, res.1 ≠ .ok (.online caps) := by
        intro hoff
        obtain hc | ⟨hc, -⟩ := h.asked hoff
        · obtain ⟨-, hs, hon⟩ := hrefused hc
          exact ⟨hs.trans (hunsecured hoff), hon⟩
        · rw [hunnamed hc]
          exact ⟨hunsecured hoff, by rintro caps ⟨⟩⟩
      refine .inr ⟨?_, hrestart, fun caps hon => ?_⟩
      · refine { address := hnumber.1.trans haddr, seq := hnumber.2.1.trans hseq,
                 number := hnumber.2.2.trans hrep, offline := fun hq => (hasked (hgone hq)).1,
                 scripted := hscript hscripted, code := fun hc => ?_, name := fun hq => ?_ }
        · rw [hunnamed hc]
          exact (h.code hc).imp_right fun hc => ⟨hde.trans hc.1, hst ▸ hc.2⟩
        · by_cases hoff : p.state = .offline
          · obtain hc | ⟨hc, -⟩ := h.asked hoff
            · exact absurd ((hrefused hc).1.trans (hst.trans hoff)) hq
            · rw [hunnamed hc] at hq
              exact absurd (hst.trans hoff) hq
          · exact .inl (hname hoff)
      · by_cases hoff : p.state = .offline
        · exact absurd hon ((hasked hoff).2 caps)
        · exact hname hoff

/-- A reply that is processed is what the panel waited for. -/
theorem reply_delivered (b : Bus) (h : Truthful identity p r) :
    (reply b p r).2.inflight = none := by
  obtain ⟨hno, -⟩ | ⟨-, -, ⟨hz, -⟩ | ⟨-, -, he⟩ | ⟨-, data, s, -, he⟩⟩ := reply_cases b p r
  · rw [h.isReply, h.address] at hno
    simp at hno
  · exact absurd hz h.number
  · rw [he]
    simp [Device.resync_eq]
  · rw [he]
    exact (dispatch_queue b _ _).1

end Bus

/-! ## A line from a restart on -/

/-- A line, and whether the reply in the device's cache is older than the panel's last restart. -/
structure Watch where
  line : Line
  stale : Bool := true

namespace Watch

def step (b : Bus) (w : Watch) (op : LineOp) : Watch where
  line := w.line.step b op
  stale := match op with
    | .exchange x => Bus.restarts (w.line.exchange b x).1 (w.line.exchange b x).2.panel ||
        (w.stale && !w.line.renews b x)
    | _ => w.stale

/-- What the bus takes in an exchange is as new as its own record: no reply is older than the last
restart, the first question of enrolment is answered by what the device says to it now, and a
device reported online is recorded as what it is. -/
structure Fresh (b : Bus) (w : Watch) (x : Exchange) : Prop where
  current : ∀ r, w.line.processed b x = some r → w.line.repeats b x = true → w.stale = false
  named : w.line.panel.state = .offline → ∀ r, w.line.processed b x = some r →
    w.line.repeats b x = false ∧ (r.code = Code.nak ∨
      (r.code = Code.pdID ∧ r.data = Pd.appendDeviceID [] w.line.device.cfg.identity))
  online : ∀ caps, (w.line.exchange b x).1 = some (.online caps) →
    (w.line.exchange b x).2.panel.id = w.line.device.cfg.identity

/-- A panel at the start of enrolment is about to ask under the number of an old reply. -/
def collides (w : Watch) : LineOp → Bool
  | .exchange _ => w.stale && w.line.serving && decide (w.line.panel.state = .offline) &&
      w.line.panel.seq == 0 && !w.line.panel.repeatSequence &&
      w.line.panel.address == w.line.device.address && w.line.device.cachedValid &&
      w.line.device.cachedSeq == 1 && w.line.device.cached.address == w.line.panel.address
  | _ => false

end Watch

/-! ## What an exchange comes to -/

/-- The options a device has when it is told nothing else, as far as they matter here. -/
structure Pd.Settings.Defaults (cfg : Pd.Settings) : Prop where
  handler : cfg.handler = none
  timeout : cfg.timeout = 0
  configAddr : cfg.configAddr = false

namespace Pd.Device

variable {cfg : Settings} {d : Device}

/-- Without a handler a device is civil. -/
theorem civil_of_defaults (h : d.cfg = cfg) (hc : cfg.Defaults) : d.Civil := by
  intro code data
  have hnone : d.cfg.handler = none := by rw [h, hc.handler]
  simp [delegate, hnone, nak, Code.enrols, Code.nak, Code.pdID, Code.pdCap, Code.cCrypt, Code.rMacI,
    Code.com]

/-- By default a device answers to its address only. -/
theorem WellFormed.addressed (h : d.WellFormed cfg) (hc : cfg.Defaults) (a : Address) :
    d.addressed a = true ↔ a = d.address := by
  simp [Device.addressed, h.configured, hc.configAddr]

/-- By default it does not fall silent. -/
theorem WellFormed.observe (h : d.WellFormed cfg) (hc : cfg.Defaults) (now : ℤ) :
    d.observe now = d.noticed now := by
  simp [Device.observe, noticed, h.configured, hc.timeout]

/-- Its address is valid. -/
theorem WellFormed.valid (h : d.WellFormed cfg) : Address.valid d.address = true := by
  simp only [Address.valid, decide_eq_true_eq]
  exact UInt8.le_of_lt h.address

end Pd.Device

namespace Line

/-- No reply gets through: the device is not served, or has another address than the panel
asks. -/
def Deaf (l : Line) : Prop := l.serving = false ∨ l.panel.address ≠ l.device.address

/-- What an event of a turn and the panel it leaves say of the device's standing. -/
structure Settled (identity : DeviceID) (r : Frame) (p : Bus.Device) (e : Option Bus.Event)
    (q : Bus.Device) : Prop where
  standing : (Bus.restarts e q = true ∧ q.Restarted) ∨
    (Bus.restarts e q = false ∧ Bus.Standing identity r p q)
  online : ∀ caps, e = some (.online caps) → q.id = identity

variable {identity : DeviceID} {r : Frame}

/-- A reply that was refused, and that the driver takes for a silence. -/
theorem settled_timeout {p q : Bus.Device} (hq : Bus.Standing identity r p q)
    (hinflight : q.inflight = none) :
    Settled identity r p (some (Bus.timeout q).1) (Bus.timeout q).2 := by
  obtain ⟨hev, hst, hse, hid, ha, hs, hn, hp⟩ | ⟨hev, -, hr, -⟩ := Bus.timeout_standing q
  · have hsec : (Bus.timeout q).2.secureEstablished = q.secureEstablished := by
      simp only [Bus.Device.secureEstablished, hse]
    refine ⟨.inr ⟨by simp [Bus.restarts, hev, Bus.Event.announcesRestart], ?_⟩, ?_⟩
    · exact { address := ha.trans hq.address, seq := hs.trans hq.seq,
              number := by simpa [hinflight, hq.number] using hn,
              offline := by rw [hst, hse]; exact hq.offline,
              scripted := by rw [Bus.Device.Scripted, hp]; exact hq.scripted,
              code := by rw [hst, hsec]; exact hq.code,
              name := by rw [hst, hsec, hid]; exact hq.name }
    · rw [hev]
      rintro caps ⟨⟩
  · refine ⟨.inl ⟨by simp [Bus.restarts, hev, Bus.Event.announcesRestart, hr.state], hr⟩, ?_⟩
    rw [hev]
    rintro caps ⟨⟩

/-- **The panel's turn with a truthful reply.** -/
theorem await_settled (b : Bus) {l : Line} (h : Bus.Truthful identity l.panel r) (x : Exchange) :
    Settled identity r l.panel (l.await b x (some r)).1 (l.await b x (some r)).2.panel := by
  have hinflight := Bus.reply_delivered b h
  have hstanding := Bus.reply_standing b h
  cases hreply : Bus.reply b l.panel r with
  | mk res q =>
    rw [hreply] at hinflight hstanding
    cases res with
    | ok e =>
      rw [await_ok hreply]
      obtain ⟨e', he', hr, hq⟩ | ⟨hq, hr, hon⟩ := hstanding
      · cases he'
        have hst : q.state = .offline := hq.state
        refine ⟨.inl ⟨by simp [Bus.restarts, hr, hst], hq⟩, ?_⟩
        rintro caps ⟨⟩
        cases hr
      · refine ⟨.inr ⟨?_, hq⟩, ?_⟩
        · cases ha : e.announcesRestart with
          | false => simp [Bus.restarts, ha]
          | true => simp [Bus.restarts, hr e rfl ha]
        · rintro caps ⟨⟩
          exact hon caps rfl
    | error err =>
      rw [await_error hreply]
      obtain ⟨e', he', -⟩ | ⟨hq, -, -⟩ := hstanding
      · cases he'
      · split
        · exact settled_timeout hq hinflight
        · exact ⟨.inr ⟨rfl, hq⟩, by rintro caps ⟨⟩⟩

end Line

namespace Watch

variable {b : Bus} {cfg : Pd.Settings} {w : Watch} {x : Exchange}

/-! ## The invariant -/

/-- The reply in the cache is older than the restart: nothing has been asked since, or what is in
the cache is not taken for an answer. -/
structure Old (l : Line) : Prop where
  state : l.panel.state = .offline
  unasked : (l.panel.seq = 0 ∧ l.panel.repeatSequence = false) ∨
    l.device.cached.address ≠ l.panel.address

/-- The reply in the cache answers a question asked since the restart, in enrolment the last one,
and the panel's record of the device is right. -/
structure Current (identity : DeviceID) (l : Line) : Prop where
  address : l.device.cached.address = l.panel.address
  number : l.panel.state = .offline ∨ l.panel.state = .identifying →
    l.panel.repeatSequence = false ∧ l.device.cachedSeq = l.panel.seq
  code : l.device.cached.code = Code.pdID →
    (l.device.cached.security = none ∧ l.device.cached.data = Pd.appendDeviceID [] identity) ∨
    (l.panel.secureEstablished = true ∧ (l.panel.state = .secure ∨ l.panel.state = .identifying))
  name : l.panel.state ≠ .offline → l.panel.id = identity ∨
    (l.panel.state = .identifying ∧ l.panel.secureEstablished = true)

/-- What a panel that can be heard has of the exchange since its restart. -/
structure Placed (identity : DeviceID) (stale : Bool) (l : Line) : Prop where
  offline : l.panel.state = .offline → l.panel.session = none
  scripted : l.panel.Scripted
  cache : if stale then Old l else Current identity l

structure Kept (cfg : Pd.Settings) (w : Watch) : Prop where
  device : w.line.device.WellFormed cfg
  regular : w.line.device.Regular
  number : w.line.panel.repeatSequence = true → IsNumber w.line.panel.seq
  placed : ¬ w.line.Deaf → Placed cfg.identity w.stale w.line

variable {identity : DeviceID} {l : Line} {r f : Frame} {p : Bus.Device} {e : Pd.Device}
  {res : Option Bus.Event × Line}

/-- A restarted panel is placed. -/
theorem placed_restarted (h : l.panel.Restarted) : Placed identity true l :=
  { offline := fun _ => h.session
    scripted := by
      intro step hs
      rw [h.pending] at hs
      cases hs
    cache := ⟨h.state, .inl ⟨h.seq, h.number⟩⟩ }

/-- A turn with the reply that is now in the cache. -/
theorem placed_settled {e : Option Bus.Event} (h : Line.Settled identity r p e l.panel)
    (hcached : l.device.cached = r) (hseq : l.device.cachedSeq = p.seq)
    (haddr : r.address = p.address) : Placed identity (Bus.restarts e l.panel) l := by
  obtain ⟨hr, hre⟩ | ⟨hr, hst⟩ := h.standing
  · rw [hr]
    exact placed_restarted hre
  · rw [hr]
    refine { offline := hst.offline, scripted := hst.scripted, cache := ?_ }
    exact { address := by rw [hcached, haddr, hst.address]
            number := fun _ => ⟨hst.number, hseq.trans hst.seq.symm⟩
            code := by rw [hcached]; exact hst.code
            name := hst.name }

/-- A silence, from a panel whose question could not be heard and that is not in enrolment. -/
theorem placed_silence (hst : l.panel.state ≠ .offline ∧ l.panel.state ≠ .identifying)
    (h : Placed identity false l) :
    Placed identity (Bus.restarts l.silence.1 l.silence.2.panel) l.silence.2 := by
  obtain ⟨hev, hs, hse, hid, ha, -, -, hp⟩ | ⟨hev, -, hr, -⟩ := Bus.timeout_standing l.panel
  · have hcache : Current identity l := h.cache
    have hfalse : Bus.restarts l.silence.1 l.silence.2.panel = false := by
      simp [Line.silence, Bus.restarts, hev, Bus.Event.announcesRestart]
    have hsec : (Bus.timeout l.panel).2.secureEstablished = l.panel.secureEstablished := by
      simp only [Bus.Device.secureEstablished, hse]
    rw [hfalse]
    refine { offline := ?_, scripted := ?_, cache := ?_ }
    · exact fun hoff => absurd (hs.symm.trans hoff) hst.1
    · exact fun step hstep => h.scripted step (hp.symm.trans hstep)
    · refine { address := hcache.address.trans ha.symm, number := ?_, code := ?_, name := ?_ }
      · rintro (hoff | hoff)
        · exact absurd (hs.symm.trans hoff) hst.1
        · exact absurd (hs.symm.trans hoff) hst.2
      · simp only [Line.silence, hsec, hs]
        exact hcache.code
      · simp only [Line.silence, hsec, hs, hid]
        exact hcache.name
  · have htrue : Bus.restarts l.silence.1 l.silence.2.panel = true := by
      simp [Line.silence, Bus.restarts, hev, Bus.Event.announcesRestart, hr.state]
    rw [htrue]
    exact placed_restarted hr

/-! ## One exchange -/

/-- Ends that hear each other share an address. -/
theorem address_of_not_deaf (h : ¬ w.line.Deaf) : w.line.panel.address = w.line.device.address := by
  by_contra hne
  exact h (.inr hne)

/-- A panel in enrolment asks a question that a device at its address hears. -/
theorem enrolling_heard (hc : cfg.Defaults) (hwf : w.line.device.WellFormed cfg)
    (hdeaf : ¬ w.line.Deaf) (hst : w.line.panel.state = .offline ∨ w.line.panel.state = .identifying)
    (rndA : Rnd) :
    ∃ f p, Bus.transact b w.line.panel rndA = (.ok f, p) ∧ f.security = none ∧
      f.code = (if w.line.panel.state = .offline then Code.id else Code.cap) ∧
      w.line.device.heard f = true ∧ p.state = w.line.panel.state ∧
      p.session = w.line.panel.session ∧ p.id = w.line.panel.id := by
  have haddr := address_of_not_deaf hdeaf
  have hask := Bus.transact_enrolling b (haddr ▸ hwf.valid)
    (c := if w.line.panel.state = .offline then Code.id else Code.cap)
    (hst.imp (fun h => ⟨h, if_pos h⟩) fun h => ⟨h, if_neg (by rw [h]; decide)⟩) rndA
  refine ⟨_, _, hask, rfl, rfl, ?_, rfl, rfl, rfl⟩
  have hcheck := (Bus.transact_ok hask).check
  simp only [Pd.Device.heard, hcheck, Bool.and_true, Bool.and_eq_true, hwf.addressed hc]
  exact ⟨rfl, haddr⟩

/-- A reply that the device makes to a panel that can be heard is truthful. -/
theorem truthful_answered (hc : cfg.Defaults) (h : w.Kept cfg) (hdeaf : ¬ w.line.Deaf)
    (ht : Bus.transact b w.line.panel x.rndA = (.ok f, p))
    (hr : w.line.device.Served x.now x.rndB f r e) : Bus.Truthful cfg.identity p r := by
  have hn := Bus.Device.isNumber_number h.number
  have hput := Bus.transact_put hn ht
  have haddr := address_of_not_deaf hdeaf
  obtain ⟨hoffline, hscripted, hcache⟩ := h.placed hdeaf
  obtain ⟨hid, hpaddr, hstate⟩ := Bus.transact_standing b w.line.panel x.rndA
  have hscript := Bus.transact_scripted b hscripted x.rndA
  rw [ht] at hid hpaddr hstate hscript
  simp only at hid hpaddr hstate hscript
  have hopening : (w.line.device.opening x.now f).cfg = cfg ∧
      (w.line.device.opening x.now f).pending = w.line.device.pending := by
    obtain ⟨s, c, q, v, n, ho⟩ := Pd.Device.opening_eq w.line.device x.now f
    rw [ho]
    exact ⟨h.device.configured, rfl⟩
  -- a question of enrolment is answered in the clear
  have hclear : w.line.panel.state = .offline ∨ w.line.panel.state = .identifying →
      f.security = none ∧ r.security = none ∧ p.session = w.line.panel.session ∧
        f.code = (if w.line.panel.state = .offline then Code.id else Code.cap) := by
    intro hst
    obtain ⟨f', p', ht', hsec, hcode, -, -, hse, -⟩ :=
      enrolling_heard (b := b) hc h.device hdeaf hst x.rndA
    rw [ht] at ht'
    cases ht'
    refine ⟨hsec, hr.security.trans ?_, hse, hcode⟩
    exact (Pd.Device.answerFor_plain (w.line.device.opening x.now f) hsec f.control.sequence
      x.rndB).1
  have hbefore : p.state = .offline → w.line.panel.state = .offline := by
    intro hp
    obtain ⟨hs, -⟩ | ⟨-, hs⟩ := hstate
    · exact hs.symm.trans hp
    · rw [hp] at hs
      cases hs
  refine { isReply := hr.isReply, address := ?_, number := ?_, repeats := hput.repeatSequence,
           unsecured := ?_, scripted := hscript, asked := ?_, name := ?_, code := ?_ }
  · rw [hr.address, hpaddr, haddr]
  · rw [hr.number, hput.number]
    exact hn.ne_zero
  · intro hp
    rw [(hclear (.inl (hbefore hp))).2.2.1]
    exact hoffline (hbefore hp)
  · intro hp
    obtain ⟨hsec, -, -, hcode⟩ := hclear (.inl (hbefore hp))
    rw [if_pos (hbefore hp)] at hcode
    obtain ⟨hblock, hanswer⟩ := Pd.Device.answerFor_plain (w.line.device.opening x.now f) hsec
      f.control.sequence x.rndB
    have hdata := hr.plain hblock
    rw [hr.code, hdata]
    obtain ⟨reason, ha⟩ | ha := hanswer
    · exact .inl (by rw [ha]; rfl)
    · right
      rw [ha, hcode, ← hopening.1]
      exact ⟨rfl, rfl⟩
  · intro hp
    have hst : w.line.panel.state ≠ .offline ∧ (w.line.panel.state = .identifying →
        p.state = .identifying ∧ p.secureEstablished = w.line.panel.secureEstablished) := by
      obtain ⟨hs, hest⟩ | ⟨hs, -⟩ := hstate
      · exact ⟨hs ▸ hp, fun hi => ⟨hs.trans hi, hest (by rw [hi]; decide)⟩⟩
      · exact ⟨by rw [hs]; decide, fun hi => absurd (hs.symm.trans hi) (by decide)⟩
    cases hstale : w.stale with
    | true =>
      rw [hstale] at hcache
      exact absurd hcache.state hst.1
    | false =>
      rw [hstale] at hcache
      obtain hname | ⟨hi, hest⟩ := hcache.name hst.1
      · exact .inl (hid.trans hname)
      · exact .inr ⟨(hst.2 hi).1, (hst.2 hi).2.trans hest, (hclear (.inr hi)).2.1⟩
  · intro hcode
    rw [hr.code] at hcode
    obtain ⟨hdata, hblock | ⟨block, hblock, hest⟩⟩ := Pd.Device.answerFor_pdID
      (hopening.2 ▸ h.regular.pending) (Pd.Device.civil_of_defaults hopening.1 hc) hcode
    · left
      rw [hr.security, hr.plain hblock, hdata, hopening.1]
      exact ⟨hblock, rfl⟩
    · right
      obtain ⟨hsecure, hst⟩ := Bus.transact_secured hscripted ht hblock hest
      obtain ⟨hs, -⟩ | ⟨hs, -⟩ := hstate
      · exact ⟨hsecure, .inl (hs.trans hst)⟩
      · rw [hst] at hs
        cases hs

/-- What a question leaves of a panel that is not in enrolment. -/
theorem placed_asked (h : Placed identity false w.line)
    (hst : w.line.panel.state ≠ .offline ∧ w.line.panel.state ≠ .identifying) (rndA : Rnd) :
    ((Bus.transact b w.line.panel rndA).2.state ≠ .offline ∧
      (Bus.transact b w.line.panel rndA).2.state ≠ .identifying) ∧
    Placed identity false { w.line with panel := (Bus.transact b w.line.panel rndA).2 } := by
  obtain ⟨hid, haddr, hstate⟩ := Bus.transact_standing b w.line.panel rndA
  have hscript := Bus.transact_scripted b h.scripted rndA
  generalize (Bus.transact b w.line.panel rndA).2 = p at hid haddr hstate hscript ⊢
  have hcurrent : Current identity w.line := h.cache
  have hp : p.state ≠ .offline ∧ p.state ≠ .identifying := by
    obtain ⟨hs, -⟩ | ⟨-, hs⟩ := hstate
    · exact hs ▸ hst
    · rw [hs]
      exact ⟨by decide, by decide⟩
  refine ⟨hp, { offline := (absurd · hp.1), scripted := hscript, cache := ?_ }⟩
  refine { address := hcurrent.address.trans haddr.symm, number := ?_, code := fun hcode => ?_,
           name := fun _ => ?_ }
  · rintro (hs | hs)
    · exact absurd hs hp.1
    · exact absurd hs hp.2
  · refine (hcurrent.code hcode).imp_right ?_
    rintro ⟨hest, hs | hs⟩
    · obtain ⟨hsame, hkeep⟩ | ⟨hno, -⟩ := hstate
      · exact ⟨(hkeep (by rw [hs]; decide)).trans hest, .inl (hsame.trans hs)⟩
      · rw [hs] at hno
        cases hno
    · exact absurd hs hst.2
  · obtain hname | ⟨hi, -⟩ := hcurrent.name hst.1
    · exact .inl (hid.trans hname)
    · exact absurd hi hst.2

/-- In enrolment no question has the number of the last reply. Out of it the reply in the cache is
truthful when it is said again. -/
theorem truthful_repeated (h : w.Kept cfg) (hdeaf : ¬ w.line.Deaf) (hstale : w.stale = false)
    (ht : Bus.transact b w.line.panel x.rndA = (.ok f, p))
    (hvalid : w.line.device.cachedValid = true)
    (hseq : w.line.device.cachedSeq = f.control.sequence) :
    w.line.panel.state ≠ .offline ∧ Bus.Truthful cfg.identity p w.line.device.cached := by
  have hput := Bus.transact_put (Bus.Device.isNumber_number h.number) ht
  have hplaced := h.placed hdeaf
  rw [hstale] at hplaced
  have hcurrent : Current cfg.identity w.line := hplaced.cache
  obtain ⟨hnumber, hreply, hcseq, -⟩ := h.device.cached hvalid
  have hst : ¬ (w.line.panel.state = .offline ∨ w.line.panel.state = .identifying) := by
    intro hst
    obtain ⟨hrep, heq⟩ := hcurrent.number hst
    have hrot : w.line.panel.number = Bus.Device.rotate w.line.panel.seq := by
      simp [Bus.Device.number, hrep]
    rw [hput.number, hrot, ← heq] at hseq
    exact Bus.rotate_iterate_ne hnumber (g := 1) (by decide) (by decide) hseq.symm
  rw [not_or] at hst
  obtain ⟨hp, hasked⟩ := placed_asked (b := b) hplaced hst x.rndA
  rw [ht] at hp hasked
  have hafter : Current cfg.identity { w.line with panel := p } := hasked.cache
  refine ⟨hst.1, ?_⟩
  refine { isReply := hreply, address := hafter.address, number := ?_,
           repeats := hput.repeatSequence, unsecured := (absurd · hp.1),
           scripted := hasked.scripted, asked := (absurd · hp.1), name := fun _ => ?_,
           code := hafter.code }
  · rw [hcseq]
    exact hnumber.ne_zero
  · exact (hafter.name hp.1).imp_right fun hi => absurd hi.1 hp.2

/-- What is to be shown of an exchange that came to `res`. -/
structure Outcome (cfg : Pd.Settings) (b : Bus) (w : Watch) (x : Exchange)
    (res : Option Bus.Event × Line) : Prop where
  current : ∀ r, w.line.processed b x = some r → w.line.repeats b x = true → w.stale = false
  named : w.line.panel.state = .offline → ∀ r, w.line.processed b x = some r →
    w.line.repeats b x = false ∧ (r.code = Code.nak ∨
      (r.code = Code.pdID ∧ r.data = Pd.appendDeviceID [] cfg.identity))
  online : ∀ caps, res.1 = some (.online caps) → res.2.panel.id = cfg.identity
  placed : ¬ res.2.Deaf → Placed cfg.identity
    (Bus.restarts res.1 res.2.panel || (w.stale && !w.line.renews b x)) res.2

/-- A timeout does not enrol. -/
theorem timeout_not_online (p : Bus.Device) (caps : CapabilityReport) :
    some (Bus.timeout p).1 ≠ some (.online caps) := by
  obtain ⟨hev, -⟩ | ⟨hev, -⟩ := Bus.timeout_standing p <;> rw [hev] <;> exact nofun

/-- It leaves the address. -/
theorem timeout_address (p : Bus.Device) : (Bus.timeout p).2.address = p.address := by
  obtain ⟨-, -, -, -, ha, -⟩ | ⟨-, -, -, ha⟩ := Bus.timeout_standing p <;> exact ha

/-- An exchange in which nothing is processed. -/
theorem outcome_unprocessed (hprocessed : w.line.processed b x = none)
    (honline : ∀ caps, res.1 ≠ some (.online caps)) (hplaced : ¬ res.2.Deaf → Placed cfg.identity
      (Bus.restarts res.1 res.2.panel || (w.stale && !w.line.renews b x)) res.2) :
    Outcome cfg b w x res := by
  refine { current := ?_, named := ?_, online := fun caps he => absurd he (honline caps),
           placed := hplaced }
  · intro r hr
    rw [hprocessed] at hr
    cases hr
  · intro _ r hr
    rw [hprocessed] at hr
    cases hr

/-- An exchange with a device that cannot be heard. -/
theorem outcome_deaf (hc : cfg.Defaults) (h : w.Kept cfg) (hdeaf : w.line.Deaf)
    (hcame : w.line.Came b x res) : Outcome cfg b w x res := by
  have haddr := (Bus.transact_standing b w.line.panel x.rndA).2.1
  have hno : ∀ {f : Frame} {p : Bus.Device}, Bus.transact b w.line.panel x.rndA = (.ok f, p) →
      w.line.serving = true → w.line.device.heard f = false := by
    intro f p ht hs
    obtain hd | hd := hdeaf
    · rw [hs] at hd
      cases hd
    · rw [← (Bus.transact_put (Bus.Device.isNumber_number h.number) ht).address] at hd
      simp only [Pd.Device.heard, Bool.and_eq_false_iff]
      right
      rw [Bool.eq_false_iff, ne_eq, h.device.addressed hc]
      exact hd
  cases hcame with
  | unasked ht hprocessed hrenews =>
    rw [ht] at haddr
    refine outcome_unprocessed hprocessed (by rintro caps ⟨⟩) fun hafter => ?_
    exact absurd (hdeaf.imp_right fun hd => haddr ▸ hd) hafter
  | unheard ht hs hprocessed hrenews =>
    rw [ht] at haddr
    refine outcome_unprocessed hprocessed (timeout_not_online _) fun hafter => absurd ?_ hafter
    refine hdeaf.imp_right fun hd => ?_
    simp only [Line.silence, timeout_address]
    exact haddr ▸ hd
  | failed ht hserving hheard hprocessed =>
    exact outcome_unprocessed hprocessed (timeout_not_online _) fun hafter =>
      absurd (.inl rfl) hafter
  | repeated ht hserving hheard =>
    rw [hno ht hserving] at hheard
    cases hheard
  | answered ht hserving hheard =>
    rw [hno ht hserving] at hheard
    cases hheard

/-- A reply from another address is not processed, and a panel that is offline stays as it is. -/
theorem await_strange_offline (hoff : l.panel.state = .offline) (hr : r.address ≠ l.panel.address)
    (x : Exchange) :
    (∀ caps, (l.await b x (some r)).1 ≠ some (.online caps)) ∧
    Bus.restarts (l.await b x (some r)).1 (l.await b x (some r)).2.panel = false ∧
    (l.await b x (some r)).2.panel.state = .offline ∧
    (l.await b x (some r)).2.panel.session = l.panel.session ∧
    (l.await b x (some r)).2.panel.pending = l.panel.pending ∧
    (l.await b x (some r)).2.panel.address = l.panel.address := by
  obtain ⟨-, err, he⟩ | ⟨-, ha, -⟩ := Bus.reply_cases b l.panel r
  · rw [Line.await_error he]
    split
    · obtain ⟨hev, hs, hse, -, ha, -, -, hp⟩ | ⟨-, hno, -⟩ := Bus.timeout_standing l.panel
      · refine ⟨timeout_not_online _, ?_, hs.trans hoff, hse, hp, ha⟩
        simp [Line.silence, Bus.restarts, hev, Bus.Event.announcesRestart]
      · exact absurd hoff hno
    · exact ⟨by rintro caps ⟨⟩, rfl, hoff, rfl, rfl, rfl⟩
  · exact absurd ha hr

/-- In enrolment a question can be asked and is heard, so without an answer the panel is past
enrolment and the cache is current. -/
theorem current_of_unheard (hc : cfg.Defaults) (h : w.Kept cfg) (hdeaf : ¬ w.line.Deaf)
    (hunheard : ∀ f p, Bus.transact b w.line.panel x.rndA = (.ok f, p) →
      w.line.device.heard f = false) :
    (w.line.panel.state ≠ .offline ∧ w.line.panel.state ≠ .identifying) ∧ w.stale = false := by
  have hst : ¬ (w.line.panel.state = .offline ∨ w.line.panel.state = .identifying) := by
    intro hst
    obtain ⟨f, p, ht, -, -, hheard, -⟩ := enrolling_heard (b := b) hc h.device hdeaf hst x.rndA
    rw [hunheard f p ht] at hheard
    cases hheard
  rw [not_or] at hst
  refine ⟨hst, ?_⟩
  by_contra hstale
  rw [Bool.not_eq_false] at hstale
  have hcache := (h.placed hdeaf).cache
  rw [hstale] at hcache
  exact hst.1 hcache.state

/-- A reply that is older than the panel's last restart and is said again comes from another
address. -/
theorem strange_of_old (h : w.Kept cfg) (hdeaf : ¬ w.line.Deaf)
    (hno : w.collides (.exchange x) = false) (hstale : w.stale = true) (hold : Old w.line)
    (hserving : w.line.serving = true) (hvalid : w.line.device.cachedValid = true)
    (ht : Bus.transact b w.line.panel x.rndA = (.ok f, p))
    (hseq : w.line.device.cachedSeq = f.control.sequence) :
    w.line.device.cached.address ≠ w.line.panel.address := by
  obtain ⟨hzero, hrep⟩ | hstrange := hold.unasked
  · -- the first question has number one
    have hput := Bus.transact_put (Bus.Device.isNumber_number h.number) ht
    have hone : w.line.device.cachedSeq = 1 := by
      rw [hseq, hput.number]
      simp [Bus.Device.number, hrep, hzero, Bus.Device.rotate]
    simpa [collides, hstale, hserving, hold.state, hzero, hrep, hvalid, hone,
      address_of_not_deaf hdeaf] using hno
  · exact hstrange

/-- A question that is answered with a reply said again. -/
theorem outcome_repeated (hc : cfg.Defaults) (h : w.Kept cfg) (hdeaf : ¬ w.line.Deaf)
    (hno : w.collides (.exchange x) = false) (ht : Bus.transact b w.line.panel x.rndA = (.ok f, p))
    (hserving : w.line.serving = true) (hvalid : w.line.device.cachedValid = true)
    (hseq : w.line.device.cachedSeq = f.control.sequence)
    (hprocessed : w.line.processed b x = (some w.line.device.cached).filter
      fun r => r.isReply && r.address == p.address) (hrenews : w.line.renews b x = false) :
    Outcome cfg b w x ({ w.line with panel := p, device := w.line.device.noticed x.now }.await b x
      (some w.line.device.cached)) := by
  have hplaced := h.placed hdeaf
  have hput := Bus.transact_put (Bus.Device.isNumber_number h.number) ht
  have hdevice := (Line.await_device b
    { w.line with panel := p, device := w.line.device.noticed x.now } x
    (some w.line.device.cached)).1
  cases hstale : w.stale with
  | false =>
    obtain ⟨hst, htruth⟩ := truthful_repeated h hdeaf hstale ht hvalid hseq
    have hsettled := Line.await_settled b
      (l := { w.line with panel := p, device := w.line.device.noticed x.now }) htruth x
    refine { current := fun _ _ _ => hstale, named := (absurd · hst),
             online := hsettled.online, placed := fun _ => ?_ }
    rw [hstale, Bool.false_and, Bool.or_false]
    refine placed_settled hsettled (by rw [hdevice]; rfl) ?_ htruth.address
    rw [hdevice, hput.seq, ← hput.number]
    exact hseq
  | true =>
    rw [hstale] at hplaced
    have hold : Old w.line := hplaced.cache
    have hstrange := strange_of_old h hdeaf hno hstale hold hserving hvalid ht hseq
    obtain ⟨f', p', ht', -, -, -, hst, hse, -⟩ :=
      enrolling_heard (b := b) hc h.device hdeaf (.inl hold.state) x.rndA
    have hscript := Bus.transact_scripted b hplaced.scripted x.rndA
    obtain ⟨-, haddr, -⟩ := Bus.transact_standing b w.line.panel x.rndA
    rw [ht] at ht' haddr hscript
    cases ht'
    rw [← show p.address = w.line.panel.address from haddr] at hstrange
    obtain ⟨honline, hrestarts, hst', hse', hp', ha'⟩ := await_strange_offline (b := b)
      (l := { w.line with panel := p, device := w.line.device.noticed x.now })
      (hst.trans hold.state) hstrange x
    refine outcome_unprocessed (by simp [hprocessed, hstrange]) honline fun _ => ?_
    rw [hrestarts, hstale, hrenews]
    refine { offline := fun _ => ?_, scripted := ?_, cache := ⟨hst', .inr ?_⟩ }
    · rw [hse', hse]
      exact hplaced.offline hold.state
    · exact fun step hs => hscript step (hp'.symm.trans hs)
    · rw [hdevice, ha']
      exact hstrange

/-- A question that is answered. -/
theorem outcome_answered (hc : cfg.Defaults) (h : w.Kept cfg) (hdeaf : ¬ w.line.Deaf)
    (ht : Bus.transact b w.line.panel x.rndA = (.ok f, p))
    (hr : w.line.device.Served x.now x.rndB f r e)
    (hprocessed : w.line.processed b x = (some r).filter
      fun r => r.isReply && r.address == p.address) (hrepeats : w.line.repeats b x = false)
    (hrenews : w.line.renews b x = true) :
    Outcome cfg b w x ({ w.line with panel := p, device := e }.await b x (some r)) := by
  have hput := Bus.transact_put (Bus.Device.isNumber_number h.number) ht
  have hdevice := (Line.await_device b { w.line with panel := p, device := e } x (some r)).1
  have htruth := truthful_answered hc h hdeaf ht hr
  have hsettled := Line.await_settled b (l := { w.line with panel := p, device := e }) htruth x
  refine { current := ?_, named := ?_, online := hsettled.online, placed := fun _ => ?_ }
  · intro _ _ hno
    rw [hrepeats] at hno
    cases hno
  · intro hoff r' hr'
    rw [hprocessed, Option.filter_eq_some_iff] at hr'
    cases hr'.1
    refine ⟨hrepeats, htruth.asked ?_⟩
    have hstate := Bus.transact_standing b w.line.panel x.rndA
    rw [ht] at hstate
    obtain ⟨-, -, ⟨hs, -⟩ | ⟨hs, -⟩⟩ := hstate
    · exact hs.trans hoff
    · rw [hoff] at hs
      cases hs
  · rw [hrenews, Bool.not_true, Bool.and_false, Bool.or_false]
    refine placed_settled hsettled (by rw [hdevice]; exact hr.cached) ?_ htruth.address
    rw [hdevice, hput.seq, ← hput.number]
    exact hr.cachedSeq

/-- An exchange with a device that can be heard. -/
theorem outcome_heard (hc : cfg.Defaults) (h : w.Kept cfg) (hdeaf : ¬ w.line.Deaf)
    (hx : x.fate = .delivered) (hno : w.collides (.exchange x) = false)
    (hcame : w.line.Came b x res) : Outcome cfg b w x res := by
  have hplaced := h.placed hdeaf
  have hreturns : ∀ r, x.returns r = r := fun r => if_pos hx
  cases hcame with
  | unasked ht hprocessed hrenews =>
    obtain ⟨hst, hstale⟩ := current_of_unheard hc h hdeaf (by rw [ht]; rintro f p ⟨⟩)
    rw [hstale] at hplaced
    obtain ⟨-, hafter⟩ := placed_asked (b := b) hplaced hst x.rndA
    rw [ht] at hafter
    refine outcome_unprocessed hprocessed (by rintro caps ⟨⟩) fun _ => ?_
    simpa [hstale, Bus.restarts] using hafter
  | unheard ht hs hprocessed hrenews =>
    have hunheard := (hs.resolve_left (by rw [hx]; decide)).resolve_left fun hs => hdeaf (.inl hs)
    refine outcome_unprocessed hprocessed (timeout_not_online _) fun hafter => ?_
    obtain ⟨hst, hstale⟩ := current_of_unheard (b := b) hc h hdeaf
      (by rw [ht]; rintro f p ⟨⟩; exact hunheard)
    rw [hstale] at hplaced
    obtain ⟨hp, hasked⟩ := placed_asked (b := b) hplaced hst x.rndA
    rw [ht] at hp hasked
    rw [hstale, Bool.false_and, Bool.or_false]
    exact placed_silence hp hasked
  | failed ht hserving hheard hprocessed =>
    exact outcome_unprocessed hprocessed (timeout_not_online _) fun hafter =>
      absurd (.inl rfl) hafter
  | repeated ht hserving hheard hvalid hseq hprocessed hrepeats hrenews =>
    rw [hreturns] at hprocessed ⊢
    exact outcome_repeated hc h hdeaf hno ht hserving hvalid hseq hprocessed hrenews
  | answered ht hserving hheard hreplays hh hr hprocessed hrepeats hrenews =>
    rw [hreturns] at hprocessed ⊢
    exact outcome_answered hc h hdeaf ht hr hprocessed hrepeats hrenews

/-! ## Runs -/

/-- What is queued at either end changes neither the panel's standing nor the cache. -/
theorem placed_queued {stale : Bool} (h : Placed identity stale l) (o : List Message)
    (k : Option BaseKey) (i : List Bool) (t p : Bool) (q : List Message) :
    Placed identity stale { l with
      panel := { l.panel with outbox := o, pendingKey := k }
      device := { l.device with inputs := i, tamper := t, powerFailure := p, pending := q } } := by
  obtain ⟨hoffline, hscripted, hcache⟩ := h
  refine ⟨hoffline, hscripted, ?_⟩
  cases stale with
  | true => exact ⟨hcache.state, hcache.unasked⟩
  | false => exact ⟨hcache.address, hcache.number, hcache.code, hcache.name⟩

/-- An exchange that does not collide is fresh. -/
theorem kept_exchange (hc : cfg.Defaults) (h : w.Kept cfg) (hx : x.fate = .delivered)
    (hno : w.collides (.exchange x) = false) :
    w.Fresh b x ∧ (w.step b (.exchange x)).Kept cfg := by
  have hcame : w.line.Came b x (w.line.exchange b x) :=
    Line.came (Bus.Device.isNumber_number h.number) x
  have hout : Outcome cfg b w x (w.line.exchange b x) := by
    by_cases hdeaf : w.line.Deaf
    · exact outcome_deaf hc h hdeaf hcame
    · exact outcome_heard hc h hdeaf hx hno hcame
  have hcfg := h.device.configured
  refine ⟨?_, ?_⟩
  · exact { current := hout.current, named := by rw [hcfg]; exact hout.named,
            online := by rw [hcfg]; exact hout.online }
  · have hdevice : (w.line.exchange b x).2.device.WellFormed cfg ∧
        (w.line.exchange b x).2.device.Regular := by
      exact ⟨Line.exchange_keeps b x h.device fun f =>
          (Pd.Device.handle_wellFormed h.device _ _ f).1,
        Line.exchange_keeps b x h.regular (Pd.Device.handle_regular h.regular _ _)⟩
    exact { device := hdevice.1, regular := hdevice.2,
            number := Line.exchange_number b h.number x, placed := hout.placed }

/-- **Every step** keeps the watch. -/
theorem kept_step (hc : cfg.Defaults) (h : w.Kept cfg) (op : LineOp)
    (hop : ∀ x, op = .exchange x → x.fate = .delivered) (hno : w.collides op = false) :
    (∀ x, op = .exchange x → w.Fresh b x) ∧ (w.step b op).Kept cfg := by
  cases op with
  | send m =>
    refine ⟨by rintro x ⟨⟩, ?_⟩
    obtain ⟨o, he⟩ := Bus.send_queue b w.line.panel m
    simp only [step, Line.step, he]
    exact { device := h.device, regular := h.regular, number := h.number,
            placed := fun hdeaf => placed_queued (h.placed hdeaf) _ _ _ _ _ _ }
  | installKey key =>
    refine ⟨by rintro x ⟨⟩, ?_⟩
    obtain ⟨o, k, he⟩ := Bus.installKey_queue w.line.panel key
    simp only [step, Line.step, he]
    exact { device := h.device, regular := h.regular, number := h.number,
            placed := fun hdeaf => placed_queued (h.placed hdeaf) _ _ _ _ _ _ }
  | report r =>
    refine ⟨by rintro x ⟨⟩, ?_⟩
    have hwf := Pd.Device.report_wellFormed h.device r
    have hreg := Pd.Device.report_regular h.regular r
    obtain ⟨i, t, p, q, he⟩ := Pd.Device.report_device w.line.device r
    rw [he] at hwf hreg
    simp only [step, Line.step, he]
    exact { device := hwf, regular := hreg, number := h.number,
            placed := fun hdeaf => placed_queued (h.placed hdeaf) _ _ _ _ _ _ }
  | exchange x =>
    obtain ⟨hfresh, hkept⟩ := kept_exchange hc h (hop x rfl) hno
    refine ⟨?_, hkept⟩
    rintro _ ⟨⟩
    exact hfresh

/-- A question that meets an old reply under its number is answered by it. -/
theorem not_fresh_of_collides (hc : cfg.Defaults) (h : w.Kept cfg) (hx : x.fate = .delivered)
    (hcol : w.collides (.exchange x) = true) : ¬ w.Fresh b x := by
  intro hfresh
  simp only [collides, Bool.and_eq_true, decide_eq_true_eq, beq_iff_eq, Bool.not_eq_true'] at hcol
  obtain ⟨⟨⟨⟨⟨⟨⟨⟨hstale, hs⟩, hst⟩, hzero⟩, hrep⟩, haddr⟩, hvalid⟩, hseq⟩, hown⟩ := hcol
  have hdeaf : ¬ w.line.Deaf := by
    rintro (hd | hd)
    · rw [hs] at hd
      cases hd
    · exact hd haddr
  obtain ⟨f, p, ht, -, -, hheard, -⟩ :=
    enrolling_heard (b := b) hc h.device hdeaf (.inl hst) x.rndA
  have hn := Bus.Device.isNumber_number h.number
  have hput := Bus.transact_put hn ht
  have hone : f.control.sequence = 1 := by
    rw [hput.number]
    simp [Bus.Device.number, hrep, hzero, Bus.Device.rotate]
  have hreplays : w.line.device.replays x.now f = true := by
    simp [Pd.Device.replays, h.device.observe hc, Pd.Device.noticed, hone, hvalid, hseq]
  have hhandle : (w.line.device.handle x.now x.rndB f).1 = .ok w.line.device.cached := by
    obtain ⟨hno, -⟩ | ⟨-, -, he⟩ | ⟨-, hno, -⟩ :=
      Pd.Device.handle_cases w.line.device x.now x.rndB f
    · rw [hheard] at hno
      cases hno
    · rw [he, h.device.observe hc]
      rfl
    · rw [hreplays] at hno
      cases hno
  have hserve : ({ w.line with panel := p }.serve x f).1 = some w.line.device.cached := by
    simp only [Line.serve, hs, if_true]
    split
    · rename_i r e he
      rw [he] at hhandle
      cases hhandle
      rfl
    · rename_i err e he
      rw [he] at hhandle
      cases hhandle
  have hpaddr := (Bus.transact_standing b w.line.panel x.rndA).2.1
  rw [ht] at hpaddr
  have hprocessed : w.line.processed b x = some w.line.device.cached := by
    simp [Line.processed_eq ht, Line.carry, hx, hserve, (h.device.cached hvalid).2.1, hown,
      show p.address = w.line.panel.address from hpaddr]
  have hfalse := hfresh.current _ hprocessed (by simp [Line.repeats, Line.asks_eq ht, hreplays])
  rw [hstale] at hfalse
  cases hfalse

/-- A panel that starts again, and a device with whatever it has come to. -/
def start (p : Bus.Device) (d : Pd.Device) : Watch := { line := { panel := p, device := d } }

/-- A watch begins in order. -/
theorem kept_start {addr : Address} {d : Pd.Device} (hnew : Pd.new addr cfg = .ok d)
    (before : List Pd.Op) (hp : p.JustRestarted) :
    (start p (before.foldl Pd.Device.step d)).Kept cfg := by
  have hdevice : (before.foldl Pd.Device.step d).WellFormed cfg ∧
      (before.foldl Pd.Device.step d).Regular := by
    refine Run.invariant (I := fun e : Pd.Device => e.WellFormed cfg ∧ e.Regular) ?_
      ⟨Pd.Device.wellFormed_new hnew, Pd.Device.regular_new hnew⟩ before
    rintro e op ⟨hwf, hreg⟩
    refine ⟨Pd.Device.wellFormed_step hwf op, ?_⟩
    cases op with
    | handle now rndB f => exact Pd.Device.handle_regular hreg now rndB f
    | report r => exact Pd.Device.report_regular hreg r
  have hre := hp.restarted
  refine { device := hdevice.1, regular := hdevice.2, number := fun hrep => ?_,
           placed := fun _ => placed_restarted hre }
  have hno : p.repeatSequence = false := hre.number
  rw [show p.repeatSequence = true from hrep] at hno
  cases hno

end Watch

/-- **A restart leaves nothing behind, unless the first question meets an old reply.** Let a panel
start again with a device that has come to any state. While nothing is lost, every exchange is
fresh exactly when at no point a panel that is back at the start is about to ask under the number
of a reply that is older than its restart. -/
theorem restart_fresh_iff (b : Bus) {addr : Address} {cfg : Pd.Settings} {d : Pd.Device}
    (hnew : Pd.new addr cfg = .ok d) (hc : cfg.Defaults) (before : List Pd.Op) {p : Bus.Device}
    (hp : p.JustRestarted) (ops : List LineOp)
    (hops : ∀ x, LineOp.exchange x ∈ ops → x.fate = .delivered) :
    let w := Watch.start p (before.foldl Pd.Device.step d)
    (∀ q ∈ Run.trace (Watch.step b) w ops, ∀ x, q.2 = .exchange x → q.1.Fresh b x) ↔
      ∀ q ∈ Run.trace (Watch.step b) w ops, q.1.collides q.2 = false := by
  intro w
  refine Run.trace_forall_iff (I := Watch.Kept cfg)
    (A := fun _ op => ∀ x, op = .exchange x → x.fate = .delivered)
    (P := fun w op => ∀ x, op = LineOp.exchange x → w.Fresh b x)
    (fun w op h hop hno => Watch.kept_step hc h op hop hno) ?_ (Watch.kept_start hnew before hp)
    ops ?_
  · intro w op h hop hcol hfresh
    cases op with
    | send m => exact hcol rfl
    | installKey key => exact hcol rfl
    | report r => exact hcol rfl
    | exchange x =>
      exact Watch.not_fresh_of_collides hc h (hop x rfl) (by simpa using hcol) (hfresh x rfl)
  · rintro ⟨t, op⟩ hmem x rfl
    obtain ⟨js, ks, hjs, -⟩ := (Run.mem_trace (Watch.step b)).mp hmem
    exact hops x (by simp [hjs])

namespace Watch

/-- A command of an earlier panel. -/
def earlier (seq : UInt8) (m : Message) : Pd.Op :=
  .handle 0 Secure.zeroRnd (Bus.plainFrame { scheme := .checksum }
    { Bus.Device.new 1 with seq := seq } m)

/-- A reader of some vendor's. -/
def namedSettings : Pd.Settings :=
  { identity := ⟨⟨[0x5C, 0x26, 0x23], rfl⟩, 7, 1, 0x01020304, ⟨[1, 2, 3], rfl⟩⟩ }

/-- An earlier panel has enrolled the reader. -/
def enrolledOps : List Pd.Op :=
  [earlier 0 { code := Code.id, data := [0] }, earlier 1 { code := Code.cap, data := [0] }]

/-- It has polled the reader twice. -/
def polledOps : List Pd.Op :=
  enrolledOps ++ [earlier 2 { code := Code.poll }, earlier 3 { code := Code.poll }]

/-- A card was read before the second poll. -/
def carriedOps : List Pd.Op :=
  enrolledOps ++ [earlier 2 { code := Code.poll }, .report (.cardRead Journal.card),
    earlier 3 { code := Code.poll }]

end Watch

/-- The last command of the earlier panel had number two. -/
theorem restart_fresh_enrolled :
    ∃ d, Pd.new 1 Watch.namedSettings = .ok d ∧
      ∀ q ∈ Run.trace (Watch.step { scheme := .checksum })
          (Watch.start (Bus.Device.new 1) (Watch.enrolledOps.foldl Pd.Device.step d))
          [Journal.heardExchange, Journal.heardExchange, Journal.heardExchange],
        ∀ x, q.2 = .exchange x → q.1.Fresh { scheme := .checksum } x :=
  ⟨_, rfl, (@restart_fresh_iff { scheme := .checksum } 1 Watch.namedSettings _ rfl ⟨rfl, rfl, rfl⟩
    Watch.enrolledOps (Bus.Device.new 1) (.inl ⟨1, rfl⟩)
    [Journal.heardExchange, Journal.heardExchange, Journal.heardExchange]
    (by simp [Journal.heardExchange])).mpr (by decide +kernel)⟩

/-- The last command of the earlier panel had number one. A new panel asks the reader what it is
and is told of a poll: the reader is reported online and never named, or a card is reported that
an earlier panel has been told of. -/
theorem restarted_panel_takes_old_reply :
    ∃ d, Pd.new 1 Watch.namedSettings = .ok d ∧
      (let l := (Watch.start (Bus.Device.new 1) (Watch.polledOps.foldl Pd.Device.step d)).line
      (l.exchange { scheme := .checksum } { fate := .delivered }).1 = some (.online []) ∧
        (l.exchange { scheme := .checksum } { fate := .delivered }).2.panel.id ≠
          Watch.namedSettings.identity) ∧
      (let l := (Watch.start (Bus.Device.new 1) (Watch.carriedOps.foldl Pd.Device.step d)).line
      (l.exchange { scheme := .checksum } { fate := .delivered }).1 = some (.cardRead Journal.card) ∧
        l.device.pending = []) :=
  ⟨_, rfl, by decide +kernel, by decide +kernel⟩

end Osdp
