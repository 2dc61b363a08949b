import Osdp.Analysis.Queue

/-!
# Which replies a device record lets through

`Reply` checks that a frame is a reply, that it bears the device's address and, under an
established session, that it authenticates. It does not compare the frame's sequence number
with the one the outstanding command was sent under, so a stale reply is taken for an
answer. `Harmless` is the exact condition under which taking it changes nothing that
matters: nothing is in flight and the message is one the state does not react to.
-/

set_option autoImplicit false

namespace Osdp.Bus

open Osdp.Secure (Session BaseKey Rnd)

namespace Device

/-- The two records agree on what a reply that answers nothing must not touch. -/
structure Unchanged (d e : Device) : Prop where
  inflight : e.inflight = d.inflight
  outbox : e.outbox = d.outbox
  state : e.state = d.state
  session : e.session = d.session
  pendingKey : e.pendingKey = d.pendingKey

/-- A device is unchanged by nothing. -/
theorem Unchanged.refl (d : Device) : d.Unchanged d := ⟨rfl, rfl, rfl, rfl, rfl⟩

/-- The five fields, spelled out. -/
theorem unchanged_iff (d e : Device) :
    d.Unchanged e ↔ e.inflight = d.inflight ∧ e.outbox = d.outbox ∧ e.state = d.state ∧
      e.session = d.session ∧ e.pendingKey = d.pendingKey :=
  ⟨fun h => ⟨h.inflight, h.outbox, h.state, h.session, h.pendingKey⟩,
    fun ⟨h1, h2, h3, h4, h5⟩ => ⟨h1, h2, h3, h4, h5⟩⟩

end Device

/-- A message a device in this state, with nothing in flight, does not react to. -/
def Inert (b : Bus) (d : Device) (m : Message) : Prop :=
  if m.code = Code.pdID then parseDeviceID m.data = none ∨ d.state = .identifying
  else if m.code = Code.pdCap then
    ∀ report, parseCapabilities m.data = some report →
      if d.begins b report then
        -- the handshake it would begin is the one the device is at the start of
        d.state = .secureHandshake ∧ ∃ channel key, b.secure = some channel ∧
          d.baseKey channel.keys = some key ∧
          d.session = some (Secure.newSession channel.suite .cp key)
      else d.state = .online
  else if m.code = Code.cCrypt ∨ m.code = Code.rMacI then d.session = none ∧ d.state = .online
  else if m.code = Code.nak then parseNAK m.data = none ∨ d.pendingKey = none
  else if m.code = Code.com then
    parseCommunication m.data = none ∨ (d.state = .offline ∧ d.session = none)
  else m.code ∈ [Code.iStatR, Code.oStatR, Code.lStatR, Code.rStatR, Code.raw, Code.keypad,
    Code.mfgReply, Code.busy] ∨ d.state ≠ .offline

/-! ## The dispatcher, row by row -/

/-- A failure changes nothing of a plain device that is online. -/
theorem secureFailure_unchanged_iff (d : Device) :
    d.Unchanged (secureFailure d).2 ↔ d.session = none ∧ d.state = .online := by
  simp only [Device.unchanged_iff, secureFailure, Device.abandonSecure, Device.dropSession]
  constructor
  · rintro ⟨-, -, hs, hn, -⟩
    exact ⟨hn.symm, hs.symm⟩
  · rintro ⟨hn, hs⟩
    simp [hn, hs]

/-- A step of the handshake changes nothing exactly when it fails for want of a session: if it
succeeds, the session has moved on. -/
theorem handshake_unchanged_iff {d e : Device} (h : e = (secureFailure d).2 ∨
    ∃ s s' : Session, d.session = some s ∧ e.session = some s' ∧ s'.state ≠ s.state) :
    d.Unchanged e ↔ d.session = none ∧ d.state = .online := by
  obtain rfl | ⟨s, s', hs, he, hmoved⟩ := h
  · exact secureFailure_unchanged_iff d
  · refine iff_of_false ?_ (by simp [hs])
    intro h
    have hsame : some s' = some s := by rw [← he, ← hs, h.session]
    exact hmoved (congrArg Session.state (Option.some.inj hsame))

/-- A cryptogram always moves the session it is for. -/
theorem onCryptogram_unchanged_iff (d : Device) (data : Octets) :
    d.Unchanged (onCryptogram d data).2 ↔ d.session = none ∧ d.state = .online := by
  apply handshake_unchanged_iff
  obtain he | ⟨s, s', out, hs, hok, he⟩ := onCryptogram_cases d data
  · exact .inl (congrArg Prod.snd he)
  · obtain ⟨hfrom, hto⟩ := Secure.Session.answerCryptogram_ok hok
    exact .inr ⟨s, s', hs, by rw [he], by rw [hfrom, hto]; decide⟩

/-- An initial R-MAC always moves the session it is for. -/
theorem onInitialRMAC_unchanged_iff (d : Device) (data : Octets) :
    d.Unchanged (onInitialRMAC d data).2 ↔ d.session = none ∧ d.state = .online := by
  apply handshake_unchanged_iff
  obtain he | ⟨s, s', u, hs, hok, he⟩ := onInitialRMAC_cases d data
  · exact .inl (congrArg Prod.snd he)
  · obtain ⟨hfrom, hto⟩ := Secure.Session.completeHandshake_ok hok
    exact .inr ⟨s, s', hs, by rw [he], by rw [hfrom, hto]; decide⟩

/-- A status report changes none of them. -/
theorem onStatus_unchanged (d : Device) (parse : Octets → Option (List StatusChange))
    (data : Octets) : d.Unchanged (onStatus d parse data).2 := by
  obtain ⟨st, he⟩ := onStatus_eq d parse data
  rw [he]
  exact ⟨rfl, rfl, rfl, rfl, rfl⟩

/-- An answer changes a device that is offline. -/
theorem onAnswer_unchanged_iff (d : Device) :
    d.Unchanged (onAnswer d).2 ↔ d.state ≠ .offline := by
  unfold onAnswer
  split
  · rename_i hs
    simp [Device.unchanged_iff, hs]
  · rename_i hs
    simp [Device.Unchanged.refl, hs]

/-- **When a message changes nothing.** With nothing in flight the dispatcher leaves the record
alone exactly on an inert message. -/
theorem dispatch_unchanged_iff (b : Bus) {d : Device} (m : Message) (hi : d.inflight = none)
    (hr : d.released = none) (hk : d.acknowledged = Code.poll) :
    d.Unchanged (dispatch b d m).2 ↔ Inert b d m := by
  let Row : Except Error Event × Device → Prop := fun r => d.Unchanged r.2 ↔ Inert b d m
  -- a row that concerns none of the five fields
  have hquiet : ∀ {c : Code} {r : Except Error Event × Device}, m.code = c →
      c ∈ [Code.iStatR, Code.oStatR, Code.lStatR, Code.rStatR, Code.raw, Code.keypad,
        Code.mfgReply, Code.busy] → d.Unchanged r.2 → Row r := by
    rintro c r rfl hc hu
    have hin : Inert b d m := by
      unfold Inert
      simp only [List.mem_cons, List.not_mem_nil, or_false] at hc
      rcases hc with hc | hc | hc | hc | hc | hc | hc | hc <;> rw [hc] <;> simp [Code.pdID,
        Code.pdCap, Code.cCrypt, Code.rMacI, Code.nak, Code.com, Code.iStatR, Code.oStatR,
        Code.lStatR, Code.rStatR, Code.raw, Code.keypad, Code.mfgReply, Code.busy]
    exact iff_of_true hu hin
  unfold dispatch
  refine iteInduction (motive := Row) (fun h => ?_) fun h1 => ?_
  · simp only [Row, Inert, h, if_true]
    cases parseDeviceID m.data with
    | none => simp [Device.Unchanged.refl]
    | some id => simp [Device.unchanged_iff, eq_comm]
  refine iteInduction (motive := Row) (fun h => ?_) fun h2 => ?_
  · simp only [Row, Inert, if_neg h1, if_pos h]
    cases parseCapabilities m.data with
    | none => simp [Device.Unchanged.refl]
    | some report =>
      simp only [Option.some.injEq, forall_eq']
      cases hbegins : d.begins b report with
      | false =>
        obtain ⟨de, he⟩ := afterCapabilities_online hbegins
        rw [he]
        simp [Device.unchanged_iff, eq_comm]
      | true =>
        obtain ⟨channel, key, hb, hkey, he⟩ := afterCapabilities_begun hbegins
        rw [he]
        simp [Device.unchanged_iff, hb, hkey, eq_comm]
  iterate 4
    refine iteInduction (motive := Row) (fun h => ?_) fun _ => ?_
    · exact hquiet h (by decide) (onStatus_unchanged d _ _)
  refine iteInduction (motive := Row) (fun h => ?_) fun h7 => ?_
  · simp only [Row, Inert, h, Code.cCrypt, Code.pdID, Code.pdCap]
    exact onCryptogram_unchanged_iff d m.data
  refine iteInduction (motive := Row) (fun h => ?_) fun h8 => ?_
  · simp only [Row, Inert, h, Code.cCrypt, Code.rMacI, Code.pdID, Code.pdCap]
    exact onInitialRMAC_unchanged_iff d m.data
  iterate 2
    refine iteInduction (motive := Row) (fun h => ?_) fun _ => ?_
    · refine hquiet h (by decide) ?_
      split <;> exact Device.Unchanged.refl d
  refine iteInduction (motive := Row) (fun h => ?_) fun h11 => ?_
  · simp only [Row, Inert, if_neg h1, if_neg h2, h7, h8, or_self, if_false, if_pos h]
    cases parseNAK m.data with
    | none => simp [Device.Unchanged.refl]
    | some reason => simp [Device.unchanged_iff, Device.clearPendingKey, eq_comm]
  refine iteInduction (motive := Row) (fun h => ?_) fun _ => ?_
  · refine hquiet h (by decide) ?_
    split <;> exact Device.Unchanged.refl d
  refine iteInduction (motive := Row) (fun h => ?_) fun h13 => ?_
  · simp only [Row, Inert, if_neg h1, if_neg h2, h7, h8, or_self, if_false, if_neg h11, if_pos h,
      onCommunication]
    cases parseCommunication m.data with
    | none => simp [Device.Unchanged.refl]
    | some c => simp [Device.unchanged_iff, Device.resync_eq, hi, eq_comm]
  refine iteInduction (motive := Row) (fun h => ?_) fun h14 => ?_
  · refine hquiet h (by decide) ?_
    simp [onBusy, Device.reclaim_eq, hr, Device.unchanged_iff]
  have hlast : Inert b d m ↔ d.state ≠ .offline := by
    simp [Inert, *]
  have hawait : d.awaitingKeySet = false := by
    simp [Device.awaitingKeySet, hk, Code.poll, Code.keySet]
  refine iteInduction (motive := Row) (fun h => ?_) fun _ => ?_
  · simp only [Row, hawait, hlast]
    cases d.pendingKey <;> exact onAnswer_unchanged_iff d
  · simp only [Row, hlast]
    exact onAnswer_unchanged_iff d

/-- What the dispatcher may make of an established session: keep it, drop it, or put one in
its place that is not established. -/
theorem dispatch_session (b : Bus) {d : Device} {s : Session} (m : Message)
    (hs : d.session = some s) (he : s.state = .established) :
    (dispatch b d m).2.session = some s ∨
      ∀ t, (dispatch b d m).2.session = some t → t.state ≠ .established := by
  cases dispatch_enrolled b d m with
  | same _ hse _ => exact .inl (hse.trans hs)
  | identifying _ hse _ => exact .inl (hse.trans hs)
  | capabilities report _ _ hse _ =>
    cases hbegins : d.begins b report with
    | false =>
      obtain ⟨de, he⟩ := afterCapabilities_online hbegins
      exact .inl (by rw [hse, he, ← hs])
    | true =>
      obtain ⟨channel, key, -, -, he⟩ := afterCapabilities_begun hbegins
      right
      intro t ht
      rw [hse, he, Option.some.injEq] at ht
      rw [← ht]
      simp [Secure.newSession]
  | dropped hse _ => exact .inr (by simp [hse])
  | cryptogram s₀ _ _ hs₀ hfrom =>
    rw [hs, Option.some.injEq] at hs₀
    rw [← hs₀, he] at hfrom
    cases hfrom
  | established s₀ _ _ hs₀ hfrom =>
    rw [hs, Option.some.injEq] at hs₀
    rw [← hs₀, he] at hfrom
    cases hfrom

/-! ## A reply as a whole -/

/-- The reply authenticates against a session without moving it, and carries this payload: it has a
security block and a tag, the code the suite computes for it is the one the session holds already,
and the payload opens if the block says it is enciphered. -/
def Stationary (s : Session) (f : Frame) (payload : Octets) : Prop :=
  let body := f.appendBody []
  let split := f.data.length - Secure.macTagSize
  ∃ block, f.security = some block ∧ Secure.macTagSize ≤ f.data.length ∧
    s.suite.mac s.keys s.cmac (body.take (body.length - Secure.macTagSize)) = .ok s.rmac ∧
    f.data.drop split = s.rmac.toList.take Secure.macTagSize ∧
    if Secure.BlockType.encrypted block.type then
      s.suite.openPayload s.keys s.cmac (f.data.take split) = .ok payload
    else payload = f.data.take split

/-- What a reply carries to a device whose session it leaves where it is. -/
def Carries (d : Device) (f : Frame) (payload : Octets) : Prop :=
  match d.session with
  | none => payload = f.data
  | some s => if s.established then Stationary s f payload else payload = f.data

/-- The exact condition under which a reply to this device that answers nothing it sent leaves
the record alone. -/
def Harmless (b : Bus) (d : Device) (f : Frame) : Prop :=
  d.inflight = none ∧ ∃ payload, Carries d f payload ∧
    Inert b d { code := f.code, isReply := f.isReply, data := payload }

/-- Opening a reply leaves the session where it is exactly on the tests of `Stationary`. -/
theorem openReply_eq_self_iff {s : Session} (he : s.established = true) (f : Frame)
    (payload : Octets) : openReply s f = .ok (payload, s) ↔ Stationary s f payload := by
  have hcommit : ∀ mac, s.commit false mac = s ↔ mac = s.rmac :=
    fun mac => ⟨fun h => congrArg Session.rmac h, by rintro rfl; rfl⟩
  unfold openReply Stationary
  cases hf : f.security with
  | none => simp
  | some block =>
    simp only [Option.some.injEq, exists_eq_left']
    by_cases hlen : f.data.length < Secure.macTagSize
    · simp [hlen, Nat.not_le.mpr hlen]
    have htag : (f.data.drop (f.data.length - Secure.macTagSize)).length = Secure.macTagSize := by
      rw [List.length_drop]
      omega
    simp only [if_neg hlen, Nat.not_lt.mp hlen, true_and, Session.verify, he, htag,
      not_true_eq_false, ne_eq, if_false, Session.chainFor, Bool.false_eq_true]
    cases s.suite.mac s.keys s.cmac
      ((f.appendBody []).take ((f.appendBody []).length - Secure.macTagSize)) with
    | error e => simp
    | ok mac =>
      by_cases ht : f.data.drop (f.data.length - Secure.macTagSize) =
          mac.toList.take Secure.macTagSize
      · -- the code commits the session, and opening the payload does not move it again
        have hopen : (s.commit false mac).openPayload
            (f.data.take (f.data.length - Secure.macTagSize)) false =
            s.suite.openPayload s.keys s.cmac (f.data.take (f.data.length - Secure.macTagSize)) := by
          simp [Session.openPayload, Session.commit, Session.chainFor, Session.established,
            show s.state = .established by simpa [Session.established] using he]
        simp only [ht, not_true_eq_false, if_false, hopen]
        cases Secure.BlockType.encrypted block.type with
        | false =>
          simp only [Bool.false_eq_true, not_false_eq_true, if_true, if_false, Except.ok.injEq,
            Prod.mk.injEq, hcommit]
          constructor
          · rintro ⟨rfl, rfl⟩
            exact ⟨rfl, rfl, rfl⟩
          · rintro ⟨rfl, -, rfl⟩
            exact ⟨rfl, rfl⟩
        | true =>
          cases s.suite.openPayload s.keys s.cmac
            (f.data.take (f.data.length - Secure.macTagSize)) with
          | error e => simp
          | ok plain =>
            simp only [not_true_eq_false, if_true, if_false, Except.ok.injEq, Prod.mk.injEq, hcommit]
            constructor
            · rintro ⟨rfl, rfl⟩
              exact ⟨rfl, rfl, rfl⟩
            · rintro ⟨rfl, -, rfl⟩
              exact ⟨rfl, rfl⟩
      · simp only [ht, not_false_eq_true, if_true, reduceCtorEq, false_iff, Except.ok.injEq, not_and]
        rintro rfl htag'
        exact absurd htag' ht

/-- The same of the panel's step before the dispatcher. -/
theorem openIfEstablished_eq_self_iff (d : Device) (f : Frame) (payload : Octets) :
    openIfEstablished d f = .ok ({ f with data := payload }, d) ↔ Carries d f payload := by
  have hframe : f = { f with data := payload } ↔ payload = f.data :=
    ⟨fun h => (congrArg Frame.data h).symm, by rintro rfl; rfl⟩
  unfold openIfEstablished Carries
  cases hs : d.session with
  | none => simpa using hframe
  | some s =>
    by_cases he : s.established = true
    · simp only [he, if_true, ← openReply_eq_self_iff he]
      have hdevice : ∀ t, { d with session := some t } = d ↔ t = s := by
        intro t
        constructor
        · intro h
          have hses := congrArg Device.session h
          rw [hs] at hses
          exact Option.some.inj hses
        · rintro rfl
          rw [← hs]
      cases openReply s f with
      | error e => simp
      | ok r => simp [hdevice, Prod.ext_iff]
    · simpa [he] using hframe

/-- The condition in terms of what the panel opens. -/
theorem harmless_iff (b : Bus) (d : Device) (f : Frame) :
    Harmless b d f ↔ d.inflight = none ∧
      ∃ g, openIfEstablished d f = .ok (g, d) ∧ Inert b d (Message.decode g) := by
  refine and_congr_right fun _ => ⟨?_, ?_⟩
  · rintro ⟨payload, hcarries, hinert⟩
    exact ⟨_, (openIfEstablished_eq_self_iff d f payload).mpr hcarries, hinert⟩
  · rintro ⟨g, hg, hinert⟩
    obtain ⟨payload, s, rfl, -⟩ := openIfEstablished_ok hg
    exact ⟨payload, (openIfEstablished_eq_self_iff d f payload).mp hg, hinert⟩

/-- Being inert is a matter of the enrolment, session and key fields alone. -/
theorem inert_frame (b : Bus) (d : Device) (m : Message) (n : ℕ) (fl rl : Option Message)
    (ak : Code) :
    Inert b { d with misses := n, inflight := fl, released := rl, acknowledged := ak } m ↔
      Inert b d m :=
  Iff.rfl

/-- With nothing in flight and the session where it was, a reply changes what its message changes. -/
theorem delivered_unchanged_iff (b : Bus) {d : Device} (hin : d.inflight = none) (m : Message) :
    d.Unchanged (dispatch b ({ d with misses := 0 }.delivered) m).2 ↔ Inert b d m := by
  have hdisp := dispatch_unchanged_iff b (d := { d with misses := 0 }.delivered) m (by simp)
    (by simp [hin]) (by simp [Device.delivered_eq, hin])
  have hsides : ∀ e, d.Unchanged e ↔ ({ d with misses := 0 }.delivered).Unchanged e := by
    intro e
    simp [Device.unchanged_iff, Device.delivered_eq, hin]
  rw [hsides, hdisp, Device.delivered_eq]
  exact inert_frame b d _ 0 none _ _

/-- A reply that moved the chain of an established session has changed the record, and nothing
moves the chain back. -/
theorem changed_of_moved (b : Bus) {d : Device} {f g : Frame} {s : Option Session}
    (hopen : openIfEstablished d f = .ok (g, { d with session := s })) (hmoved : s ≠ d.session)
    (m : Message) : ¬ d.Unchanged (dispatch b ({ d with misses := 0, session := s }.delivered) m).2 := by
  intro h
  obtain hs | ⟨t, t', ht, rfl, hte, hte'⟩ := openIfEstablished_session hopen
  · exact hmoved hs
  have hses := h.session
  rw [ht] at hses
  obtain hk | hk := dispatch_session b (d := { d with misses := 0, session := some t' }.delivered) m
    (by simp [Device.delivered_eq]) hte'
  · exact hmoved (by rw [ht, ← hses, hk])
  · exact hk t hses hte

/-- **When a reply leaves the record alone.** -/
theorem reply_unchanged_iff (b : Bus) {d : Device} {f : Frame} (hr : f.isReply = true)
    (ha : f.address = d.address) (hz : f.control.sequence ≠ 0) :
    d.Unchanged (reply b d f).2 ↔ Harmless b d f := by
  rw [harmless_iff]
  obtain ⟨hn, -⟩ | ⟨-, -, ⟨hz', -⟩ | ⟨-, ⟨e, ho⟩, he⟩ | ⟨-, data, s, ho, he⟩⟩ := reply_cases b d f
  · simp [hr, ha] at hn
  · exact absurd hz' hz
  · -- the session refuses the reply and the exchange restarts
    have hclosed := openIfEstablished_error_of_misses ho
    refine iff_of_false ?_ (by simp [hclosed])
    intro h
    have hs := h.session
    rw [he] at hs
    exact openIfEstablished_error hclosed (by simpa [Device.resync_eq] using hs.symm)
  · have hopen := openIfEstablished_of_misses ho
    have hfl := (dispatch_queue b { d with misses := 0, session := s }
      { code := f.code, isReply := f.isReply, data := data }).1
    rw [he]
    by_cases hin : d.inflight = none
    · by_cases hsame : s = d.session
      · subst hsame
        rw [delivered_unchanged_iff b hin]
        constructor
        · intro h
          exact ⟨hin, _, hopen, h⟩
        · rintro ⟨-, g, hg, h⟩
          rw [hopen] at hg
          cases hg
          exact h
      · refine iff_of_false (changed_of_moved b hopen hsame _) ?_
        rintro ⟨-, g, hg, -⟩
        rw [hopen] at hg
        simp only [Except.ok.injEq, Prod.mk.injEq] at hg
        exact hsame (congrArg Device.session hg.2)
    · refine iff_of_false ?_ fun h => hin h.1
      intro h
      exact hin (h.inflight.symm.trans hfl)

/-! ## Over a run -/

namespace Track

/-- A reply to this device bearing a number, but not the one the last step was sent under. -/
def stale (t : Track) (f : Frame) : Bool :=
  f.isReply && f.address == t.device.address && f.control.sequence != 0 &&
    t.number != some f.control.sequence

/-- A `Reply` that releases the command in flight, or moves enrolment or the handshake on, bears
the number the outstanding command was sent under; a stale one changes nothing. -/
structure Attributed (t : Track) (b : Bus) (f : Frame) : Prop where
  releases : t.device.freed (reply b t.device f).2 ≠ none → t.number = some f.control.sequence
  enrols : (reply b t.device f).2.state ≠ t.device.state → (reply b t.device f).2.state ≠ .offline →
    t.number = some f.control.sequence
  handshakes : (reply b t.device f).2.session ≠ t.device.session →
    (reply b t.device f).2.session ≠ none → t.number = some f.control.sequence
  stale : t.stale f = true → t.device.Unchanged (reply b t.device f).2

/-- Unless it is stale, a reply that is not one to the outstanding command restarts the exchange
or is refused. -/
theorem attributed_of_unchanged {t : Track} {b : Bus} {f : Frame}
    (h : t.stale f = true → t.device.Unchanged (reply b t.device f).2) : t.Attributed b f := by
  obtain ⟨-, e, he⟩ | ⟨hr, ha, ⟨-, he⟩ | ⟨-, -, he⟩ | ⟨hz, data, s, -, he⟩⟩ :=
    reply_cases b t.device f
  · exact { releases := by simp [he], enrols := by simp [he], handshakes := by simp [he], stale := h }
  · have hfreed : t.device.freed (reply b t.device f).2 = none := by
      rw [he]; exact Device.freed_requeued (by simp [Device.resync_eq])
    exact { releases := by simp [hfreed], enrols := by simp [he, Device.resync_eq],
            handshakes := by simp [he, Device.resync_eq], stale := h }
  · have hfreed : t.device.freed (reply b t.device f).2 = none := by
      rw [he]; exact Device.freed_requeued (by simp [Device.resync_eq])
    exact { releases := by simp [hfreed], enrols := by simp [he, Device.resync_eq],
            handshakes := by simp [he, Device.resync_eq], stale := h }
  · by_cases hn : t.number = some f.control.sequence
    · exact ⟨fun _ => hn, fun _ _ => hn, fun _ _ => hn, h⟩
    · have hstale : t.stale f = true := by simp [Track.stale, hr, ha, hz, hn]
      have hu := h hstale
      have hfreed : t.device.freed (reply b t.device f).2 = none := by
        have hin := (dispatch_queue b { t.device with misses := 0, session := s }
          { code := f.code, isReply := f.isReply, data := data }).1
        rw [← he, hu.inflight] at hin
        simp [Device.freed, hin]
      exact { releases := fun hne => absurd hfreed hne,
              enrols := fun hne => absurd hu.state hne,
              handshakes := fun hne => absurd hu.session hne, stale := h }

end Track

/-- **Replies are attributed to the command they answer, exactly when every stale reply is
harmless.** Over every run of calls about a device: every `Reply` is `Attributed` if and only
if each stale reply finds nothing in flight and carries a message the device, as it is then,
does not react to. -/
theorem replies_attributed_iff (addr : Address) (is : List (Bus × Call)) :
    (∀ p ∈ Run.trace Track.step (Track.new addr) is, ∀ f, p.2.2 = .reply f →
      p.1.Attributed p.2.1 f) ↔
    ∀ p ∈ Run.trace Track.step (Track.new addr) is, ∀ f, p.2.2 = .reply f →
      p.1.stale f = true → Harmless p.2.1 p.1.device f := by
  have hstep : ∀ (t : Track) (b : Bus) (f : Frame),
      t.Attributed b f ↔ (t.stale f = true → Harmless b t.device f) := by
    intro t b f
    have hfields : t.stale f = true →
        f.isReply = true ∧ f.address = t.device.address ∧ f.control.sequence ≠ 0 := by
      intro h
      simp only [Track.stale, Bool.and_eq_true, beq_iff_eq, bne_iff_ne] at h
      exact ⟨h.1.1.1, h.1.1.2, h.1.2⟩
    constructor
    · intro h hs
      obtain ⟨hr, ha, hz⟩ := hfields hs
      exact (reply_unchanged_iff b hr ha hz).mp (h.stale hs)
    · intro h
      refine Track.attributed_of_unchanged fun hs => ?_
      obtain ⟨hr, ha, hz⟩ := hfields hs
      exact (reply_unchanged_iff b hr ha hz).mpr (h hs)
  constructor
  · intro h p hp f hf
    exact (hstep p.1 p.2.1 f).mp (h p hp f hf)
  · intro h p hp f hf
    exact (hstep p.1 p.2.1 f).mpr (h p hp f hf)

/-- A poll times out, an `osdp_OUT` goes out under the next number, and the answer to the poll
arrives late. -/
def lateAnswerCalls : List Call :=
  enrolCalls ++
    [.next Secure.zeroRnd, .timeout, .send { code := Code.out, data := [0, 2, 0, 0] },
     .next Secure.zeroRnd]

/-- The late `osdp_ACK` to the poll releases the `osdp_OUT`. -/
theorem late_answer_releases_command :
    ((onPlainBus lateAnswerCalls).foldl Track.step (Track.new 1)).number = some 1 ∧
    ((onPlainBus lateAnswerCalls).foldl Track.step (Track.new 1)).stale
      (plainReply 1 3 Code.ack []) = true ∧
    ¬ ((onPlainBus lateAnswerCalls).foldl Track.step (Track.new 1)).Attributed
      { scheme := .checksum } (plainReply 1 3 Code.ack []) := by
  refine ⟨by decide, by decide, ?_⟩
  intro h
  exact absurd (h.stale (by decide)).inflight (by decide)

end Osdp.Bus
