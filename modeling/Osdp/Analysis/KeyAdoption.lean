import Osdp.Analysis.Serving

/-!
# How a device comes by a base key

`Device.installs` is the key `adoptKey` adopts in a call of `Handle`. `installs_cases` says
where such a key comes from: an `osdp_KEYSET` that verified on the established session.
Whether its payload was enciphered is decided by the block it came under, and the table does
not look at the block.
-/

set_option autoImplicit false

namespace Osdp.Pd

open Osdp.Secure (Session BaseKey Block Rnd macTagSize)

/-- The Secure Channel Base Key an `osdp_KEYSET` payload carries, if it carries one. -/
def carriedKey (data : Octets) : Option BaseKey :=
  match parseKeySet data with
  | none => none
  | some payload =>
    if payload.type ≠ keySCBK ∨ payload.key.length ≠ Secure.blockSize then none
    else some (octetsAt 16 payload.key 0)

/-- Octets of the right length are themselves. -/
theorem octetsAt_self {n : ℕ} (data : Octets) (h : data.length = n) :
    (octetsAt n data 0).toList = data := by
  subst h
  simp only [octetsAt, List.Vector.toList_ofFn, Nat.zero_add]
  refine List.ext_getElem (by simp) fun i h₁ h₂ => ?_
  simp

/-- A key that is carried is an SCBK of 16 octets. -/
theorem carriedKey_eq_some {data : Octets} {k : BaseKey} (h : carriedKey data = some k) :
    parseKeySet data = some { type := keySCBK, key := k.toList } := by
  unfold carriedKey at h
  split at h
  · cases h
  · rename_i payload hp
    split at h
    · cases h
    · rename_i hc
      simp only [not_or, not_not] at hc
      cases h
      rw [hp, octetsAt_self (n := 16) payload.key hc.2, ← hc.1]

namespace Device

/-- The key `adoptKey` adopts when `Handle` is given this frame. -/
def installs (d : Device) (now : ℤ) (rndB : Rnd) (f : Frame) : Option BaseKey :=
  if d.heard f && !d.replays now f then
    let a := (d.opening now f).answerFor f f.control.sequence rndB
    match (a.2.2.emit f f.control.sequence a.1 a.2.1).1 with
    | .ok _ => a.2.2.adoptingKey
    | .error _ => none
  else none

/-- The key after adoption. -/
theorem adoptKey_key (d : Device) : d.adoptKey.key = d.adoptingKey.getD d.key := by
  unfold adoptKey refreshCapabilities
  split
  · rename_i h
    rw [h]
    rfl
  · rename_i k h
    rw [h]
    split <;> rfl

/-- Adopting an address leaves the keys. -/
theorem adoptAddress_adoptingKey (d : Device) :
    d.adoptAddress.adoptingKey = d.adoptingKey ∧ d.adoptAddress.key = d.key := by
  unfold adoptAddress
  split <;> exact ⟨rfl, rfl⟩

/-- **The base key changes by adoption and in no other way.** -/
theorem handle_key (d : Device) (now : ℤ) (rndB : Rnd) (f : Frame) :
    (d.handle now rndB f).2.key = (d.installs now rndB f).getD d.key := by
  obtain ⟨hheard, e, -, he⟩ | ⟨hheard, hrep, he⟩ | ⟨hheard, hrep, he⟩ := handle_cases d now rndB f
  · simp [he, installs, hheard]
  · obtain ⟨s, c, q, v, ho⟩ := observe_eq d now
    rw [he, ho]
    simp [installs, hheard, hrep]
  · have hkey := (alike_answerFor d now rndB f).key
    rw [he, replyTo]
    simp only [installs, hheard, hrep, Bool.not_false, Bool.and_self, if_true]
    generalize (d.opening now f).answerFor f f.control.sequence rndB = ans at hkey
    obtain ⟨err, s, hemit⟩ | ⟨g, s, hemit, -, -⟩ := emit_cases ans.2.2 f f.control.sequence ans.1 ans.2.1
    · simp [hemit, hkey]
    · rw [hemit, adoptKey_key, (adoptAddress_adoptingKey _).1, (adoptAddress_adoptingKey _).2]
      unfold stored
      split <;> rw [← hkey]

/-! ## Where a key comes from -/

/-- The row of `osdp_KEYSET`. -/
theorem dispatch_keySet (d : Device) (data : Octets) :
    d.dispatch Code.keySet data true = d.installKey data := rfl

variable {k : BaseKey} {d : Device} {now : ℤ} {f : Frame} {plain : Octets} {block : SecurityBlock}
  {t u : Session} {rndB : Rnd}

/-- A key that is carried waits to be adopted. -/
theorem installKey_adoptingKey (d : Device) {data : Octets} (h : carriedKey data = some k) :
    (d.installKey data).2.adoptingKey = some k := by
  have hkey : octetsAt 16 k.toList 0 = k :=
    List.Vector.eq _ _ (octetsAt_self (n := 16) _ k.toList_length)
  simp [installKey, carriedKey_eq_some h, Secure.blockSize, hkey]

/-- The table waits to adopt a key only for an `osdp_KEYSET` of an established session. -/
theorem dispatch_adoptingKey (d : Device) (code : Code) (data : Octets) (secured : Bool) :
    (d.dispatch code data secured).2.adoptingKey = d.adoptingKey ∨
      ∃ k, code = Code.keySet ∧ secured = true ∧ carriedKey data = some k ∧
        d.dispatch code data secured = (ack, { d with adoptingKey := some k }) := by
  apply dispatch_rows d code data secured (motive := fun r => r.2.adoptingKey = d.adoptingKey ∨
    ∃ k, code = Code.keySet ∧ secured = true ∧ carriedKey data = some k ∧
      r = (ack, { d with adoptingKey := some k }))
  case idle => exact fun _ _ => .inl rfl
  case event => exact fun _ _ _ _ => .inl rfl
  case identity => exact fun _ => .inl rfl
  case capabilities => exact fun _ => .inl rfl
  case answered => exact fun _ _ _ => .inl rfl
  case outputs => exact fun _ _ => .inl rfl
  case address => exact fun _ _ _ _ => .inl rfl
  case key =>
    intro payload hcode hsecured hp hc
    exact .inr ⟨_, hcode, hsecured, by simp only [carriedKey, hp, if_neg hc], rfl⟩
  case delegated => exact fun _ => .inl rfl

/-- A command the table runs for an established session was verified by it. -/
structure Verified (d : Device) (f : Frame) (block : SecurityBlock) (t : Session) (mac : Block)
    (plain : Octets) : Prop where
  session : d.session = some t
  security : f.security = some block
  carried : block.type = Secure.scs15 ∨ block.type = Secure.scs17
  opened : openCommand t f block = .ok (plain, t.commit true mac)
  restarted : f.control.sequence ≠ 0

/-- What is opened by a session was carried under one of the two blocks of an established one, and
nothing restarted the exchange, which would have dropped the session. -/
theorem verified_of_dispatchFor {secured : Bool} {mac : Block}
    (hdisp : (d.opening now f).dispatchFor f f.control.sequence = some (plain, secured))
    (hsecurity : f.security = some block) (ht : (d.opening now f).session = some t)
    (hopen : openCommand t f block = .ok (plain, t.commit true mac)) :
    d.Verified f block t mac plain ∧ d.opening now f = d.observe now := by
  have hz : f.control.sequence ≠ 0 := by
    intro hz
    simp [opening, hz, restart, dropSession] at ht
  have hblock : block.type = Secure.scs15 ∨ block.type = Secure.scs17 := by
    unfold dispatchFor dispatchOf at hdisp
    split at hdisp
    · cases hdisp
    · simp only [hsecurity] at hdisp
      split at hdisp
      · rename_i hb
        exact hb.2
      · cases hdisp
  exact ⟨{ session := opening_session ht, security := hsecurity, carried := hblock, opened := hopen,
           restarted := hz }, by rw [opening, if_neg hz]⟩

/-- An acknowledgement that goes out under the block of a session is sealed by it. -/
theorem emit_ack_ok (hs : d.session = some t) {seq : UInt8}
    (h : ∃ g, (d.emit f seq ack (some (replyBlock 0))).1 = .ok g) :
    ∃ g mac, Sealed t false (replyBlock 0) [] mac g ∧ d.emit f seq ack (some (replyBlock 0)) =
      (.ok g, ({ d with session := some (t.commit false mac) }.stored seq g).adoptAddress.adoptKey) := by
  obtain ⟨r, hok⟩ := h
  obtain ⟨err, s, hemit⟩ | ⟨g, s, hemit, hseal, -⟩ := emit_cases d f seq ack (some (replyBlock 0))
  · rw [hemit] at hok
    cases hok
  simp only [encode, show Secure.BlockType.handshake (replyBlock 0).type = false from rfl,
    Bool.false_eq_true, if_false] at hseal
  obtain ⟨u, mac, hu, hsealed, hdev⟩ := sealed_of_sealReply hseal
  rw [hs] at hu
  cases hu
  have hsession : s = some (t.commit false mac) := congrArg Device.session hdev
  rw [hsession] at hemit
  exact ⟨g, mac, hsealed, hemit⟩

/-- **Where an adopted key comes from.** -/
theorem installs_cases (hset : d.Settled) (h : d.installs now rndB f = some k) :
    ∃ block t mac plain g mac', d.Verified f block t mac plain ∧ f.code = Code.keySet ∧
      carriedKey plain = some k ∧ d.dispatched now f = some (plain, true) ∧
      Sealed (t.commit true mac) false (replyBlock 0) [] mac' g ∧
      d.handle now rndB f = (.ok g,
        ({ d.observe now with
            session := some ((t.commit true mac).commit false mac')
            adoptingKey := some k }.stored f.control.sequence g).adoptAddress.adoptKey) := by
  unfold installs at h
  split at h
  · rename_i hheard
    simp only [Bool.and_eq_true, Bool.not_eq_true'] at hheard
    simp only at h
    split at h
    · rename_i r hok
      have hhandle := handle_eq_replyTo hheard.1 hheard.2 rndB
      -- nothing is waiting to be adopted before the answer
      have hnone : (d.opening now f).adoptingKey ≠ some k := by
        rw [(settled_opening hset now f).2]
        simp
      cases hdisp : (d.opening now f).dispatchFor f f.control.sequence with
      | none =>
        obtain ⟨s, m, block, hans, -⟩ := answerFor_of_none hdisp rndB
        rw [hans] at h
        exact absurd h hnone
      | some q =>
        obtain ⟨plain, secured⟩ := q
        obtain ⟨s, hans, horigin⟩ := answerFor_of_dispatchFor hdisp rndB
        obtain hsame | ⟨k', hcode, hsec, hkey, hrow⟩ :=
          dispatch_adoptingKey { d.opening now f with session := s } f.code plain secured
        · rw [hans] at h
          exact absurd (hsame.symm.trans h) hnone
        subst hsec
        obtain ⟨h0, -⟩ | ⟨-, block, t, u, hsecurity, ht, hopen, rfl⟩ := horigin
        · cases h0
        obtain ⟨mac, rfl⟩ := openCommand_commit hopen
        obtain ⟨hverified, hopened⟩ := verified_of_dispatchFor hdisp hsecurity ht hopen
        have htable : (d.opening now f).answerFor f f.control.sequence rndB =
            (ack, some (replyBlock 0), { d.opening now f with
              session := some (t.commit true mac), adoptingKey := some k' }) := by
          rw [hans]
          simp only [tableAnswer, hrow, if_true]
          rfl
        rw [htable] at h hok
        cases h
        rw [replyTo, htable] at hhandle
        obtain ⟨g, mac', hsealed, hemit⟩ := emit_ack_ok
          (d := { d.opening now f with session := some (t.commit true mac), adoptingKey := some k })
          rfl ⟨r, hok⟩
        refine ⟨block, t, mac, plain, g, mac', hverified, hcode, hkey, ?_, hsealed, ?_⟩
        · simp [dispatched, hheard.1, hheard.2, hdisp]
        · rw [hhandle, hemit, hopened]
    · cases h
  · cases h

/-! ## The rule -/

/-- What is owed to a key that is adopted: it came enciphered in an `osdp_KEYSET` that verified
on the established session, the acknowledgement was sealed by that session, and afterwards the
session is gone and the derived capability report speaks of the new key. -/
structure Adopted (d : Device) (now : ℤ) (rndB : Rnd) (f : Frame) (k : BaseKey) : Prop where
  command : f.code = Code.keySet
  enciphered : ∃ block, f.security = some block ∧ block.type = Secure.scs17
  carried : ∃ t mac plain g mac', d.session = some t ∧ t.established = true ∧
    codeVerifies t f = true ∧
    t.openPayload (f.data.take (f.data.length - macTagSize)) true = .ok plain ∧
    parseKeySet plain = some { type := keySCBK, key := k.toList } ∧
    (d.handle now rndB f).1 = .ok g ∧ Sealed (t.commit true mac) false (replyBlock 0) [] mac' g
  key : (d.handle now rndB f).2.key = k
  session : (d.handle now rndB f).2.session = none
  report : d.cfg.capabilities = none →
    (d.handle now rndB f).2.capabilities.secureChannel.2 = Secure.isDefault k

/-- The session a command was verified by is established. -/
theorem established_of_openCommand (h : openCommand t f block = .ok (plain, u)) :
    t.established = true :=
  (Secure.Session.verify_ok (openCommand_ok h).2.1).1

/-- A payload under `SCS_17` is deciphered. -/
theorem openPayload_of_openCommand (hb : block.type = Secure.scs17)
    (h : openCommand t f block = .ok (plain, u)) :
    t.openPayload (f.data.take (f.data.length - macTagSize)) true = .ok plain := by
  obtain ⟨-, hv, hopen⟩ := openCommand_ok h
  obtain ⟨-, mac, -, -, rfl⟩ := Secure.Session.verify_ok hv
  -- deciphering a command reads the reply chain, which verifying it left alone
  exact hopen (by rw [hb]; decide)

/-- The report says whether the key is the default one. -/
theorem secureChannel_defaultCapabilities (inputs outputs readers : ℕ) (aes defaultKey : Bool) :
    (defaultCapabilities inputs outputs readers aes defaultKey).secureChannel.2 = defaultKey := by
  cases defaultKey <;>
    simp [defaultCapabilities, CapabilityReport.secureChannel, CapabilityReport.get, flag,
      funcContactStatus, funcOutputControl, funcCardDataFormat, funcCheckCharacter,
      funcCommSecurity, securityDefaultKey]

/-- Adopting a key ends the session and rewrites the derived report. -/
theorem adoptKey_of_some (h : d.adoptingKey = some k) :
    d.adoptKey.session = none ∧ (d.cfg.capabilities = none → d.secureEnabled = true →
      d.adoptKey.capabilities.secureChannel.2 = Secure.isDefault k) := by
  simp only [adoptKey, h, refreshCapabilities, dropSession]
  split
  · rename_i r hr
    exact ⟨rfl, fun hnone => by rw [hr] at hnone; cases hnone⟩
  · refine ⟨rfl, fun _ hen => ?_⟩
    rw [secureChannel_defaultCapabilities]
    simp only [secureEnabled] at hen ⊢
    rw [hen, Bool.true_and]

/-- A key that came under `SCS_17` is adopted as it should be. -/
theorem adopted_of_enciphered {cfg : Settings} (hwf : d.WellFormed cfg)
    (h : d.installs now rndB f = some k)
    (hb : ¬ f.security.any (fun b => b.type == Secure.scs15) = true) : d.Adopted now rndB f k := by
  obtain ⟨block, t, mac, plain, g, mac', hv, hcode, hkey, -, hsealed, hhandle⟩ :=
    installs_cases hwf.settled h
  have hblock : block.type = Secure.scs17 := by
    refine hv.carried.resolve_left fun h15 => hb ?_
    simp [hv.security, h15]
  have hen : d.secureEnabled = true := by
    rw [secureEnabled, hwf.configured]
    exact hwf.keyed (by rw [hv.session]; exact Option.some_ne_none t)
  obtain ⟨s, c, q, v, n, hobs⟩ : ∃ s c q v n, d.observe now =
      { d with session := s, cached := c, cachedSeq := q, cachedValid := v, seen := true,
               lastSeen := n } := by
    have ho := opening_eq d now f
    rwa [opening, if_neg hv.restarted] at ho
  have hkeyed := handle_key d now rndB f
  rw [h, Option.getD_some] at hkeyed
  have hend : (d.handle now rndB f).2.session = none ∧ (d.cfg.capabilities = none →
      (d.handle now rndB f).2.capabilities.secureChannel.2 = Secure.isDefault k) := by
    rw [hhandle, hobs]
    simp only [stored, if_neg hv.restarted]
    have hadopt := adoptAddress_adoptingKey
      { d with
        session := some ((t.commit true mac).commit false mac'), adoptingKey := some k, cached := g,
        cachedSeq := f.control.sequence, cachedValid := true, seen := true, lastSeen := n }
    obtain ⟨hnone, hreport⟩ := adoptKey_of_some hadopt.1
    refine ⟨hnone, fun hcap => hreport ?_ ?_⟩
    · unfold adoptAddress
      split <;> exact hcap
    · unfold adoptAddress
      split <;> exact hen
  exact { command := hcode
          enciphered := ⟨block, hv.security, hblock⟩
          carried := ⟨t, mac, plain, g, mac', hv.session, established_of_openCommand hv.opened,
            codeVerifies_of_openCommand hv.opened, openPayload_of_openCommand hblock hv.opened,
            carriedKey_eq_some hkey, by rw [hhandle], hsealed⟩
          key := hkeyed
          session := hend.1
          report := hend.2 }

/-- Whether a frame is an `osdp_KEYSET` that verifies on the session and carries a base key in the
clear, under `SCS_15`. -/
def bareKeySet (d : Device) (now : ℤ) (f : Frame) : Bool :=
  f.code == Code.keySet && f.security.any (fun b => b.type == Secure.scs15) &&
    match d.dispatched now f with
    | some (plain, true) => (carriedKey plain).isSome
    | _ => false

end Device

/-- Whether a call hands the device a base key in the clear. -/
def Op.bare (d : Device) : Op → Bool
  | .handle now _ f => d.bareKeySet now f
  | .report _ => false

/-- Whether the device also has an acknowledgement for it, for want of which it takes no key. -/
def Op.bareTaken (d : Device) : Op → Bool
  | .handle now rndB f => d.bareKeySet now f && (d.handle now rndB f).1.isOk
  | .report _ => false

/-- The property at one call: a key that is adopted is adopted as it should be. -/
def Device.KeyGuarded (d : Device) (op : Op) : Prop :=
  ∀ now rndB f k, op = .handle now rndB f → d.installs now rndB f = some k →
    d.Adopted now rndB f k

namespace Device

variable {d : Device} {now : ℤ} {rndB : Rnd} {f : Frame}

/-- A key that came under `SCS_15` came in a frame the condition names. -/
theorem bareKeySet_of_installs (hset : d.Settled) {k : BaseKey} (h : d.installs now rndB f = some k)
    (hb : f.security.any (fun b => b.type == Secure.scs15) = true) :
    d.bareKeySet now f = true ∧ (d.handle now rndB f).1.isOk = true := by
  obtain ⟨block, t, mac, plain, g, mac', -, hcode, hkey, hdisp, -, hhandle⟩ := installs_cases hset h
  simp [bareKeySet, hcode, hb, hdisp, hkey, hhandle, Except.isOk, Except.toBool]

/-- A frame the condition names reaches the table with the key it carries. -/
theorem bareKeySet_dispatched (h : d.bareKeySet now f = true) :
    f.code = Code.keySet ∧ d.heard f = true ∧ d.replays now f = false ∧ ∃ plain k,
      (d.opening now f).dispatchFor f f.control.sequence = some (plain, true) ∧
      carriedKey plain = some k := by
  simp only [bareKeySet, Bool.and_eq_true, beq_iff_eq] at h
  obtain ⟨⟨hcode, -⟩, hplain⟩ := h
  split at hplain
  · rename_i plain hdisp
    obtain ⟨k, hk⟩ := Option.isSome_iff_exists.mp hplain
    unfold dispatched at hdisp
    split at hdisp
    · rename_i hheard
      simp only [Bool.and_eq_true, Bool.not_eq_true'] at hheard
      exact ⟨hcode, hheard.1, hheard.2, plain, k, hdisp, hk⟩
    · cases hdisp
  · cases hplain

/-- It is answered from the table. -/
theorem handle_of_bareKeySet (h : d.bareKeySet now f = true) (rndB : Rnd) :
    d.handle now rndB f = d.replyTo now rndB f := by
  obtain ⟨-, hheard, hreplays, -⟩ := bareKeySet_dispatched h
  exact handle_eq_replyTo hheard hreplays rndB

/-- A frame the condition names, acknowledged, installs the key it carries. -/
theorem installs_of_bareKeySet (h : d.bareKeySet now f = true)
    (hok : (d.handle now rndB f).1.isOk = true) : ∃ k, d.installs now rndB f = some k := by
  obtain ⟨hcode, hheard, hreplays, plain, k, hdisp, hk⟩ := bareKeySet_dispatched h
  refine ⟨k, ?_⟩
  obtain ⟨s, hans, -⟩ := answerFor_of_dispatchFor hdisp rndB
  have hrow : ({ d.opening now f with session := s }.dispatch f.code plain true).2.adoptingKey =
      some k := by
    rw [hcode, dispatch_keySet]
    exact installKey_adoptingKey _ hk
  rw [handle_of_bareKeySet h, replyTo] at hok
  simp only [installs, hheard, hreplays, Bool.not_false, Bool.and_self, if_true]
  cases hemit : (((d.opening now f).answerFor f f.control.sequence rndB).2.2.emit f
      f.control.sequence ((d.opening now f).answerFor f f.control.sequence rndB).1
      ((d.opening now f).answerFor f f.control.sequence rndB).2.1).1 with
  | error err =>
    rw [hemit] at hok
    cases hok
  | ok g =>
    rw [hans]
    exact hrow

variable {cfg : Settings}

/-- A device whose suite does not fail acknowledges every key it is handed. -/
theorem bareTaken_eq_bare (hwf : d.WellFormed cfg) (hs : d.Suited)
    (hsuite : ∀ c, cfg.suite = some c → c.Total ∧ c.Pads) (op : Op) :
    op.bareTaken d = op.bare d := by
  cases op with
  | report r => rfl
  | handle now rndB f =>
    cases h : d.bareKeySet now f with
    | false => simp [Op.bareTaken, Op.bare, h]
    | true =>
      obtain ⟨g, e, hg⟩ := replyTo_total hwf hs hsuite now rndB f
      simp [Op.bareTaken, Op.bare, h, handle_of_bareKeySet h, hg, Except.isOk, Except.toBool]

/-- A new device has no session. -/
theorem suited_new {addr : Address} (hnew : new addr cfg = .ok d) : d.Suited := by
  obtain ⟨-, -, -, c, rfl, -⟩ := new_ok hnew
  exact nofun

/-- The session stays one of the device's suite. -/
theorem step_suited (hwf : d.WellFormed cfg) (hs : d.Suited) (op : Op) : (d.step op).Suited := by
  cases op with
  | handle now rndB f => exact handle_suited hwf hs now rndB f
  | report r =>
    obtain ⟨i, t, w, p, he⟩ := report_device d r
    simp only [step, he]
    exact hs

end Device

/-- **A base key is installed only if it arrived enciphered, exactly when none is sent in the
clear under `SCS_15` and acknowledged.** With a suite that does not fail every such key is. -/
theorem key_enciphered_iff {addr : Address} {cfg : Settings} {d : Device}
    (hnew : new addr cfg = .ok d) (ops : List Op) :
    ((∀ p ∈ Run.trace Device.step d ops, p.1.KeyGuarded p.2) ↔
      ∀ p ∈ Run.trace Device.step d ops, p.2.bareTaken p.1 = false) ∧
    ((∀ c, cfg.suite = some c → c.Total ∧ c.Pads) →
      ((∀ p ∈ Run.trace Device.step d ops, p.1.KeyGuarded p.2) ↔
        ∀ p ∈ Run.trace Device.step d ops, p.2.bare p.1 = false)) := by
  have hgood : ∀ (d : Device) (op : Op), d.WellFormed cfg → True → op.bareTaken d = false →
      d.KeyGuarded op ∧ (d.step op).WellFormed cfg := by
    intro d op hwf _ hbare
    refine ⟨?_, Device.wellFormed_step hwf op⟩
    rintro now rndB f k rfl hk
    refine Device.adopted_of_enciphered hwf hk fun hb => ?_
    obtain ⟨hset, hok⟩ := Device.bareKeySet_of_installs hwf.settled hk hb
    simp [Op.bareTaken, hset, hok] at hbare
  have hbad : ∀ (d : Device) (op : Op), d.WellFormed cfg → True → ¬ op.bareTaken d = false →
      ¬ d.KeyGuarded op := by
    intro d op hwf _ hbare hg
    cases op with
    | report r => exact hbare rfl
    | handle now rndB f =>
      obtain ⟨hset, hok⟩ : d.bareKeySet now f = true ∧ (d.handle now rndB f).1.isOk = true := by
        simpa [Op.bareTaken] using hbare
      obtain ⟨k, hk⟩ := Device.installs_of_bareKeySet hset hok
      obtain ⟨block, hsec, h17⟩ := (hg now rndB f k rfl hk).enciphered
      simp only [Device.bareKeySet, hsec, Option.any_some, h17, Bool.and_eq_true] at hset
      exact absurd hset.1.2 (by decide)
  have hiff := Run.trace_forall_iff hgood hbad (Device.wellFormed_new hnew) ops fun _ _ => trivial
  refine ⟨hiff, fun hsuite => hiff.trans (forall₂_congr fun p hp => ?_)⟩
  have hinv := Run.invariant_trace (I := fun d => d.WellFormed cfg ∧ d.Suited)
    (fun d op h => ⟨Device.wellFormed_step h.1 op, Device.step_suited h.1 h.2 op⟩)
    ⟨Device.wellFormed_new hnew, Device.suited_new hnew⟩ ops p hp
  rw [Device.bareTaken_eq_bare hinv.1 hinv.2 hsuite]

/-! ## Sample traffic -/

/-- The key a site gives its readers. -/
def siteKey : BaseKey := List.Vector.replicate 16 0xA5

/-- An `osdp_KEYSET` for it under the given block, with the code the counting suite computes after
the handshake. -/
def siteKeySet (block : UInt8) : Frame :=
  securedCommand 3 block Code.keySet ((keySetCommand siteKey.toList).data ++ [1, 1, 1, 1])

/-- A session is established and the key then arrives enciphered. -/
def rekeyOps : List Op := handshakeOps ++ [.handle 0 Secure.zeroRnd (siteKeySet Secure.scs17)]

/-- A key that arrives under `SCS_17`. -/
theorem key_enciphered_rekeyed :
    ∃ d, new 1 secureSettings = .ok d ∧ (rekeyOps.foldl Device.step d).key = siteKey ∧
      ∀ p ∈ Run.trace Device.step d rekeyOps, p.1.KeyGuarded p.2 :=
  ⟨_, rfl, by decide, (@key_enciphered_iff 1 secureSettings _ rfl rekeyOps).1.mpr (by decide)⟩

/-- Under `SCS_15` the same command carries the key as it is, and the device takes it. -/
theorem key_in_clear_installed :
    ∃ d, new 1 secureSettings = .ok d ∧
      let e := handshakeOps.foldl Device.step d
      let f := siteKeySet Secure.scs15
      (f.data.drop 2).take 16 = siteKey.toList ∧ f.security = some { type := Secure.scs15 } ∧
      e.key ≠ siteKey ∧ (e.handle 0 Secure.zeroRnd f).2.key = siteKey ∧
      e.installs 0 Secure.zeroRnd f = some siteKey ∧
      ¬ e.KeyGuarded (.handle 0 Secure.zeroRnd f) := by
  refine ⟨_, rfl, by decide, rfl, by decide, by decide, by decide, fun hg => ?_⟩
  obtain ⟨block, hsec, h17⟩ := (hg 0 Secure.zeroRnd _ siteKey rfl (by decide)).enciphered
  cases hsec
  exact absurd h17 (by decide)

end Osdp.Pd
