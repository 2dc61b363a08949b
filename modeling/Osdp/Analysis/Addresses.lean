import Osdp.Analysis.SessionOrigin

/-!
# The addresses of a bus

`SetCommunication` looks at the address it is asked for; the address changes later, on the
word of the device, and `onCommunication` looks at nothing. `step_addresses` says what one
operation does to the list of addresses: nothing, unless it delivers an `osdp_COM`.
-/

set_option autoImplicit false

namespace Osdp

open Osdp.Secure (Session CipherSuite Rnd)

/-- The primitives `Next` uses do not fail, as those of AES-128 do not. -/
structure Secure.CipherSuite.Total (suite : CipherSuite) : Prop where
  sealing : ∀ keys iv plaintext, ∃ ciphertext, suite.sealPayload keys iv plaintext = .ok ciphertext
  coding : ∀ keys iv frame, ∃ mac, suite.mac keys iv frame = .ok mac

namespace Bus

/-! ## `Next` returns a step -/

variable {b : Bus} {d : Device} {i : ℕ} {op : Op}

/-- A command of the handshake is neither enciphered nor authenticated. -/
theorem compose_handshake (hv : Address.valid d.address = true) (m : Message)
    {block : SecurityBlock} (henc : Secure.BlockType.encrypted block.type = false)
    (hest : Secure.BlockType.established block.type = false) :
    compose b d m (some block) = (.ok (securedFrame b d m block).sealCheck,
      { d with seq := d.number, repeatSequence := false }) := by
  simp only [compose, sealCommand, henc, hest, Bool.false_eq_true, if_false, Device.nextSequence_eq,
    Message.encodeSecure, hv, not_true_eq_false]
  rfl

/-- A session with a total suite seals and authenticates whatever it is given. -/
theorem compose_total (hv : Address.valid d.address = true) (m : Message)
    {block : Option SecurityBlock}
    (h : (∀ sb, block = some sb → sb.type = Secure.scs11 ∨ sb.type = Secure.scs13) ∨
      ∃ n s, block = some (blockForCommand n) ∧ d.session = some s ∧ s.established = true ∧
        s.suite.Total) : ∃ f, (compose b d m block).1 = .ok f := by
  obtain hopen | ⟨n, s, rfl, hs, hest, htotal⟩ := h
  · cases block with
    | none => exact ⟨_, by rw [compose_none b d m hv]⟩
    | some sb =>
      have hplain : Secure.BlockType.encrypted sb.type = false ∧
          Secure.BlockType.established sb.type = false := by
        obtain ht | ht := hopen sb rfl <;> rw [ht] <;> decide
      exact ⟨_, by rw [compose_handshake hv m hplain.1 hplain.2]⟩
  · have hseal : ∃ m', sealCommand d m (blockForCommand n) = .ok m' := by
      unfold sealCommand
      split
      · obtain ⟨c, hc⟩ := htotal.sealing s.keys (s.chainFor true) m.data
        refine ⟨{ m with data := c }, ?_⟩
        simp only [hs, Session.sealPayload, hest, not_true_eq_false, if_false, hc]
      · exact ⟨m, rfl⟩
    obtain ⟨m', hm'⟩ := hseal
    obtain ⟨mac, hmac⟩ := htotal.coding s.keys (s.chainFor true)
      (macCover (securedFrame b d m' (blockForCommand n)))
    have hauth : authenticate s (securedFrame b d m' (blockForCommand n)) true =
        .ok ({ securedFrame b d m' (blockForCommand n) with
                data := m'.data ++ mac.toList.take Secure.macTagSize }, s.commit true mac) := by
      unfold macCover at hmac
      simp only [authenticate, Session.authenticate, hest, not_true_eq_false, if_false, hmac]
      rfl
    have hblock : Secure.BlockType.established (blockForCommand n).type = true := by
      unfold blockForCommand
      split <;> decide
    exact ⟨_, by rw [compose_of_sealed hblock hv hs hm' hauth]⟩

/-- **`Next` has something to say to every device with an address.** -/
theorem transact_total (hv : Address.valid d.address = true) (harmed : d.Armed)
    (hprovided : d.Provided CipherSuite.Total) (rndA : Rnd) :
    ∃ f, (transact b d rndA).1 = .ok f := by
  have hsecure : ∀ (e : Device) (m : Message) (n : ℕ), e.address = d.address →
      e.session = d.session → ∃ f, (compose b e m
        (if d.state = .secure then some (blockForCommand n) else none)).1 = .ok f := by
    intro e m n ha hse
    rw [← ha] at hv
    split
    · rename_i hst
      obtain ⟨s, hs, hest⟩ := harmed.secure hst
      exact compose_total hv m (.inr ⟨n, s, rfl, hse.trans hs, hest, hprovided.suite s hs⟩)
    · exact compose_total hv m (.inl (by simp))
  unfold transact
  obtain ⟨m, -, he⟩ | ⟨-, -, he⟩ | ⟨-, -, he⟩ | ⟨-, -, he⟩ | ⟨-, -, he⟩ := commandFor_cases d rndA
  · simp only [he]
    exact hsecure _ m _ rfl rfl
  · simp only [he]
    exact compose_total hv _ (.inl (by simp))
  · simp only [he]
    exact compose_total hv _ (.inl (by simp))
  · simp only [he]
    unfold handshakeCommand
    split
    · rename_i st hst
      refine compose_total (d := { d with pending := none }) hv _ (.inl ?_)
      rintro sb hsb
      cases hsb
      rw [hprovided.step st hst]
      exact .inr rfl
    · split
      · exact compose_total hv _ (.inl (by simp))
      · split
        · exact compose_total (d := { d.abandonSecure with state := .online }) hv _ (.inl (by simp))
        · rename_i s hs _ chlng s' hok
          refine compose_total (d := { d with session := some s' }) hv _ (.inl ?_)
          rintro sb hsb
          cases hsb
          exact .inl rfl
  · simp only [he]
    exact hsecure _ _ 0 rfl rfl

/-! ## What an operation does to the addresses -/

/-- The address an `osdp_COM` reports. -/
def reportedAddress (m : Message) : Option Address :=
  if m.code = Code.com then (parseCommunication m.data).map Communication.address else none

/-- The address a reply moves the device to. -/
def Device.movesTo (d : Device) (f : Frame) : Option Address := (d.hears f).bind reportedAddress

/-- A message moves a device to the address it reports. -/
theorem dispatch_address (b : Bus) (d : Device) (m : Message) :
    (dispatch b d m).2.address = (reportedAddress m).getD d.address := by
  by_cases hcom : m.code = Code.com
  · have hrow : dispatch b d m = onCommunication d m.data := by
      unfold dispatch
      rw [hcom]
      rfl
    rw [hrow, reportedAddress, if_pos hcom]
    unfold onCommunication
    split
    · rename_i hp
      simp [hp]
    · rename_i c hp
      simp [hp, Device.resync_eq]
  · rw [reportedAddress, if_neg hcom, Option.getD_none]
    obtain ⟨-, i, c, st, se, pe, de, ss, he⟩ | ⟨-, he⟩ | ⟨k, -, -, -, he⟩ | ⟨c, hc, -, -⟩ |
      ⟨-, he⟩ := dispatch_cases b d m
    · rw [he]
    · rw [he]
    · rw [he]
    · exact absurd hc hcom
    · rw [he, Device.reclaim_eq]
      split <;> rfl

/-- So does a reply. -/
theorem reply_address (b : Bus) (d : Device) (f : Frame) :
    (reply b d f).2.address = (d.movesTo f).getD d.address := by
  obtain ⟨hnot, e, he⟩ | ⟨hr, ha, ⟨hz, he⟩ | ⟨hz, ⟨err, ho⟩, he⟩ | ⟨hz, data, s, ho, he⟩⟩ :=
    reply_cases b d f
  · simp [he, Device.movesTo, Device.hears_of_foreign hnot]
  · simp [he, Device.movesTo, Device.hears, hz, Device.resync_eq]
  · simp [he, Device.movesTo, Device.hears_of_closed ho, Device.resync_eq]
  · rw [he, dispatch_address, Device.movesTo, Device.hears_eq hr ha hz ho]
    simp

/-- No other call does. -/
theorem call_address (b : Bus) (d : Device) (c : Call) :
    (call b d c).2.address = match c with
      | .reply f => (d.movesTo f).getD d.address
      | _ => d.address := by
  cases c with
  | send m =>
    simp only [call, send]
    split <;> rfl
  | installKey key =>
    simp only [call, installKey]
    split <;> rfl
  | next rndA =>
    obtain ⟨q, r, s, he⟩ :=
      compose_device b (commandFor d rndA).2.2 (commandFor d rndA).1 (commandFor d rndA).2.1
    simp only [call, transact, he, commandFor_address]
  | reply f => exact reply_address b d f
  | timeout =>
    obtain ⟨-, he⟩ | ⟨-, -, he⟩ := timeout_cases d
    · simp [call, he, Device.retransmit_eq]
    · simp [call, he, Device.resync_eq]

/-- The addresses in poll order. -/
def addresses (b : Bus) : List Address := b.devices.map Device.address

/-- A reply moves the device it is about and no other. -/
theorem step_reply_addresses (hd : b.devices[i]? = some d) (f : Frame) :
    (b.step (.reply i f)).addresses = b.addresses.set i ((d.movesTo f).getD d.address) := by
  simp only [addresses, step_devices, callOf, hd, List.map_set, call_address]

/-- **Only an `osdp_COM` changes an address.** -/
theorem step_addresses (b : Bus) (op : Op) :
    (b.step op).addresses = b.addresses ∨ ∃ i f d a, op = .reply i f ∧ b.devices[i]? = some d ∧
      d.movesTo f = some a ∧ (b.step op).addresses = b.addresses.set i a := by
  have hkept : ∀ (i : ℕ) (d e : Device), b.devices[i]? = some d → e.address = d.address →
      (b.devices.set i e).map Device.address = b.devices.map Device.address := by
    intro i d e hd he
    obtain ⟨hi, rfl⟩ := List.getElem?_eq_some_iff.mp hd
    have hi' : i < (b.devices.map Device.address).length := by rwa [List.length_map]
    have hat : (b.devices.map Device.address)[i] = b.devices[i].address := List.getElem_map _
    rw [List.map_set, he, ← hat, List.set_getElem_self]
  unfold addresses
  rw [step_devices]
  split
  · exact .inl rfl
  · rename_i i c hc
    split
    · exact .inl rfl
    · rename_i d hd
      have haddr := call_address b d c
      cases c with
      | reply f =>
        simp only at haddr
        cases hm : d.movesTo f with
        | none =>
          rw [hm, Option.getD_none] at haddr
          exact .inl (hkept i d _ hd haddr)
        | some a =>
          rw [hm, Option.getD_some] at haddr
          have hop : op = .reply i f := by
            cases op <;> simp [callOf] at hc
            obtain ⟨rfl, rfl⟩ := hc
            rfl
          exact .inr ⟨i, f, d, a, hop, hd, hm, by rw [List.map_set, haddr]⟩
      | _ => exact .inl (hkept i d _ hd haddr)

/-- Every device has an address of its own in `0x00` to `0x7E`. -/
structure Addressed (b : Bus) : Prop where
  distinct : b.addresses.Nodup
  valid : ∀ a ∈ b.addresses, a < broadcastAddress

/-- An address is in use if another device has it. -/
theorem addressInUse_iff {a : Address} :
    b.addressInUse i a = true ↔ ∃ j, j ≠ i ∧ b.addresses[j]? = some a := by
  simp only [addressInUse, List.any_eq_true, List.mem_range, Bool.and_eq_true, bne_iff_ne, ne_eq,
    beq_iff_eq, addresses, List.getElem?_map]
  constructor
  · rintro ⟨j, -, hj, ha⟩
    exact ⟨j, hj, ha⟩
  · rintro ⟨j, hj, ha⟩
    refine ⟨j, ?_, hj, ha⟩
    by_contra hlen
    rw [List.getElem?_eq_none (Nat.le_of_not_lt hlen)] at ha
    cases ha

/-- The operation delivers an `osdp_COM` with an address no device may have, or one another device
has. -/
def collides (b : Bus) : Op → Bool
  | .reply i f => b.devices[i]?.any fun d => (d.movesTo f).any fun a =>
      decide (a ≥ broadcastAddress) || b.addressInUse i a
  | _ => false

/-- **An operation** that does not collide keeps the addresses apart. -/
theorem addressed_step (h : b.Addressed) (hop : b.collides op = false) : (b.step op).Addressed := by
  obtain he | ⟨i, f, d, a, rfl, hd, hm, he⟩ := step_addresses b op
  · exact ⟨by rw [he]; exact h.distinct, by rw [he]; exact h.valid⟩
  · simp only [collides, hd, hm, Option.any_some, Bool.or_eq_false_iff, decide_eq_false_iff_not,
      ge_iff_le, UInt8.not_le] at hop
    obtain ⟨hlt, huse⟩ := hop
    refine ⟨?_, ?_⟩
    · rw [he]
      by_cases ha : a ∈ b.addresses
      · -- nobody else has it, so it is the device's own
        obtain ⟨j, hj⟩ := List.mem_iff_getElem?.mp ha
        have hji : j = i := by
          by_contra hne
          rw [addressInUse_iff.mpr ⟨j, hne, hj⟩] at huse
          cases huse
        subst hji
        obtain ⟨hlen, rfl⟩ := List.getElem?_eq_some_iff.mp hj
        rw [List.set_getElem_self]
        exact h.distinct
      · exact h.distinct.set ha
    · rw [he]
      intro a' ha'
      obtain ha' | rfl := List.mem_or_eq_of_mem_set ha'
      · exact h.valid a' ha'
      · exact hlt

/-- One that does makes two devices share one. -/
theorem not_addressed_of_collides (hop : b.collides op = true) : ¬ (b.step op).Addressed := by
  intro h
  cases op with
  | reply i f =>
    obtain ⟨d, hd, hany⟩ := (Option.any_eq_true _ _).mp hop
    obtain ⟨a, hm, hbad⟩ := (Option.any_eq_true _ _).mp hany
    have he := step_reply_addresses hd f
    rw [hm, Option.getD_some] at he
    have hi : i < b.addresses.length := by
      rw [addresses, List.length_map]
      exact (List.getElem?_eq_some_iff.mp hd).1
    have hat : (b.step (.reply i f)).addresses[i]? = some a := by
      rw [he, List.getElem?_set_self hi]
    rw [Bool.or_eq_true, decide_eq_true_eq] at hbad
    obtain hge | huse := hbad
    · have hlt := h.valid a (List.mem_of_getElem? hat)
      exact absurd hge (UInt8.not_le.mpr hlt)
    · obtain ⟨j, hj, ha⟩ := addressInUse_iff.mp huse
      have hat' : (b.step (.reply i f)).addresses[j]? = some a := by
        rw [he, List.getElem?_set_ne (Ne.symm hj)]
        exact ha
      have hlt := (List.getElem?_eq_some_iff.mp hat').1
      exact hj ((List.getElem?_inj hlt h.distinct).mp (hat'.trans hat.symm))
  | _ => cases hop

/-! ## Over a run of the bus -/

/-- The cycle stands at a device. -/
def Cycling (b : Bus) : Prop := b.devices ≠ [] → b.current < b.devices.length

/-- The turn stays among the devices. -/
theorem cycling_step (h : b.Cycling) (op : Op) : (b.step op).Cycling := by
  have hon : ∀ (b : Bus) (i : ℕ) (c : Call), (b.onDevice i c).2.current = b.current ∧
      (b.onDevice i c).2.devices.length = b.devices.length := by
    intro b i c
    unfold onDevice
    split
    · exact ⟨rfl, rfl⟩
    · exact ⟨rfl, List.length_set⟩
  have hsame : ∀ b' : Bus, b'.current = b.current → b'.devices.length = b.devices.length →
      b'.Cycling := by
    intro b' hc hl hne
    rw [hc, hl]
    refine h fun hnil => hne ?_
    rw [hnil] at hl
    exact List.length_eq_zero_iff.mp hl
  cases op with
  | setCommunication i want =>
    simp only [step, perform, setCommunication]
    split
    · exact h
    · split
      · exact h
      · exact hsame _ (hon b i _).1 (hon b i _).2
  | next rndA =>
    simp only [step, perform, next]
    split
    · exact h
    · rename_i hlen
      intro _
      rw [(hon _ _ _).1, (hon _ _ _).2]
      exact Nat.mod_lt _ (Nat.pos_of_ne_zero hlen)
  | keys keys => exact hsame _ rfl rfl
  | _ =>
    rw [step, perform]
    exact hsame _ (hon b _ _).1 (hon b _ _).2

/-- `Next` has a step to return. -/
def Answerable (b : Bus) : Prop :=
  ∀ rndA, b.devices ≠ [] → ∃ f, (b.next rndA).1 = some (.step f)

/-- A bus with addresses apart can be answered. -/
theorem answerable (hf : b.Furnished CipherSuite.Total) (ha : b.Addressed) (hc : b.Cycling) :
    b.Answerable := by
  intro rndA hne
  have hlen : b.devices.length ≠ 0 := by
    rw [ne_eq, List.length_eq_zero_iff]
    exact hne
  obtain ⟨d, hd⟩ : ∃ d, b.devices[b.current]? = some d := ⟨_, List.getElem?_eq_getElem (hc hne)⟩
  have hmem := List.mem_of_getElem? hd
  have hlt := ha.valid _ (List.mem_map_of_mem hmem)
  have hv : Address.valid d.address = true := by
    simp only [Address.valid, decide_eq_true_eq]
    exact UInt8.le_of_lt hlt
  obtain ⟨f, hstep⟩ := transact_total (b := b) hv (hf.armed d hmem) (hf.provided d hmem) rndA
  refine ⟨f, ?_⟩
  simp only [next, if_neg hlen, onDevice, hd, call_current]
  simp only [call, hstep, Outcome.ofNext]

/-- **Addresses stay valid and distinct, and `Next` goes on, exactly when no `osdp_COM` reports an
address that is out of range or taken.** -/
theorem addresses_distinct_iff {addrs : List Address} (hdistinct : addrs.Nodup)
    (hvalid : ∀ a ∈ addrs, a < broadcastAddress) (scheme : Scheme) {secure : Option SecureChannel}
    (hsuite : ∀ channel, secure = some channel → channel.suite.Total) (ops : List Op) :
    (∀ p ∈ Run.trace step (new addrs scheme secure) ops,
        (p.1.step p.2).Addressed ∧ (p.1.step p.2).Answerable) ↔
      ∀ p ∈ Run.trace step (new addrs scheme secure) ops, p.1.collides p.2 = false := by
  let Sound : Bus → Prop := fun b => b.Furnished CipherSuite.Total ∧ b.Cycling ∧ b.Addressed
  have hgood : ∀ (b : Bus) (op : Op), Sound b → True → b.collides op = false →
      ((b.step op).Addressed ∧ (b.step op).Answerable) ∧ Sound (b.step op) := by
    rintro b op ⟨hf, hc, ha⟩ - hop
    have hf' := furnished_step hf op
    have hc' := cycling_step hc op
    have ha' := addressed_step ha hop
    exact ⟨⟨ha', answerable hf' ha' hc'⟩, hf', hc', ha'⟩
  have hbad : ∀ (b : Bus) (op : Op), Sound b → True → ¬ b.collides op = false →
      ¬ ((b.step op).Addressed ∧ (b.step op).Answerable) := by
    rintro b op - - hop ⟨ha, -⟩
    exact not_addressed_of_collides ((Bool.not_eq_false _).mp hop) ha
  refine Run.trace_forall_iff hgood hbad ⟨furnished_new addrs scheme hsuite, ?_, ?_⟩ ops
    fun _ _ => trivial
  · intro hne
    exact List.length_pos_iff.mpr hne
  · have hnew : (new addrs scheme secure).addresses = addrs := by
      simp [addresses, new, Function.comp_def, Device.new]
    exact ⟨by rw [hnew]; exact hdistinct, by rw [hnew]; exact hvalid⟩

/-- An `osdp_COM` in answer to the first command, reporting this address. -/
def movedOps (a : Address) : List Op :=
  [.next Secure.zeroRnd, .reply 0 (plainReply 1 1 Code.com [a, 0x80, 0x25, 0, 0])]

/-- A reader that moves to an address nobody has. -/
theorem addresses_distinct_moved :
    ((movedOps 3).foldl step (new [1, 2] .checksum none)).addresses = [3, 2] ∧
    ∀ p ∈ Run.trace step (new [1, 2] .checksum none) (movedOps 3),
      (p.1.step p.2).Addressed ∧ (p.1.step p.2).Answerable :=
  ⟨by decide, (@addresses_distinct_iff [1, 2] (by decide) (by decide +kernel) .checksum none
    (by simp) (movedOps 3)).mpr (by decide +kernel)⟩

/-- Whether an outcome of `Next` is a step. -/
def Outcome.isStep : Outcome → Bool
  | .step _ => true
  | _ => false

/-- A reader that says it moved to another's address is believed, and one that says it moved to
`0x80` leaves the bus without a command to send. -/
theorem reported_address_believed :
    ((movedOps 2).foldl step (new [1, 2] .checksum none)).addresses = [2, 2] ∧
    ((movedOps 0x80).foldl step (new [1] .checksum none)).addresses = [0x80] ∧
    (((movedOps 0x80).foldl step (new [1] .checksum none)).next Secure.zeroRnd).1.map
      Outcome.isStep = some false := by
  decide

end Bus

end Osdp
