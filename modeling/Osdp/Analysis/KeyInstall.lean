import Osdp.Analysis.Queue

/-!
# The key a panel adopts is the key a device acknowledged

A key on its way to a device is held twice: in the `osdp_KEYSET` waiting in the queue, and
in the one slot `pendingKey` beside it. `KeyInv` says the two agree. A second `InstallKey`
overwrites the slot, a refusal of any other command empties it, and a hand-made
`osdp_KEYSET` is taken for the installation; a run that does none of these while an
installation is under way keeps the agreement.
-/

set_option autoImplicit false

namespace Osdp.Bus

open Osdp.Secure (Session BaseKey Rnd)

/-- What a reply does to the keys: nothing; an `osdp_NAK` empties the slot; an `osdp_ACK` to an
`osdp_KEYSET` adopts what the slot holds. -/
theorem reply_keys (b : Bus) (d : Device) (f : Frame) :
    ((reply b d f).2.pendingKey = d.pendingKey ∧ (reply b d f).2.installedKey = d.installedKey) ∨
    (∃ m, d.hears f = some m ∧ m.code = Code.nak ∧ (reply b d f).2.outstanding = d.outbox ∧
      (reply b d f).2.pendingKey = none ∧ (reply b d f).2.installedKey = d.installedKey) ∨
    (∃ m c k, d.hears f = some m ∧ m.code = Code.ack ∧ d.inflight = some c ∧
      c.code = Code.keySet ∧ d.pendingKey = some k ∧ (reply b d f).2.outstanding = d.outbox ∧
      (reply b d f).2.pendingKey = none ∧ (reply b d f).2.installedKey = some k) := by
  obtain ⟨-, e, he⟩ | ⟨hr, ha, ⟨-, he⟩ | ⟨-, -, he⟩ | ⟨hz, data, s, ho, he⟩⟩ := reply_cases b d f
  · exact .inl (by simp [he])
  · exact .inl (by simp [he, Device.resync_eq])
  · exact .inl (by simp [he, Device.resync_eq])
  have hears := Device.hears_eq hr ha hz ho
  rw [he]
  obtain ⟨-, i, c, st, se, pe, de, ss, hd⟩ | ⟨hc, hd⟩ | ⟨k, hc, hk, hak, hd⟩ | ⟨c, hc, -, hd⟩ |
    ⟨hc, hd⟩ := dispatch_cases b { d with misses := 0, session := s }.delivered
      { code := f.code, isReply := f.isReply, data := data }
  · exact .inl (by simp [hd])
  · refine .inr (.inl ⟨_, hears, hc, ?_⟩)
    simp [hd, Device.outstanding]
  · obtain ⟨c, hi⟩ : ∃ c, d.inflight = some c := by
      cases hi : d.inflight with
      | none => simp [hi, Code.poll, Code.keySet] at hak
      | some c => exact ⟨c, rfl⟩
    refine .inr (.inr ⟨_, c, k, hears, hc, hi, ?_, ?_, ?_⟩)
    · simpa [hi] using hak
    · simpa using hk
    · simp [hd, Device.outstanding]
  · exact .inl (by simp [hd, Device.resync_eq])
  · left
    simp only [hd, Device.reclaim_eq]
    split <;> simp

variable {f : Frame} {m c : Message} {k : BaseKey} {t : Track} {i : Bus × Call} {b : Bus}

/-- An `osdp_ACK` heard while an `osdp_KEYSET` is in flight and the slot is full. -/
theorem reply_acknowledged (b : Bus) {d : Device} (hm : d.hears f = some m)
    (hack : m.code = Code.ack) (hc : d.inflight = some c) (hcode : c.code = Code.keySet)
    (hk : d.pendingKey = some k) :
    (reply b d f).1 = .ok (.keyInstalled (Secure.isDefault k)) ∧
      (reply b d f).2.installedKey = some k ∧ (reply b d f).2.session = none := by
  unfold Device.hears at hm
  split at hm
  · rename_i hacc
    obtain ⟨e, s, rfl, he⟩ := reply_of_opened b hacc.1 hacc.2.1 hacc.2.2 hm
    rw [he, dispatch_adopts b hack (by simpa using hk) (by simp [hc, hcode])]
    exact ⟨rfl, rfl, rfl⟩
  · cases hm

/-! ## The slot and the queue agree -/

/-- Whether a message is an `osdp_KEYSET`. -/
def Device.isKeySet (m : Message) : Bool := m.code == Code.keySet

/-- The slot holds the key of every installation under way, and while it is full there is at
most one `osdp_KEYSET` outstanding, the one that carries it. -/
structure KeyInv (t : Track) : Prop where
  aligned : t.Aligned
  installed : ∀ k, .installed k ∈ t.held → t.device.pendingKey = some k
  carried : ∀ k, t.device.pendingKey = some k →
    ∀ m ∈ t.device.outstanding, m.code = Code.keySet → m = keySetCommand k.toList
  single : t.device.pendingKey ≠ none → (t.device.outstanding.filter Device.isKeySet).length ≤ 1

/-- A new track has no key. -/
theorem keyInv_new (addr : Address) : KeyInv (Track.new addr) where
  aligned := Track.aligned_new addr
  installed := by simp [Track.held, Track.new]
  carried := by simp [Track.new, Device.new]
  single := by simp [Track.new, Device.new]

/-- An installed key held means an `osdp_KEYSET` outstanding. -/
theorem installed_outstanding (h : t.Aligned) (hk : .installed k ∈ t.held) :
    keySetCommand k.toList ∈ t.device.outstanding := by
  rw [← h.map_held]
  exact List.mem_map_of_mem hk

/-- A step that accepts nothing and leaves the slot alone keeps the agreement. -/
theorem keyInv_of_suffix (h : KeyInv t) (hacc : accepts i.2 (call i.1 t.device i.2).1 = [])
    (hkey : (t.step i).device.pendingKey = t.device.pendingKey) : KeyInv (t.step i) := by
  have hheld := Track.held_step h.aligned i
  have hout := call_outstanding i.1 t.device i.2
  rw [hacc, List.append_nil] at hheld
  rw [hacc, List.map_nil, List.append_nil] at hout
  refine ⟨Track.aligned_step h.aligned i, ?_, ?_, ?_⟩
  · intro k hk
    rw [hkey]
    exact h.installed k (hheld.subset hk)
  · intro k hk m hm
    rw [hkey] at hk
    exact h.carried k hk m (hout.subset hm)
  · intro hne
    rw [hkey] at hne
    exact (((hout.sublist).filter _).length_le).trans (h.single hne)

/-- A step that empties the slot and leaves no `osdp_KEYSET` outstanding keeps the agreement. -/
theorem keyInv_of_none (h : KeyInv t) (hkey : (t.step i).device.pendingKey = none)
    (hout : ∀ m ∈ (t.step i).device.outstanding, m.code ≠ Code.keySet) : KeyInv (t.step i) := by
  have hal := Track.aligned_step h.aligned i
  refine ⟨hal, ?_, by simp [hkey], by simp [hkey]⟩
  intro k hk
  exact absurd rfl (hout _ (installed_outstanding hal hk))

/-- With the slot full, nothing behind an `osdp_KEYSET` in flight is another. -/
theorem outbox_of_single (h : KeyInv t) (hfull : t.device.pendingKey ≠ none)
    (hc : t.device.inflight = some c) (hcode : c.code = Code.keySet) :
    ∀ m ∈ t.device.outbox, m.code ≠ Code.keySet := by
  intro m hm hmk
  have hone := h.single hfull
  have hmem : m ∈ t.device.outbox.filter Device.isKeySet :=
    List.mem_filter.mpr ⟨hm, by simp [Device.isKeySet, hmk]⟩
  have hpos := List.length_pos_of_mem hmem
  simp only [Device.outstanding, hc, Option.toList_some, List.singleton_append,
    List.filter_cons, Device.isKeySet, hcode, beq_self_eq_true, if_true, List.length_cons] at hone
  omega

/-! ## The condition on the calls -/

/-- The calls that leave an installation under way alone: no `InstallKey` while an
`osdp_KEYSET` is outstanding, no hand-made `osdp_KEYSET` while the slot is full, and no
`osdp_NAK` to another command while it is full and an `osdp_KEYSET` is outstanding. -/
def Track.careful (t : Track) (i : Bus × Call) : Bool :=
  match i.2 with
  | .installKey _ => !t.device.secureEstablished || t.device.outstanding.all (!Device.isKeySet ·)
  | .send m => !Device.isKeySet m || t.device.pendingKey.isNone
  | .reply f =>
    !(t.device.hears f).any (·.code == Code.nak) || t.device.pendingKey.isNone ||
      t.device.inflight.any Device.isKeySet || t.device.outstanding.all (!Device.isKeySet ·)
  | _ => true

/-- A message given to `Send` comes last, and is no second `osdp_KEYSET`. -/
theorem keyInv_send (h : KeyInv t) (hc : t.careful (b, .send m) = true) :
    KeyInv (t.step (b, .send m)) := by
  have hkey : (send b t.device m).2.pendingKey = t.device.pendingKey := by
    unfold send; split <;> rfl
  cases hs : (send b t.device m).1 with
  | error e => exact keyInv_of_suffix h (by simp [accepts, call, hs, Outcome.ofSubmission]) hkey
  | ok _ =>
    have hheld := Track.held_step h.aligned (b, .send m)
    have hout := send_outstanding b t.device m
    simp only [call, hs, Outcome.ofSubmission, accepts] at hheld
    simp only [hs] at hout
    have hcareful : m.code = Code.keySet → t.device.pendingKey = none := by
      intro hm
      simpa [Track.careful, Device.isKeySet, hm] using hc
    refine ⟨Track.aligned_step h.aligned _, ?_, ?_, ?_⟩
    · intro k hk
      have hmem := hheld.subset hk
      simp only [List.mem_append, List.mem_singleton, reduceCtorEq, or_false] at hmem
      exact hkey.trans (h.installed k hmem)
    · intro k hk m' hm' hcode
      have hk' : t.device.pendingKey = some k := hkey.symm.trans hk
      simp only [Track.step, call, hout, List.mem_append, List.mem_singleton] at hm'
      rcases hm' with hm' | rfl
      · exact h.carried k hk' m' hm' hcode
      · rw [hcareful hcode] at hk'
        cases hk'
    · intro hne
      have hne' : t.device.pendingKey ≠ none := fun hn => hne (hkey.trans hn)
      have hnot : Device.isKeySet m = false := by
        by_contra hk
        exact hne' (hcareful (by simpa [Device.isKeySet] using hk))
      simpa [Track.step, call, hout, List.filter_append, hnot] using h.single hne'

/-- An installation that is accepted is the only one. -/
theorem keyInv_installKey {key : BaseKey} (h : KeyInv t)
    (hc : t.careful (b, .installKey key) = true) : KeyInv (t.step (b, .installKey key)) := by
  by_cases he : t.device.secureEstablished = true
  · have hnone : ∀ m ∈ t.device.outstanding, m.code ≠ Code.keySet := by
      simpa [Track.careful, he, Device.isKeySet] using hc
    have hok : installKey t.device key =
        (.ok (), { t.device with pendingKey := some key }.enqueue (keySetCommand key.toList)) := by
      simp [installKey, he]
    have hheld := Track.held_step h.aligned (b, .installKey key)
    simp only [call, hok, Outcome.ofSubmission, accepts] at hheld
    refine ⟨Track.aligned_step h.aligned _, ?_, ?_, ?_⟩
    · intro k hk
      have hmem := hheld.subset hk
      simp only [List.mem_append, List.mem_singleton] at hmem
      rcases hmem with hmem | hmem
      · exact absurd rfl (hnone _ (installed_outstanding h.aligned hmem))
      · cases hmem
        simp [Track.step, call, hok, Device.enqueue]
    · intro k hk m hm hcode
      have hkk : key = k := by simpa [Track.step, call, hok, Device.enqueue] using hk
      have hm' : m ∈ t.device.outstanding ∨ m = keySetCommand key.toList := by
        simpa [Track.step, call, hok, Device.enqueue, Device.outstanding, or_assoc] using hm
      rcases hm' with hm' | hm'
      · exact absurd hcode (hnone m hm')
      · rw [hm', hkk]
    · intro _
      have hfilter : t.device.outstanding.filter Device.isKeySet = [] := by
        rw [List.filter_eq_nil_iff]
        intro m hm
        simpa [Device.isKeySet] using hnone m hm
      have hnew : (t.step (b, .installKey key)).device.outstanding =
          t.device.outstanding ++ [keySetCommand key.toList] := by
        simp [Track.step, call, hok, Device.enqueue, Device.outstanding]
      rw [hnew, List.filter_append, hfilter, List.nil_append]
      exact List.length_filter_le _ _
  · have hrefused : installKey t.device key = (.error .notSecure, t.device) := by
      simp [installKey, he]
    exact keyInv_of_suffix h (by simp [accepts, call, hrefused, Outcome.ofSubmission])
      (by simp [Track.step, call, hrefused])

/-- A reply that empties the slot leaves no `osdp_KEYSET` behind. -/
theorem keyInv_reply (h : KeyInv t) (hc : t.careful (b, .reply f) = true) :
    KeyInv (t.step (b, .reply f)) := by
  obtain ⟨hk, -⟩ | ⟨m, hm, hnak, hout, hk, -⟩ | ⟨m, c, k, hm, hack, hc', hcode, hk', hout, hk, -⟩ :=
    reply_keys b t.device f
  · exact keyInv_of_suffix h rfl hk
  · by_cases hfull : t.device.pendingKey = none
    · exact keyInv_of_suffix h rfl (hk.trans hfull.symm)
    · -- the refusal is the installation's own, or there is none to refuse
      have hcases : (∃ c, t.device.inflight = some c ∧ c.code = Code.keySet) ∨
          ∀ m ∈ t.device.outstanding, m.code ≠ Code.keySet := by
        have hcode : (t.device.hears f).any (·.code == Code.nak) = true := by simp [hm, hnak]
        simpa [Track.careful, hcode, hfull, Device.isKeySet, Option.any_eq_true] using hc
      refine keyInv_of_none h hk ?_
      intro m' hm'
      have hmem : m' ∈ t.device.outbox := by simpa [Track.step, call, hout] using hm'
      rcases hcases with ⟨c, hc', hcode⟩ | hall
      · exact outbox_of_single h hfull hc' hcode m' hmem
      · exact hall m' (List.mem_append_right _ hmem)
  · refine keyInv_of_none h hk ?_
    intro m hm
    exact outbox_of_single h (by simp [hk']) hc' hcode m (by simpa [Track.step, call, hout] using hm)

/-- **A careful call** keeps the keys in agreement. -/
theorem keyInv_step (h : KeyInv t) (hc : t.careful i = true) : KeyInv (t.step i) := by
  obtain ⟨b, c⟩ := i
  cases c with
  | send m => exact keyInv_send h hc
  | installKey key => exact keyInv_installKey h hc
  | next rndA =>
    refine keyInv_of_suffix h rfl ?_
    cases ht : t.device.takes with
    | none => exact (transact_of_takes_none b ht rndA).pendingKey
    | some m =>
      obtain ⟨q, r, s, he⟩ := transact_of_takes b ht rndA
      simp [Track.step, call, he]
  | reply f => exact keyInv_reply h hc
  | timeout =>
    refine keyInv_of_suffix h rfl ?_
    obtain ⟨-, he⟩ | ⟨-, -, he⟩ := timeout_cases t.device
    · simp [Track.step, call, he, Device.retransmit_eq]
    · simp [Track.step, call, he, Device.resync_eq]

/-! ## Over a run -/

/-- An acknowledged installation is adopted, key for key, and no other key ever is. -/
structure KeyAgreed (t : Track) (i : Bus × Call) : Prop where
  adopts : ∀ f m k, i.2 = .reply f → t.device.hears f = some m → m.code = Code.ack →
    t.current = some (.installed k) →
    (call i.1 t.device i.2).1 = .event (.keyInstalled (Secure.isDefault k)) ∧
      (t.step i).device.installedKey = some k ∧ (t.step i).device.session = none
  only : (t.step i).device.installedKey ≠ t.device.installedKey →
    ∃ f m k, i.2 = .reply f ∧ t.device.hears f = some m ∧ m.code = Code.ack ∧
      t.device.inflight = some (keySetCommand k.toList) ∧
      (t.step i).device.installedKey = some k

/-- And so the installed key is the acknowledged one. -/
theorem keyAgreed_of_keyInv (h : KeyInv t) (i : Bus × Call) : KeyAgreed t i := by
  obtain ⟨b, c⟩ := i
  constructor
  · rintro f m k rfl hm hack hcur
    obtain ⟨hheld, hfl⟩ := Track.current_eq_some h.aligned hcur
    obtain ⟨hev, hkey, hses⟩ :=
      reply_acknowledged b hm hack hfl rfl (h.installed k hheld)
    exact ⟨by simp [call, hev, Outcome.ofReply], hkey, hses⟩
  · intro hne
    cases c with
    | send m =>
      refine absurd ?_ hne
      simp only [Track.step, call]
      unfold send; split <;> rfl
    | installKey key =>
      refine absurd ?_ hne
      simp only [Track.step, call]
      unfold installKey; split <;> rfl
    | next rndA =>
      refine absurd ?_ hne
      cases ht : t.device.takes with
      | none => exact (transact_of_takes_none b ht rndA).installedKey
      | some m =>
        obtain ⟨q, r, s, he⟩ := transact_of_takes b ht rndA
        simp [Track.step, call, he]
    | reply f =>
      obtain ⟨-, hk⟩ | ⟨m, -, -, -, -, hk⟩ | ⟨m, c, k, hm, hack, hfl, hcode, hk, -, -, hnew⟩ :=
        reply_keys b t.device f
      · exact absurd hk hne
      · exact absurd hk hne
      · have hcar := h.carried k hk c (by simp [Device.outstanding, hfl]) hcode
        exact ⟨f, m, k, rfl, hm, hack, by rw [hfl, hcar], hnew⟩
    | timeout =>
      refine absurd ?_ hne
      obtain ⟨-, he⟩ | ⟨-, -, he⟩ := timeout_cases t.device
      · simp [Track.step, call, he, Device.retransmit_eq]
      · simp [Track.step, call, he, Device.resync_eq]

/-- **Key-install agreement.** In every run whose calls leave an installation under way alone,
every acknowledged installation is adopted as it was sent, the session dropped and the event
returned, and the panel adopts no key that an acknowledged `osdp_KEYSET` did not carry. -/
theorem key_install_agreement (addr : Address) (is : List (Bus × Call))
    (hcareful : ∀ p ∈ Run.trace Track.step (Track.new addr) is, p.1.careful p.2 = true) :
    ∀ p ∈ Run.trace Track.step (Track.new addr) is, KeyAgreed p.1 p.2 := by
  have hinv := Run.invariant_of_trace (I := KeyInv) (C := fun t i => t.careful i = true)
    (fun t i h hc => keyInv_step h hc) (keyInv_new addr) is hcareful
  intro p hp
  exact keyAgreed_of_keyInv (hinv.1 p hp) p.2

/-- One key installed and acknowledged. -/
def installCalls : List Call :=
  secureEnrolCalls ++
    [.installKey (List.Vector.replicate 16 1), .next Secure.zeroRnd,
     .reply (securedReply 1 2 Secure.scs16 Code.ack [2, 2, 2, 2])]

/-- One key, acknowledged. -/
theorem key_install_agreement_once :
    ((onSecureBus installCalls).foldl Track.step (Track.new 1)).device.installedKey =
      some (List.Vector.replicate 16 1) ∧
    ∀ p ∈ Run.trace Track.step (Track.new 1) (onSecureBus installCalls), KeyAgreed p.1 p.2 :=
  ⟨by decide, key_install_agreement 1 (onSecureBus installCalls) (by decide)⟩

/-- A second key installed before the first is on the line. -/
def overwriteCalls : List Call :=
  secureEnrolCalls ++
    [.installKey (List.Vector.replicate 16 1), .installKey (List.Vector.replicate 16 2),
     .next Secure.zeroRnd]

/-- The acknowledgement of the first key makes the panel adopt the second. -/
theorem second_install_adopted_for_first :
    ((onSecureBus overwriteCalls).foldl Track.step (Track.new 1)).current =
      some (.installed (List.Vector.replicate 16 1)) ∧
    ((onSecureBus overwriteCalls).foldl Track.step (Track.new 1)).device.hears
      (securedReply 1 2 Secure.scs16 Code.ack [2, 2, 2, 2]) =
        some { code := Code.ack, isReply := true } ∧
    ¬ KeyAgreed ((onSecureBus overwriteCalls).foldl Track.step (Track.new 1))
      (secureBus, .reply (securedReply 1 2 Secure.scs16 Code.ack [2, 2, 2, 2])) := by
  refine ⟨by decide, by decide, ?_⟩
  intro h
  have hadopted := (h.adopts _ _ (List.Vector.replicate 16 1) rfl
    (show _ = some { code := Code.ack, isReply := true } by decide) rfl (by decide)).2.1
  exact absurd hadopted (by decide)

end Osdp.Bus
