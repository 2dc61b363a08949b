import Osdp.Analysis.Representation
import Osdp.Analysis.Refusal
import Osdp.Analysis.SealedFrame
import Osdp.Analysis.WireFormat

/-!
# What crosses a Secure Channel

A command is composed, encoded, decoded and opened by four functions in three packages, and
so is the reply. `SealedExchange` runs the eight of them once; `Transparent` is what they
have to come to. The chains of the two ends are equal after every exchange, so the next one
starts from where this one stopped.
-/

set_option autoImplicit false

namespace Osdp

open Osdp.Secure (Session CipherSuite Block Rnd macTagSize)

/-! ## Sealed frames on the line -/

variable {f : Frame} {b : Bus} {d e : Pd.Device} {m : Message} {block : Option SecurityBlock}
  {seq : UInt8} {scheme : Scheme}

/-- A frame that `append` takes arrives as it was sent. -/
theorem decode_append {octets : Octets} (h : f.append [] = .ok octets) (hcheck : f.checkOK = true)
    (hdeclared : f.security.isSome = f.control.hasSecurityBlock) : decode octets = .ok f := by
  obtain ⟨rfl, ha, hs, hl⟩ := Frame.append_eq_ok h
  have hback := Frame.decode_wire
    { address := ha, blockLen := hs, len := hl, check := hcheck, declared := hdeclared } []
  rwa [List.append_nil] at hback

/-- A composed command declares its block. -/
theorem compose_declared {d e : Bus.Device} (h : Bus.compose b d m block = (.ok f, e)) :
    f.security.isSome = f.control.hasSecurityBlock := by
  have hvalid := (Bus.compose_ok h).valid
  cases block with
  | none =>
    rw [Bus.compose_none b d m hvalid] at h
    cases h
    exact (newControl_hasSecurityBlock _ _ _).symm
  | some block =>
    by_cases hblock : Secure.BlockType.established block.type = true
    · obtain ⟨s, s', m', g, -, -, hauth, rfl, -⟩ := Bus.compose_established hblock h
      obtain ⟨-, mac, -, rfl, -⟩ := Bus.authenticate_frame hauth
      exact (newControl_hasSecurityBlock _ _ _).symm
    · unfold Bus.compose at h
      simp only [Bus.Device.nextSequence_eq] at h
      split at h
      · cases h
      · simp only [Message.encodeSecure, hvalid, hblock, not_true_eq_false, if_false] at h
        cases h
        exact (newControl_hasSecurityBlock _ _ _).symm

/-- So does a sealed reply, and its error check holds. -/
theorem sealReply_declared {block : SecurityBlock} (h : d.sealReply m seq scheme block = (.ok f, e)) :
    f.checkOK = true ∧ f.security.isSome = f.control.hasSecurityBlock := by
  unfold Pd.Device.sealReply Message.encodeSecure at h
  split at h
  · cases h
  · simp only at h
    split at h
    · cases h
    · split at h
      · cases h
      · rename_i hf
        split at hf
        · cases hf
        · cases hf
          split at h
          · cases h
          · cases h
            exact ⟨Frame.checkOK_sealCheck _, (newControl_hasSecurityBlock _ _ _).symm⟩

/-- And every other reply of a device. -/
theorem encode_declared (h : d.encode m seq scheme block = (.ok f, e)) :
    f.security.isSome = f.control.hasSecurityBlock := by
  cases block with
  | none =>
    simp only [Pd.Device.encode, Message.encode] at h
    split at h
    · cases h
    · rename_i hf
      split at hf <;> cases hf
      cases h
      exact (newControl_hasSecurityBlock _ _ _).symm
  | some block =>
    by_cases hblock : Secure.BlockType.handshake block.type = true
    · simp only [Pd.Device.encode, hblock, if_true, Message.encodeSecure] at h
      split at h
      · cases h
      · rename_i hf
        split at hf <;> cases hf
        cases h
        exact (newControl_hasSecurityBlock _ _ _).symm
    · simp only [Pd.Device.encode, hblock] at h
      exact (sealReply_declared h).2

/-! ## One exchange -/

/-- A panel's record of a device and the device itself, their sessions the two ends of one
channel: a suite whose `Open` inverts `Seal`, equal keys and an equal reply chain. -/
def Locked (d : Bus.Device) (e : Pd.Device) : Prop :=
  ∃ s t, d.session = some s ∧ e.session = some t ∧ s.Paired t ∧ s.suite.Lawful ∧ t.rmac = s.rmac

/-- The block a command of this payload travels under. -/
def commandBlock (m : Message) : SecurityBlock := Bus.blockForCommand m.data.length

/-- A command's block is one of a session. -/
theorem commandBlock_established (m : Message) :
    Secure.BlockType.established (commandBlock m).type = true := by
  unfold commandBlock Bus.blockForCommand
  split <;> decide

/-- What an exchange of a command and a reply has to come to. The command that arrives is the
command that was sent and opens to its payload; sent again it is the same frame and leaves the
same chain; and so for the reply, after which the two ends hold equal chains. -/
structure Transparent (b : Bus) (d : Bus.Device) (e : Pd.Device) (m r : Message) : Prop where
  command : ∀ f d' octets, Bus.compose b d m (some (commandBlock m)) = (.ok f, d') →
    f.append [] = .ok octets → ∃ t t', e.session = some t ∧ decode octets = .ok f ∧
      Pd.Device.openCommand t f (commandBlock m) = .ok (m.data, t')
  again : ∀ f d', Bus.compose b d m (some (commandBlock m)) = (.ok f, d') →
    Bus.compose b { d' with repeatSequence := true } m (some (commandBlock m)) = (.ok f, d')
  reply : ∀ f d' t t' g e' octets, Bus.compose b d m (some (commandBlock m)) = (.ok f, d') →
    e.session = some t → Pd.Device.openCommand t f (commandBlock m) = .ok (m.data, t') →
    { e with session := some t' }.sealReply r f.control.sequence f.control.scheme
      (Pd.replyBlock r.data.length) = (.ok g, e') →
    g.append [] = .ok octets → ∃ s s' u, d'.session = some s ∧ decode octets = .ok g ∧
      Bus.openReply s g = .ok (r.data, s') ∧ e'.session = some u ∧ s'.cmac = u.cmac ∧
      s'.rmac = u.rmac

section Exchange

variable {b : Bus} {d d' : Bus.Device} {e e' : Pd.Device} {m r : Message} {f g : Frame}

/-- The device opens the panel's command. -/
theorem Locked.opens (h : Locked d e)
    (hf : Bus.compose b d m (some (commandBlock m)) = (.ok f, d')) :
    ∃ s t mac, d.session = some s ∧ e.session = some t ∧ s.Paired t ∧ s.suite.Lawful ∧
      t.rmac = s.rmac ∧ f.security = some (commandBlock m) ∧
      d'.session = some (s.commit true mac) ∧
      Pd.Device.openCommand t f (commandBlock m) = .ok (m.data, t.commit true mac) := by
  obtain ⟨s, t, hs, ht, hp, hlaw, hchain⟩ := h
  obtain ⟨s', mac, hs', -, hsealed, hd'⟩ := sealed_of_compose (commandBlock_established m) hf
  rw [hs] at hs'
  cases hs'
  refine ⟨s, t, mac, hs, ht, hp, hlaw, hchain, hsealed.security, hd', ?_⟩
  rw [openCommand_eq]
  exact hsealed.opens hlaw hp hchain

/-- The panel opens the device's reply, and the two ends are where the next exchange can start. -/
theorem Locked.answered {t' : Session} (h : Locked d e)
    (hf : Bus.compose b d m (some (commandBlock m)) = (.ok f, d')) {t : Session}
    (ht : e.session = some t)
    (hopen : Pd.Device.openCommand t f (commandBlock m) = .ok (m.data, t'))
    (hg : { e with session := some t' }.sealReply r seq scheme
      (Pd.replyBlock r.data.length) = (.ok g, e')) :
    ∃ (s : Session) (mac mac' : Block), d'.session = some (s.commit true mac) ∧
      e'.session = some ((t.commit true mac).commit false mac') ∧
      Bus.openReply (s.commit true mac) g = .ok (r.data, (s.commit true mac).commit false mac') ∧
      s.Paired t ∧ s.suite.Lawful := by
  obtain ⟨s, u, mac, -, hu, hp, hlaw, -, -, hd', hopens⟩ := h.opens hf
  rw [ht] at hu
  cases hu
  rw [hopens] at hopen
  cases hopen
  obtain ⟨v, mac', hv, hsealed, rfl⟩ := sealed_of_sealReply hg
  cases hv
  refine ⟨s, mac, mac', hd', rfl, ?_, hp, hlaw⟩
  rw [openReply_eq _ hsealed.security]
  -- the reply is sealed with the chain the command moved, which both ends moved alike
  have hpaired : (t.commit true mac).Paired (s.commit true mac) :=
    (hp.commit_left true mac).commit_right true mac |>.symm
  have hlaw' : (t.commit true mac).suite.Lawful := by
    rw [Secure.Session.commit_suite, hp.suite]
    exact hlaw
  exact hsealed.opens hlaw' hpaired rfl

/-- **One exchange is transparent.** -/
theorem Locked.transparent (h : Locked d e) (b : Bus) (m r : Message) : Transparent b d e m r where
  command := by
    intro f d' octets hf ho
    obtain ⟨s, t, mac, -, ht, -, -, -, -, -, hopens⟩ := h.opens hf
    have hcheck := (Bus.compose_ok hf).check
    exact ⟨t, _, ht,
      decode_append ho hcheck (compose_declared hf), hopens⟩
  again := by
    intro f d' hf
    obtain ⟨s, t, mac, -, -, -, -, -, -, hd', -⟩ := h.opens hf
    have hseq := (Bus.compose_ok hf).seq
    have hrepeat := (Bus.compose_ok hf).repeatSequence
    obtain ⟨q, rep, ses, hdev⟩ := Bus.compose_device b d m (some (commandBlock m))
    rw [hf] at hdev
    simp only at hdev
    have haddr : d'.address = d.address := by rw [hdev]
    have hagain := @Bus.compose_again b d d' { d' with repeatSequence := true } m
      (some (commandBlock m)) f hf (by rintro k ⟨⟩; exact commandBlock_established m)
      haddr (by simp only [Bus.Device.number, if_true, hseq]) (.inr rfl)
    rw [hagain, ← hseq, ← hrepeat]
  reply := by
    intro f d' t t' g e' octets hf ht hopen hg ho
    obtain ⟨s, mac, mac', hd', he', hreply, -, -⟩ := h.answered hf ht hopen hg
    obtain ⟨hcheck, hdeclared⟩ := sealReply_declared hg
    exact ⟨_, _, _, hd', decode_append ho hcheck hdeclared, hreply, he', rfl, rfl⟩

end Exchange

/-! ## A run of exchanges -/

/-- What arrives of a frame. -/
def Frame.crossing (f : Frame) : Option Frame :=
  match f.append [] with
  | .error _ => none
  | .ok octets =>
    match decode octets with
    | .ok g => some g
    | _ => none

/-- The device's half of an exchange: the command opened, the reply sealed under its number and
scheme. -/
def Pd.Device.answerSealed (e : Pd.Device) (f : Frame) (r : Message) : Option (Frame × Pd.Device) :=
  match e.session, f.security with
  | some t, some block =>
    match openCommand t f block with
    | .error _ => none
    | .ok (_, t) =>
      match { e with session := some t }.sealReply r f.control.sequence f.control.scheme
          (replyBlock r.data.length) with
      | (.error _, _) => none
      | (.ok g, e) => some (g, e)
  | _, _ => none

/-- One exchange without loss, or nothing when a frame of it cannot be built or written. -/
def sealedExchange (b : Bus) (ends : Bus.Device × Pd.Device) (x : Message × Message) :
    Option (Bus.Device × Pd.Device) :=
  match Bus.compose b ends.1 x.1 (some (commandBlock x.1)) with
  | (.error _, _) => none
  | (.ok f, d) => do
    let f ← f.crossing
    let (g, e) ← ends.2.answerSealed f x.2
    let g ← g.crossing
    let s ← d.session
    match Bus.openReply s g with
    | .error _ => none
    | .ok (_, s) => some ({ d with session := some s }, e)

/-- The ends after an exchange that took place. -/
def sealedStep (b : Bus) (ends : Bus.Device × Pd.Device) (x : Message × Message) :
    Bus.Device × Pd.Device :=
  (sealedExchange b ends x).getD ends

/-- A frame arrives as it was sent. -/
theorem crossing_eq {g : Frame} (h : f.crossing = some g) (hcheck : f.checkOK = true)
    (hdeclared : f.security.isSome = f.control.hasSecurityBlock) : g = f := by
  unfold Frame.crossing at h
  split at h
  · cases h
  · rename_i octets ho
    rw [decode_append ho hcheck hdeclared] at h
    cases h
    rfl

/-- An exchange that took place leaves the ends locked, with equal chains. -/
theorem locked_exchange {ends ends' : Bus.Device × Pd.Device} {x : Message × Message}
    (h : Locked ends.1 ends.2) (hx : sealedExchange b ends x = some ends') :
    Locked ends'.1 ends'.2 ∧ ∃ s t, ends'.1.session = some s ∧ ends'.2.session = some t ∧
      s.cmac = t.cmac ∧ s.rmac = t.rmac := by
  unfold sealedExchange at hx
  split at hx
  · cases hx
  · rename_i f d hf
    simp only [Option.bind_eq_bind, Option.bind_eq_some_iff] at hx
    obtain ⟨f', hcross, ⟨g, e⟩, hans, g', hcross', s, hs, hx⟩ := hx
    obtain ⟨s₀, t, mac, -, ht, -, -, -, hsec, -, hopens⟩ := h.opens hf
    cases crossing_eq hcross (Bus.compose_ok hf).check (compose_declared hf)
    simp only [Pd.Device.answerSealed, ht, hsec, hopens] at hans
    split at hans
    · cases hans
    · rename_i g₀ e₀ hg
      cases hans
      obtain ⟨hcheck, hdeclared⟩ := sealReply_declared hg
      cases crossing_eq hcross' hcheck hdeclared
      obtain ⟨s₁, mac₁, mac₂, hd', he', hreply, hp, hlaw⟩ := h.answered hf ht hopens hg
      rw [hd'] at hs
      cases hs
      simp only [hreply, Option.some.injEq] at hx
      subst hx
      refine ⟨⟨_, _, rfl, he', ?_, ?_, rfl⟩, _, _, rfl, he', rfl, rfl⟩
      · exact ((hp.commit_left true mac₁).commit_right true mac₁ |>.commit_left false mac₂).commit_right
          false mac₂
      · rw [Secure.Session.commit_suite, Secure.Session.commit_suite]
        exact hlaw

/-- **Secure Channel transparency and lock-step.** From any two ends of a channel, over every
sequence of exchanges without loss: every exchange is transparent, and the ends it leaves hold
equal chains. -/
theorem channel_transparent (b : Bus) {d : Bus.Device} {e : Pd.Device} (h : Locked d e)
    (xs : List (Message × Message)) :
    ∀ p ∈ Run.trace (sealedStep b) (d, e) xs, Transparent b p.1.1 p.1.2 p.2.1 p.2.2 ∧
      ∀ ends, sealedExchange b p.1 p.2 = some ends → ∃ s t, ends.1.session = some s ∧
        ends.2.session = some t ∧ s.cmac = t.cmac ∧ s.rmac = t.rmac := by
  have hstep : ∀ (ends : Bus.Device × Pd.Device) (x : Message × Message), Locked ends.1 ends.2 →
      Locked (sealedStep b ends x).1 (sealedStep b ends x).2 := by
    intro ends x hl
    unfold sealedStep
    cases hx : sealedExchange b ends x with
    | none => exact hl
    | some ends' => exact (locked_exchange hl hx).1
  intro p hp
  have hlocked := Run.invariant_trace (I := fun ends : Bus.Device × Pd.Device =>
    Locked ends.1 ends.2) hstep h xs p hp
  exact ⟨hlocked.transparent b p.2.1 p.2.2, fun ends hx => (locked_exchange hlocked hx).2⟩

/-- An established session of either end under the counting suite. -/
def sampleSession (role : Secure.Role) : Session :=
  { Secure.newSession Secure.countingSuite role Secure.zeroBlock with state := .established }

/-- A panel and a device that share it. -/
def sampleEnds : Bus.Device × Pd.Device :=
  ({ address := 1, state := .secure, session := some (sampleSession .cp) },
    { cfg := Pd.secureSettings, address := 1, session := some (sampleSession .pd) })

/-- An `osdp_OUT` that is acknowledged and a poll that is answered with a card. -/
def sampleExchanges : List (Message × Message) :=
  [({ code := Code.out, data := [0, 2, 0, 0] }, { code := Code.ack }),
   ({ code := Code.poll }, { code := Code.raw, data := [0, 1, 8, 0, 0x5A] })]

/-- Both exchanges take place and are transparent. -/
theorem channel_transparent_sample :
    (sampleExchanges.foldlM (sealedExchange { scheme := .crc16 }) sampleEnds).isSome = true ∧
      ∀ p ∈ Run.trace (sealedStep { scheme := .crc16 }) sampleEnds sampleExchanges,
        Transparent { scheme := .crc16 } p.1.1 p.1.2 p.2.1 p.2.2 := by
  have hlocked : Locked sampleEnds.1 sampleEnds.2 := by
    refine ⟨sampleSession .cp, sampleSession .pd, rfl, rfl, ⟨rfl, rfl, rfl, rfl⟩, ?_, rfl⟩
    intro keys iv plain cipher h
    cases h
    rfl
  exact ⟨by decide +kernel,
    fun p hp => (channel_transparent { scheme := .crc16 } hlocked sampleExchanges p hp).1⟩

end Osdp
