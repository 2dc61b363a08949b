import Osdp.Analysis.MacInput
import Osdp.Analysis.Sizes
import Osdp.Analysis.Solicited

/-!
# The size estimate of `Send`

The standard suite meets what is assumed of a suite elsewhere (`aes128_total`, `aes128_pads`,
`aes128_lawful`, `aes128_derives`). With it, or with any suite that pads so, `wireLength` is the
length of the frame `compose` builds under the block `commandFor` chooses, and `Send` accepts a
message exactly when that frame fits what the device reported.
-/

set_option autoImplicit false

namespace Osdp

open Osdp.Secure (Session CipherSuite BlockCipher aes128 zeroBlock)

/-! ## The standard suite -/

namespace Secure

variable (aes : BlockCipher)

/-- The standard suite does not fail. -/
theorem aes128_total : (aes128 aes).Total := by
  refine ⟨fun _ _ _ => ⟨_, rfl⟩, fun keys iv frame => ?_⟩
  obtain ⟨init, last, -, hmac⟩ := Aes128.mac_eq aes keys iv frame
  refine ⟨aes.encrypt keys.mac2 (xorInto last
    (BlockMode.chain xorInto (aes.encrypt keys.mac1) iv init)), ?_⟩
  simp only [aes128, hmac, Option.elim_some]

/-- It pads as `wireLength` expects. -/
theorem aes128_pads : (aes128 aes).Pads := by
  intro keys iv plaintext ciphertext h
  obtain rfl := Except.ok.inj h
  rw [Aes128.length_sealPayload, Bus.paddedLength, blockSize]
  omega

/-- Its `Open` inverts its `Seal`. -/
theorem aes128_lawful : (aes128 aes).Lawful := by
  intro keys iv plain cipher h
  obtain rfl := Except.ok.inj h
  exact Aes128.openPayload_sealPayload aes keys iv plain

/-- It derives every key. -/
theorem aes128_derives : (aes128 aes).Derives :=
  ⟨fun _ _ => ⟨_, rfl⟩, fun _ _ _ => ⟨_, rfl⟩, fun _ _ _ => ⟨_, rfl⟩, fun _ _ => ⟨_, rfl⟩⟩

end Secure

/-! ## The estimate -/

namespace Bus

/-- The block a command of the device travels under. -/
def Device.blockFor (d : Device) (m : Message) : Option SecurityBlock :=
  if d.state = .secure then some (blockForCommand m.data.length) else none

/-- A device in use: online without a session, or with an established one. -/
inductive Device.InUse (d : Device) : Prop
  | online (hst : d.state = .online) (hs : d.session = none)
  | secure (s : Session) (hst : d.state = .secure) (hs : d.session = some s)
      (hest : s.established = true)

/-- A frame is as long as estimated. -/
theorem compose_len {b : Bus} {d e : Device} {m : Message} {f : Frame} (hd : d.InUse)
    (hpads : ∀ s, d.session = some s → s.suite.Pads)
    (h : compose b d m (d.blockFor m) = (.ok f, e)) : f.len = wireLength b d m := by
  unfold Device.blockFor at h
  cases hd with
  | online hst hs =>
    have hplain : d.secureEstablished = false := by simp [Device.secureEstablished, hs]
    rw [if_neg (by rw [hst]; decide)] at h
    rw [compose_plain_len h, wireLength, hplain]
    rfl
  | secure s hst hs hest =>
    have hestablished : d.secureEstablished = true := by
      simp [Device.secureEstablished, hs, hest]
    rw [if_pos hst] at h
    rw [compose_secure_len hpads h, wireLength, hestablished]
    rfl

/-- **The estimate is the size.** The standard suite pads as the estimate assumes and never fails.
Under any suite that does so, to a device in use and for any message: `commandFor` chooses this
block when it takes the message; the frame `compose` builds is as long as estimated, and there is
one if the device has an address; and `Send` accepts the message exactly when the frame fits the
buffer the device reported, if it reported one. -/
theorem estimate_is_size :
    (∀ aes : BlockCipher, (aes128 aes).Pads ∧ (aes128 aes).Total) ∧
    ∀ (b : Bus) (d : Device) (m : Message), d.InUse →
      (∀ s, d.session = some s → s.suite.Pads ∧ s.suite.Total) →
      (∀ rndA, d.takes = some m →
        (commandFor d rndA).1 = m ∧ (commandFor d rndA).2.1 = d.blockFor m) ∧
      (Address.valid d.address = true → ∃ f, (compose b d m (d.blockFor m)).1 = .ok f) ∧
      ∀ f e, compose b d m (d.blockFor m) = (.ok f, e) →
        wireLength b d m = f.len ∧
        ((send b d m).1 = .ok () ↔
          d.caps.receiveBufferSize = 0 ∨ f.len ≤ d.caps.receiveBufferSize) := by
  refine ⟨fun aes => ⟨Secure.aes128_pads aes, Secure.aes128_total aes⟩, ?_⟩
  intro b d m hd hsuite
  refine ⟨?_, ?_, ?_⟩
  · intro rndA hm
    rw [commandFor_of_takes hm]
    exact ⟨rfl, rfl⟩
  · intro hv
    unfold Device.blockFor
    cases hd with
    | online hst hs =>
      rw [if_neg (by rw [hst]; decide)]
      exact compose_total hv m (.inl (by simp))
    | secure s hst hs hest =>
      rw [if_pos hst]
      exact compose_total hv m (.inr ⟨_, s, rfl, hs, hest, (hsuite s hs).2⟩)
  · intro f e h
    have hlen := compose_len hd (fun s hs => (hsuite s hs).1) h
    rw [send_ok_iff, hlen]
    exact ⟨rfl, Iff.rfl⟩

/-- An output command over a Secure Channel of the standard suite. -/
theorem estimate_is_size_output :
    let s : Session := { suite := aes128 Secure.plainCipher, role := .cp, base := zeroBlock,
                         state := .established }
    let d : Device := { address := 1, state := .secure, session := some s }
    let m : Message := { code := Code.out, data := [0, 2, 0, 0] }
    ∃ f, (compose { scheme := .checksum } d m (d.blockFor m)).1 = .ok f ∧
      wireLength { scheme := .checksum } d m = f.len := by
  intro s d m
  obtain ⟨-, hcomposed, hlen⟩ := estimate_is_size.2 { scheme := .checksum } d m
    (.secure s rfl rfl rfl) (by rintro _ ⟨⟩; exact estimate_is_size.1 _)
  obtain ⟨f, hf⟩ := hcomposed (by decide)
  have hpair : compose { scheme := .checksum } d m (d.blockFor m) =
      (.ok f, (compose { scheme := .checksum } d m (d.blockFor m)).2) := by rw [← hf]
  exact ⟨f, hf, (hlen f _ hpair).1⟩

end Bus

end Osdp
