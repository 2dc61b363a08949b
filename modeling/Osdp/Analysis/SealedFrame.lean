import Osdp.Analysis.PdSpec

/-!
# A frame that one end seals opens at the other

`bus` and `pd` each have their own code to seal what they send and to open what they receive. Both
follow one scheme, stated here once: the payload is enciphered when the block says so, the code
covers the frame with the code's own octets left out, and either end takes its chain from the
direction the frame travels in.
-/

set_option autoImplicit false

namespace Osdp

open Osdp.Secure (Session CipherSuite Block macTagSize)

/-! ## Two ends of one session -/

/-- `Open` inverts `Seal`. -/
def Secure.CipherSuite.Lawful (c : CipherSuite) : Prop :=
  ∀ keys iv plain cipher, c.sealPayload keys iv plain = .ok cipher →
    c.openPayload keys iv cipher = .ok plain

namespace Secure.Session

/-- Two established sessions of one suite with the same keys. -/
structure Paired (s t : Session) : Prop where
  established : s.established = true
  peer : t.established = true
  suite : t.suite = s.suite
  keys : t.keys = s.keys

variable {s t : Session}

/-- A code moves one end and leaves the pair. -/
theorem Paired.commit_left (h : s.Paired t) (isCommand : Bool) (mac : Block) :
    (s.commit isCommand mac).Paired t := by
  obtain ⟨hs, ht, hsuite, hkeys⟩ := h
  unfold commit
  split <;> exact ⟨hs, ht, hsuite, hkeys⟩

/-- A pair has no order. -/
theorem Paired.symm (h : s.Paired t) : t.Paired s :=
  ⟨h.peer, h.established, h.suite.symm, h.keys.symm⟩

/-- Nor does it matter which end moves. -/
theorem Paired.commit_right (h : s.Paired t) (isCommand : Bool) (mac : Block) :
    s.Paired (t.commit isCommand mac) :=
  (h.symm.commit_left isCommand mac).symm

/-- The chain of a direction is not moved by a frame of that direction. -/
theorem chainFor_commit (s : Session) (isCommand : Bool) (mac : Block) :
    (s.commit isCommand mac).chainFor isCommand = s.chainFor isCommand := by
  cases isCommand <;> rfl

variable {isCommand : Bool}

/-- One end verifies what the other coded. -/
theorem Paired.verify (h : s.Paired t) {mac : Block} {frame : Octets}
    (hchain : t.chainFor isCommand = s.chainFor isCommand)
    (hmac : s.suite.mac s.keys (s.chainFor isCommand) frame = .ok mac) :
    t.verify frame (mac.toList.take macTagSize) isCommand = .ok (t.commit isCommand mac) := by
  have hlen : (mac.toList.take macTagSize).length = macTagSize := by
    simp [macTagSize]
  have hmac' : t.suite.mac t.keys (t.chainFor isCommand) frame = .ok mac := by
    rw [h.suite, h.keys, hchain]
    exact hmac
  unfold Session.verify
  simp only [h.peer, not_true_eq_false, if_false, hlen, ne_eq, hmac']

/-- And opens what it sealed. -/
theorem Paired.openPayload (h : s.Paired t) (hlaw : s.suite.Lawful) {plain cipher : Octets}
    (hchain : t.chainFor isCommand = s.chainFor isCommand)
    (hseal : s.sealPayload plain isCommand = .ok cipher) :
    t.openPayload cipher isCommand = .ok plain := by
  simp only [Session.sealPayload, h.established, not_true_eq_false, if_false] at hseal
  simp only [Session.openPayload, h.peer, not_true_eq_false, if_false]
  rw [h.suite, h.keys, hchain]
  exact hlaw _ _ _ _ hseal

end Secure.Session

/-! ## One scheme for both directions -/

/-- The octets of a finished frame that its code covers. -/
def Frame.covered (f : Frame) : Octets :=
  (f.appendBody []).take ((f.appendBody []).length - macTagSize)

/-- What the code covers does not depend on the code. -/
theorem Frame.covered_append (f : Frame) {tag : Octets} (h : tag.length = macTagSize) :
    { f with data := f.data ++ tag }.covered = Bus.macCover f := by
  have hlen : { f with data := f.data ++ tag }.len =
      { f with data := f.data ++ List.replicate macTagSize 0 }.len := by
    simp [Frame.len, h]
  have htake : ∀ (head tail : Octets), tail.length = macTagSize →
      (head ++ (f.data ++ tail)).take ((head ++ (f.data ++ tail)).length - macTagSize) =
        head ++ f.data := by
    intro head tail ht
    rw [← List.append_assoc, List.length_append, ht, Nat.add_sub_cancel, List.take_left]
  unfold Frame.covered Bus.macCover Frame.appendBody
  simp only [hlen]
  rw [htake _ _ h, htake _ _ (by simp)]

/-- Verify and open a frame of an established session, in either direction. -/
def openFrame (t : Session) (f : Frame) (block : SecurityBlock) (isCommand : Bool) :
    Except Secure.Error (Octets × Session) :=
  if f.data.length < macTagSize then .error .macMismatch
  else
    match t.verify f.covered (f.data.drop (f.data.length - macTagSize)) isCommand with
    | .error e => .error e
    | .ok t =>
      if ¬ Secure.BlockType.encrypted block.type then
        .ok (f.data.take (f.data.length - macTagSize), t)
      else
        match t.openPayload (f.data.take (f.data.length - macTagSize)) isCommand with
        | .error e => .error e
        | .ok plain => .ok (plain, t)

/-- A device opens a command as any frame. -/
theorem openCommand_eq (t : Session) (f : Frame) (block : SecurityBlock) :
    Pd.Device.openCommand t f block = openFrame t f block true := rfl

variable {f : Frame} {block : SecurityBlock} {m : Message}

/-- So does the panel a reply. -/
theorem openReply_eq (t : Session) (h : f.security = some block) :
    Bus.openReply t f = openFrame t f block false := by
  unfold Bus.openReply
  simp only [h]
  rfl

/-- A frame sealed by a session: the payload, enciphered when the block says so, and the code. -/
structure Sealed (s : Session) (isCommand : Bool) (block : SecurityBlock) (plain : Octets)
    (mac : Block) (f : Frame) : Prop where
  security : f.security = some block
  payload : ∃ payload, f.data = payload ++ mac.toList.take macTagSize ∧
    (if Secure.BlockType.encrypted block.type then s.sealPayload plain isCommand = .ok payload
      else payload = plain)
  code : s.suite.mac s.keys (s.chainFor isCommand) f.covered = .ok mac

/-- **The other end opens what one end sealed.** -/
theorem Sealed.opens {s t : Session} {isCommand : Bool} {plain : Octets} {mac : Block}
    (h : Sealed s isCommand block plain mac f) (hlaw : s.suite.Lawful) (hp : s.Paired t)
    (hchain : t.chainFor isCommand = s.chainFor isCommand) :
    openFrame t f block isCommand = .ok (plain, t.commit isCommand mac) := by
  obtain ⟨-, ⟨payload, hdata, hpayload⟩, hcode⟩ := h
  have htag : (mac.toList.take macTagSize).length = macTagSize := by
    simp [macTagSize]
  have hlen : f.data.length = payload.length + macTagSize := by
    rw [hdata, List.length_append, htag]
  have hsplit : f.data.length - macTagSize = payload.length := by omega
  have htake : f.data.take payload.length = payload := by rw [hdata, List.take_left]
  have hdrop : f.data.drop payload.length = mac.toList.take macTagSize := by
    rw [hdata, List.drop_left]
  have hshort : ¬ f.data.length < macTagSize := by omega
  unfold openFrame
  rw [if_neg hshort, hsplit, htake, hdrop, hp.verify hchain hcode]
  simp only
  by_cases henc : Secure.BlockType.encrypted block.type = true
  · rw [if_pos henc] at hpayload
    have hopen := (hp.commit_right isCommand mac).openPayload hlaw
      (by rw [Secure.Session.chainFor_commit, hchain]) hpayload
    simp only [henc, not_true_eq_false, if_false, hopen]
  · rw [if_neg henc] at hpayload
    simp only [henc, hpayload]
    rfl

/-! ## The panel's commands and the device's replies -/

/-- A command of an established session is sealed by the panel's session. -/
theorem sealed_of_compose {b : Bus} {d e : Bus.Device}
    (hblock : Secure.BlockType.established block.type = true)
    (h : Bus.compose b d m (some block) = (.ok f, e)) :
    ∃ s mac, d.session = some s ∧ s.established = true ∧ Sealed s true block m.data mac f ∧
      e.session = some (s.commit true mac) := by
  obtain ⟨s, s', m', g, hs, hseal, hauth, rfl, rfl⟩ := Bus.compose_established hblock h
  obtain ⟨hest, mac, hmac, rfl, rfl⟩ := Bus.authenticate_frame hauth
  have htag : (mac.toList.take macTagSize).length = macTagSize := by
    simp [macTagSize]
  refine ⟨s, mac, hs, hest, ⟨rfl, ⟨m'.data, rfl, ?_⟩, ?_⟩, rfl⟩
  · unfold Bus.sealCommand at hseal
    simp only [hs] at hseal
    split at hseal
    · rename_i henc
      rw [if_pos henc]
      split at hseal
      · cases hseal
      · rename_i cipher hcipher
        cases hseal
        exact hcipher
    · rename_i henc
      rw [if_neg henc]
      cases hseal
      rfl
  · rw [← Frame.covered_append (Bus.securedFrame b d m' block) htag] at hmac
    exact hmac

/-- A reply to a command of an established session is sealed by the device's session. -/
theorem sealed_of_sealReply {d e : Pd.Device} {seq : UInt8} {scheme : Scheme}
    (h : d.sealReply m seq scheme block = (.ok f, e)) :
    ∃ s mac, d.session = some s ∧ Sealed s false block m.data mac f ∧
      e = { d with session := some (s.commit false mac) } := by
  unfold Pd.Device.sealReply at h
  split at h
  · cases h
  · rename_i s hs
    simp only at h
    split at h
    · cases h
    · rename_i payload hpayload
      split at h
      · cases h
      · rename_i g hg
        split at h
        · cases h
        · rename_i tag s' hauth
          obtain ⟨-, mac, hmac, rfl, rfl⟩ := Secure.Session.authenticate_ok hauth
          cases h
          unfold Message.encodeSecure at hg
          split at hg
          · cases hg
          · cases hg
            have htag : (mac.toList.take macTagSize).length = macTagSize := by
              simp [macTagSize]
            refine ⟨s, mac, hs, ⟨rfl, ⟨payload, rfl, ?_⟩, ?_⟩, rfl⟩
            · split at hpayload
              · rename_i henc
                rw [if_pos henc]
                exact hpayload
              · rename_i henc
                rw [if_neg henc]
                cases hpayload
                rfl
            · rw [← hmac]
              exact congrArg _ (Frame.covered_append
                { isReply := true, address := d.address, control := newControl seq scheme true,
                  security := some block, code := m.code, data := payload } htag)

end Osdp
