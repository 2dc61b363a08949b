import Osdp.Model.Secure

/-!
# What the session operations do to a session

One lemma for each operation of `internal/secure` that moves the session's state, read
from its success.
-/

set_option autoImplicit false

namespace Osdp

/-- What was written between two other fields is read back. -/
theorem octetsAt_append {n : ℕ} (front : Octets) (v : List.Vector UInt8 n) (back : Octets) :
    octetsAt n (front ++ v.toList ++ back) front.length = v := by
  apply List.Vector.ext
  intro k
  simp only [octetsAt, List.Vector.get_ofFn, List.getD_eq_getElem?_getD, List.append_assoc]
  rw [List.getElem?_append_right (Nat.le_add_right _ _), Nat.add_sub_cancel_left,
    List.getElem?_append_left (by simp)]
  rw [List.getElem?_eq_getElem (by simp), Option.getD_some, List.Vector.get_eq_get_toList]
  rfl

namespace Secure

namespace Session

variable {s s' : Session} {out ccrypt rmacI scrypt frame tag : Octets} {rndB uid : Rnd}
  {isCommand : Bool}

/-- A panel can always challenge. -/
theorem beginChallenge_of_cp (hrole : s.role = .cp) (rndA : Rnd) :
    s.beginChallenge rndA = .ok (rndA.toList, { s with rndA := rndA, state := .challenged }) := by
  simp [beginChallenge, hrole]

/-- A challenge begins the handshake and keeps what the session was made with. -/
theorem beginChallenge_ok {rndA : Rnd} (h : s.beginChallenge rndA = .ok (out, s')) :
    s' = { s with rndA := rndA, state := .challenged } := by
  unfold beginChallenge at h
  split at h
  · cases h
  · cases h
    rfl

/-- The panel's second step, read from its success. -/
theorem answerCryptogram_eq (h : s.answerCryptogram ccrypt = (.ok out, s')) :
    s.state = .challenged ∧ ∃ keys client server,
      s.suite.deriveSessionKeys s.base s.rndA = .ok keys ∧
      s.suite.clientCryptogram keys s.rndA (octetsAt 8 ccrypt uidSize) = .ok client ∧
      ccrypt.drop (uidSize + 8) = client.toList ∧
      s.suite.serverCryptogram keys s.rndA (octetsAt 8 ccrypt uidSize) = .ok server ∧
      out = server.toList ∧
      s' = { s with uid := octetsAt 8 ccrypt 0, rndB := octetsAt 8 ccrypt uidSize, keys := keys,
                    clientCryptogram := client, serverCryptogram := server,
                    state := .cryptogram } := by
  unfold answerCryptogram at h
  split at h
  · cases h
  · split at h
    · cases h
    · rename_i hc
      simp only [not_or, not_not] at hc
      simp only at h
      split at h
      · cases h
      · rename_i keys hkeys
        split at h
        · cases h
        · rename_i client hclient
          split at h
          · cases h
          · rename_i hclaimed
            split at h
            · cases h
            · rename_i server hserver
              cases h
              exact ⟨hc.1, keys, client, server, hkeys, hclient, not_not.mp hclaimed, hserver, rfl,
                rfl⟩

/-- A cryptogram answers a challenge. -/
theorem answerCryptogram_ok (h : s.answerCryptogram ccrypt = (.ok out, s')) :
    s.state = .challenged ∧ s'.state = .cryptogram := by
  obtain ⟨hstate, -, -, -, -, -, -, -, -, rfl⟩ := answerCryptogram_eq h
  exact ⟨hstate, rfl⟩

/-- The panel's third step, read from its success. -/
theorem completeHandshake_eq (h : s.completeHandshake rmacI = (.ok (), s')) :
    s.state = .cryptogram ∧ ∃ expected,
      s.suite.initialRMAC s.keys s.serverCryptogram = .ok expected ∧ rmacI = expected.toList ∧
      s' = { s with rmac := expected, state := .established } := by
  unfold completeHandshake at h
  split at h
  · cases h
  · split at h
    · cases h
    · rename_i hc
      simp only [not_or, not_not] at hc
      split at h
      · cases h
      · rename_i expected hexpected
        split at h
        · cases h
        · rename_i hrmac
          cases h
          exact ⟨hc.1, expected, hexpected, not_not.mp hrmac, rfl⟩

/-- An initial code establishes the session. -/
theorem completeHandshake_ok (h : s.completeHandshake rmacI = (.ok (), s')) :
    s.state = .cryptogram ∧ s'.state = .established := by
  obtain ⟨hstate, -, -, -, rfl⟩ := completeHandshake_eq h
  exact ⟨hstate, rfl⟩

/-- The device's first step, read from its success. -/
theorem answerChallenge_ok {chlng : Octets} (h : s.answerChallenge chlng rndB uid = (.ok out, s')) :
    s.role = .pd ∧ ∃ keys client,
      s.suite.deriveSessionKeys s.base (octetsAt 8 chlng 0) = .ok keys ∧
      s.suite.clientCryptogram keys (octetsAt 8 chlng 0) rndB = .ok client ∧
      out = uid.toList ++ rndB.toList ++ client.toList ∧
      s' = { s with rndA := octetsAt 8 chlng 0, rndB := rndB, uid := uid, keys := keys,
                    clientCryptogram := client, state := .cryptogram } := by
  unfold answerChallenge at h
  split at h
  · cases h
  · rename_i hrole
    split at h
    · cases h
    · simp only at h
      split at h
      · cases h
      · rename_i keys hkeys
        split at h
        · cases h
        · rename_i client hclient
          cases h
          exact ⟨not_not.mp hrole, keys, client, hkeys, hclient, rfl, rfl⟩

/-- The device's second step, read from its success. -/
theorem answerServerCryptogram_eq (h : s.answerServerCryptogram scrypt = (.ok out, s')) :
    s.state = .cryptogram ∧ ∃ expected rmac,
      s.suite.serverCryptogram s.keys s.rndA s.rndB = .ok expected ∧ scrypt = expected.toList ∧
      s.suite.initialRMAC s.keys expected = .ok rmac ∧ out = rmac.toList ∧
      s' = { s with serverCryptogram := expected, rmac := rmac, state := .established } := by
  unfold answerServerCryptogram at h
  split at h
  · cases h
  · split at h
    · cases h
    · rename_i hc
      simp only [not_or, not_not] at hc
      split at h
      · cases h
      · rename_i expected hexpected
        split at h
        · cases h
        · rename_i hscrypt
          simp only at h
          split at h
          · cases h
          · rename_i rmac hrmac
            cases h
            exact ⟨hc.1, expected, rmac, hexpected, not_not.mp hscrypt, hrmac, rfl, rfl⟩

/-- The panel's second step succeeds on the cryptogram of a device that derived the same keys. -/
theorem answerCryptogram_of_client (hrole : s.role = .cp) (hst : s.state = .challenged)
    {keys : SessionKeys} {client server : Block}
    (hkeys : s.suite.deriveSessionKeys s.base s.rndA = .ok keys)
    (hclient : s.suite.clientCryptogram keys s.rndA rndB = .ok client)
    (hserver : s.suite.serverCryptogram keys s.rndA rndB = .ok server) :
    s.answerCryptogram (uid.toList ++ rndB.toList ++ client.toList) =
      (.ok server.toList, { s with uid := uid, rndB := rndB, keys := keys,
                                   clientCryptogram := client, serverCryptogram := server,
                                   state := .cryptogram }) := by
  have hlen : (uid.toList ++ rndB.toList ++ client.toList).length = ccryptSize := by
    simp [ccryptSize, uidSize, blockSize]
  have huid : octetsAt 8 (uid.toList ++ rndB.toList ++ client.toList) 0 = uid := by
    rw [List.append_assoc]
    exact octetsAt_append [] uid _
  have hrnd : octetsAt 8 (uid.toList ++ rndB.toList ++ client.toList) uidSize = rndB := by
    have hsize : uidSize = uid.toList.length := by simp [uidSize]
    rw [hsize]
    exact octetsAt_append uid.toList rndB client.toList
  have hclaimed : (uid.toList ++ rndB.toList ++ client.toList).drop (uidSize + 8) =
      client.toList := by
    rw [List.drop_left' (by simp [uidSize])]
  generalize uid.toList ++ rndB.toList ++ client.toList = ccrypt at hlen huid hrnd hclaimed ⊢
  simp [answerCryptogram, hrole, hst, hlen, huid, hrnd, hclaimed, hkeys, hclient, hserver]

/-- The panel's third step succeeds on the value it derives itself. -/
theorem completeHandshake_of_rmac (hrole : s.role = .cp) (hst : s.state = .cryptogram)
    {rmac : Block} (h : s.suite.initialRMAC s.keys s.serverCryptogram = .ok rmac) :
    s.completeHandshake rmac.toList =
      (.ok (), { s with rmac := rmac, state := .established }) := by
  simp [completeHandshake, hrole, hst, h, blockSize]

/-- So does the server's cryptogram at the device. -/
theorem answerServerCryptogram_ok (h : s.answerServerCryptogram scrypt = (.ok out, s')) :
    s.state = .cryptogram ∧ s'.state = .established := by
  obtain ⟨hstate, -, -, -, -, -, -, rfl⟩ := answerServerCryptogram_eq h
  exact ⟨hstate, rfl⟩

/-- A code leaves the suite. -/
@[simp] theorem commit_suite (s : Session) (isCommand : Bool) (mac : Block) :
    (s.commit isCommand mac).suite = s.suite := by
  unfold commit; split <;> rfl

/-- It leaves the role. -/
@[simp] theorem commit_role (s : Session) (isCommand : Bool) (mac : Block) :
    (s.commit isCommand mac).role = s.role := by
  unfold commit; split <;> rfl

/-- It leaves the base key. -/
@[simp] theorem commit_base (s : Session) (isCommand : Bool) (mac : Block) :
    (s.commit isCommand mac).base = s.base := by
  unfold commit; split <;> rfl

/-- It leaves the state. -/
@[simp] theorem commit_state (s : Session) (isCommand : Bool) (mac : Block) :
    (s.commit isCommand mac).state = s.state := by
  unfold commit; split <;> rfl

/-- Authenticating a frame moves the chain of the direction it travels in and nothing else. -/
theorem authenticate_ok (h : s.authenticate frame isCommand = .ok (tag, s')) :
    s.established = true ∧ ∃ mac, s.suite.mac s.keys (s.chainFor isCommand) frame = .ok mac ∧
      tag = mac.toList.take macTagSize ∧ s' = s.commit isCommand mac := by
  unfold authenticate at h
  split at h
  · cases h
  · rename_i he
    split at h
    · cases h
    · rename_i mac hmac
      cases h
      exact ⟨by simpa using he, mac, hmac, rfl, rfl⟩

/-- Verifying a frame moves the chain of the direction it travelled in and nothing else. -/
theorem verify_ok (h : s.verify frame tag isCommand = .ok s') :
    s.established = true ∧ ∃ mac, s.suite.mac s.keys (s.chainFor isCommand) frame = .ok mac ∧
      tag = mac.toList.take macTagSize ∧ s' = s.commit isCommand mac := by
  unfold verify at h
  split at h
  · cases h
  · rename_i he
    split at h
    · cases h
    · split at h
      · cases h
      · rename_i mac hmac
        split at h
        · cases h
        · rename_i htag
          cases h
          exact ⟨by simpa using he, mac, hmac, by simpa using htag, rfl⟩

end Session

/-- A suite an application could register: it enciphers nothing, and its code is the chain it is
given with every octet counted up, so frames of two chains can be told apart by hand. -/
def countingSuite : CipherSuite where
  deriveSessionKeys _ _ := .ok ⟨zeroBlock, zeroBlock, zeroBlock⟩
  clientCryptogram _ _ _ := .ok zeroBlock
  serverCryptogram _ _ _ := .ok zeroBlock
  initialRMAC _ _ := .ok zeroBlock
  sealPayload _ _ plaintext := .ok plaintext
  openPayload _ _ ciphertext := .ok ciphertext
  mac _ chain _ := .ok (chain.map (· + 1))

end Secure

end Osdp
