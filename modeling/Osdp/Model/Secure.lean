import Osdp.Model.Cmd

/-!
# The Secure Channel session

`internal/secure`: the block types, the cipher-suite interface, the four-message
handshake and the two chains of message authentication codes. A session is a value
here and each method returns the session it leaves behind.

The cipher suite is an interface in the source and a record of functions here, each
of which may fail: an application may register a suite of its own.
-/

set_option autoImplicit false

namespace Osdp.Secure

/-- GOLINE: internal/secure/keys.go:9 -/
def blockSize : ℕ := 16

/-- Sixteen octets: a key, a cryptogram or a message authentication code. -/
abbrev Block := List.Vector UInt8 16

/-- The eight octets of `RND.A`, `RND.B` or a cUID. -/
abbrev Rnd := List.Vector UInt8 8

/-- GOLINE: internal/secure/keys.go:16 -/
abbrev BaseKey := Block

/-- GOLINE: internal/secure/keys.go:25-28 -/
def defaultBaseKey : BaseKey :=
  ⟨[0x30, 0x31, 0x32, 0x33, 0x34, 0x35, 0x36, 0x37,
    0x38, 0x39, 0x3A, 0x3B, 0x3C, 0x3D, 0x3E, 0x3F], rfl⟩

/-- GOLINE: internal/secure/keys.go:35-37 -/
def isDefault (k : BaseKey) : Bool := k.toList == defaultBaseKey.toList

/-- GOLINE: internal/secure/keys.go:44-51 -/
structure SessionKeys where
  enc : Block
  mac1 : Block
  mac2 : Block
  deriving DecidableEq

/-- The zero block. -/
def zeroBlock : Block := List.Vector.replicate 16 0

/-- The zero random. -/
def zeroRnd : Rnd := List.Vector.replicate 8 0

/-- GOLINE: internal/secure/errors.go:9-50 -/
inductive Error where
  | notBlockAligned
  | badPadding
  | macMismatch
  | cryptogramMismatch
  | wrongRole
  | malformedHandshake
  | notEstablished
  /-- A failure of a registered suite's own. -/
  | suiteFailed
  deriving DecidableEq, Repr

/-- The primitives a session needs.
GOLINE: internal/secure/suite.go:23-52 -/
structure CipherSuite where
  deriveSessionKeys : BaseKey → Rnd → Except Error SessionKeys
  clientCryptogram : SessionKeys → Rnd → Rnd → Except Error Block
  serverCryptogram : SessionKeys → Rnd → Rnd → Except Error Block
  initialRMAC : SessionKeys → Block → Except Error Block
  sealPayload : SessionKeys → Block → Octets → Except Error Octets
  openPayload : SessionKeys → Block → Octets → Except Error Octets
  mac : SessionKeys → Block → Octets → Except Error Block

/-! ## Block types -/

/-- GOLINE: internal/secure/scs.go:11-36 -/
def scs11 : UInt8 := 0x11
def scs12 : UInt8 := 0x12
def scs13 : UInt8 := 0x13
def scs14 : UInt8 := 0x14
def scs15 : UInt8 := 0x15
def scs16 : UInt8 := 0x16
def scs17 : UInt8 := 0x17
def scs18 : UInt8 := 0x18

/-- GOLINE: internal/secure/scs.go:36 -/
def BlockType.handshake (b : UInt8) : Bool := scs11 ≤ b && b ≤ scs14

/-- GOLINE: internal/secure/scs.go:39 -/
def BlockType.established (b : UInt8) : Bool := scs15 ≤ b && b ≤ scs18

/-- GOLINE: internal/secure/scs.go:43 -/
def BlockType.encrypted (b : UInt8) : Bool := b == scs17 || b == scs18

/-! ## Sessions -/

/-- Which end of the bus a session speaks for.
GOLINE: internal/secure/session.go:9-17 -/
inductive Role where
  | cp
  | pd
  deriving DecidableEq, Repr

/-- GOLINE: internal/secure/session.go:20-37 -/
inductive State where
  | idle
  | challenged
  | cryptogram
  | established
  | failed
  deriving DecidableEq, Repr

/-- GOLINE: internal/secure/session.go:55 -/
def challengeSize : ℕ := 8
def uidSize : ℕ := 8
def ccryptSize : ℕ := uidSize + 8 + blockSize

/-- One secure channel.
GOLINE: internal/secure/session.go:70-89 -/
structure Session where
  suite : CipherSuite
  role : Role
  base : BaseKey
  state : State := .idle
  keys : SessionKeys := ⟨zeroBlock, zeroBlock, zeroBlock⟩
  rndA : Rnd := zeroRnd
  rndB : Rnd := zeroRnd
  uid : Rnd := zeroRnd
  cmac : Block := zeroBlock
  rmac : Block := zeroBlock
  clientCryptogram : Block := zeroBlock
  serverCryptogram : Block := zeroBlock

/-- GOLINE: internal/secure/session.go:94-96 -/
def newSession (suite : CipherSuite) (role : Role) (base : BaseKey) : Session :=
  { suite := suite, role := role, base := base }

/-- The first four octets of a message authentication code travel on the wire.
GOLINE: internal/secure/message.go:16 -/
def macTagSize : ℕ := 4

namespace Session

/-- GOLINE: internal/secure/session.go:102 -/
def established (s : Session) : Bool := s.state == .established

/-- GOLINE: internal/secure/session.go:109 -/
def usingDefaultKey (s : Session) : Bool := isDefault s.base

/-- GOLINE: internal/secure/session.go:115-122 -/
def teardown (s : Session) : Session :=
  { s with
    keys := ⟨zeroBlock, zeroBlock, zeroBlock⟩
    cmac := zeroBlock
    rmac := zeroBlock
    rndA := zeroRnd
    rndB := zeroRnd
    state := .idle }

/-- GOLINE: internal/secure/session.go:125-129 -/
def fail (s : Session) : Session := { s.teardown with state := .failed }

/-- GOLINE: internal/secure/message.go:23-28 -/
def chainFor (s : Session) (isCommand : Bool) : Block := if isCommand then s.rmac else s.cmac

/-- GOLINE: internal/secure/message.go:32-38 -/
def commit (s : Session) (isCommand : Bool) (mac : Block) : Session :=
  if isCommand then { s with cmac := mac } else { s with rmac := mac }

/-- GOLINE: internal/secure/message.go:46-51 -/
def sealPayload (s : Session) (plaintext : Octets) (isCommand : Bool) : Except Error Octets :=
  if ¬ s.established then .error .notEstablished
  else s.suite.sealPayload s.keys (s.chainFor isCommand) plaintext

/-- GOLINE: internal/secure/message.go:56-61 -/
def openPayload (s : Session) (ciphertext : Octets) (isCommand : Bool) : Except Error Octets :=
  if ¬ s.established then .error .notEstablished
  else s.suite.openPayload s.keys (s.chainFor isCommand) ciphertext

/-- Compute the wire tag and advance the chain.
GOLINE: internal/secure/message.go:68-80 -/
def authenticate (s : Session) (frame : Octets) (isCommand : Bool) :
    Except Error (Octets × Session) :=
  if ¬ s.established then .error .notEstablished
  else
    match s.suite.mac s.keys (s.chainFor isCommand) frame with
    | .error e => .error e
    | .ok mac => .ok (mac.toList.take macTagSize, s.commit isCommand mac)

/-- Check a received tag and advance the chain on success.
GOLINE: internal/secure/message.go:90-108 -/
def verify (s : Session) (frame tag : Octets) (isCommand : Bool) : Except Error Session :=
  if ¬ s.established then .error .notEstablished
  else if tag.length ≠ macTagSize then .error .macMismatch
  else
    match s.suite.mac s.keys (s.chainFor isCommand) frame with
    | .error e => .error e
    | .ok mac =>
      if tag ≠ mac.toList.take macTagSize then .error .macMismatch
      else .ok (s.commit isCommand mac)

/-! ## The handshake -/

/-- GOLINE: internal/secure/handshake.go:18-25 -/
def beginChallenge (s : Session) (rndA : Rnd) : Except Error (Octets × Session) :=
  if s.role ≠ .cp then .error .wrongRole
  else .ok (rndA.toList, { s with rndA := rndA, state := .challenged })

/-- The session is returned on an error as well: the caller tears it down.
GOLINE: internal/secure/handshake.go:29-56 -/
def answerChallenge (s : Session) (chlng : Octets) (rndB uid : Rnd) :
    Except Error Octets × Session :=
  if s.role ≠ .pd then (.error .wrongRole, s)
  else if chlng.length ≠ challengeSize then (.error .malformedHandshake, s)
  else
    let s := { s with rndA := octetsAt 8 chlng 0, rndB := rndB, uid := uid }
    match s.suite.deriveSessionKeys s.base s.rndA with
    | .error e => (.error e, s)
    | .ok keys =>
      let s := { s with keys := keys }
      match s.suite.clientCryptogram keys s.rndA s.rndB with
      | .error e => (.error e, s)
      | .ok client =>
        (.ok (uid.toList ++ rndB.toList ++ client.toList),
          { s with clientCryptogram := client, state := .cryptogram })

/-- GOLINE: internal/secure/handshake.go:63-97 -/
def answerCryptogram (s : Session) (ccrypt : Octets) : Except Error Octets × Session :=
  if s.role ≠ .cp then (.error .wrongRole, s)
  else if s.state ≠ .challenged ∨ ccrypt.length ≠ ccryptSize then
    (.error .malformedHandshake, s)
  else
    let s := { s with uid := octetsAt 8 ccrypt 0, rndB := octetsAt 8 ccrypt uidSize }
    let claimed := ccrypt.drop (uidSize + 8)
    match s.suite.deriveSessionKeys s.base s.rndA with
    | .error e => (.error e, s)
    | .ok keys =>
      let s := { s with keys := keys }
      match s.suite.clientCryptogram keys s.rndA s.rndB with
      | .error e => (.error e, s)
      | .ok expected =>
        if claimed ≠ expected.toList then (.error .cryptogramMismatch, s.fail)
        else
          let s := { s with clientCryptogram := expected }
          match s.suite.serverCryptogram keys s.rndA s.rndB with
          | .error e => (.error e, s)
          | .ok server =>
            (.ok server.toList, { s with serverCryptogram := server, state := .cryptogram })

/-- GOLINE: internal/secure/handshake.go:103-132 -/
def answerServerCryptogram (s : Session) (scrypt : Octets) : Except Error Octets × Session :=
  if s.role ≠ .pd then (.error .wrongRole, s)
  else if s.state ≠ .cryptogram ∨ scrypt.length ≠ blockSize then (.error .malformedHandshake, s)
  else
    match s.suite.serverCryptogram s.keys s.rndA s.rndB with
    | .error e => (.error e, s)
    | .ok expected =>
      if scrypt ≠ expected.toList then (.error .cryptogramMismatch, s.fail)
      else
        let s := { s with serverCryptogram := expected }
        match s.suite.initialRMAC s.keys expected with
        | .error e => (.error e, s)
        | .ok rmac => (.ok rmac.toList, { s with rmac := rmac, state := .established })

/-- GOLINE: internal/secure/handshake.go:136-158 -/
def completeHandshake (s : Session) (rmacI : Octets) : Except Error Unit × Session :=
  if s.role ≠ .cp then (.error .wrongRole, s)
  else if s.state ≠ .cryptogram ∨ rmacI.length ≠ blockSize then (.error .malformedHandshake, s)
  else
    match s.suite.initialRMAC s.keys s.serverCryptogram with
    | .error e => (.error e, s)
    | .ok expected =>
      if rmacI ≠ expected.toList then (.error .cryptogramMismatch, s.fail)
      else (.ok (), { s with rmac := expected, state := .established })

end Session

end Osdp.Secure
