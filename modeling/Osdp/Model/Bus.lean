import Osdp.Model.Secure

/-!
# The control panel's half

`internal/bus`: the per-device record, its outbox, the sequence number, how a command
is chosen and composed, and what a reply or a silence means.

Every method that changes a device returns the changed device. The random octets that
`NonceSource` would yield are an argument of the one operation that draws them; spans,
the line parameters and `Device.LastSeen`, which nothing here reads back, are left out.
-/

set_option autoImplicit false

namespace Osdp

open Osdp.Secure (Session BaseKey CipherSuite Rnd macTagSize)

namespace Bus

/-- What the bus believes about one device.
GOLINE: internal/bus/device.go:15-30 -/
inductive State where
  | offline
  | identifying
  | online
  | secureHandshake
  | secure
  deriving DecidableEq, Repr

/-- One command of the handshake and the block that carries it.
GOLINE: internal/bus/secure.go:28-31 -/
structure SecureStep where
  msg : Message
  block : SecurityBlock
  deriving DecidableEq, Repr

/-- The last state reported for one kind of contact.
GOLINE: internal/bus/status.go:13-20 -/
structure Contacts where
  known : Bool := false
  state : List Bool := []
  deriving DecidableEq, Repr

/-- One peripheral device, as the panel sees it.
GOLINE: internal/bus/device.go:53-164 -/
structure Device where
  address : Address
  state : State := .offline
  id : DeviceID := ⟨List.Vector.replicate 3 0, 0, 0, 0, List.Vector.replicate 3 0⟩
  caps : CapabilityReport := []
  session : Option Session := none
  pending : Option SecureStep := none
  deferCommands : Bool := false
  released : Option Message := none
  acknowledged : Code := 0
  pendingKey : Option BaseKey := none
  installedKey : Option BaseKey := none
  status : StatusKind → Option Contacts := fun _ => none
  inflight : Option Message := none
  repeatSequence : Bool := false
  outbox : List Message := []
  secureDeclined : Bool := false
  seq : UInt8 := 0
  misses : ℕ := 0

/-- GOLINE: internal/bus/options.go:33 -/
abbrev KeyFor := Address → Option BaseKey

/-- What `WithSecureChannel` supplies; the nonce source is an argument of `transact`.
GOLINE: internal/bus/bus.go:41-43 -/
structure SecureChannel where
  suite : CipherSuite
  keys : KeyFor

/-- How many consecutive unanswered polls mark a device offline. -/
def offlineThreshold : ℕ := 3

/-- GOLINE: internal/bus/event.go:85-128 -/
inductive Event where
  | none
  | online (caps : CapabilityReport)
  | offline
  | identified (id : DeviceID)
  | cardRead (card : CardRead)
  | keypad (entry : KeypadEntry)
  | nak (reason : NAKReason)
  | resync
  | manufacturer (m : ManufacturerMessage)
  | capabilities (caps : CapabilityReport)
  | secure (defaultKey : Bool)
  | statusChange (status : List StatusChange)
  | busy
  | communication (adopted : Communication) (previous : Address)
  | keyInstalled (defaultKey : Bool)
  | secureFailed
  deriving DecidableEq

/-- The errors of the package, those of the packages below it wrapped. -/
inductive Error where
  | notAReply
  | wrongAddress
  | shortPayload
  | notSecure
  | addressInUse
  | invalidAddress
  | messageTooLarge (code : Code) (need accepted : ℕ)
  | encode (e : EncodeError)
  | secure (e : Secure.Error)
  /-- The source would dereference a nil session here. -/
  | noSession
  deriving DecidableEq, Repr

end Bus

/-- The bus: its devices in poll order and what it was configured with.
GOLINE: internal/bus/bus.go:31-43 -/
structure Bus where
  scheme : Scheme
  secure : Option Bus.SecureChannel := none
  devices : List Bus.Device := []
  current : ℕ := 0

namespace Bus

/-- GOLINE: internal/bus/options.go:59-61 -/
def secureEnabled (b : Bus) : Bool := b.secure.isSome

namespace Device

/-! ## The Secure Channel as the device record holds it -/

/-- GOLINE: internal/bus/keyset.go:78-80 -/
def secureEstablished (d : Device) : Bool := d.session.any Session.established

/-- The session that is torn down is reachable from nowhere else.
GOLINE: internal/bus/session.go:44-50 -/
def dropSession (d : Device) : Device := { d with session := none, pending := none }

/-- GOLINE: internal/bus/session.go:58-61 -/
def abandonSecure (d : Device) : Device := { d.dropSession with secureDeclined := true }

/-- GOLINE: internal/bus/keyset.go:98-104 -/
def clearPendingKey (d : Device) : Device := { d with pendingKey := none }

/-- GOLINE: internal/bus/keyset.go:83-90 -/
def adoptPendingKey (d : Device) : Device :=
  match d.pendingKey with
  | none => d
  | some adopted => { d with installedKey := some adopted }.clearPendingKey

/-- GOLINE: internal/bus/keyset.go:111-119 -/
def baseKey (d : Device) (lookup : KeyFor) : Option BaseKey :=
  match d.installedKey with
  | some k => some k
  | none => lookup d.address

/-- GOLINE: internal/bus/keyset.go:159-161 -/
def awaitingKeySet (d : Device) : Bool := d.pendingKey.isSome && d.acknowledged == Code.keySet

/-! ## The outbox -/

/-- GOLINE: internal/bus/outbox.go:23 -/
def enqueue (d : Device) (m : Message) : Device := { d with outbox := d.outbox ++ [m] }

/-- GOLINE: internal/bus/outbox.go:26-38 -/
def dequeue (d : Device) : Option (Message × Device) :=
  match d.outbox with
  | [] => none
  | m :: rest => some (m, { d with outbox := rest })

/-- GOLINE: internal/bus/busy.go:66 -/
def pollMessage : Message := { code := Code.poll }

/-- GOLINE: internal/bus/outbox.go:49-55 -/
def outbound (d : Device) : Message × Device :=
  match d.dequeue with
  | some (m, d) => (m, { d with inflight := some m })
  | none => (pollMessage, d)

/-- GOLINE: internal/bus/outbox.go:65-69 -/
def withholdsKeySet (d : Device) : Bool :=
  (match d.outbox with
    | [] => false
    | m :: _ => m.code == Code.keySet) && !d.secureEstablished

/-- GOLINE: internal/bus/outbox.go:82-88 -/
def delivered (d : Device) : Device :=
  match d.inflight with
  | none => { d with acknowledged := Code.poll, released := none }
  | some m => { d with acknowledged := m.code, released := some m, inflight := none }

/-- GOLINE: internal/bus/outbox.go:120-126 -/
def requeue (d : Device) : Device :=
  match d.inflight with
  | none => d
  | some m => { d with outbox := m :: d.outbox, inflight := none }

/-- GOLINE: internal/bus/outbox.go:97-103 -/
def reclaim (d : Device) : Device :=
  match d.released with
  | none => d
  | some m => { d with inflight := some m, released := none }.requeue

/-- GOLINE: internal/bus/outbox.go:107-113 -/
def retransmit (d : Device) : Device :=
  match d.inflight with
  | none => d
  | some _ => { d.requeue with repeatSequence := true }

/-- GOLINE: internal/bus/busy.go:56-62 -/
def deferring (d : Device) : Bool × Device :=
  if d.deferCommands then (true, { d with deferCommands := false }) else (false, d)

/-! ## The sequence number -/

/-- The number after `s` in the rotation 1, 2, 3, 1. -/
def rotate (s : UInt8) : UInt8 := if s ≥ 3 then 1 else s + 1

/-- GOLINE: internal/bus/sequence.go:16-27 -/
def nextSequence (d : Device) : UInt8 × Device :=
  if d.repeatSequence then (d.seq, { d with repeatSequence := false })
  else (rotate d.seq, { d with seq := rotate d.seq })

/-- GOLINE: internal/bus/sequence.go:31-45 -/
def resync (d : Device) : Device :=
  { d.requeue with seq := 0, repeatSequence := false, state := .offline }.dropSession

/-! ## Status reports -/

/-- The state list extended with inactive contacts up to index `i`. -/
def extend (state : List Bool) (i : ℕ) : List Bool :=
  state ++ List.replicate (i + 1 - state.length) false

/-- One entry of a report, applied to the last known contacts.
GOLINE: internal/bus/status.go:38-53 -/
def applyStatus (status : StatusKind → Option Contacts) (r : StatusChange) :
    (StatusKind → Option Contacts) × Bool :=
  let c := (status r.kind).getD {}
  let state := extend c.state r.index
  let changed := !c.known || state.getD r.index false != r.active
  (Function.update status r.kind (some { c with state := state.set r.index r.active }), changed)

/-- The loop over a report, and the entries that are news. -/
def applyReport (status : StatusKind → Option Contacts) :
    List StatusChange → (StatusKind → Option Contacts) × List StatusChange
  | [] => (status, [])
  | r :: rs =>
    let (status, changed) := applyStatus status r
    let (status, rest) := applyReport status rs
    (status, if changed then r :: rest else rest)

/-- Mark every kind a report covered as established. -/
def markKnown (status : StatusKind → Option Contacts) (reported : List StatusChange) :
    StatusKind → Option Contacts :=
  reported.foldl (fun status r =>
    Function.update status r.kind ((status r.kind).map fun c => { c with known := true })) status

/-- GOLINE: internal/bus/status.go:32-61 -/
def statusChanges (d : Device) (reported : List StatusChange) : List StatusChange × Device :=
  let (status, changed) := applyReport d.status reported
  (changed, { d with status := markKnown status reported })

/-- The last known state of one kind of contact, and whether the device has reported it.
GOLINE: internal/bus/status.go:69-75 -/
def statusOf (d : Device) (kind : StatusKind) : List Bool × Bool :=
  match d.status kind with
  | none => ([], false)
  | some c => if c.known then (c.state, true) else ([], false)

end Device

/-! ## Choosing and composing a command -/

/-- GOLINE: internal/bus/seal.go:18-23 -/
def blockForCommand (dataLen : ℕ) : SecurityBlock :=
  if dataLen > 0 then { type := Secure.scs17 } else { type := Secure.scs15 }

/-- A frame with the message authentication code appended to its data. The code covers
the finished frame, so the body is taken with room for it reserved.
GOLINE: internal/bus/seal.go:35-48 -/
def authenticate (s : Session) (f : Frame) (isCommand : Bool) :
    Except Secure.Error (Frame × Session) :=
  let reserved := { f with data := f.data ++ List.replicate macTagSize 0 }
  let body := reserved.appendBody []
  match s.authenticate (body.take (body.length - macTagSize)) isCommand with
  | .error e => .error e
  | .ok (tag, s) => .ok ({ f with data := f.data ++ tag }, s)

/-- Verify a reply of an established session and return its payload in the clear.
GOLINE: internal/bus/seal.go:61-78 -/
def openReply (s : Session) (f : Frame) : Except Secure.Error (Octets × Session) :=
  match f.security with
  | none => .error .macMismatch
  | some block =>
    if f.data.length < macTagSize then .error .macMismatch
    else
      let body := f.appendBody []
      let split := f.data.length - macTagSize
      match s.verify (body.take (body.length - macTagSize)) (f.data.drop split) false with
      | .error e => .error e
      | .ok s =>
        let payload := f.data.take split
        if ¬ Secure.BlockType.encrypted block.type then .ok (payload, s)
        else
          match s.openPayload payload false with
          | .error e => .error e
          | .ok plain => .ok (plain, s)

/-- The next command of the handshake. With no pending step and no session the source
dereferences nil; that state is not reachable and a poll stands for it.
GOLINE: internal/bus/secure.go:71-90 -/
def handshakeCommand (d : Device) (rndA : Rnd) : Message × Option SecurityBlock × Device :=
  match d.pending with
  | some step => (step.msg, some step.block, { d with pending := none })
  | none =>
    match d.session with
    | none => (Device.pollMessage, none, d)
    | some s =>
      match s.beginChallenge rndA with
      | .error _ => (Device.pollMessage, none, { d.abandonSecure with state := .online })
      | .ok (chlng, s) =>
        ({ code := Code.chlng, data := chlng }, some { type := Secure.scs11 },
          { d with session := some s })

/-- What to ask a device, and the block the command travels under.
GOLINE: internal/bus/compose.go:65-97 -/
def commandFor (d : Device) (rndA : Rnd) : Message × Option SecurityBlock × Device :=
  match d.state with
  | .offline => ({ code := Code.id, data := [0x00] }, none, d)
  | .identifying => ({ code := Code.cap, data := [0x00] }, none, d)
  | .secureHandshake => handshakeCommand d rndA
  | .secure =>
    let (deferred, d) := d.deferring
    if deferred then (Device.pollMessage, some (blockForCommand 0), d)
    else if d.withholdsKeySet then (Device.pollMessage, some (blockForCommand 0), d)
    else
      let (m, d) := d.outbound
      (m, some (blockForCommand m.data.length), d)
  | .online =>
    let (deferred, d) := d.deferring
    if deferred || d.withholdsKeySet then (Device.pollMessage, none, d)
    else
      let (m, d) := d.outbound
      (m, none, d)

/-- The payload of a command, enciphered when its block says so. -/
def sealCommand (d : Device) (msg : Message) (block : SecurityBlock) : Except Error Message :=
  if Secure.BlockType.encrypted block.type then
    match d.session with
    | none => .error .noSession
    | some s =>
      match s.sealPayload msg.data true with
      | .error e => .error (.secure e)
      | .ok ciphertext => .ok { msg with data := ciphertext }
  else .ok msg

/-- Turn a chosen command into the frame that carries it.
GOLINE: internal/bus/compose.go:26-55 -/
def compose (b : Bus) (d : Device) (msg : Message) (block : Option SecurityBlock) :
    Except Error Frame × Device :=
  match block with
  | none =>
    let (seq, d) := d.nextSequence
    match msg.encode d.address seq b.scheme with
    | .error e => (.error (.encode e), d)
    | .ok f => (.ok f, d)
  | some block =>
    match sealCommand d msg block with
    | .error e => (.error e, d)
    | .ok msg =>
      let (seq, d) := d.nextSequence
      match msg.encodeSecure d.address seq b.scheme block with
      | .error e => (.error (.encode e), d)
      | .ok f =>
        if Secure.BlockType.established block.type then
          match d.session with
          | none => (.error .noSession, d)
          | some s =>
            match authenticate s f true with
            | .error e => (.error (.secure e), d)
            | .ok (f, s) => (.ok f.sealCheck, { d with session := some s })
        else (.ok f.sealCheck, d)

/-- The body of `Next` for the device whose turn it is.
GOLINE: internal/bus/bus.go:127-138 -/
def transact (b : Bus) (d : Device) (rndA : Rnd) : Except Error Frame × Device :=
  let (msg, block, d) := commandFor d rndA
  compose b d msg block

/-! ## What an answer means -/

/-- GOLINE: internal/bus/secure.go:40-59 -/
def afterCapabilities (b : Bus) (d : Device) : Device :=
  let d := { d with state := .online }
  match b.secure with
  | none => d
  | some channel =>
    if d.secureDeclined then d
    else if ¬ d.caps.secureChannel.1 then { d with secureDeclined := true }
    else
      match d.baseKey channel.keys with
      | none => { d with secureDeclined := true }
      | some key =>
        { d with
          session := some (Secure.newSession channel.suite .cp key)
          state := .secureHandshake }

/-- GOLINE: internal/bus/secure.go:146-154 -/
def secureFailure (d : Device) : Event × Device :=
  (.secureFailed, { d.abandonSecure with state := .online })

/-- GOLINE: internal/bus/secure.go:98-113 -/
def onCryptogram (d : Device) (data : Octets) : Event × Device :=
  match d.session with
  | none => secureFailure d
  | some s =>
    match s.answerCryptogram data with
    | (.error _, s) => secureFailure { d with session := some s }
    | (.ok scrypt, s) =>
      (.none, { d with
        session := some s
        pending := some ⟨{ code := Code.sCrypt, data := scrypt }, { type := Secure.scs13 }⟩ })

/-- GOLINE: internal/bus/secure.go:120-134 -/
def onInitialRMAC (d : Device) (data : Octets) : Event × Device :=
  match d.session with
  | none => secureFailure d
  | some s =>
    match s.completeHandshake data with
    | (.error _, s) => secureFailure { d with session := some s }
    | (.ok _, s) => (.secure s.usingDefaultKey, { d with session := some s, state := .secure })

/-- GOLINE: internal/bus/keyset.go:126-141 -/
def onKeyInstalled (d : Device) (installed : BaseKey) : Event × Device :=
  (.keyInstalled (Secure.isDefault installed),
    { d.adoptPendingKey.dropSession with state := .identifying })

/-- GOLINE: internal/bus/busy.go:37-49 -/
def onBusy (d : Device) : Event × Device :=
  (.busy, { d.reclaim with deferCommands := true })

/-- GOLINE: internal/bus/comset.go:70-90 -/
def onCommunication (d : Device) (data : Octets) : Except Error Event × Device :=
  match parseCommunication data with
  | none => (.error .shortPayload, d)
  | some adopted =>
    (.ok (.communication adopted d.address), { d with address := adopted.address }.resync)

/-- GOLINE: internal/bus/status.go:82-96 -/
def onStatus (d : Device) (parse : Octets → Option (List StatusChange)) (data : Octets) :
    Except Error Event × Device :=
  match parse data with
  | none => (.error .shortPayload, d)
  | some reported =>
    let (changed, d) := d.statusChanges reported
    if changed.length = 0 then (.ok .none, d) else (.ok (.statusChange changed), d)

/-- What an acknowledgement, or a reply of no particular meaning, does to a device that was
offline.
GOLINE: internal/bus/reply.go:181-185 -/
def onAnswer (d : Device) : Event × Device :=
  if d.state = .offline then (.online [], { d with state := .identifying }) else (.none, d)

/-- GOLINE: internal/bus/reply.go:93-197 -/
def dispatch (b : Bus) (d : Device) (msg : Message) : Except Error Event × Device :=
  if msg.code = Code.pdID then
    match parseDeviceID msg.data with
    | none => (.error .shortPayload, d)
    | some id => (.ok (.identified id), { d with id := id, state := .identifying })
  else if msg.code = Code.pdCap then
    match parseCapabilities msg.data with
    | none => (.error .shortPayload, d)
    | some report =>
      let d := afterCapabilities b { d with caps := report }
      if d.state = .secureHandshake then (.ok (.capabilities report), d)
      else (.ok (.online report), d)
  else if msg.code = Code.iStatR then onStatus d parseInputStatus msg.data
  else if msg.code = Code.oStatR then onStatus d parseOutputStatus msg.data
  else if msg.code = Code.lStatR then onStatus d parseLocalStatus msg.data
  else if msg.code = Code.rStatR then onStatus d parseReaderStatus msg.data
  else if msg.code = Code.cCrypt then
    let (e, d) := onCryptogram d msg.data
    (.ok e, d)
  else if msg.code = Code.rMacI then
    let (e, d) := onInitialRMAC d msg.data
    (.ok e, d)
  else if msg.code = Code.raw then
    match parseCardRead msg.data with
    | none => (.error .shortPayload, d)
    | some card => (.ok (.cardRead card), d)
  else if msg.code = Code.keypad then
    match parseKeypadEntry msg.data with
    | none => (.error .shortPayload, d)
    | some entry => (.ok (.keypad entry), d)
  else if msg.code = Code.nak then
    match parseNAK msg.data with
    | none => (.error .shortPayload, d)
    | some reason => (.ok (.nak reason), d.clearPendingKey)
  else if msg.code = Code.mfgReply then
    match parseManufacturerMessage msg.data with
    | none => (.error .shortPayload, d)
    | some mfg => (.ok (.manufacturer mfg), d)
  else if msg.code = Code.com then onCommunication d msg.data
  else if msg.code = Code.busy then
    let (e, d) := onBusy d
    (.ok e, d)
  else if msg.code = Code.ack then
    match d.pendingKey, d.awaitingKeySet with
    | some installed, true =>
      let (e, d) := onKeyInstalled d installed
      (.ok e, d)
    | _, _ =>
      let (e, d) := onAnswer d
      (.ok e, d)
  else
    let (e, d) := onAnswer d
    (.ok e, d)

/-- A reply as an established session lets it through: the frame with its payload in the
clear, and the device with the chain advanced.
GOLINE: internal/bus/reply.go:64-77 -/
def openIfEstablished (d : Device) (f : Frame) : Except Secure.Error (Frame × Device) :=
  match d.session with
  | none => .ok (f, d)
  | some s =>
    if s.established then
      match openReply s f with
      | .error e => .error e
      | .ok (payload, s) => .ok ({ f with data := payload }, { d with session := some s })
    else .ok (f, d)

/-- Process a device's answer.
GOLINE: internal/bus/reply.go:35-90 -/
def reply (b : Bus) (d : Device) (f : Frame) : Except Error Event × Device :=
  if ¬ f.isReply then (.error .notAReply, d)
  else if f.address ≠ d.address then (.error .wrongAddress, d)
  else
    let d := { d with misses := 0 }
    if f.control.sequence = 0 then (.ok .resync, d.resync)
    else
      match openIfEstablished d f with
      | .error _ => (.ok .secureFailed, d.resync)
      | .ok (f, d) => dispatch b d.delivered (Message.decode f)

/-- Record that a device did not answer in time.
GOLINE: internal/bus/timeout.go:19-38 -/
def timeout (d : Device) : Event × Device :=
  let d := { d with misses := d.misses + 1 }.retransmit
  if d.misses < offlineThreshold ∨ d.state = .offline then (.none, d)
  else (.offline, d.resync)

/-! ## What the application asks for -/

/-- What sealing grows a payload to: the marker and zero fill to the next block.
GOLINE: internal/bus/size.go:102-104 -/
def paddedLength (n : ℕ) : ℕ := (n + 1 + Secure.blockSize - 1) / Secure.blockSize * Secure.blockSize

/-- GOLINE: internal/bus/size.go:74-91 -/
def wireLength (b : Bus) (d : Device) (m : Message) : ℕ :=
  let payload := m.data.length
  if d.secureEstablished then
    let payload := if payload > 0 then paddedLength payload else payload
    headerSize + 2 + 1 + (payload + macTagSize) + b.scheme.size
  else headerSize + 0 + 1 + payload + b.scheme.size

/-- GOLINE: internal/bus/size.go:54-65 -/
def checkSize (b : Bus) (d : Device) (m : Message) : Except Error Unit :=
  let accepted := d.caps.receiveBufferSize
  if accepted = 0 then .ok ()
  else
    let need := wireLength b d m
    if need > accepted then .error (.messageTooLarge m.code need accepted) else .ok ()

/-- GOLINE: internal/bus/bus.go:88-94 -/
def send (b : Bus) (d : Device) (m : Message) : Except Error Unit × Device :=
  match checkSize b d m with
  | .error e => (.error e, d)
  | .ok _ => (.ok (), d.enqueue m)

/-- GOLINE: internal/bus/keyset.go:64-73 -/
def installKey (d : Device) (key : BaseKey) : Except Error Unit × Device :=
  if ¬ d.secureEstablished then (.error .notSecure, d)
  else (.ok (), { d with pendingKey := some key }.enqueue (keySetCommand key.toList))

end Bus

end Osdp
