import Osdp.Model.Secure

/-!
# The peripheral device's half

`internal/pd`: a device is a function from a command frame to a reply frame over the
state that makes the same command twice mean one thing or two. The reading of the clock
and the random octets `NonceSource` would yield are arguments of `handle`; the lock, the
spans and the `KeyInstalled` callback are left out.
-/

set_option autoImplicit false

namespace Osdp.Pd

open Osdp.Secure (Session BaseKey CipherSuite Rnd macTagSize)

/-- The options a device was built with.
GOLINE: internal/pd/options.go:24-45 -/
structure Settings where
  identity : DeviceID := ⟨List.Vector.replicate 3 0, 0, 0, 0, List.Vector.replicate 3 0⟩
  capabilities : Option CapabilityReport := none
  inputs : ℕ := 0
  outputs : ℕ := 0
  readers : ℕ := 1
  queue : ℕ := 8
  timeout : ℤ := 0
  configAddr : Bool := false
  strict : Bool := false
  handler : Option (Message → Option Message) := none
  /-- `none` is a device without a Secure Channel. -/
  suite : Option CipherSuite := none
  key : BaseKey := Secure.zeroBlock

/-- The errors of the package, those of the packages below it wrapped.
GOLINE: internal/pd/errors.go:23-85 -/
inductive Error where
  | notAddressed
  | notCommand
  | corrupt
  | queueFull
  | shortCredential
  | noSuchContact
  | tooManyContacts
  | invalidQueue
  | encode (e : EncodeError)
  | secure (e : Secure.Error)
  /-- The source would dereference a nil session here. -/
  | noSession
  deriving DecidableEq, Repr

/-- Whether an error satisfies `errors.Is(err, ErrNoReply)`. -/
def Error.isNoReply : Error → Bool
  | .notAddressed | .notCommand | .corrupt => true
  | _ => false

/-- GOLINE: internal/pd/options.go:55-66 -/
def Settings.validate (s : Settings) : Except Error Unit :=
  if s.inputs > 0xFF ∨ s.outputs > 0xFF ∨ s.readers > 0xFF then .error .tooManyContacts
  else if s.queue < 1 then .error .invalidQueue
  else .ok ()

/-- One peripheral device.
GOLINE: internal/pd/device.go:40-89 -/
structure Device where
  cfg : Settings
  address : Address
  inputs : List Bool := []
  outputs : List Bool := []
  tamper : Bool := false
  powerFailure : Bool := false
  capabilities : CapabilityReport := []
  key : BaseKey := Secure.zeroBlock
  session : Option Session := none
  pending : List Message := []
  seen : Bool := false
  lastSeen : ℤ := 0
  cached : Frame := { isReply := false, address := 0, control := ⟨0⟩, code := 0, data := [] }
  cachedSeq : UInt8 := 0
  cachedValid : Bool := false
  adopting : Option Address := none
  adoptingKey : Option BaseKey := none

/-! ## Identity and capabilities -/

/-- GOLINE: internal/pd/identity.go:42-47 -/
def appendDeviceID (dst : Octets) (id : DeviceID) : Octets :=
  dst ++ id.vendorCode.toList ++ [id.model, id.version] ++ littleEndian 4 id.serial.toNat ++
    id.firmware.toList

/-- GOLINE: internal/pd/identity.go:100-105 -/
def flag (set : Bool) (bit : UInt8) : UInt8 := if set then bit else 0

/-- The receive buffer a device reports when told nothing else. -/
def defaultReceiveBuffer : ℕ := 128

/-- GOLINE: internal/pd/identity.go:63-95 -/
def defaultCapabilities (inputs outputs readers : ℕ) (aes defaultKey : Bool) : CapabilityReport :=
  [⟨funcContactStatus, 0x01, UInt8.ofNat inputs⟩,
   ⟨funcOutputControl, 0x01, UInt8.ofNat outputs⟩,
   ⟨funcCardDataFormat, 0x01, 0x00⟩,
   ⟨funcCheckCharacter, 0x01, 0x00⟩,
   ⟨funcCommSecurity, flag aes securityAES128, flag defaultKey securityDefaultKey⟩,
   ⟨funcReceiveBuffer, UInt8.ofNat defaultReceiveBuffer, UInt8.ofNat (defaultReceiveBuffer >>> 8)⟩,
   ⟨funcReaders, 0x01, UInt8.ofNat readers⟩,
   ⟨funcOSDPVersion, 0x02, 0x00⟩]

/-- GOLINE: internal/pd/secure.go:127-133 -/
def deviceUID (id : DeviceID) : Rnd :=
  octetsAt 8 (id.vendorCode.toList ++ [id.model, id.version] ++ littleEndian 3 id.serial.toNat) 0

namespace Device

/-- GOLINE: internal/pd/secure.go:112 -/
def secureEnabled (d : Device) : Bool := d.cfg.suite.isSome

/-- GOLINE: internal/pd/device.go:134-143 -/
def refreshCapabilities (d : Device) : Device :=
  match d.cfg.capabilities with
  | some r => { d with capabilities := r }
  | none =>
    { d with
      capabilities := defaultCapabilities d.cfg.inputs d.cfg.outputs d.cfg.readers
        d.secureEnabled (d.secureEnabled && Secure.isDefault d.key) }

end Device

/-- GOLINE: internal/pd/device.go:101-124 -/
def new (addr : Address) (cfg : Settings) : Except Error Device :=
  if ¬ Address.valid addr ∨ addr = broadcastAddress then .error (.encode .invalidAddress)
  else
    match cfg.validate with
    | .error e => .error e
    | .ok _ =>
      .ok (Device.refreshCapabilities {
        cfg := cfg
        address := addr
        key := cfg.key
        inputs := List.replicate cfg.inputs false
        outputs := List.replicate cfg.outputs false })

/-! ## Small replies -/

/-- GOLINE: internal/pd/dispatch.go:132 -/
def ack : Message := { code := Code.ack }

/-- GOLINE: internal/pd/dispatch.go:140-142 -/
def nak (reason : NAKReason) : Message := { code := Code.nak, data := [reason] }

/-- GOLINE: internal/pd/status.go:130-135 -/
def boolOctet (active : Bool) : UInt8 := if active then 1 else 0

/-- GOLINE: internal/pd/status.go:121-127 -/
def contactStatus (code : Code) (state : List Bool) : Message :=
  { code := code, data := state.map boolOctet }

/-- GOLINE: internal/pd/secure.go:143-148 -/
def replyBlock (payload : ℕ) : SecurityBlock :=
  if payload > 0 then { type := Secure.scs18 } else { type := Secure.scs16 }

/-- The number that should follow `s`.
GOLINE: internal/pd/cache.go:27-32 -/
def nextSequence (s : UInt8) : UInt8 := if s ≥ 3 then 1 else s + 1

/-! ## Events and the queue they wait in -/

/-- GOLINE: internal/pd/report.go:160-164 -/
def appendCardRead (dst : Octets) (c : CardRead) : Octets :=
  dst ++ [c.reader, c.format] ++ littleEndian 2 c.bitCount.toNat ++ c.data

/-- GOLINE: internal/pd/report.go:175-182 -/
def appendKeypad (dst : Octets) (k : KeypadEntry) : Octets :=
  let keys := if k.keys.length > 0xFF then k.keys.take 0xFF else k.keys
  dst ++ [k.reader, UInt8.ofNat keys.length] ++ keys

namespace Device

/-- GOLINE: internal/pd/report.go:102-115 -/
def pollReply (d : Device) : Message × Device :=
  match d.pending with
  | [] => (ack, d)
  | m :: rest => (m, { d with pending := rest })

/-- GOLINE: internal/pd/report.go:120-126 -/
def queue (d : Device) (m : Message) : Except Error Unit × Device :=
  if d.pending.length ≥ d.cfg.queue then (.error .queueFull, d)
  else (.ok (), { d with pending := d.pending ++ [m] })

/-- Replace the first waiting message of the same code, if there is one. -/
def replaceFirst (m : Message) : List Message → Option (List Message)
  | [] => none
  | w :: ws => if w.code = m.code then some (m :: ws) else (replaceFirst m ws).map (w :: ·)

/-- GOLINE: internal/pd/report.go:137-145 -/
def coalesce (d : Device) (m : Message) : Except Error Unit × Device :=
  match replaceFirst m d.pending with
  | some pending => (.ok (), { d with pending := pending })
  | none => d.queue m

/-- GOLINE: internal/pd/report.go:44-65 -/
def reportCardRead (d : Device) (c : CardRead) : Except Error Unit × Device :=
  if c.data.length < bitOctets c.bitCount then (.error .shortCredential, d)
  else d.queue { code := Code.raw, data := appendCardRead [] c }

/-- GOLINE: internal/pd/report.go:75-85 -/
def reportKeypad (d : Device) (k : KeypadEntry) : Except Error Unit × Device :=
  d.queue { code := Code.keypad, data := appendKeypad [] k }

/-- GOLINE: internal/pd/status.go:96-101 -/
def localStatus (d : Device) : Message :=
  { code := Code.lStatR, data := [boolOctet d.tamper, boolOctet d.powerFailure] }

/-- GOLINE: internal/pd/status.go:112-114 -/
def readerStatus (d : Device) : Message :=
  { code := Code.rStatR, data := List.replicate d.cfg.readers 0 }

/-- GOLINE: internal/pd/status.go:35-51 -/
def setInput (d : Device) (index : ℤ) (active : Bool) : Except Error Unit × Device :=
  if index < 0 ∨ index ≥ d.inputs.length then (.error .noSuchContact, d)
  else
    let d := { d with inputs := d.inputs.set index.toNat active }
    d.coalesce (contactStatus Code.iStatR d.inputs)

/-- GOLINE: internal/pd/status.go:62-64 -/
def setTamper (d : Device) (active : Bool) : Except Error Unit × Device :=
  let d := { d with tamper := active }
  d.coalesce d.localStatus

/-- GOLINE: internal/pd/status.go:74-76 -/
def setPower (d : Device) (failure : Bool) : Except Error Unit × Device :=
  let d := { d with powerFailure := failure }
  d.coalesce d.localStatus

end Device

/-- A call by which the application tells the device what happened at it. -/
inductive Report where
  | cardRead (c : CardRead)
  | keypad (k : KeypadEntry)
  | input (index : ℤ) (active : Bool)
  | tamper (active : Bool)
  | power (failure : Bool)

/-- One such call. -/
def Device.report (d : Device) : Report → Except Error Unit × Device
  | .cardRead c => d.reportCardRead c
  | .keypad k => d.reportKeypad k
  | .input index active => d.setInput index active
  | .tamper active => d.setTamper active
  | .power failure => d.setPower failure

/-! ## The commands that change the device -/

/-- GOLINE: internal/pd/control.go:72-82 -/
inductive OutputAction where
  | unknown
  | leave
  | deenergise
  | energise
  deriving DecidableEq, Repr

/-- GOLINE: internal/pd/control.go:94-105 -/
def outputActionFor (c : UInt8) : OutputAction :=
  if c = 0x00 then .leave
  else if c = 0x01 ∨ c = 0x03 ∨ c = 0x06 then .deenergise
  else if c = 0x02 ∨ c = 0x04 ∨ c = 0x05 then .energise
  else .unknown

/-- One entry of an `osdp_OUT` payload: output number, control code, timer. -/
def outputEntrySize : ℕ := 4

/-- The output number and control code of each whole entry. -/
def outputEntries : Octets → List (UInt8 × UInt8)
  | n :: c :: _ :: _ :: rest => (n, c) :: outputEntries rest
  | _ => []

/-- What one entry does to the outputs. -/
def applyOutput (outputs : List Bool) (entry : UInt8 × UInt8) : List Bool :=
  match outputActionFor entry.2 with
  | .deenergise => outputs.set entry.1.toNat false
  | .energise => outputs.set entry.1.toNat true
  | .leave | .unknown => outputs

namespace Device

/-- GOLINE: internal/pd/control.go:37-68 -/
def applyOutputs (d : Device) (data : Octets) : Message × Device :=
  if data.length = 0 ∨ data.length % outputEntrySize ≠ 0 then (nak .commandLength, d)
  else
    let entries := outputEntries data
    if entries.any fun e => e.1.toNat ≥ d.outputs.length || outputActionFor e.2 == .unknown then
      (nak .unsupportedInput, d)
    else (ack, { d with outputs := entries.foldl applyOutput d.outputs })

/-- GOLINE: internal/pd/control.go:127-150 -/
def applyCommunication (d : Device) (data : Octets) : Message × Device :=
  match parseCommunication data with
  | none => (nak .commandLength, d)
  | some want =>
    if ¬ Address.valid want.address ∨ want.address = broadcastAddress then
      (nak .unsupportedInput, d)
    else
      ({ code := Code.com
         data := (communicationCommand ⟨want.address, want.baud⟩).data },
        { d with adopting := some want.address })

/-- GOLINE: internal/pd/sealed.go:114-131 -/
def installKey (d : Device) (data : Octets) : Message × Device :=
  match parseKeySet data with
  | none => (nak .commandLength, d)
  | some payload =>
    if payload.type ≠ keySCBK ∨ payload.key.length ≠ Secure.blockSize then
      (nak .unsupportedInput, d)
    else (ack, { d with adoptingKey := some (octetsAt 16 payload.key 0) })

/-- The torn-down session is reachable from nowhere else.
GOLINE: internal/pd/secure.go:103-108 -/
def dropSession (d : Device) : Device := { d with session := none }

/-- GOLINE: internal/pd/sealed.go:135-153 -/
def adoptKey (d : Device) : Device :=
  match d.adoptingKey with
  | none => d
  | some key => { d with adoptingKey := none, key := key }.dropSession.refreshCapabilities

/-! ## The command table -/

/-- GOLINE: internal/pd/dispatch.go:121-129 -/
def delegate (d : Device) (code : Code) (data : Octets) : Message :=
  match d.cfg.handler with
  | none => nak .unknownCommand
  | some handler =>
    match handler { code := code, data := data } with
    | some m => m
    | none => nak .unknownCommand

/-- GOLINE: internal/pd/dispatch.go:56-110 -/
def dispatch (d : Device) (code : Code) (data : Octets) (secured : Bool) : Message × Device :=
  if code = Code.poll then d.pollReply
  else if code = Code.id then
    ({ code := Code.pdID, data := appendDeviceID [] d.cfg.identity }, d)
  else if code = Code.cap then
    ({ code := Code.pdCap, data := CapabilityReport.append d.capabilities [] }, d)
  else if code = Code.lStat then (d.localStatus, d)
  else if code = Code.iStat then (contactStatus Code.iStatR d.inputs, d)
  else if code = Code.oStat then (contactStatus Code.oStatR d.outputs, d)
  else if code = Code.rStat then (d.readerStatus, d)
  else if code = Code.out then d.applyOutputs data
  else if code = Code.comSet then d.applyCommunication data
  else if code = Code.led ∨ code = Code.buz ∨ code = Code.text ∨ code = Code.keepActive ∨
      code = Code.abort ∨ code = Code.acuRxSize then (ack, d)
  else if code = Code.chlng ∨ code = Code.sCrypt then
    (if d.secureEnabled then nak .secureRequired else nak .encryptionUnsup, d)
  else if code = Code.keySet then
    if secured then d.installKey data else (nak .secureRequired, d)
  else (d.delegate code data, d)

/-! ## Secured commands -/

/-- GOLINE: internal/pd/handshake.go:62-79 -/
def answerChallenge (d : Device) (suite : CipherSuite) (chlng : Octets) (rndB : Rnd) :
    Message × Option SecurityBlock × Device :=
  let d := d.dropSession
  let session := Secure.newSession suite .pd d.key
  match session.answerChallenge chlng rndB (deviceUID d.cfg.identity) with
  | (.error _, _) => (nak .commandLength, none, d)
  | (.ok ccrypt, session) =>
    ({ code := Code.cCrypt, data := ccrypt }, some { type := Secure.scs12 },
      { d with session := some session })

/-- GOLINE: internal/pd/handshake.go:91-107 -/
def answerCryptogram (d : Device) (scrypt : Octets) : Message × Option SecurityBlock × Device :=
  match d.session with
  | none => (nak .secureRequired, none, d)
  | some s =>
    match s.answerServerCryptogram scrypt with
    | (.error _, _) => (nak .secureRequired, none, d.dropSession)
    | (.ok rmac, s) =>
      ({ code := Code.rMacI, data := rmac }, some { type := Secure.scs14 },
        { d with session := some s })

/-- Verify a command of an established session and return its payload in the clear, with
the session whose chain it advanced.
GOLINE: internal/pd/sealed.go:28-52 -/
def openCommand (s : Session) (f : Frame) (block : SecurityBlock) :
    Except Secure.Error (Octets × Session) :=
  if f.data.length < macTagSize then .error .macMismatch
  else
    let body := f.appendBody []
    let split := f.data.length - macTagSize
    match s.verify (body.take (body.length - macTagSize)) (f.data.drop split) true with
    | .error e => .error e
    | .ok s =>
      let payload := f.data.take split
      if ¬ Secure.BlockType.encrypted block.type then .ok (payload, s)
      else
        match s.openPayload payload true with
        | .error e => .error e
        | .ok plain => .ok (plain, s)

/-- GOLINE: internal/pd/handshake.go:122-140 -/
def answerEstablished (d : Device) (f : Frame) (block : SecurityBlock) :
    Message × Option SecurityBlock × Device :=
  match d.session with
  | none => (nak .secureRequired, none, d)
  | some s =>
    if ¬ s.established then (nak .secureRequired, none, d)
    else
      match openCommand s f block with
      | .error _ => (nak .secureRequired, none, d.dropSession)
      | .ok (payload, s) =>
        let (m, d) := { d with session := some s }.dispatch f.code payload true
        (m, some (replyBlock m.data.length), d)

/-- GOLINE: internal/pd/handshake.go:28-49 -/
def answerSecure (d : Device) (f : Frame) (block : SecurityBlock) (rndB : Rnd) :
    Message × Option SecurityBlock × Device :=
  match d.cfg.suite with
  | none => (nak .encryptionUnsup, none, d)
  | some suite =>
    if block.type = Secure.scs11 then d.answerChallenge suite f.data rndB
    else if block.type = Secure.scs13 then d.answerCryptogram f.data
    else if block.type = Secure.scs15 ∨ block.type = Secure.scs17 then d.answerEstablished f block
    else (nak .encryptionUnsup, none, d)

/-- GOLINE: internal/pd/dispatch.go:25-47 -/
def answer (d : Device) (f : Frame) (rndB : Rnd) : Message × Option SecurityBlock × Device :=
  match f.security with
  | some block => d.answerSecure f block rndB
  | none =>
    if d.session.any Session.established then (nak .secureRequired, none, d.dropSession)
    else
      let (m, d) := d.dispatch f.code f.data false
      (m, none, d)

/-- GOLINE: internal/pd/handle.go:183-190 -/
def answerFor (d : Device) (f : Frame) (seq : UInt8) (rndB : Rnd) :
    Message × Option SecurityBlock × Device :=
  if d.cfg.strict ∧ d.cachedValid ∧ seq ≠ nextSequence d.cachedSeq then
    (nak .sequenceError, none, d)
  else d.answer f rndB

/-! ## Building the reply -/

/-- An authenticated reply, enciphered when the block calls for it.
GOLINE: internal/pd/sealed.go:65-97 -/
def sealReply (d : Device) (m : Message) (seq : UInt8) (scheme : Scheme) (block : SecurityBlock) :
    Except Error Frame × Device :=
  match d.session with
  | none => (.error .noSession, d)
  | some s =>
    let sealed := if Secure.BlockType.encrypted block.type then s.sealPayload m.data false
      else .ok m.data
    match sealed with
    | .error e => (.error (.secure e), d)
    | .ok payload =>
      let data := payload ++ List.replicate macTagSize 0
      match Message.encodeSecure { code := m.code, isReply := true, data := data }
          d.address seq scheme block with
      | .error e => (.error (.encode e), d)
      | .ok f =>
        let body := f.appendBody []
        match s.authenticate (body.take (body.length - macTagSize)) false with
        | .error e => (.error (.secure e), d)
        | .ok (tag, s) =>
          (.ok ({ f with data := payload ++ tag }).sealCheck, { d with session := some s })

/-- GOLINE: internal/pd/cache.go:113-129 -/
def encode (d : Device) (m : Message) (seq : UInt8) (scheme : Scheme)
    (block : Option SecurityBlock) : Except Error Frame × Device :=
  match block with
  | none =>
    match m.encode d.address seq scheme with
    | .error e => (.error (.encode e), d)
    | .ok f => (.ok f, d)
  | some block =>
    if Secure.BlockType.handshake block.type then
      match m.encodeSecure d.address seq scheme block with
      | .error e => (.error (.encode e), d)
      | .ok f => (.ok f.sealCheck, d)
    else d.sealReply m seq scheme block

/-- The address an `osdp_COMSET` asked for takes effect with the reply built. -/
def adoptAddress (d : Device) : Device :=
  match d.adopting with
  | none => d
  | some a => { d with address := a, adopting := none }

/-- Encode a message as this device's reply, cache it and return it.
GOLINE: internal/pd/cache.go:58-101 -/
def emit (d : Device) (command : Frame) (seq : UInt8) (m : Message)
    (block : Option SecurityBlock) : Except Error Frame × Device :=
  match d.encode { m with isReply := true } seq command.control.scheme block with
  | (.error e, d) => (.error e, { d with adopting := none, adoptingKey := none })
  | (.ok reply, d) =>
    let d := if seq = 0 then { d with cachedValid := false }
      else { d with cached := reply, cachedSeq := seq, cachedValid := true }
    (.ok reply, d.adoptAddress.adoptKey)

/-- GOLINE: internal/pd/cache.go:145-148 -/
def restart (d : Device) : Device :=
  { d with
    cached := { isReply := false, address := 0, control := ⟨0⟩, code := 0, data := [] }
    cachedSeq := 0
    cachedValid := false }.dropSession

/-! ## One command -/

/-- GOLINE: internal/pd/handle.go:146-148 -/
def addressed (d : Device) (a : Address) : Bool :=
  a == d.address || (d.cfg.configAddr && a == broadcastAddress)

/-- GOLINE: internal/pd/handle.go:161-166 -/
def observe (d : Device) (now : ℤ) : Device :=
  let d := if d.seen ∧ d.cfg.timeout > 0 ∧ now - d.lastSeen > d.cfg.timeout then d.restart else d
  { d with seen := true, lastSeen := now }

end Device

/-- GOLINE: internal/pd/handle.go:135-143 -/
def screen (f : Frame) : Except Error Unit :=
  if f.isReply then .error .notCommand
  else if ¬ f.checkOK then .error .corrupt
  else .ok ()

namespace Device

/-- The part of `Handle` after the screens: the sequence number decides between a restart,
a replay and an answer.
GOLINE: internal/pd/handle.go:96-123 -/
def exchange (d : Device) (rndB : Rnd) (command : Frame) : Except Error Frame × Device :=
  let seq := command.control.sequence
  if seq = 0 then
    let (m, block, d) := d.restart.answerFor command seq rndB
    d.emit command seq m block
  else if d.cachedValid ∧ seq = d.cachedSeq then (.ok d.cached, d)
  else
    let (m, block, d) := d.answerFor command seq rndB
    d.emit command seq m block

/-- Answer one command.
GOLINE: internal/pd/handle.go:78-124 -/
def handle (d : Device) (now : ℤ) (rndB : Rnd) (command : Frame) : Except Error Frame × Device :=
  match screen command with
  | .error e => (.error e, d)
  | .ok _ =>
    if ¬ d.addressed command.address then (.error .notAddressed, d)
    else (d.observe now).exchange rndB command

end Device

end Osdp.Pd
