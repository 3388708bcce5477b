import TrezorCore.Thp.Framing
import TrezorCore.Thp.Session

/-!
# The connection driver

`thp/channel.rs` and `thp/connection.rs`: channel allocation, framed I/O, the Alternating
Bit Protocol, the handshake over it, and whole application messages. Every method runs on
a `Connection` that it borrows mutably, so each field keeps whatever value it had when the
method returned, failed or was dropped.
-/

namespace TrezorCore

open Framing Noise

variable (K : Crates)

/-! ## Channel allocation messages -/

namespace Channel

def ALLOCATION_NONCE_LEN : Nat := 8

structure ChannelAllocation where
  cid : UInt16
  devicePropertiesRaw : Bytes
  deviceProperties : ThpDeviceProperties

/-- The request payload is the nonce. -/
def buildAllocationRequest (nonce : Octets 8) : Bytes := nonce.1

/-- Parse an allocation response, checking the echoed nonce. -/
def parseAllocationResponse (sentNonce : Octets 8) (payload : Bytes) :
    Except TrezorError ChannelAllocation :=
  if payload.length < ALLOCATION_NONCE_LEN + 2 then
    .error (.thp "channel allocation response too short")
  else if payload.take ALLOCATION_NONCE_LEN ≠ sentNonce.1 then
    .error (.thp "channel allocation nonce mismatch")
  else
    let cid := UInt16.ofNat (Bytes.beNat ((payload.drop ALLOCATION_NONCE_LEN).take 2))
    let raw := payload.drop (ALLOCATION_NONCE_LEN + 2)
    match K.deviceProperties.decode raw with
    | .ok properties => .ok ⟨cid, raw, properties⟩
    | .error e => .error (.thp s!"device properties decode failed: {e}")

end Channel

def MSG_SUCCESS : UInt16 := 2
def MSG_FAILURE : UInt16 := 3
def MSG_BUTTON_REQUEST : UInt16 := 26
def MSG_BUTTON_ACK : UInt16 := 27
def MSG_CREATE_NEW_SESSION : UInt16 := 1000

def MANAGEMENT_SESSION_ID : UInt8 := 0
def SEEDED_SESSION_ID : UInt8 := 1
def CONTINUATION_BIT : UInt8 := 0x80

/-- Decode a `transport_error` payload, a single error-code byte. -/
def decodeTransportError (payload : Bytes) : TrezorError :=
  let code := payload.head?.getD 0
  if code = 1 then .transportBusy
  else
    let detail :=
      if code = 2 then
        "the channel is unallocated — the device released it; reconnect to allocate a new one"
      else if code = 3 then
        "decryption failed (bad authentication tag); the channel must be re-established"
      else if code = 5 then
        "the device is locked — unlock your Trezor (enter your PIN on the device) and retry"
      else "unrecognized THP transport error"
    .thp s!"THP transport error {code}: {detail}"

/-- Decode a protobuf `Failure`; `ActionCancelled` is the user's cancel. -/
def decodeFailure (proto : Bytes) : TrezorError :=
  match K.failure.decode proto with
  | .ok f =>
    let code := f.code.getD 0
    let reason := f.message.getD ""
    if code = 4 then .userCanceled else .deviceRejected code reason
  | .error _ => .thp "device returned an undecodable Failure"

/-- The pair `ThpCreateNewSession` selects a wallet with. -/
abbrev WalletKey := Option String × Bool

structure Connection where
  /-- Ghost: which of the run's connections this is. -/
  id : Nat
  packetSize : Nat
  cid : UInt16
  sendSeq : UInt8
  recvSeq : UInt8
  session : Option Session
  activeSessionId : UInt8
  seededWith : Option WalletKey
  pendingData : Option (UInt8 × Bytes)
  deriving DecidableEq

namespace Connection

/-- The fields `Connection::new` sets. -/
def initial (id packetSize : Nat) : Connection where
  id
  packetSize
  cid := BROADCAST_CID
  sendSeq := 0
  recvSeq := 0
  session := none
  activeSessionId := MANAGEMENT_SESSION_ID
  seededWith := none
  pendingData := none

def new {γ : Type} (packetSize : Nat) : Io γ Connection := ⟨fun h =>
  (.ok (initial h.wire.connections packetSize),
    { h with wire := { h.wire with connections := h.wire.connections + 1 } })⟩

def seededKey (c : Connection) : Option WalletKey := c.seededWith

def setSession (session : Session) : Io Connection Unit :=
  Io.modifyOwn fun c => { c with session := some session }

/-! ## Framed I/O -/

def writePackets : List Bytes → Io Connection Unit
  | [] => pure ()
  | packet :: rest => do
    Io.writeChunk packet
    writePackets rest

def writeFramed (ctrl : UInt8) (payload : Bytes) : Io Connection Unit := do
  let c ← Io.own
  let packets ← .ofExcept (segment c.packetSize c.cid ctrl payload)
  Io.note (.frameOut ⟨c.cid, ctrl, payload⟩)
  writePackets packets

/-- What `read_framed` does with a chunk; `ctrl` is the control byte seen last. -/
def absorbChunk (reasm : Reassembler) (ctrl : UInt8) :
    Bytes → Io Connection ((Reassembler × UInt8) ⊕ (UInt8 × Bytes))
  | [] => pure (.inl (reasm, ctrl))
  | first :: rest => do
    let ctrl := if first &&& CONTINUATION_BIT = 0 then first else ctrl
    let (done, reasm) ← Comp.runLocal (Reassembler.pushPacket (first :: rest)) reasm
    match done with
    | none => pure (.inl (reasm, ctrl))
    | some payload =>
      Io.note (.frameIn ctrl payload)
      if ctrl = Control.TRANSPORT_ERROR then .fail (decodeTransportError payload)
      else pure (.inr (ctrl, payload))

/-- One turn of `read_framed`: a chunk goes into the reassembler. -/
def readFramedTurn (b : Reassembler × UInt8) : Io Connection ((Reassembler × UInt8) ⊕ (UInt8 × Bytes)) := do
  let chunk ← Io.readChunk
  absorbChunk b.1 b.2 chunk

/-- Read packets until a full transport payload reassembles. -/
def readFramed : Io Connection (UInt8 × Bytes) := Io.loop readFramedTurn ({}, 0)

/-! ## Alternating Bit Protocol -/

def sendAck (ackedSeq : UInt8) : Io Connection Unit := writeFramed (Control.ackFor ackedSeq) []

/-- The waiting loop of `send_data` and `recv_data`: every frame read is handed to `step`. -/
def awaitFrame {α : Type} (step : UInt8 → Bytes → Io Connection (Unit ⊕ α)) : Io Connection α :=
  Io.loop (fun _ => do
    let (ctrl, payload) ← readFramed
    step ctrl payload) ()

/-- A frame inside `send_data`: an ACK, or a data frame taken for one. -/
def sendDataStep (rctrl : UInt8) (rpayload : Bytes) : Io Connection (Unit ⊕ Unit) := do
  let c ← Io.own
  if Control.isAck rctrl then
    if Control.ackSeqOf rctrl = c.sendSeq then
      Io.modifyOwn fun c => { c with sendSeq := c.sendSeq ^^^ 1 }
      pure (.inr ())
    else
      -- stale or duplicate ACK
      pure (.inl ())
  else
    Io.modifyOwn fun c => { c with sendSeq := c.sendSeq ^^^ 1 }
    let seq := Control.seqOf rctrl
    Io.note (.implicitAck (seq = c.recvSeq))
    sendAck seq
    if seq = c.recvSeq then
      Io.modifyOwn fun c => { c with recvSeq := c.recvSeq ^^^ 1, pendingData := some (rctrl, rpayload) }
      pure (.inr ())
    else
      pure (.inr ())

/-- Send a data message and block until its ACK arrives. -/
def sendData (baseCtrl : UInt8) (payload : Bytes) : Io Connection Unit := do
  let c ← Io.own
  Io.note (.sendBegins c.pendingData.isSome)
  let ctrl := Control.withSeq baseCtrl c.sendSeq
  writeFramed ctrl payload
  awaitFrame sendDataStep
  Io.note (.sent ctrl payload)

/-- A frame inside `recv_data`. -/
def recvDataStep (ctrl : UInt8) (payload : Bytes) : Io Connection (Unit ⊕ (UInt8 × Bytes)) := do
  if Control.isAck ctrl then
    -- stray ACK; not a data message
    pure (.inl ())
  else
    let seq := Control.seqOf ctrl
    sendAck seq
    let c ← Io.own
    if seq = c.recvSeq then
      Io.modifyOwn fun c => { c with recvSeq := c.recvSeq ^^^ 1 }
      pure (.inr (ctrl, payload))
    else
      -- duplicate of a processed message: re-ACKed above, keep waiting
      pure (.inl ())

/-- Receive the next data message, ACK it, and skip ABP duplicates. -/
def recvData : Io Connection (UInt8 × Bytes) := do
  let c ← Io.own
  match c.pendingData with
  | some frame =>
    Io.modifyOwn fun c => { c with pendingData := none }
    Io.note (.delivered frame.1 frame.2)
    pure frame
  | none =>
    let frame ← awaitFrame recvDataStep
    Io.note (.delivered frame.1 frame.2)
    pure frame

/-! ## High-level flow -/

def MAX_ALLOC_READS : Nat := 8

/-- `for _ in 0..MAX_ALLOC_READS`, waiting for the response with our nonce. -/
def awaitAllocation (nonce : Octets 8) : Nat → Io Connection Channel.ChannelAllocation
  | 0 => .fail (.thp "no matching channel allocation response received")
  | reads + 1 => do
    let (ctrl, payload) ← readFramed
    if ctrl = Control.CHANNEL_ALLOCATION_RESPONSE then
      match Channel.parseAllocationResponse K nonce payload with
      | .ok allocation =>
        Io.modifyOwn fun c =>
          { c with cid := allocation.cid, sendSeq := 0, recvSeq := 0, pendingData := none }
        pure allocation
      | .error _ => awaitAllocation nonce reads
    else
      awaitAllocation nonce reads

/-- Allocate a channel over the broadcast CID (no ABP). -/
def allocate : Io Connection Channel.ChannelAllocation := do
  let nonce ← Io.getrandom 8
  Io.modifyOwn fun c => { c with cid := BROADCAST_CID }
  writeFramed Control.CHANNEL_ALLOCATION_REQUEST (Channel.buildAllocationRequest nonce)
  awaitAllocation K nonce MAX_ALLOC_READS

/-- Run the handshake on the allocated channel. -/
def handshake (devicePropertiesRaw : Bytes) (hostStaticPriv : Octets 32) (credential : Option Bytes) :
    Io Connection SessionKeys := do
  let hs ← HostHandshake.new K devicePropertiesRaw 0 hostStaticPriv credential
  sendData Control.HANDSHAKE_INIT_REQUEST hs.initRequestPayload
  let (_, initResp) ← recvData
  let (completion, hs) ← Io.runOwned (HostHandshake.readInitResponse K initResp) hs
  sendData Control.HANDSHAKE_COMPLETION_REQUEST completion
  let (_, compResp) ← recvData
  let (keys, _) ← Io.runOwned (HostHandshake.readCompletionResponse K compResp) hs
  pure keys

/-- `self.session.as_mut().ok_or_else(..)?`, then a call on it. -/
def onSession {α : Type} (x : Io Session α) : Io Connection α := ⟨fun h =>
  match h.own.session with
  | none => (.err (.thp "no encrypted session established"), h)
  | some session =>
    let r := x.run ⟨session, h.wire⟩
    (r.1, ⟨{ h.own with session := some r.2.own }, r.2.wire⟩)⟩

/-- Seal and send one application message over the session. -/
def sendApp (messageType : UInt16) (protobuf : Bytes) : Io Connection Unit := do
  let c ← Io.own
  let message : AppMessage := ⟨c.activeSessionId, messageType, protobuf⟩
  let ct ← onSession do
    Io.note (.appOut c.id message)
    Session.sealPayload K (encodeAppMessage message)
  sendData Control.ENCRYPTED_TRANSPORT ct

/-- Open a ciphertext with the session and decode it. -/
def openApp (ct : Bytes) : Io Connection AppMessage := do
  let c ← Io.own
  onSession do
    let session ← Io.own
    let pt ← Session.openPayload K ct
    let message ← .ofExcept (decodeAppMessage pt)
    Io.note (.appIn c.id session.nonceRecv message)
    pure message

/-- Receive and open one application message. -/
def recvApp : Io Connection (UInt16 × Bytes) := do
  let (_, ct) ← recvData
  let message ← openApp K ct
  pure (message.type, message.body)

/-- One turn of `transceive`: ACK a `ButtonRequest`, surface a `Failure`, return the rest. -/
def transceiveTurn : Unit → Io Connection (Unit ⊕ (UInt16 × Bytes)) := fun _ => do
  let (rt, rp) ← recvApp K
  if rt = MSG_BUTTON_REQUEST then
    sendApp K MSG_BUTTON_ACK (K.buttonAck.encode {})
    pure (.inl ())
  else if rt = MSG_FAILURE then .fail (decodeFailure K rp)
  else pure (.inr (rt, rp))

/-- Send an application message and return the device's reply. -/
def transceive (messageType : UInt16) (protobuf : Bytes) : Io Connection (UInt16 × Bytes) := do
  sendApp K messageType protobuf
  let reply ← Io.loop (transceiveTurn K) ()
  let c ← Io.own
  Io.note (.exchanged c.id reply.1 reply.2)
  pure reply

/-- `transceive` on a specific session id. -/
def transceiveOn (sessionId : UInt8) (messageType : UInt16) (protobuf : Bytes) :
    Io Connection (UInt16 × Bytes) := do
  Io.modifyOwn fun c => { c with activeSessionId := sessionId }
  transceive K messageType protobuf

/-- Create a seeded session and switch subsequent messages onto it. -/
def createSeededSession (passphrase : Option String) (onDevice : Bool) : Io Connection Unit := do
  Io.modifyOwn fun c => { c with activeSessionId := SEEDED_SESSION_ID }
  let (rt, _) ← transceive K MSG_CREATE_NEW_SESSION
    (K.createNewSession.encode ⟨passphrase, some onDevice, some false⟩)
  if rt ≠ MSG_SUCCESS then
    .fail (.thp s!"expected Success after ThpCreateNewSession, got message type {rt}")
  else
    Io.modifyOwn fun c => { c with seededWith := some (passphrase, onDevice) }

end Connection

end TrezorCore
