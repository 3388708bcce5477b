import TrezorCore.Transport

/-!
# THP transport framing

`thp/framing.rs`: control bytes, CRC-32-IEEE, and the segmentation and reassembly of a
transport payload across an initiation packet and its continuation packets. The layer
treats the control byte opaquely except for the continuation bit.
-/

namespace TrezorCore.Framing

def BLE_PACKET_SIZE : Nat := 244

/-- Initiation-packet header: control(1) + cid(2) + length(2). -/
def INIT_HEADER : Nat := 5
/-- Continuation-packet header: control(1) + cid(2). -/
def CONT_HEADER : Nat := 3
/-- CRC-32 trailer length. -/
def CRC_LEN : Nat := 4
def CONTINUATION_CONTROL : UInt8 := 0x80
def CONTINUATION_MASK : UInt8 := 0x80
/-- Broadcast channel id, used for channel allocation. -/
def BROADCAST_CID : UInt16 := 0xFFFF

namespace Control

def CHANNEL_ALLOCATION_REQUEST : UInt8 := 0x40
def CHANNEL_ALLOCATION_RESPONSE : UInt8 := 0x41
def TRANSPORT_ERROR : UInt8 := 0x42
def PING : UInt8 := 0x43
def ACK : UInt8 := 0x20
def HANDSHAKE_INIT_REQUEST : UInt8 := 0x00
def HANDSHAKE_INIT_RESPONSE : UInt8 := 0x01
def HANDSHAKE_COMPLETION_REQUEST : UInt8 := 0x02
def HANDSHAKE_COMPLETION_RESPONSE : UInt8 := 0x03
def ENCRYPTED_TRANSPORT : UInt8 := 0x04
/-- ABP sequence bit of a data message. -/
def SEQ_BIT : UInt8 := 0x10
/-- In an `ack` control byte it carries the acked seq. -/
def ACK_BIT : UInt8 := 0x08
/-- Mask for matching an `ack` control byte. -/
def ACK_MASK : UInt8 := 0xF7

/-- Apply the ABP sequence bit to a data control byte. -/
def withSeq (base seq : UInt8) : UInt8 :=
  if seq ≠ 0 then base ||| SEQ_BIT else base &&& ~~~SEQ_BIT

/-- Read the ABP sequence bit from a data control byte. -/
def seqOf (ctrl : UInt8) : UInt8 := (ctrl &&& SEQ_BIT) >>> 4

/-- Is this an ACK control byte? -/
def isAck (ctrl : UInt8) : Bool := ctrl &&& ACK_MASK == ACK

/-- The acked sequence bit carried in an ACK control byte. -/
def ackSeqOf (ctrl : UInt8) : UInt8 := (ctrl &&& ACK_BIT) >>> 3

/-- The ACK control byte acknowledging `seq`. -/
def ackFor (seq : UInt8) : UInt8 := if seq ≠ 0 then ACK ||| ACK_BIT else ACK

end Control

/-- The high bit of a control byte marks a continuation packet. -/
def isContinuation (ctrl : UInt8) : Bool := ctrl &&& CONTINUATION_MASK == CONTINUATION_MASK

/-- One bit of the reflected CRC: `mask` is all ones when the low bit is set. -/
def crcBit (crc : UInt32) : UInt32 :=
  let mask := 0 - (crc &&& 1)
  (crc >>> 1) ^^^ (0xEDB88320 &&& mask)

def crcBits : Nat → UInt32 → UInt32
  | 0, crc => crc
  | n + 1, crc => crcBits n (crcBit crc)

def crcByte (crc : UInt32) (byte : UInt8) : UInt32 := crcBits 8 (crc ^^^ byte.toUInt32)

/-- CRC-32-IEEE. -/
def crc32Ieee (data : Bytes) : UInt32 := ~~~(data.foldl crcByte 0xFFFFFFFF)

/-- The initiation header, which the CRC covers together with the payload. -/
def initHeader (ctrl : UInt8) (cid : UInt16) (length : Nat) : Bytes :=
  ctrl :: Bytes.toBe 2 cid.toNat ++ Bytes.toBe 2 length

def contHeader (cid : UInt16) : Bytes := CONTINUATION_CONTROL :: Bytes.toBe 2 cid.toNat

/-- The `while cursor < payload_with_crc.len()` loop: one continuation packet a turn. -/
def contPackets (packetSize : Nat) (cid : UInt16) : Nat → Bytes → List Bytes
  | 0, _ => []
  | _, [] => []
  | fuel + 1, rest =>
    let take := min (packetSize - CONT_HEADER) rest.length
    Bytes.resize packetSize (contHeader cid ++ rest.take take) ::
      contPackets packetSize cid fuel (rest.drop take)

/-- Segment a transport payload into wire packets of `packetSize` bytes. -/
def segment (packetSize : Nat) (cid : UInt16) (ctrl : UInt8) (payload : Bytes) :
    Except TrezorError (List Bytes) :=
  if packetSize ≤ INIT_HEADER then
    .error (.thp "packet size too small for a THP header")
  else
    let length := payload.length + CRC_LEN
    if 65535 < length then
      .error (.thp "transport payload exceeds the 16-bit length field")
    else
      let crc := crc32Ieee (initHeader ctrl cid length ++ payload)
      let payloadWithCrc := payload ++ Bytes.toBe 4 crc.toNat
      let take := min (packetSize - INIT_HEADER) payloadWithCrc.length
      let first := Bytes.resize packetSize (initHeader ctrl cid length ++ payloadWithCrc.take take)
      -- every turn consumes at least one byte, so the payload's length is enough turns
      .ok (first :: contPackets packetSize cid payloadWithCrc.length (payloadWithCrc.drop take))

/-- Reassembles a transport payload from incoming wire packets. -/
structure Reassembler where
  active : Bool := false
  controlByte : UInt8 := 0
  cid : UInt16 := 0
  expectedLen : Nat := 0
  buf : Bytes := []
  deriving Repr, DecidableEq

namespace Reassembler

/-- `&bytes[lo..hi]`, which panics out of range. -/
def slice (bytes : Bytes) (lo hi : Nat) : Comp Reassembler TrezorError Bytes :=
  if lo ≤ hi ∧ hi ≤ bytes.length then pure ((bytes.drop lo).take (hi - lo)) else .panic

/-- `a - b` on `usize`, which panics below zero. -/
def checkedSub (a b : Nat) : Comp Reassembler TrezorError Nat :=
  if b ≤ a then pure (a - b) else .panic

/-- Split off the CRC trailer and check it against the header and the payload. -/
def finish (payloadWithCrc : Bytes) : Comp Reassembler TrezorError Bytes := do
  let r ← .get
  let split ← checkedSub r.expectedLen CRC_LEN
  let payload ← slice payloadWithCrc 0 split
  let trailer ← slice payloadWithCrc split (split + CRC_LEN)
  if (crc32Ieee (initHeader r.controlByte r.cid (r.expectedLen % 65536) ++ payload)).toNat
      ≠ Bytes.beNat trailer then
    .fail (.thp "THP transport payload CRC mismatch")
  else
    pure payload

/-- A continuation packet while a payload is in progress. -/
def pushContinuation (packet : Bytes) : Comp Reassembler TrezorError Unit := do
  if packet.length ≤ CONT_HEADER then
    .fail (.thp "continuation packet shorter than its header")
  else
    let r ← .get
    let remaining ← checkedSub r.expectedLen r.buf.length
    let avail ← checkedSub packet.length CONT_HEADER
    let take := min remaining avail
    let part ← slice packet CONT_HEADER (CONT_HEADER + take)
    .modify fun r => { r with buf := r.buf ++ part }

/-- An initiation packet (re)starts reassembly. -/
def pushInitiation (controlByte : UInt8) (packet : Bytes) : Comp Reassembler TrezorError Unit := do
  if packet.length < INIT_HEADER then
    .fail (.thp "initiation packet shorter than its header")
  else
    let cid ← slice packet 1 3
    let length ← slice packet 3 5
    let length := Bytes.beNat length
    if length < CRC_LEN then
      .fail (.thp "THP length field smaller than the CRC trailer")
    else
      let avail ← checkedSub packet.length INIT_HEADER
      let take := min length avail
      let part ← slice packet INIT_HEADER (INIT_HEADER + take)
      .modify fun _ =>
        { active := true, controlByte, cid := UInt16.ofNat (Bytes.beNat cid), expectedLen := length,
          buf := part }

/-- The payload is complete once the declared length has arrived. -/
def complete : Comp Reassembler TrezorError (Option Bytes) := do
  let r ← .get
  if r.expectedLen ≤ r.buf.length then
    .modify fun r => { r with active := false, buf := [] }
    let payload ← finish r.buf
    pure (some payload)
  else
    pure none

/-- Feed one wire packet: `some` payload once a full, CRC-valid one has been reassembled. -/
def pushPacket : Bytes → Comp Reassembler TrezorError (Option Bytes)
  | [] => .fail (.thp "empty THP packet")
  | controlByte :: rest => do
    if isContinuation controlByte then
      let r ← .get
      if r.active then
        pushContinuation (controlByte :: rest)
        complete
      else
        -- No payload in progress: drop it.
        pure none
    else
      pushInitiation controlByte (controlByte :: rest)
      complete

end Reassembler

end TrezorCore.Framing
