import TrezorCore.Thp.Pairing

/-!
# Ethereum

`chains/ethereum.rs`: addresses, public keys, EIP-191 signatures and EIP-1559 transactions,
with the RLP reader that takes the unsigned envelope apart.
-/

namespace TrezorCore.Ethereum

variable (K : Crates)

def ETH_GET_ADDRESS : UInt16 := 56
def ETH_ADDRESS : UInt16 := 57
def ETH_GET_PUBLIC_KEY : UInt16 := 450
def ETH_PUBLIC_KEY : UInt16 := 451
def ETH_SIGN_MESSAGE : UInt16 := 64
def ETH_MESSAGE_SIGNATURE : UInt16 := 66
def ETH_SIGN_TX_EIP1559 : UInt16 := 452
def ETH_TX_REQUEST : UInt16 := 59

structure Secp256k1Signature where
  v : UInt8
  r : Bytes
  s : Bytes
  deriving DecidableEq

/-- `m/44'/60'/account'/0/0`. -/
def accountPath (account : UInt32) : List UInt32 := [0x8000002C, 0x8000003C, 0x80000000 ||| account, 0, 0]

def getAddress (sessionId : UInt8) (path : List UInt32) : Chat String := do
  let reply ← Chat.transceiveOn sessionId ETH_GET_ADDRESS (K.ethereumGetAddress.encode ⟨path, some false⟩)
  let msg ← Pairing.expect reply ETH_ADDRESS "EthereumAddress" K.ethereumAddress
  match msg.address with
  | some address => pure address
  | none => .fail (.thp "EthereumAddress missing address")

def getPublicKey (sessionId : UInt8) (path : List UInt32) : Chat Bytes := do
  let reply ← Chat.transceiveOn sessionId ETH_GET_PUBLIC_KEY (K.ethereumGetPublicKey.encode ⟨path, some false⟩)
  let msg ← Pairing.expect reply ETH_PUBLIC_KEY "EthereumPublicKey" K.ethereumPublicKey
  pure msg.nodePublicKey

/-- An EIP-191 signature, cut to its first `n` bytes. -/
def signMessageBytes (n : Nat) (sessionId : UInt8) (path : List UInt32) (message : Bytes) : Chat Bytes := do
  let reply ← Chat.transceiveOn sessionId ETH_SIGN_MESSAGE (K.ethereumSignMessage.encode ⟨path, message⟩)
  let msg ← Pairing.expect reply ETH_MESSAGE_SIGNATURE "EthereumMessageSignature" K.ethereumMessageSignature
  if msg.signature.length < n then .fail (.thp s!"Ethereum signature shorter than {n} bytes")
  else pure (msg.signature.take n)

/-- `R || S`, the recovery byte dropped. -/
def signMessage : UInt8 → List UInt32 → Bytes → Chat Bytes := signMessageBytes K 64

/-- `R || S || V`. -/
def signMessageFull : UInt8 → List UInt32 → Bytes → Chat Bytes := signMessageBytes K 65

/-! ## RLP -/

/-- `usize::checked_add`. -/
def checkedAdd (a b : Nat) : Option Nat := if a + b < 2 ^ 64 then some (a + b) else none

/-- An `n`-byte big-endian length prefix at `pos`, and the position after it. -/
def rlpReadLen (buf : Bytes) (pos n : Nat) : Except TrezorError (Nat × Nat) :=
  match checkedAdd pos n with
  | none => .error (.thp "RLP length-prefix overflow")
  | some stop =>
    if buf.length < stop then .error (.thp "RLP length-prefix exceeds buffer")
    else
      -- `len << 8` loses the bits above 64
      .ok (((buf.drop pos).take n).foldl (fun len x => len * 256 % 2 ^ 64 ||| x.toNat) 0, stop)

/-- The kind of an item, its length and where its payload starts, from its first byte. -/
def rlpHeader (buf : Bytes) (pos : Nat) (b : UInt8) : Except TrezorError (Bool × Nat × Nat) :=
  if b ≤ 0xb7 then .ok (false, b.toNat - 0x80, pos)
  else if b ≤ 0xbf then do
    let (len, pos) ← rlpReadLen buf pos (b.toNat - 0xb7)
    .ok (false, len, pos)
  else if b ≤ 0xf7 then .ok (true, b.toNat - 0xc0, pos)
  else do
    let (len, pos) ← rlpReadLen buf pos (b.toNat - 0xf7)
    .ok (true, len, pos)

/-- Read one item at `pos`: whether it is a list, its payload, and the position after it. -/
def rlpRead (buf : Bytes) (pos : Nat) : Except TrezorError (Bool × Bytes × Nat) :=
  match buf[pos]? with
  | none => .error (.thp "RLP truncated")
  | some b =>
    if b ≤ 0x7f then .ok (false, [b], pos + 1)
    else do
      let (isList, len, pos) ← rlpHeader buf (pos + 1) b
      match checkedAdd pos len with
      | none => .error (.thp "RLP length overflow")
      | some stop =>
        if buf.length < stop then .error (.thp "RLP item length exceeds buffer")
        else .ok (isList, (buf.drop pos).take len, stop)

/-- The `while` loop over a list's items; an item takes at least one byte. -/
def rlpItems (payload : Bytes) : Nat → Nat → Except TrezorError (List Bytes)
  | 0, _ => .ok []
  | fuel + 1, pos =>
    if pos < payload.length then do
      let (_, item, pos) ← rlpRead payload pos
      let items ← rlpItems payload fuel pos
      .ok (item :: items)
    else .ok []

/-- The payloads of a list's items. -/
def rlpDecodeList (buf : Bytes) : Except TrezorError (List Bytes) := do
  let (isList, payload, _) ← rlpRead buf 0
  if isList then rlpItems payload payload.length 0
  else .error (.thp "EIP-1559 envelope body is not an RLP list")

def beToU64 (bytes : Bytes) : UInt64 := bytes.foldl (fun v b => (v <<< 8) ||| UInt64.ofNat b.toNat) 0

/-! ## EIP-1559 -/

structure Eip1559Tx where
  chainId : UInt64
  nonce : Bytes
  maxPriorityFee : Bytes
  maxFee : Bytes
  gasLimit : Bytes
  recipient : Bytes
  value : Bytes
  data : Bytes

/-- The fields of an unsigned envelope; what follows the eighth is ignored. -/
def decodeEip1559Envelope (envelope : Bytes) : Except TrezorError Eip1559Tx :=
  match envelope with
  | 0x02 :: body => do
    let items ← rlpDecodeList body
    match items with
    | chainId :: nonce :: maxPriorityFee :: maxFee :: gasLimit :: recipient :: value :: data :: _ =>
      .ok ⟨beToU64 chainId, nonce, maxPriorityFee, maxFee, gasLimit, recipient, value, data⟩
    | _ => .error (.thp s!"EIP-1559 payload has {items.length} items, expected at least 8")
  | _ => .error (.thp "not an EIP-1559 (0x02-typed) envelope")

def hexDigit (n : Nat) : Char := if n < 10 then Char.ofNat (48 + n) else Char.ofNat (87 + n)

def hexLower (bytes : Bytes) : String :=
  String.ofList (bytes.flatMap fun b => [hexDigit (b.toNat / 16), hexDigit (b.toNat % 16)])

/-- The parity bit, with the legacy offset of 27 taken off; `as u8` keeps the low byte. -/
def parityBit (rawV : UInt32) : UInt8 := if 27 ≤ rawV then (rawV - 27).toUInt8 else rawV.toUInt8

def signEip1559 (sessionId : UInt8) (path : List UInt32) (envelope : Bytes) : Chat Secp256k1Signature := do
  let tx ← .ofExcept (decodeEip1559Envelope envelope)
  let recipient := if tx.recipient.isEmpty then "" else "0x" ++ hexLower tx.recipient
  let msg : EthereumSignTxEip1559 :=
    { addressN := path, nonce := tx.nonce, maxGasFee := tx.maxFee, maxPriorityFee := tx.maxPriorityFee,
      gasLimit := tx.gasLimit, recipient := some recipient, value := tx.value, dataInitialChunk := some tx.data,
      dataLength := UInt32.ofNat tx.data.length, chainId := tx.chainId }
  let reply ← Chat.transceiveOn sessionId ETH_SIGN_TX_EIP1559 (K.ethereumSignTxEip1559.encode msg)
  let req ← Pairing.expect reply ETH_TX_REQUEST "EthereumTxRequest" K.ethereumTxRequest
  match req.signatureR, req.signatureS with
  | some r, some s => pure ⟨parityBit (req.signatureV.getD 0), r, s⟩
  | _, _ => .fail (.thp "EthereumTxRequest carried no signature (device asked for more data?)")

end TrezorCore.Ethereum
