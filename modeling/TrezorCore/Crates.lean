import TrezorCore.Proto
import Mathlib.Data.Vector.Basic

/-!
# Third-party crates

The code the crate calls and does not contain: the RustCrypto primitives, x25519-dalek,
the generated protobuf codecs and the parts of rust-bitcoin that work on a PSBT. They are
one parameter of the model. What a result needs of them is a hypothesis of that result,
and the `Lawful` structures here are the hypotheses several results share.
-/

namespace TrezorCore

/-- sha2, hmac, aes-gcm and x25519-dalek. -/
structure Crypto where
  sha256 : Bytes → Octets 32
  sha512 : Bytes → Octets 64
  hmacSha256 : (key message : Bytes) → Octets 32
  /-- `StaticSecret::diffie_hellman`, on the clamped scalar. -/
  x25519 : (scalar point : Octets 32) → Octets 32
  /-- `PublicKey::from(&StaticSecret)`. -/
  publicKey : Octets 32 → Octets 32
  /-- AES-256-GCM encryption, `ciphertext || tag`. -/
  aesGcmEncrypt : (key : Octets 32) → (iv : Octets 12) → (aad plaintext : Bytes) → Bytes
  /-- AES-256-GCM decryption; `none` when authentication fails. -/
  aesGcmDecrypt : (key : Octets 32) → (iv : Octets 12) → (aad ciphertext : Bytes) → Option Bytes

/-! ## rust-bitcoin -/

structure OutPoint where
  txid : Octets 32
  vout : UInt32

structure TxIn where
  previousOutput : OutPoint
  scriptSig : Bytes
  sequence : UInt32
  witness : List Bytes

structure TxOut where
  value : UInt64
  scriptPubkey : Bytes

/-- `version` is the `i32` of the transaction. -/
structure Transaction where
  version : Int32
  lockTime : UInt32
  input : List TxIn
  output : List TxOut

/-- A `bip32_derivation` entry: public key, master fingerprint and path, in `BTreeMap` order. -/
structure KeyOrigin where
  pubkey : Octets 33
  fingerprint : Octets 4
  path : List UInt32

/-- `bitcoin::PublicKey`, which orders by its two fields. -/
structure BitcoinPublicKey where
  compressed : Bool
  inner : Octets 33
  deriving DecidableEq

/-- An `ecdsa::Signature`; `sighashAll` is `EcdsaSighashType::All`. -/
structure EcdsaSignature where
  signature : Bytes
  sighashAll : Bool

/-- `rest` stands for the fields that nothing reads and that are only carried along, here and
in the other maps of a PSBT. -/
structure PsbtInput where
  witnessUtxo : Option TxOut
  nonWitnessUtxo : Option Transaction
  bip32Derivation : List KeyOrigin
  /-- A `BTreeMap`, in its order. -/
  partialSigs : List (BitcoinPublicKey × EcdsaSignature)
  rest : Bytes

structure PsbtOutput where
  bip32Derivation : List KeyOrigin
  rest : Bytes

structure Psbt where
  unsignedTx : Transaction
  inputs : List PsbtInput
  outputs : List PsbtOutput
  rest : Bytes

inductive Network where
  | bitcoin
  | testnet

structure BitcoinCrate where
  /-- `Psbt::from_str`, with the crate's error text. -/
  psbtFromStr : String → Except String Psbt
  psbtToString : Psbt → String
  /-- `Transaction::compute_txid`, in internal byte order. -/
  computeTxid : Transaction → Octets 32
  /-- `Address::from_script` and `to_string`. -/
  addressFromScript : Bytes → Network → Except String String
  /-- `secp256k1::ecdsa::Signature::from_der`. -/
  signatureFromDer : Bytes → Except String Bytes

/-- All of it. -/
structure Crates extends Crypto, Prost, BitcoinCrate

/-- AES-GCM opens what it sealed under the same key, IV and AAD, and adds a 16-byte tag. -/
structure Crypto.AeadLaws (C : Crypto) : Prop where
  decrypt_encrypt : ∀ key iv aad plaintext,
    C.aesGcmDecrypt key iv aad (C.aesGcmEncrypt key iv aad plaintext) = some plaintext
  length_encrypt : ∀ key iv aad plaintext,
    (C.aesGcmEncrypt key iv aad plaintext).length = plaintext.length + 16

/-- Scalar multiplication commutes, and a public key is a multiple of the base point. -/
structure Crypto.X25519Laws (C : Crypto) (base : Octets 32) : Prop where
  comm : ∀ a b p, C.x25519 a (C.x25519 b p) = C.x25519 b (C.x25519 a p)
  publicKey_eq : ∀ a, C.publicKey a = C.x25519 a base

/-! ## A small instance

The laws ask for nothing impossible: bytewise exclusive or has the laws of scalar
multiplication, and a plaintext followed by the IV and a piece of the key has those of the
AEAD, wrong keys and IVs included. -/

/-- Bytewise exclusive or. -/
def xorOctets {n : Nat} (a b : Octets n) : Octets n := List.Vector.map₂ (· ^^^ ·) a b

def toyTag (key : Octets 32) (iv : Octets 12) : Bytes := iv.1 ++ key.1.take 4

def toyHash (n : Nat) (bs : Bytes) : Octets n := ⟨Bytes.toBe n (Bytes.beNat bs), Bytes.length_toBe n _⟩

def Crypto.toy : Crypto where
  sha256 := toyHash 32
  sha512 := toyHash 64
  hmacSha256 key message := toyHash 32 (Bytes.toBe 32 (Bytes.beNat key * 3 + Bytes.beNat message + 1))
  x25519 := xorOctets
  publicKey a := a
  aesGcmEncrypt key iv _ plaintext := plaintext ++ toyTag key iv
  aesGcmDecrypt key iv _ ciphertext :=
    let n := ciphertext.length - 16
    if ciphertext.drop n = toyTag key iv then some (ciphertext.take n) else none

theorem length_toyTag (key : Octets 32) (iv : Octets 12) : (toyTag key iv).length = 16 := by
  simp [toyTag, iv.2, key.2]

theorem Crypto.toy_aead : Crypto.toy.AeadLaws where
  decrypt_encrypt key iv aad plaintext := by simp [Crypto.toy, length_toyTag]
  length_encrypt key iv aad plaintext := by simp [Crypto.toy, length_toyTag]

theorem Crypto.toy_x25519 : Crypto.toy.X25519Laws (List.Vector.replicate 32 0) where
  comm a b p := by
    refine List.Vector.ext fun i => ?_
    simp only [Crypto.toy, xorOctets, List.Vector.get_map₂]
    rw [← UInt8.xor_assoc, UInt8.xor_comm (a.get i), UInt8.xor_assoc]
  publicKey_eq a := by
    refine List.Vector.ext fun i => ?_
    simp only [Crypto.toy, xorOctets]
    rw [List.Vector.get_map₂, List.Vector.get_replicate, UInt8.xor_zero]

/-- A codec that knows no message. -/
def Codec.mute {M : Type} : Codec M := ⟨fun _ => [], fun _ => .error "unknown message"⟩

/-- An optional byte string behind a presence byte. -/
def Codec.optional {M : Type} (field : M → Option Bytes) (make : Option Bytes → M) : Codec M where
  encode m := match field m with
    | none => []
    | some bytes => 1 :: bytes
  decode
    | [] => .ok (make none)
    | 1 :: bytes => .ok (make (some bytes))
    | _ => .error "bad presence byte"

/-- A protobuf field below 128 bytes: tag, length and bytes, or tag and a one-byte number. -/
def encodeField (f : UInt8 × Bytes) : Bytes :=
  f.1 :: if f.1 &&& 7 = 2 then UInt8.ofNat f.2.length :: f.2 else f.2

/-- The fields of a message; every turn takes at least the tag. -/
def decodeFields : Nat → Bytes → Option (List (UInt8 × Bytes))
  | _, [] => some []
  | n + 1, tag :: v :: rest =>
    if tag &&& 7 = 2 then
      if v.toNat ≤ rest.length then
        (decodeFields n (rest.drop v.toNat)).map ((tag, rest.take v.toNat) :: ·)
      else none
    else (decodeFields n rest).map ((tag, [v]) :: ·)
  | _, _ => none

/-- The protobuf wire format of a small message. -/
def Codec.small {M : Type} (fields : M → List (UInt8 × Bytes)) (make : List (UInt8 × Bytes) → Option M) : Codec M where
  encode m := (fields m).flatMap encodeField
  decode bytes :=
    match (decodeFields bytes.length bytes).bind make with
    | some m => .ok m
    | none => .error "failed to decode Protobuf message"

/-- A message of one required `bytes` field. -/
def Codec.bytes {M : Type} (field : M → Bytes) (make : Bytes → M) : Codec M :=
  .small (fun m => [(0x0a, field m)]) fun
    | [(0x0a, b)] => some (make b)
    | _ => none

/-- A field that is short enough comes back. -/
theorem Codec.bytes_reads {M : Type} {field : M → Bytes} {make : Bytes → M} {b : Bytes} (short : b.length < 128) (same : field (make b) = b) :
    (Codec.bytes field make).decode ((Codec.bytes field make).encode (make b)) = .ok (make b) := by
  have encoded : (Codec.bytes field make).encode (make b) = 0x0a :: UInt8.ofNat b.length :: b := by
    simp [Codec.bytes, Codec.small, encodeField, same, show (10 : UInt8) &&& 7 = 2 by decide]
  have length : (UInt8.ofNat b.length).toNat = b.length := by
    rw [UInt8.toNat_ofNat', Nat.mod_eq_of_lt (by omega)]
  have fields : decodeFields (b.length + 2) (0x0a :: UInt8.ofNat b.length :: b) = some [(0x0a, b)] := by
    rw [decodeFields, if_pos (by decide), length, if_pos (Nat.le_refl _), List.drop_length, List.take_length]
    simp [decodeFields]
  rw [encoded, Codec.bytes]
  simp only [Codec.small, List.length_cons, fields]
  rfl

theorem Codec.length_bytes {M : Type} {field : M → Bytes} {make : Bytes → M} (m : M) :
    ((Codec.bytes field make).encode m).length = (field m).length + 2 := by
  simp [Codec.bytes, Codec.small, encodeField, show (10 : UInt8) &&& 7 = 2 by decide]

/-- A message of two required `bytes` fields. -/
def Codec.twoBytes {M : Type} (first second : M → Bytes) (make : Bytes → Bytes → M) : Codec M :=
  .small (fun m => [(0x0a, first m), (0x12, second m)]) fun
    | [(0x0a, a), (0x12, b)] => some (make a b)
    | _ => none

theorem Codec.length_twoBytes {M : Type} {first second : M → Bytes} {make : Bytes → Bytes → M} (m : M) :
    ((Codec.twoBytes first second make).encode m).length = (first m).length + (second m).length + 4 := by
  simp [Codec.twoBytes, Codec.small, encodeField, show (10 : UInt8) &&& 7 = 2 by decide, show (18 : UInt8) &&& 7 = 2 by decide]
  omega

def asciiBytes (s : String) : Bytes := s.toList.map fun c => UInt8.ofNat c.toNat

def asciiString (bs : Bytes) : String := String.ofList (bs.map fun b => Char.ofNat b.toNat)

/-- A protobuf varint of at most `k` bytes. -/
def varint : Nat → Nat → Bytes
  | 0, _ => []
  | k + 1, n => if n < 128 then [UInt8.ofNat n] else UInt8.ofNat (n % 128 + 128) :: varint k (n / 128)

def Prost.toy : Prost where
  buttonAck := .mute
  failure := .mute
  getFeatures := .mute
  features := .mute
  deviceProperties := .mute
  completionPayload := .optional (·.hostPairingCredential) (⟨·⟩)
  createNewSession := .mute
  pairingRequest := .mute
  selectMethod := .mute
  codeEntryCommitment := .bytes (·.commitment) (⟨·⟩)
  codeEntryChallenge := .bytes (·.challenge) (⟨·⟩)
  codeEntryCpaceTrezor := .bytes (·.cpaceTrezorPublicKey) (⟨·⟩)
  codeEntryCpaceHostTag := .twoBytes (·.cpaceHostPublicKey) (·.tag) (⟨·, ·⟩)
  codeEntrySecret := .bytes (·.secret) (⟨·⟩)
  credentialRequest := .bytes (·.hostStaticPublicKey) (⟨·⟩)
  credentialResponse := .twoBytes (·.trezorStaticPublicKey) (·.credential) (⟨·, ·⟩)
  ethereumGetAddress := .mute
  ethereumAddress := .mute
  ethereumGetPublicKey := .mute
  ethereumPublicKey := .mute
  ethereumSignMessage := .mute
  ethereumMessageSignature := .mute
  ethereumSignTxEip1559 := .mute
  ethereumTxRequest := .mute
  btcGetPublicKey := .mute
  btcPublicKey := .mute
  btcSignMessage := .mute
  btcMessageSignature := .mute
  signTx := .mute
  txRequest := .mute
  txAckInput := .mute
  txAckOutput := .mute
  txAckPrevMeta := .mute
  txAckPrevInput := .mute
  txAckPrevOutput := .mute
  solanaGetAddress := .mute
  solanaAddress := .mute
  solanaSignTx := .mute
  solanaTxSignature := .mute
  solanaSignMessage := .mute
  solanaMessageSignature := .mute
  tronGetAddress := .mute
  tronAddress := .mute
  tronRawTransaction := .mute
  tronSignTx := .mute
  tronTransferContract := .mute
  tronTriggerSmartContract := .mute
  tronSignature := .mute

def BitcoinCrate.toy : BitcoinCrate where
  psbtFromStr _ := .error "not a PSBT"
  psbtToString _ := ""
  computeTxid _ := toyHash 32 []
  addressFromScript _ _ := .error "no address"
  signatureFromDer _ := .error "not DER"

def Crates.toy : Crates where
  toCrypto := .toy
  toProst := .toy
  toBitcoinCrate := .toy

end TrezorCore
