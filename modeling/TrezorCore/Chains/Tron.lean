import TrezorCore.Chains.Ethereum

/-!
# Tron

`chains/tron.rs`: addresses, and the structured signing exchange. The network-built
`raw_data` is taken apart into a header and one contract; the contract goes out in a second
message that names no session id.
-/

namespace TrezorCore.Tron

open Ethereum (Secp256k1Signature)

variable (K : Crates)

def TRON_GET_ADDRESS : UInt16 := 2200
def TRON_ADDRESS : UInt16 := 2201
def TRON_SIGN_TX : UInt16 := 2202
def TRON_SIGNATURE : UInt16 := 2203
def TRON_CONTRACT_REQUEST : UInt16 := 2204
def TRON_TRANSFER_CONTRACT : UInt16 := 2205
def TRON_TRIGGER_SMART_CONTRACT : UInt16 := 2206

/-- `m/44'/195'/account'/0/0`. -/
def accountPath (account : UInt32) : List UInt32 :=
  [0x80000000 ||| 44, 0x80000000 ||| 195, 0x80000000 ||| account, 0, 0]

def getAddress (sessionId : UInt8) (path : List UInt32) : Chat String := do
  let reply ← Chat.transceiveOn sessionId TRON_GET_ADDRESS (K.tronGetAddress.encode ⟨path, some false⟩)
  let msg ← Pairing.expect reply TRON_ADDRESS "TronAddress" K.tronAddress
  if msg.address.isEmpty then .fail (.thp "TronAddress carried an empty address")
  else pure msg.address

/-- `TronRawContractType`. -/
inductive TronRawContractType where
  | transferContract
  | voteWitnessContract
  | triggerSmartContract
  | freezeBalanceV2Contract
  | unfreezeBalanceV2Contract
  | withdrawExpireUnfreezeContract
  deriving DecidableEq

def TronRawContractType.ofInt (n : Int) : Option TronRawContractType :=
  if n = 1 then some .transferContract
  else if n = 4 then some .voteWitnessContract
  else if n = 31 then some .triggerSmartContract
  else if n = 54 then some .freezeBalanceV2Contract
  else if n = 55 then some .unfreezeBalanceV2Contract
  else if n = 56 then some .withdrawExpireUnfreezeContract
  else none

def TronRawContractType.name : TronRawContractType → String
  | .transferContract => "TransferContract"
  | .voteWitnessContract => "VoteWitnessContract"
  | .triggerSmartContract => "TriggerSmartContract"
  | .freezeBalanceV2Contract => "FreezeBalanceV2Contract"
  | .unfreezeBalanceV2Contract => "UnfreezeBalanceV2Contract"
  | .withdrawExpireUnfreezeContract => "WithdrawExpireUnfreezeContract"

/-- The `Debug` text of `TronRawContractType::try_from`. -/
def debugContractType (n : Int) : String :=
  match TronRawContractType.ofInt n with
  | some t => s!"Ok({t.name})"
  | none => s!"Err(UnknownEnumValue({n}))"

/-- The contract message that the device asks for, re-encoded from the raw parameter. -/
def contractMessage (contract : TronRawContract) : Except TrezorError (UInt16 × Bytes) :=
  match TronRawContractType.ofInt contract.type with
  | some .transferContract => do
    let c ← Pairing.decode K.tronTransferContract "TronTransferContract decode" contract.parameter.value
    .ok (TRON_TRANSFER_CONTRACT, K.tronTransferContract.encode c)
  | some .triggerSmartContract => do
    let c ← Pairing.decode K.tronTriggerSmartContract "TronTriggerSmartContract decode" contract.parameter.value
    .ok (TRON_TRIGGER_SMART_CONTRACT, K.tronTriggerSmartContract.encode c)
  | _ =>
    .error (.thp (s!"unsupported Tron contract {debugContractType contract.type}; only TRX transfer and TRC-20 " ++
      "(TriggerSmartContract) are supported"))

def signTx (sessionId : UInt8) (path : List UInt32) (rawTxProto : Bytes) : Chat Secp256k1Signature := do
  let raw ← .ofExcept (Pairing.decode K.tronRawTransaction "Tron raw_data decode" rawTxProto)
  match raw.contract with
  | [] => .fail (.thp "Tron transaction has no contract")
  | contract :: _ =>
    let signTx : TronSignTx :=
      { addressN := path, refBlockBytes := raw.refBlockBytes, refBlockHash := raw.refBlockHash,
        expiration := raw.expiration, data := raw.data, timestamp := raw.timestamp, feeLimit := raw.feeLimit }
    let (contractType, contractBody) ← .ofExcept (contractMessage K contract)
    let (rt, _) ← Chat.transceiveOn sessionId TRON_SIGN_TX (K.tronSignTx.encode signTx)
    .ofExcept (Pairing.expectType rt TRON_CONTRACT_REQUEST "TronContractRequest")
    let reply ← Chat.transceive contractType contractBody
    let msg ← Pairing.expect reply TRON_SIGNATURE "TronSignature" K.tronSignature
    let sig := msg.signature
    if sig.length ≠ 65 then .fail (.thp s!"Tron signature was {sig.length} bytes, expected 65 (r||s||v)")
    else pure ⟨sig.getLastD 0, sig.take 32, (sig.drop 32).take 32⟩

end TrezorCore.Tron
