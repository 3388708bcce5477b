import TrezorCore.Lib.Bytes

/-!
# Protobuf messages

The trezor-common messages the crate builds and reads, with the fields it sets or looks
at; the remaining fields are always at their defaults. The Rust types and their codecs
are generated by prost at build time, so a codec is a parameter: a function into bytes
and a partial function back, whose error is prost's text.
-/

namespace TrezorCore

/-- A prost message type: `encode_to_vec` and `decode`. -/
structure Codec (M : Type) where
  encode : M → Bytes
  decode : Bytes → Except String M

/-! ## Common and management -/

structure ButtonAck where

structure Failure where
  code : Option Int := none
  message : Option String := none

structure GetFeatures where

structure Features where
  deviceId : Option String := none
  model : Option String := none
  majorVersion : UInt32 := 0
  minorVersion : UInt32 := 0
  patchVersion : UInt32 := 0
  initialized : Option Bool := none

/-! ## THP -/

structure ThpDeviceProperties where
  internalModel : String := ""
  protocolVersionMajor : UInt32 := 0
  protocolVersionMinor : UInt32 := 0
  pairingMethods : List Int := []

structure ThpHandshakeCompletionReqNoisePayload where
  hostPairingCredential : Option Bytes := none

structure ThpCreateNewSession where
  passphrase : Option String := none
  onDevice : Option Bool := none
  deriveCardano : Option Bool := none

structure ThpPairingRequest where
  hostName : String
  appName : String

structure ThpSelectMethod where
  selectedPairingMethod : Int

structure ThpCodeEntryCommitment where
  commitment : Bytes

structure ThpCodeEntryChallenge where
  challenge : Bytes

structure ThpCodeEntryCpaceTrezor where
  cpaceTrezorPublicKey : Bytes

structure ThpCodeEntryCpaceHostTag where
  cpaceHostPublicKey : Bytes
  tag : Bytes

structure ThpCodeEntrySecret where
  secret : Bytes

structure ThpCredentialRequest where
  hostStaticPublicKey : Bytes

structure ThpCredentialResponse where
  trezorStaticPublicKey : Bytes
  credential : Bytes

/-! ## Ethereum -/

structure EthereumGetAddress where
  addressN : List UInt32
  showDisplay : Option Bool

structure EthereumAddress where
  address : Option String := none

structure EthereumGetPublicKey where
  addressN : List UInt32
  showDisplay : Option Bool

/-- Only `node.public_key` is read. -/
structure EthereumPublicKey where
  nodePublicKey : Bytes

structure EthereumSignMessage where
  addressN : List UInt32
  message : Bytes

structure EthereumMessageSignature where
  signature : Bytes

/-- `recipient` is the field `to`; `access_list` is always empty. -/
structure EthereumSignTxEip1559 where
  addressN : List UInt32
  nonce : Bytes
  maxGasFee : Bytes
  maxPriorityFee : Bytes
  gasLimit : Bytes
  recipient : Option String
  value : Bytes
  dataInitialChunk : Option Bytes
  dataLength : UInt32
  chainId : UInt64

structure EthereumTxRequest where
  signatureV : Option UInt32 := none
  signatureR : Option Bytes := none
  signatureS : Option Bytes := none

/-! ## Bitcoin -/

inductive InputScriptType where
  | spendaddress
  | spendwitness
  | spendp2shwitness

inductive OutputScriptType where
  | paytoaddress
  | paytowitness
  | paytop2shwitness

structure BtcGetPublicKey where
  addressN : List UInt32
  showDisplay : Option Bool
  coinName : Option String
  scriptType : Option InputScriptType
  ignoreXpubMagic : Option Bool

structure BtcPublicKey where
  xpub : String
  rootFingerprint : Option UInt32 := none

structure BtcSignMessage where
  addressN : List UInt32
  message : Bytes
  coinName : Option String
  scriptType : Option InputScriptType

structure BtcMessageSignature where
  address : String
  signature : Bytes

structure SignTx where
  outputsCount : UInt32
  inputsCount : UInt32
  coinName : Option String
  version : Option UInt32
  lockTime : Option UInt32
  serialize : Option Bool

structure TxRequestDetails where
  requestIndex : Option UInt32 := none
  txHash : Option Bytes := none

structure TxRequestSerialized where
  signatureIndex : Option UInt32 := none
  signature : Option Bytes := none

/-- `request_type` is the raw enumeration number. -/
structure TxRequest where
  requestType : Option Int := none
  details : Option TxRequestDetails := none
  serialized : Option TxRequestSerialized := none

structure TxAckInput where
  addressN : List UInt32
  prevHash : Bytes
  prevIndex : UInt32
  sequence : Option UInt32
  scriptType : Option InputScriptType
  amount : UInt64

structure TxAckOutput where
  address : Option String := none
  addressN : List UInt32 := []
  amount : UInt64
  scriptType : Option OutputScriptType

structure TxAckPrevMeta where
  version : UInt32
  lockTime : UInt32
  inputsCount : UInt32
  outputsCount : UInt32

structure TxAckPrevInput where
  prevHash : Bytes
  prevIndex : UInt32
  scriptSig : Bytes
  sequence : UInt32

structure TxAckPrevOutput where
  amount : UInt64
  scriptPubkey : Bytes

/-! ## Solana -/

structure SolanaGetAddress where
  addressN : List UInt32
  showDisplay : Option Bool

structure SolanaAddress where
  address : String

structure SolanaSignTx where
  addressN : List UInt32
  serializedTx : Bytes

structure SolanaTxSignature where
  signature : Bytes

structure SolanaSignMessage where
  addressN : List UInt32
  message : Bytes

structure SolanaMessageSignature where
  signature : Bytes

/-! ## Tron -/

structure TronGetAddress where
  addressN : List UInt32
  showDisplay : Option Bool

structure TronAddress where
  address : String

structure TronRawParameter where
  typeUrl : String
  value : Bytes

/-- `type` is the raw enumeration number. -/
structure TronRawContract where
  type : Int
  parameter : TronRawParameter

structure TronRawTransaction where
  refBlockBytes : Bytes
  refBlockHash : Bytes
  expiration : UInt64
  data : Option Bytes := none
  contract : List TronRawContract := []
  timestamp : UInt64
  feeLimit : Option UInt64 := none

structure TronSignTx where
  addressN : List UInt32
  refBlockBytes : Bytes
  refBlockHash : Bytes
  expiration : UInt64
  data : Option Bytes
  timestamp : UInt64
  feeLimit : Option UInt64

structure TronTransferContract where
  ownerAddress : Bytes
  toAddress : Bytes
  amount : UInt64

structure TronTriggerSmartContract where
  ownerAddress : Bytes
  contractAddress : Bytes
  data : Bytes

structure TronSignature where
  signature : Bytes

/-- The generated codecs, one for each message. -/
structure Prost where
  buttonAck : Codec ButtonAck
  failure : Codec Failure
  getFeatures : Codec GetFeatures
  features : Codec Features
  deviceProperties : Codec ThpDeviceProperties
  completionPayload : Codec ThpHandshakeCompletionReqNoisePayload
  createNewSession : Codec ThpCreateNewSession
  pairingRequest : Codec ThpPairingRequest
  selectMethod : Codec ThpSelectMethod
  codeEntryCommitment : Codec ThpCodeEntryCommitment
  codeEntryChallenge : Codec ThpCodeEntryChallenge
  codeEntryCpaceTrezor : Codec ThpCodeEntryCpaceTrezor
  codeEntryCpaceHostTag : Codec ThpCodeEntryCpaceHostTag
  codeEntrySecret : Codec ThpCodeEntrySecret
  credentialRequest : Codec ThpCredentialRequest
  credentialResponse : Codec ThpCredentialResponse
  ethereumGetAddress : Codec EthereumGetAddress
  ethereumAddress : Codec EthereumAddress
  ethereumGetPublicKey : Codec EthereumGetPublicKey
  ethereumPublicKey : Codec EthereumPublicKey
  ethereumSignMessage : Codec EthereumSignMessage
  ethereumMessageSignature : Codec EthereumMessageSignature
  ethereumSignTxEip1559 : Codec EthereumSignTxEip1559
  ethereumTxRequest : Codec EthereumTxRequest
  btcGetPublicKey : Codec BtcGetPublicKey
  btcPublicKey : Codec BtcPublicKey
  btcSignMessage : Codec BtcSignMessage
  btcMessageSignature : Codec BtcMessageSignature
  signTx : Codec SignTx
  txRequest : Codec TxRequest
  txAckInput : Codec TxAckInput
  txAckOutput : Codec TxAckOutput
  txAckPrevMeta : Codec TxAckPrevMeta
  txAckPrevInput : Codec TxAckPrevInput
  txAckPrevOutput : Codec TxAckPrevOutput
  solanaGetAddress : Codec SolanaGetAddress
  solanaAddress : Codec SolanaAddress
  solanaSignTx : Codec SolanaSignTx
  solanaTxSignature : Codec SolanaTxSignature
  solanaSignMessage : Codec SolanaSignMessage
  solanaMessageSignature : Codec SolanaMessageSignature
  tronGetAddress : Codec TronGetAddress
  tronAddress : Codec TronAddress
  tronRawTransaction : Codec TronRawTransaction
  tronSignTx : Codec TronSignTx
  tronTransferContract : Codec TronTransferContract
  tronTriggerSmartContract : Codec TronTriggerSmartContract
  tronSignature : Codec TronSignature

end TrezorCore
