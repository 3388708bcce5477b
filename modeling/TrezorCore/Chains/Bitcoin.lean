import TrezorCore.Lib.OrderedMap
import TrezorCore.Thp.Pairing

/-!
# Bitcoin

`chains/bitcoin.rs`: account keys, message signatures, and the `SignTx` exchange, in which
the device asks for the pieces of the transaction and of the transactions it spends, in any
order, and hands back signatures on the way.
-/

namespace TrezorCore.Bitcoin

open OrderedMap (btreeInsert)

variable (K : Crates)

def BTC_GET_PUBLIC_KEY : UInt16 := 11
def BTC_PUBLIC_KEY : UInt16 := 12
def BTC_SIGN_TX : UInt16 := 15
def BTC_TX_REQUEST : UInt16 := 21
def BTC_TX_ACK : UInt16 := 22
def BTC_SIGN_MESSAGE : UInt16 := 38
def BTC_MESSAGE_SIGNATURE : UInt16 := 40

/-- `m/84'/coin'/account'`. -/
def accountPath (account coinType : UInt32) : List UInt32 :=
  [0x80000000 ||| 84, 0x80000000 ||| coinType, 0x80000000 ||| account]

def coinName (coinType : UInt32) : String := if coinType = 1 then "Testnet" else "Bitcoin"

/-- The script type of a path's purpose. -/
def scriptTypeForPath (addressN : List UInt32) : InputScriptType :=
  match addressN.head?.map fun purpose => purpose &&& (0x7fffffff : UInt32) with
  | some 44 => .spendaddress
  | some 49 => .spendp2shwitness
  | _ => .spendwitness

structure BitcoinMessageSignature where
  address : String
  signature : Bytes
  deriving DecidableEq

def signMessage (sessionId : UInt8) (addressN : List UInt32) (message : Bytes) (coinType : UInt32) :
    Chat BitcoinMessageSignature := do
  let reply ← Chat.transceiveOn sessionId BTC_SIGN_MESSAGE (K.btcSignMessage.encode
    ⟨addressN, message, some (coinName coinType), some (scriptTypeForPath addressN)⟩)
  let ms ← Pairing.expect reply BTC_MESSAGE_SIGNATURE "MessageSignature" K.btcMessageSignature
  pure ⟨ms.address, ms.signature⟩

def getAccountXpub (sessionId : UInt8) (addressN : List UInt32) (coinType : UInt32) : Chat String := do
  let reply ← Chat.transceiveOn sessionId BTC_GET_PUBLIC_KEY (K.btcGetPublicKey.encode
    ⟨addressN, some false, some (coinName coinType), some (scriptTypeForPath addressN), some true⟩)
  let pk ← Pairing.expect reply BTC_PUBLIC_KEY "PublicKey" K.btcPublicKey
  if pk.xpub.isEmpty then .fail (.thp "PublicKey carried an empty xpub") else pure pk.xpub

def getMasterFingerprint (sessionId : UInt8) : Chat Bytes := do
  let reply ← Chat.transceiveOn sessionId BTC_GET_PUBLIC_KEY (K.btcGetPublicKey.encode
    ⟨accountPath 0 0, some false, some "Bitcoin", some .spendwitness, some true⟩)
  let pk ← Pairing.expect reply BTC_PUBLIC_KEY "PublicKey" K.btcPublicKey
  match pk.rootFingerprint with
  | some fp => pure (Bytes.toBe 4 fp.toNat)
  | none => .fail (.thp "PublicKey missing root_fingerprint")

/-! ## Pieces of a transaction -/

/-- A hash in display order. -/
def displayOrder (hash : Octets 32) : Bytes := hash.1.reverse

/-- `Option::ok_or_else`. -/
def orThp {α : Type} (o : Option α) (reason : String) : Except TrezorError α :=
  match o with
  | some a => .ok a
  | none => .error (.thp reason)

/-- The amount of an input, from the witness UTXO or from the full previous transaction. -/
def inputAmount (i : Nat) (txin : TxIn) (pin : PsbtInput) : Except TrezorError UInt64 :=
  match pin.witnessUtxo, pin.nonWitnessUtxo with
  | some utxo, _ => .ok utxo.value
  | none, some prev => do
    let txout ← orThp prev.output[txin.previousOutput.vout.toNat]? s!"PSBT input {i} prev output out of range"
    .ok txout.value
  | none, none => .error (.thp s!"PSBT input {i} has neither witness_utxo nor non_witness_utxo")

def buildInputAck (psbt : Psbt) (i : Nat) : Except TrezorError TxAckInput := do
  let txin ← orThp psbt.unsignedTx.input[i]? s!"TxRequest input index {i} out of range"
  let pin ← orThp psbt.inputs[i]? s!"PSBT input {i} missing"
  let amount ← inputAmount i txin pin
  let origin ← orThp pin.bip32Derivation.head? s!"PSBT input {i} missing bip32_derivation"
  .ok ⟨origin.path, displayOrder txin.previousOutput.txid, txin.previousOutput.vout, some txin.sequence,
    some (scriptTypeForPath origin.path), amount⟩

/-- The script type of a change output. -/
def changeScriptType (addressN : List UInt32) : OutputScriptType :=
  match scriptTypeForPath addressN with
  | .spendp2shwitness => .paytop2shwitness
  | .spendaddress => .paytoaddress
  | .spendwitness => .paytowitness

def buildOutputAck (psbt : Psbt) (i : Nat) (network : Network) : Except TrezorError TxAckOutput := do
  let txout ← orThp psbt.unsignedTx.output[i]? s!"TxRequest output index {i} out of range"
  -- an output with a derivation is change: the device derives it itself
  match psbt.outputs[i]?.bind (·.bip32Derivation.head?) with
  | some origin =>
    .ok { addressN := origin.path, amount := txout.value, scriptType := some (changeScriptType origin.path) }
  | none =>
    match K.addressFromScript txout.scriptPubkey network with
    | .ok address => .ok { address := some address, amount := txout.value, scriptType := some .paytoaddress }
    | .error e => .error (.thp s!"output {i} address from script: {e}")

/-- The previous transaction with this hash, among those the PSBT carries. -/
def findPrevTx (psbt : Psbt) (txHash : Bytes) : Except TrezorError Transaction :=
  orThp ((psbt.inputs.filterMap (·.nonWitnessUtxo)).find? fun prev => displayOrder (K.computeTxid prev) == txHash)
    ("Trezor asked for a previous transaction the PSBT doesn't carry; " ++
      "re-sync the wallet (it must include full previous transactions)")

def buildPrevMetaAck (psbt : Psbt) (txHash : Bytes) : Except TrezorError TxAckPrevMeta := do
  let prev ← findPrevTx K psbt txHash
  .ok ⟨prev.version.toUInt32, prev.lockTime, UInt32.ofNat prev.input.length, UInt32.ofNat prev.output.length⟩

def buildPrevInputAck (psbt : Psbt) (txHash : Bytes) (i : Nat) : Except TrezorError TxAckPrevInput := do
  let prev ← findPrevTx K psbt txHash
  let txin ← orThp prev.input[i]? s!"prev tx input index {i} out of range"
  .ok ⟨displayOrder txin.previousOutput.txid, txin.previousOutput.vout, txin.scriptSig, txin.sequence⟩

def buildPrevOutputAck (psbt : Psbt) (txHash : Bytes) (i : Nat) : Except TrezorError TxAckPrevOutput := do
  let prev ← findPrevTx K psbt txHash
  let txout ← orThp prev.output[i]? s!"prev tx output index {i} out of range"
  .ok ⟨txout.value, txout.scriptPubkey⟩

/-! ## The request loop -/

/-- `TxRequest.RequestType`. -/
inductive RequestType where
  | txinput
  | txoutput
  | txmeta
  | txfinished
  | txextradata
  | txoriginput
  | txorigoutput
  | txpaymentreq
  deriving DecidableEq

def RequestType.all : List (RequestType × String) :=
  [(.txinput, "Txinput"), (.txoutput, "Txoutput"), (.txmeta, "Txmeta"), (.txfinished, "Txfinished"),
   (.txextradata, "Txextradata"), (.txoriginput, "Txoriginput"), (.txorigoutput, "Txorigoutput"),
   (.txpaymentreq, "Txpaymentreq")]

/-- `RequestType::try_from`, the variants being numbered from 0, with its `Debug` text. -/
def RequestType.ofInt (n : Int) : Option RequestType × String :=
  match n with
  | .ofNat k =>
    match RequestType.all[k]? with
    | some (t, name) => (some t, s!"Ok({name})")
    | none => (none, s!"Err(UnknownEnumValue({n}))")
  | .negSucc _ => (none, s!"Err(UnknownEnumValue({n}))")

/-- Input index to DER signature. -/
abbrev Signatures := List (UInt32 × Bytes)

/-- The signature a request carries, if any. -/
def collectSignature (req : TxRequest) (sigs : Signatures) : Signatures :=
  match req.serialized with
  | some ⟨some idx, some sig⟩ => btreeInsert (fun a b => decide (a < b)) idx sig sigs
  | _ => sigs

/-- The bytes of the `TxAck` that answers a request, or `none` when the device is done. -/
def answer (psbt : Psbt) (network : Network) (req : TxRequest) : Except TrezorError (Option Bytes) :=
  let requestIndex := ((req.details.bind (·.requestIndex)).getD 0).toNat
  let txHash := req.details.bind (·.txHash)
  let rtype := req.requestType.getD 3
  match (RequestType.ofInt rtype).1, txHash with
  | some .txfinished, _ => .ok none
  | some .txinput, some h => (some ∘ K.txAckPrevInput.encode) <$> buildPrevInputAck K psbt h requestIndex
  | some .txinput, none => (some ∘ K.txAckInput.encode) <$> buildInputAck psbt requestIndex
  | some .txoutput, some h => (some ∘ K.txAckPrevOutput.encode) <$> buildPrevOutputAck K psbt h requestIndex
  | some .txoutput, none => (some ∘ K.txAckOutput.encode) <$> buildOutputAck K psbt requestIndex network
  | some .txmeta, some h => (some ∘ K.txAckPrevMeta.encode) <$> buildPrevMetaAck K psbt h
  | some .txmeta, none => .error (.thp "TXMETA request without a tx_hash")
  | _, _ =>
    .error (.thp (s!"Trezor requested unsupported tx item {(RequestType.ofInt rtype).2} (request_type {rtype}); " ++
      "RBF-origin / extra-data streaming is not supported"))

/-- One turn of the loop: a `TxRequest` comes in, a `TxAck` goes out. -/
def signPsbtTurn (psbt : Psbt) (network : Network) (s : Reply × Signatures) : Chat ((Reply × Signatures) ⊕ Signatures) := do
  let req ← Pairing.expect s.1 BTC_TX_REQUEST "TxRequest" K.txRequest
  let sigs := collectSignature req s.2
  match ← .ofExcept (answer K psbt network req) with
  | none => pure (.inr sigs)
  | some ack =>
    let next ← Chat.transceive BTC_TX_ACK ack
    pure (.inl (next, sigs))

/-! ## Merging the signatures -/

/-- The order of `bitcoin::PublicKey`. -/
def keyLess (a b : BitcoinPublicKey) : Bool :=
  if a.compressed = b.compressed then decide (Bytes.beNat a.inner.1 < Bytes.beNat b.inner.1)
  else !a.compressed && b.compressed

/-- One signature into the PSBT, under the key of its input's first derivation. -/
def mergeSignature (psbt : Psbt) (s : UInt32 × Bytes) : Except TrezorError Psbt := do
  let idx := s.1.toNat
  let input ← orThp psbt.inputs[idx]? s!"signature for unknown input {idx}"
  let origin ← orThp input.bip32Derivation.head? s!"input {idx} missing bip32_derivation"
  match K.signatureFromDer s.2 with
  | .error e => .error (.thp s!"device signature parse: {e}")
  | .ok sig =>
    let signed := { input with partialSigs := btreeInsert keyLess ⟨true, origin.pubkey⟩ ⟨sig, true⟩ input.partialSigs }
    .ok { psbt with inputs := psbt.inputs.set idx signed }

def signPsbt (sessionId : UInt8) (psbtBase64 : String) (coinType : UInt32) : Chat String := do
  let psbt ← match K.psbtFromStr psbtBase64 with
    | .ok psbt => pure psbt
    | .error e => .fail (.thp s!"PSBT parse: {e}")
  let network := if coinType = 1 then Network.testnet else Network.bitcoin
  let tx := psbt.unsignedTx
  let reply ← Chat.transceiveOn sessionId BTC_SIGN_TX (K.signTx.encode
    ⟨UInt32.ofNat tx.output.length, UInt32.ofNat tx.input.length, some (coinName coinType), some tx.version.toUInt32,
      some tx.lockTime, some true⟩)
  let sigs ← Script.forever (signPsbtTurn K psbt network) (reply, [])
  let psbt ← .ofExcept (sigs.foldlM (mergeSignature K) psbt)
  pure (K.psbtToString psbt)

end TrezorCore.Bitcoin
