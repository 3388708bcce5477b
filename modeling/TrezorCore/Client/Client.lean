import TrezorCore.Bip32
import TrezorCore.Chains.Bitcoin
import TrezorCore.Chains.Solana
import TrezorCore.Chains.Tron

/-!
# The client

`client.rs`: the pinned slot and the operations that use it. A call runs on the slot, which
it borrows mutably for its whole duration, and on the wire. An error that a call returns
empties the slot; a call that is abandoned leaves in it whatever was there.
-/

namespace TrezorCore

open Connection

variable (K : Crates)

/-- Which wallet a call works on. -/
inductive PassphraseSpec where
  | standard
  | onDevice
  | host (passphrase : String)
  deriving DecidableEq

/-- The pair that selects the wallet. -/
def PassphraseSpec.walletKey : PassphraseSpec → WalletKey
  | .standard => (none, false)
  | .onDevice => (none, true)
  | .host passphrase => (some passphrase, false)

namespace Client

def toArray32 (v : Bytes) : Except TrezorError (Octets 32) :=
  match Bytes.asOctets 32 v with
  | some octets => .ok octets
  | none => .error (.thp "expected a 32-byte host static key")

def resolvePath (path : Option String) (fallback : List UInt32) : Except TrezorError (List UInt32) :=
  match path with
  | some p => Bip32.parsePath p
  | none => .ok fallback

/-- The steps of `open_paired_connection` on a new connection. -/
def pairedSteps (hostStaticPriv : Octets 32) (credential : Bytes) : Io Connection Unit := do
  let allocation ← allocate K
  let keys ← handshake K allocation.devicePropertiesRaw hostStaticPriv (some credential)
  if keys.trezorState.head? = some 0x00 then
    .fail (.pairing "stored credential was rejected; re-pair the Trezor")
  else do
    setSession (Session.fromHandshake keys)
    Pairing.endRequest K

/-- Reconnect to a paired device with its stored credential. -/
def openPairedConnection {γ : Type} (hostStaticPriv : Octets 32) (credential : Bytes) : Io γ Connection := do
  let conn ← Connection.new Framing.BLE_PACKET_SIZE
  let (_, conn) ← Io.runOwned (pairedSteps K hostStaticPriv credential) conn
  pure conn

abbrev Slot := Option Connection

/-- Make the slot hold a connection seeded with the wallet of `passphrase`. -/
def ensureConn (hostStaticPriv credential : Bytes) (passphrase : PassphraseSpec) : Io Slot Unit := do
  let key := passphrase.walletKey
  let slot ← Io.own
  if slot.any fun conn => conn.seededKey ≠ some key then Io.modifyOwn fun _ => none
  let slot ← Io.own
  if slot.isNone then do
    let hsp ← .ofExcept (toArray32 hostStaticPriv)
    let conn ← openPairedConnection K hsp credential
    let (_, conn) ← Io.runOwned (createSeededSession K key.1 key.2) conn
    Io.modifyOwn fun _ => some conn

/-- Run `x`; an error empties the slot. -/
def clearing {α : Type} (x : Io Slot α) : Io Slot α := x.onErr fun h => { h with own := none }

/-- The shape of the operations: ensure a connection, run on it, clear the slot on an error. -/
def pinned {α : Type} (hostStaticPriv credential : Bytes) (passphrase : PassphraseSpec) (op : Io Connection α) :
    Io Slot α := do
  clearing (ensureConn K hostStaticPriv credential passphrase)
  clearing (Io.inSlot op)

/-- The same with a derivation path, which is resolved before any I/O. -/
def pinnedAt {α : Type} (hostStaticPriv credential : Bytes) (passphrase : PassphraseSpec) (path : Option String)
    (fallback : List UInt32) (op : List UInt32 → Chat α) : Io Slot α := do
  let addressN ← .ofExcept (resolvePath path fallback)
  pinned K hostStaticPriv credential passphrase ((op addressN).on K)

/-! ## Before there is a pinned connection

These two make a connection of their own and never look at the slot. -/

structure ThpProbeResult where
  internalModel : String
  protocolVersionMajor : UInt32
  protocolVersionMinor : UInt32
  pairingMethods : List Int
  trezorState : Bytes

def probeSteps : Io Connection ThpProbeResult := do
  let allocation ← allocate K
  let hostStatic ← Io.getrandom 32
  let keys ← handshake K allocation.devicePropertiesRaw hostStatic none
  let props := allocation.deviceProperties
  pure ⟨props.internalModel, props.protocolVersionMajor, props.protocolVersionMinor, props.pairingMethods, keys.trezorState⟩

/-- Read-only bring-up: a channel and a handshake. -/
def thpProbe {γ : Type} : Io γ ThpProbeResult := do
  let conn ← Connection.new Framing.BLE_PACKET_SIZE
  let (result, _) ← Io.runOwned (probeSteps K) conn
  pure result

structure PairedSession where
  deviceId : String
  model : String
  firmwareVersion : String
  initialized : Bool
  credential : Bytes

def establishSteps (hostStatic : Octets 32) (hostName appName : String) (storedCredential : Option Bytes)
    (codeProvider : Option String) : Io Connection PairedSession := do
  let allocation ← allocate K
  let keys ← handshake K allocation.devicePropertiesRaw hostStatic storedCredential
  let alreadyPaired := storedCredential.isSome && keys.trezorState.head? != some 0x00
  setSession (Session.fromHandshake keys)
  let credential ←
    if alreadyPaired then pure (storedCredential.getD [])
    else Pairing.runCodeentryPairing K keys.handshakeHash keys.hostStaticPubkey hostName appName codeProvider
  Pairing.endRequest K
  let features ← (Pairing.getFeatures K).on K
  pure ⟨features.deviceId.getD "", features.model.getD "",
    s!"{features.majorVersion}.{features.minorVersion}.{features.patchVersion}", features.initialized.getD false, credential⟩

/-- A channel, a handshake and, without a stored credential that holds, CodeEntry pairing. -/
def establishPairedSession {γ : Type} (hostStaticPriv : Bytes) (hostName appName : String) (storedCredential : Option Bytes)
    (codeProvider : Option String) : Io γ PairedSession := do
  let hostStatic ← .ofExcept (toArray32 hostStaticPriv)
  let conn ← Connection.new Framing.BLE_PACKET_SIZE
  let (session, _) ← Io.runOwned (establishSteps K hostStatic hostName appName storedCredential codeProvider) conn
  pure session

/-! ## The operations -/

/-- A missing `device_id` is an error that leaves the slot as it is. -/
def identifyPaired (hostStaticPriv credential : Bytes) : Io Slot String := do
  clearing (ensureConn K hostStaticPriv credential .standard)
  let features ← clearing (Io.inSlot ((Pairing.getFeatures K).on K))
  match features.deviceId with
  | some deviceId => pure deviceId
  | none => .fail (.thp "device returned no device_id")

def getAttestorPubkey (hostStaticPriv credential : Bytes) : Io Slot Bytes :=
  pinned K hostStaticPriv credential .standard
    ((Ethereum.getPublicKey K SEEDED_SESSION_ID (Ethereum.accountPath 0)).on K)

def signMessageEth (hostStaticPriv credential message : Bytes) : Io Slot Bytes :=
  pinned K hostStaticPriv credential .standard
    ((Ethereum.signMessage K SEEDED_SESSION_ID (Ethereum.accountPath 0) message).on K)

def getBitcoinAccountXpub (hostStaticPriv credential : Bytes) (passphrase : PassphraseSpec)
    (account networkCoinType : UInt32) (path : Option String) : Io Slot String :=
  pinnedAt K hostStaticPriv credential passphrase path (Bitcoin.accountPath account networkCoinType) fun addressN =>
    Bitcoin.getAccountXpub K SEEDED_SESSION_ID addressN networkCoinType

def getBitcoinMasterFingerprint (hostStaticPriv credential : Bytes) (passphrase : PassphraseSpec) : Io Slot Bytes :=
  pinned K hostStaticPriv credential passphrase ((Bitcoin.getMasterFingerprint K SEEDED_SESSION_ID).on K)

def signPsbt (hostStaticPriv credential : Bytes) (passphrase : PassphraseSpec) (psbtBase64 : String) (coinType : UInt32) :
    Io Slot String :=
  pinned K hostStaticPriv credential passphrase ((Bitcoin.signPsbt K SEEDED_SESSION_ID psbtBase64 coinType).on K)

def signBitcoinMessage (hostStaticPriv credential : Bytes) (passphrase : PassphraseSpec) (addressN : List UInt32)
    (message : Bytes) (coinType : UInt32) : Io Slot Bitcoin.BitcoinMessageSignature :=
  pinned K hostStaticPriv credential passphrase
    ((Bitcoin.signMessage K SEEDED_SESSION_ID addressN message coinType).on K)

def getEthereumAddress (hostStaticPriv credential : Bytes) (passphrase : PassphraseSpec) (account : UInt32)
    (path : Option String) : Io Slot String :=
  pinnedAt K hostStaticPriv credential passphrase path (Ethereum.accountPath account) fun addressN =>
    Ethereum.getAddress K SEEDED_SESSION_ID addressN

def signEthereumTx (hostStaticPriv credential : Bytes) (passphrase : PassphraseSpec) (envelope : Bytes)
    (account : UInt32) (path : Option String) : Io Slot Ethereum.Secp256k1Signature :=
  pinnedAt K hostStaticPriv credential passphrase path (Ethereum.accountPath account) fun addressN =>
    Ethereum.signEip1559 K SEEDED_SESSION_ID addressN envelope

def signEthereumMessage (hostStaticPriv credential : Bytes) (passphrase : PassphraseSpec) (account : UInt32)
    (message : Bytes) (path : Option String) : Io Slot Bytes :=
  pinnedAt K hostStaticPriv credential passphrase path (Ethereum.accountPath account) fun addressN =>
    Ethereum.signMessageFull K SEEDED_SESSION_ID addressN message

def getSolanaAddress (hostStaticPriv credential : Bytes) (passphrase : PassphraseSpec) (account : UInt32)
    (path : Option String) : Io Slot String :=
  pinnedAt K hostStaticPriv credential passphrase path (Solana.accountPath account) fun addressN =>
    Solana.getAddress K SEEDED_SESSION_ID addressN

def signSolanaTx (hostStaticPriv credential : Bytes) (passphrase : PassphraseSpec) (unsignedTx : Bytes)
    (account : UInt32) (path : Option String) : Io Slot Bytes :=
  pinnedAt K hostStaticPriv credential passphrase path (Solana.accountPath account) fun addressN =>
    Solana.signTx K SEEDED_SESSION_ID addressN unsignedTx

def signSolanaMessage (hostStaticPriv credential : Bytes) (passphrase : PassphraseSpec) (envelope : Bytes)
    (account : UInt32) (path : Option String) : Io Slot Bytes :=
  pinnedAt K hostStaticPriv credential passphrase path (Solana.accountPath account) fun addressN =>
    Solana.signMessage K SEEDED_SESSION_ID addressN envelope

def getTronAddress (hostStaticPriv credential : Bytes) (passphrase : PassphraseSpec) (account : UInt32)
    (path : Option String) : Io Slot String :=
  pinnedAt K hostStaticPriv credential passphrase path (Tron.accountPath account) fun addressN =>
    Tron.getAddress K SEEDED_SESSION_ID addressN

def signTronTx (hostStaticPriv credential : Bytes) (passphrase : PassphraseSpec) (rawTxProto : Bytes)
    (account : UInt32) (path : Option String) : Io Slot Ethereum.Secp256k1Signature :=
  pinnedAt K hostStaticPriv credential passphrase path (Tron.accountPath account) fun addressN =>
    Tron.signTx K SEEDED_SESSION_ID addressN rawTxProto

end Client

end TrezorCore
