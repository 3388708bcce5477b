import TrezorCore.Thp.Pairing

/-!
# Solana

`chains/solana.rs`: addresses and ed25519 signatures.
-/

namespace TrezorCore.Solana

variable (K : Crates)

def SOL_GET_ADDRESS : UInt16 := 902
def SOL_ADDRESS : UInt16 := 903
def SOL_SIGN_TX : UInt16 := 904
def SOL_TX_SIGNATURE : UInt16 := 905
def SOL_SIGN_MESSAGE : UInt16 := 906
def SOL_MESSAGE_SIGNATURE : UInt16 := 907

/-- `m/44'/501'/account'/0'`. -/
def accountPath (account : UInt32) : List UInt32 :=
  [0x80000000 ||| 44, 0x80000000 ||| 501, 0x80000000 ||| account, 0x80000000]

def getAddress (sessionId : UInt8) (path : List UInt32) : Chat String := do
  let reply ← Chat.transceiveOn sessionId SOL_GET_ADDRESS (K.solanaGetAddress.encode ⟨path, some false⟩)
  let msg ← Pairing.expect reply SOL_ADDRESS "SolanaAddress" K.solanaAddress
  if msg.address.isEmpty then .fail (.thp "SolanaAddress carried an empty address")
  else pure msg.address

/-- A signature must have 64 bytes; `what` names it in the error. -/
def checkSignature (what : String) (sig : Bytes) : Except TrezorError Bytes :=
  if sig.length ≠ 64 then .error (.thp s!"{what} was {sig.length} bytes, expected 64")
  else .ok sig

def signTx (sessionId : UInt8) (path : List UInt32) (serializedTx : Bytes) : Chat Bytes := do
  let reply ← Chat.transceiveOn sessionId SOL_SIGN_TX (K.solanaSignTx.encode ⟨path, serializedTx⟩)
  let msg ← Pairing.expect reply SOL_TX_SIGNATURE "SolanaTxSignature" K.solanaTxSignature
  .ofExcept (checkSignature "Solana signature" msg.signature)

def signMessage (sessionId : UInt8) (path : List UInt32) (message : Bytes) : Chat Bytes := do
  let reply ← Chat.transceiveOn sessionId SOL_SIGN_MESSAGE (K.solanaSignMessage.encode ⟨path, message⟩)
  let msg ← Pairing.expect reply SOL_MESSAGE_SIGNATURE "SolanaMessageSignature" K.solanaMessageSignature
  .ofExcept (checkSignature "Solana message signature" msg.signature)

end TrezorCore.Solana
