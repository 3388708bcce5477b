import TrezorCore.Client.Client

/-!
# Calls

The fifteen operations on the pinned slot as one type. Every one of them is the same
program: resolve the path, ensure a connection for the wallet, run a chat on it, and clear
the slot when that fails. Only `identify_paired` makes a check after the slot has been dealt
with. `Call.run_eq` says so once, and what holds of that program holds of every operation.
-/

namespace TrezorCore.Client

open Connection

variable (K : Crates)

/-- The operations and their arguments, the host's keys apart. -/
inductive Operation where
  | identifyPaired
  | getAttestorPubkey
  | signMessageEth (message : Bytes)
  | getBitcoinAccountXpub (passphrase : PassphraseSpec) (account networkCoinType : UInt32) (path : Option String)
  | getBitcoinMasterFingerprint (passphrase : PassphraseSpec)
  | signPsbt (passphrase : PassphraseSpec) (psbtBase64 : String) (coinType : UInt32)
  | signBitcoinMessage (passphrase : PassphraseSpec) (addressN : List UInt32) (message : Bytes) (coinType : UInt32)
  | getEthereumAddress (passphrase : PassphraseSpec) (account : UInt32) (path : Option String)
  | signEthereumTx (passphrase : PassphraseSpec) (envelope : Bytes) (account : UInt32) (path : Option String)
  | signEthereumMessage (passphrase : PassphraseSpec) (account : UInt32) (message : Bytes) (path : Option String)
  | getSolanaAddress (passphrase : PassphraseSpec) (account : UInt32) (path : Option String)
  | signSolanaTx (passphrase : PassphraseSpec) (unsignedTx : Bytes) (account : UInt32) (path : Option String)
  | signSolanaMessage (passphrase : PassphraseSpec) (envelope : Bytes) (account : UInt32) (path : Option String)
  | getTronAddress (passphrase : PassphraseSpec) (account : UInt32) (path : Option String)
  | signTronTx (passphrase : PassphraseSpec) (rawTxProto : Bytes) (account : UInt32) (path : Option String)

/-- What an operation returns. -/
inductive Value where
  | text (s : String)
  | bytes (b : Bytes)
  | secp256k1 (signature : Ethereum.Secp256k1Signature)
  | bitcoinMessage (signature : Bitcoin.BitcoinMessageSignature)
  deriving DecidableEq

structure Call where
  hostStaticPriv : Bytes
  credential : Bytes
  op : Operation

/-- Call an operation. -/
def Call.run (c : Call) : Io Slot Value :=
  match c.op with
  | .identifyPaired => identifyPaired K c.hostStaticPriv c.credential >>= fun s => pure (.text s)
  | .getAttestorPubkey => getAttestorPubkey K c.hostStaticPriv c.credential >>= fun b => pure (.bytes b)
  | .signMessageEth message => signMessageEth K c.hostStaticPriv c.credential message >>= fun b => pure (.bytes b)
  | .getBitcoinAccountXpub passphrase account networkCoinType path =>
    getBitcoinAccountXpub K c.hostStaticPriv c.credential passphrase account networkCoinType path >>= fun s => pure (.text s)
  | .getBitcoinMasterFingerprint passphrase =>
    getBitcoinMasterFingerprint K c.hostStaticPriv c.credential passphrase >>= fun b => pure (.bytes b)
  | .signPsbt passphrase psbtBase64 coinType =>
    signPsbt K c.hostStaticPriv c.credential passphrase psbtBase64 coinType >>= fun s => pure (.text s)
  | .signBitcoinMessage passphrase addressN message coinType =>
    signBitcoinMessage K c.hostStaticPriv c.credential passphrase addressN message coinType >>= fun s =>
      pure (.bitcoinMessage s)
  | .getEthereumAddress passphrase account path =>
    getEthereumAddress K c.hostStaticPriv c.credential passphrase account path >>= fun s => pure (.text s)
  | .signEthereumTx passphrase envelope account path =>
    signEthereumTx K c.hostStaticPriv c.credential passphrase envelope account path >>= fun s => pure (.secp256k1 s)
  | .signEthereumMessage passphrase account message path =>
    signEthereumMessage K c.hostStaticPriv c.credential passphrase account message path >>= fun b => pure (.bytes b)
  | .getSolanaAddress passphrase account path =>
    getSolanaAddress K c.hostStaticPriv c.credential passphrase account path >>= fun s => pure (.text s)
  | .signSolanaTx passphrase unsignedTx account path =>
    signSolanaTx K c.hostStaticPriv c.credential passphrase unsignedTx account path >>= fun b => pure (.bytes b)
  | .signSolanaMessage passphrase envelope account path =>
    signSolanaMessage K c.hostStaticPriv c.credential passphrase envelope account path >>= fun b => pure (.bytes b)
  | .getTronAddress passphrase account path =>
    getTronAddress K c.hostStaticPriv c.credential passphrase account path >>= fun s => pure (.text s)
  | .signTronTx passphrase rawTxProto account path =>
    signTronTx K c.hostStaticPriv c.credential passphrase rawTxProto account path >>= fun s => pure (.secp256k1 s)

/-! ## The common program -/

/-- The wallet an operation works on. -/
def Operation.spec : Operation → PassphraseSpec
  | .identifyPaired | .getAttestorPubkey | .signMessageEth _ => .standard
  | .getBitcoinAccountXpub passphrase _ _ _ | .getBitcoinMasterFingerprint passphrase | .signPsbt passphrase _ _
  | .signBitcoinMessage passphrase _ _ _ | .getEthereumAddress passphrase _ _ | .signEthereumTx passphrase _ _ _
  | .signEthereumMessage passphrase _ _ _ | .getSolanaAddress passphrase _ _ | .signSolanaTx passphrase _ _ _
  | .signSolanaMessage passphrase _ _ _ | .getTronAddress passphrase _ _ | .signTronTx passphrase _ _ _ => passphrase

/-- A custom path and the standard one it replaces. -/
def Operation.path : Operation → Option (Option String × List UInt32)
  | .identifyPaired | .getAttestorPubkey | .signMessageEth _ | .getBitcoinMasterFingerprint _ | .signPsbt _ _ _
  | .signBitcoinMessage _ _ _ _ => none
  | .getBitcoinAccountXpub _ account networkCoinType path => some (path, Bitcoin.accountPath account networkCoinType)
  | .getEthereumAddress _ account path | .signEthereumTx _ _ account path | .signEthereumMessage _ account _ path =>
    some (path, Ethereum.accountPath account)
  | .getSolanaAddress _ account path | .signSolanaTx _ _ account path | .signSolanaMessage _ _ account path =>
    some (path, Solana.accountPath account)
  | .getTronAddress _ account path | .signTronTx _ _ account path => some (path, Tron.accountPath account)

/-- The path an operation works at, or the parse error. -/
def Operation.addressN (op : Operation) : Except TrezorError (List UInt32) :=
  match op.path with
  | none => .ok []
  | some (path, fallback) => resolvePath path fallback

/-- A chat whose value is the operation's. -/
def answered {α : Type} (make : α → Value) (chat : Chat α) : Chat (Except TrezorError Value) :=
  chat >>= fun a => .done (.ok (make a))

/-- The last check of `identify_paired`. -/
def deviceIdOf (features : Features) : Except TrezorError Value :=
  match features.deviceId with
  | some deviceId => .ok (.text deviceId)
  | none => .error (.thp "device returned no device_id")

/-- What an operation does on the pinned connection, at its path. An error that the chat returns
as a value comes too late to clear the slot. -/
def Operation.chat (addressN : List UInt32) : Operation → Chat (Except TrezorError Value)
  | .identifyPaired => Pairing.getFeatures K >>= fun features => .done (deviceIdOf features)
  | .getAttestorPubkey => answered .bytes (Ethereum.getPublicKey K SEEDED_SESSION_ID (Ethereum.accountPath 0))
  | .signMessageEth message =>
    answered .bytes (Ethereum.signMessage K SEEDED_SESSION_ID (Ethereum.accountPath 0) message)
  | .getBitcoinAccountXpub _ _ networkCoinType _ =>
    answered .text (Bitcoin.getAccountXpub K SEEDED_SESSION_ID addressN networkCoinType)
  | .getBitcoinMasterFingerprint _ => answered .bytes (Bitcoin.getMasterFingerprint K SEEDED_SESSION_ID)
  | .signPsbt _ psbtBase64 coinType => answered .text (Bitcoin.signPsbt K SEEDED_SESSION_ID psbtBase64 coinType)
  | .signBitcoinMessage _ addressN message coinType =>
    answered .bitcoinMessage (Bitcoin.signMessage K SEEDED_SESSION_ID addressN message coinType)
  | .getEthereumAddress _ _ _ => answered .text (Ethereum.getAddress K SEEDED_SESSION_ID addressN)
  | .signEthereumTx _ envelope _ _ => answered .secp256k1 (Ethereum.signEip1559 K SEEDED_SESSION_ID addressN envelope)
  | .signEthereumMessage _ _ message _ =>
    answered .bytes (Ethereum.signMessageFull K SEEDED_SESSION_ID addressN message)
  | .getSolanaAddress _ _ _ => answered .text (Solana.getAddress K SEEDED_SESSION_ID addressN)
  | .signSolanaTx _ unsignedTx _ _ => answered .bytes (Solana.signTx K SEEDED_SESSION_ID addressN unsignedTx)
  | .signSolanaMessage _ envelope _ _ => answered .bytes (Solana.signMessage K SEEDED_SESSION_ID addressN envelope)
  | .getTronAddress _ _ _ => answered .text (Tron.getAddress K SEEDED_SESSION_ID addressN)
  | .signTronTx _ rawTxProto _ _ => answered .secp256k1 (Tron.signTx K SEEDED_SESSION_ID addressN rawTxProto)

section Common

variable {K} {α β : Type}

/-- A function of the value commutes with cleaning up, -/
theorem clearing_bind_pure (x : Io Slot α) (g : α → β) :
    clearing (x >>= fun a => pure (g a)) = clearing x >>= fun a => pure (g a) := by
  ext1
  funext h
  simp only [clearing, Comp.onErr, Comp.run_bind]
  rcases x.run h with ⟨_ | _ | _ | _, h'⟩ <;> rfl

/-- with borrowing the connection, -/
theorem inSlot_bind_pure (x : Io Connection α) (g : α → β) :
    Io.inSlot (x >>= fun a => pure (g a)) = Io.inSlot x >>= fun a => pure (g a) := by
  ext1
  funext h
  rcases slot : h.own with _ | c
  · simp only [Comp.run_bind, Io.inSlot, slot]
  · simp only [Comp.run_bind, Io.inSlot, slot]
    rcases x.run ⟨c, h.wire⟩ with ⟨_ | _ | _ | _, h'⟩ <;> rfl

/-- and so with the whole of `pinned`. -/
theorem pinned_bind_pure (hostStaticPriv credential : Bytes) (passphrase : PassphraseSpec) (chat : Chat α) (g : α → β) :
    pinned K hostStaticPriv credential passphrase ((chat >>= fun a => .done (g a)).on K) =
      pinned K hostStaticPriv credential passphrase (chat.on K) >>= fun a => pure (g a) := by
  have later : (chat >>= fun a => .done (g a)).on K = chat.on K >>= fun a => pure (g a) := Script.run_bind _ _ _ _
  rw [pinned, pinned, later, inSlot_bind_pure, clearing_bind_pure, Comp.bind_assoc]

theorem pinned_answered (hostStaticPriv credential : Bytes) (passphrase : PassphraseSpec) (chat : Chat α) (make : α → Value) :
    (pinned K hostStaticPriv credential passphrase (chat.on K) >>= fun a => pure (make a)) =
      pinned K hostStaticPriv credential passphrase ((answered make chat).on K) >>= Comp.ofExcept := by
  rw [answered, pinned_bind_pure, Comp.bind_assoc]
  rfl

theorem pinnedAt_answered (hostStaticPriv credential : Bytes) (passphrase : PassphraseSpec) (path : Option String)
    (fallback : List UInt32) (chat : List UInt32 → Chat α) (make : α → Value) :
    (pinnedAt K hostStaticPriv credential passphrase path fallback chat >>= fun a => pure (make a)) =
      Comp.ofExcept (resolvePath path fallback) >>= fun addressN =>
        pinned K hostStaticPriv credential passphrase ((answered make (chat addressN)).on K) >>= Comp.ofExcept := by
  rw [pinnedAt, Comp.bind_assoc]
  exact congrArg _ (funext fun addressN => pinned_answered _ _ _ _ _)

theorem identifyPaired_eq (hostStaticPriv credential : Bytes) :
    (identifyPaired K hostStaticPriv credential >>= fun s => pure (.text s)) =
      pinned K hostStaticPriv credential .standard ((Pairing.getFeatures K >>= fun f => .done (deviceIdOf f)).on K) >>=
        Comp.ofExcept := by
  rw [pinned_bind_pure]
  simp only [identifyPaired, pinned, Comp.bind_assoc, Comp.pure_bind]
  refine congrArg _ (funext fun _ => congrArg _ (funext fun features => ?_))
  rw [deviceIdOf]
  cases features.deviceId <;> rfl

/-- **The common program** of the operations. -/
theorem Call.run_eq (c : Call) :
    c.run K = Comp.ofExcept c.op.addressN >>= fun addressN =>
      pinned K c.hostStaticPriv c.credential c.op.spec ((c.op.chat K addressN).on K) >>= Comp.ofExcept := by
  obtain ⟨hostStaticPriv, credential, op⟩ := c
  cases op <;> simp only [Call.run, Operation.addressN, Operation.path, Operation.spec, Operation.chat]
  case identifyPaired => exact identifyPaired_eq _ _
  case getAttestorPubkey => exact pinned_answered _ _ _ _ _
  case signMessageEth => exact pinned_answered _ _ _ _ _
  case getBitcoinAccountXpub => exact pinnedAt_answered _ _ _ _ _ _ _
  case getBitcoinMasterFingerprint => exact pinned_answered _ _ _ _ _
  case signPsbt => exact pinned_answered _ _ _ _ _
  case signBitcoinMessage => exact pinned_answered _ _ _ _ _
  case getEthereumAddress => exact pinnedAt_answered _ _ _ _ _ _ _
  case signEthereumTx => exact pinnedAt_answered _ _ _ _ _ _ _
  case signEthereumMessage => exact pinnedAt_answered _ _ _ _ _ _ _
  case getSolanaAddress => exact pinnedAt_answered _ _ _ _ _ _ _
  case signSolanaTx => exact pinnedAt_answered _ _ _ _ _ _ _
  case signSolanaMessage => exact pinnedAt_answered _ _ _ _ _ _ _
  case getTronAddress => exact pinnedAt_answered _ _ _ _ _ _ _
  case signTronTx => exact pinnedAt_answered _ _ _ _ _ _ _

end Common

end TrezorCore.Client
