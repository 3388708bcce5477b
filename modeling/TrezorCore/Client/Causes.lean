import TrezorCore.Client.Refinement
import TrezorCore.Thp.Causes

/-!
# The errors of the operations

What an operation finds wrong with its arguments or with a reply it reports as an error of its own.
So whatever else it fails with was reported by the transport or by the device.
-/

namespace TrezorCore

/-! ## Arguments -/

theorem parsePath_checks (input : String) : Checks (Bip32.parsePath input) := by
  have component : ∀ raw, Checks (Bip32.parseComponent input raw) := by
    intro raw
    rw [Bip32.parseComponent]
    dsimp only
    split
    · exact .thp _
    · split
      · exact .thp _
      · split
        · exact .thp _
        · exact .ok _
  rw [Bip32.parsePath]
  split
  · exact .ok _
  · exact .mapM component _

theorem toArray32_checks (v : Bytes) : Checks (Client.toArray32 v) := by
  rw [Client.toArray32]
  split
  · exact .ok _
  · exact .thp _

theorem Client.Operation.addressN_checks (op : Client.Operation) : Checks op.addressN := by
  rw [Client.Operation.addressN]
  split
  · exact .ok _
  · next path fallback _ =>
    rcases path with _ | path
    · exact .ok _
    · exact parsePath_checks path

/-! ## Envelopes and contracts -/

namespace Ethereum

theorem rlpReadLen_checks (buf : Bytes) (pos n : Nat) : Checks (rlpReadLen buf pos n) := by
  rw [rlpReadLen]
  split
  · exact .thp _
  · split
    · exact .thp _
    · exact .ok _

theorem rlpHeader_checks (buf : Bytes) (pos : Nat) (b : UInt8) : Checks (rlpHeader buf pos b) := by
  rw [rlpHeader]
  split
  · exact .ok _
  · split
    · exact .bind (rlpReadLen_checks _ _ _) fun _ _ => .ok _
    · split
      · exact .ok _
      · exact .bind (rlpReadLen_checks _ _ _) fun _ _ => .ok _

theorem rlpRead_checks (buf : Bytes) (pos : Nat) : Checks (rlpRead buf pos) := by
  rw [rlpRead]
  split
  · exact .thp _
  · split
    · exact .ok _
    · refine .bind (rlpHeader_checks _ _ _) fun header _ => ?_
      dsimp only
      split
      · exact .thp _
      · split
        · exact .thp _
        · exact .ok _

theorem rlpItems_checks (payload : Bytes) : ∀ fuel pos, Checks (rlpItems payload fuel pos)
  | 0, _ => .ok _
  | fuel + 1, pos => by
    rw [rlpItems]
    split
    · exact .bind (rlpRead_checks _ _) fun _ _ => .bind (rlpItems_checks payload fuel _) fun _ _ => .ok _
    · exact .ok _

theorem decodeEip1559Envelope_checks (envelope : Bytes) : Checks (decodeEip1559Envelope envelope) := by
  rw [decodeEip1559Envelope.eq_def]
  split
  · refine .bind (.bind (rlpRead_checks _ _) fun item _ => ?_) fun items _ => ?_
    · dsimp only
      split
      · exact rlpItems_checks _ _ _
      · exact .thp _
    · split
      · exact .ok _
      · exact .thp _
  · exact .thp _

end Ethereum

theorem Tron.contractMessage_checks (K : Crates) (contract : TronRawContract) : Checks (Tron.contractMessage K contract) := by
  rw [Tron.contractMessage]
  split
  · exact .bind (Pairing.decode_checks _ _ _) fun _ _ => .ok _
  · exact .bind (Pairing.decode_checks _ _ _) fun _ _ => .ok _
  · exact .thp _

theorem Solana.checkSignature_checks (what : String) (sig : Bytes) : Checks (Solana.checkSignature what sig) := by
  rw [Solana.checkSignature]
  split
  · exact .thp _
  · exact .ok _

/-! ## Transactions -/

namespace Bitcoin

variable (K : Crates)

theorem orThp_checks {α : Type} (o : Option α) (reason : String) : Checks (orThp o reason) := by
  rw [orThp.eq_def]
  split
  · exact .ok _
  · exact .thp _

theorem buildInputAck_checks (psbt : Psbt) (i : Nat) : Checks (buildInputAck psbt i) := by
  refine .bind (orThp_checks _ _) fun txin _ => .bind (orThp_checks _ _) fun pin _ => .bind ?_ fun _ _ =>
    .bind (orThp_checks _ _) fun _ _ => .ok _
  rw [inputAmount]
  split
  · exact .ok _
  · exact .bind (orThp_checks _ _) fun _ _ => .ok _
  · exact .thp _

theorem buildOutputAck_checks (psbt : Psbt) (i : Nat) (network : Network) : Checks (buildOutputAck K psbt i network) := by
  refine .bind (orThp_checks _ _) fun txout _ => ?_
  split
  · exact .ok _
  · split
    · exact .ok _
    · exact .thp _

/-- What the device asks for and the PSBT does not have. -/
theorem answer_checks (psbt : Psbt) (network : Network) (req : TxRequest) : Checks (answer K psbt network req) := by
  have found := fun txHash => orThp_checks ((psbt.inputs.filterMap (·.nonWitnessUtxo)).find? fun prev => displayOrder (K.computeTxid prev) == txHash)
    ("Trezor asked for a previous transaction the PSBT doesn't carry; " ++ "re-sync the wallet (it must include full previous transactions)")
  rw [answer]
  split
  · exact .ok _
  · exact .map _ (.bind (found _) fun _ _ => .bind (orThp_checks _ _) fun _ _ => .ok _)
  · exact .map _ (buildInputAck_checks _ _)
  · exact .map _ (.bind (found _) fun _ _ => .bind (orThp_checks _ _) fun _ _ => .ok _)
  · exact .map _ (buildOutputAck_checks _ _ _ _)
  · exact .map _ (.bind (found _) fun _ _ => .ok _)
  · exact .thp _
  · exact .thp _

theorem mergeSignature_checks (psbt : Psbt) (s : UInt32 × Bytes) : Checks (mergeSignature K psbt s) := by
  refine .bind (orThp_checks _ _) fun input _ => .bind (orThp_checks _ _) fun origin _ => ?_
  split
  · exact .thp _
  · exact .ok _

end Bitcoin

/-! ## Chats -/

namespace Client

variable {K : Crates} {α M : Type}

/-- The errors that a chat raises are the host's own. -/
abbrev OwnErrors (chat : Chat α) : Prop := Script.FailsWith (·.isOwn = true) chat

theorem expect_ownErrors (reply : Reply) (expected : UInt16) (what : String) (codec : Codec M) :
    OwnErrors (Pairing.expect reply expected what codec) :=
  .bind (.ofExcept (Pairing.expectType_checks _ _ _)) fun _ => .ofExcept (Pairing.decode_checks _ _ _)

theorem answered_ownErrors {make : α → Value} {chat : Chat α} (h : OwnErrors chat) : OwnErrors (answered make chat) :=
  .bind h fun _ => .done _

theorem lookup_ownErrors {q : Request} {expected : UInt16} {what : String} {codec : Codec M} {f : M → Chat α}
    (later : ∀ m, OwnErrors (f m)) : OwnErrors (Script.question q >>= fun reply => Pairing.expect reply expected what codec >>= f) :=
  .question fun _ => .bind (expect_ownErrors _ _ _ _) later

theorem getFeatures_ownErrors : OwnErrors (Pairing.getFeatures K) :=
  .question fun _ => .bind (.ofExcept (Pairing.expectType_checks _ _ _)) fun _ => .ofExcept (Pairing.decode_checks _ _ _)

theorem endChat_ownErrors : OwnErrors endChat := .question fun _ => .ofExcept (Pairing.expectType_checks _ _ _)

theorem createChat_ownErrors (key : WalletKey) : OwnErrors (createChat K key) := by
  refine .question fun reply => ?_
  dsimp only
  split
  · exact .fail rfl
  · exact .done _

theorem tronSignTx_ownErrors (sessionId : UInt8) (path : List UInt32) (rawTxProto : Bytes) : OwnErrors (Tron.signTx K sessionId path rawTxProto) := by
  refine .bind (.ofExcept (Pairing.decode_checks _ _ _)) fun raw => ?_
  rcases raw.contract with _ | ⟨contract, _⟩
  · exact .fail rfl
  · refine .bind (.ofExcept (Tron.contractMessage_checks K contract)) fun m => .question fun _ => .bind (.ofExcept (Pairing.expectType_checks _ _ _))
      fun _ => lookup_ownErrors fun msg => ?_
    show OwnErrors (if msg.signature.length ≠ 65 then _ else _)
    split
    · exact .fail rfl
    · exact .done _

theorem signPsbt_ownErrors (sessionId : UInt8) (psbtBase64 : String) (coinType : UInt32) : OwnErrors (Bitcoin.signPsbt K sessionId psbtBase64 coinType) := by
  have turns : ∀ psbt network s, OwnErrors (Bitcoin.signPsbtTurn K psbt network s) := by
    intro psbt network s
    refine .bind (expect_ownErrors _ _ _ _) fun req => .bind (.ofExcept (Bitcoin.answer_checks K psbt network req)) fun ack => ?_
    split
    · exact .done _
    · exact .question fun _ => .done _
  rw [Bitcoin.signPsbt]
  split
  · refine .question fun reply => .bind (.loop (turns _ _) fun _ => .done _) fun sigs => .bind (.ofExcept ?_) fun _ => .done _
    exact Checks.foldlM (Bitcoin.mergeSignature_checks K) _ _
  · exact .fail rfl

theorem Operation.chat_ownErrors (op : Operation) (addressN : List UInt32) : OwnErrors (op.chat K addressN) := by
  cases op with
  | identifyPaired => exact .bind getFeatures_ownErrors fun _ => .done _
  | signPsbt _ _ _ => exact answered_ownErrors (signPsbt_ownErrors _ _ _)
  | signEthereumTx _ envelope _ _ =>
    refine answered_ownErrors (.bind (.ofExcept (Ethereum.decodeEip1559Envelope_checks envelope)) fun tx => lookup_ownErrors fun req => ?_)
    split
    · exact .done _
    · exact .fail rfl
  | signSolanaTx _ _ _ _ => exact answered_ownErrors (lookup_ownErrors fun _ => .ofExcept (Solana.checkSignature_checks _ _))
  | signSolanaMessage _ _ _ _ => exact answered_ownErrors (lookup_ownErrors fun _ => .ofExcept (Solana.checkSignature_checks _ _))
  | signTronTx _ _ _ _ => exact answered_ownErrors (tronSignTx_ownErrors _ _ _)
  | _ =>
    refine answered_ownErrors (lookup_ownErrors fun reply => ?_)
    first | exact .done _ | (split <;> first | exact .done _ | exact .fail rfl)

end Client

end TrezorCore
