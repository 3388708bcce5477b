import TrezorCore.Chains.SignTx
import TrezorCore.Client.Interleaving

/-!
# What the operations ask for

The questions of an operation, as its arguments determine them. The device's replies choose only
when one is asked and, for a Bitcoin transaction, which piece of it comes next.
-/

namespace TrezorCore.Client

open Connection Bitcoin Ethereum Solana Tron

variable (K : Crates)

/-- The questions of an operation on the pinned connection, at its path. -/
def Operation.Requests (addressN : List UInt32) : Operation → Request → Prop
  | .identifyPaired, q => q = ⟨some MANAGEMENT_SESSION_ID, Pairing.MGMT_GET_FEATURES, K.getFeatures.encode {}⟩
  | .getAttestorPubkey, q =>
    q = ⟨some SEEDED_SESSION_ID, ETH_GET_PUBLIC_KEY, K.ethereumGetPublicKey.encode ⟨Ethereum.accountPath 0, some false⟩⟩
  | .signMessageEth message, q =>
    q = ⟨some SEEDED_SESSION_ID, ETH_SIGN_MESSAGE, K.ethereumSignMessage.encode ⟨Ethereum.accountPath 0, message⟩⟩
  | .getBitcoinAccountXpub _ _ networkCoinType _, q =>
    q = ⟨some SEEDED_SESSION_ID, BTC_GET_PUBLIC_KEY, K.btcGetPublicKey.encode
      ⟨addressN, some false, some (coinName networkCoinType), some (scriptTypeForPath addressN), some true⟩⟩
  | .getBitcoinMasterFingerprint _, q =>
    q = ⟨some SEEDED_SESSION_ID, BTC_GET_PUBLIC_KEY, K.btcGetPublicKey.encode
      ⟨Bitcoin.accountPath 0 0, some false, some "Bitcoin", some .spendwitness, some true⟩⟩
  | .signPsbt _ psbtBase64 coinType, q => ∃ psbt, K.psbtFromStr psbtBase64 = .ok psbt ∧
      (q = signTxRequest K SEEDED_SESSION_ID psbt.unsignedTx coinType ∨
        ∃ req ack, answer K psbt (networkOf coinType) req = .ok (some ack) ∧ q = txAck ack)
  | .signBitcoinMessage _ addressN message coinType, q =>
    q = ⟨some SEEDED_SESSION_ID, BTC_SIGN_MESSAGE, K.btcSignMessage.encode
      ⟨addressN, message, some (coinName coinType), some (scriptTypeForPath addressN)⟩⟩
  | .getEthereumAddress _ _ _, q => q = ⟨some SEEDED_SESSION_ID, ETH_GET_ADDRESS, K.ethereumGetAddress.encode ⟨addressN, some false⟩⟩
  | .signEthereumTx _ envelope _ _, q => ∃ tx, decodeEip1559Envelope envelope = .ok tx ∧
      q = ⟨some SEEDED_SESSION_ID, ETH_SIGN_TX_EIP1559, K.ethereumSignTxEip1559.encode
        { addressN, nonce := tx.nonce, maxGasFee := tx.maxFee, maxPriorityFee := tx.maxPriorityFee, gasLimit := tx.gasLimit,
          recipient := some (if tx.recipient.isEmpty then "" else "0x" ++ hexLower tx.recipient), value := tx.value,
          dataInitialChunk := some tx.data, dataLength := UInt32.ofNat tx.data.length, chainId := tx.chainId }⟩
  | .signEthereumMessage _ _ message _, q =>
    q = ⟨some SEEDED_SESSION_ID, ETH_SIGN_MESSAGE, K.ethereumSignMessage.encode ⟨addressN, message⟩⟩
  | .getSolanaAddress _ _ _, q => q = ⟨some SEEDED_SESSION_ID, SOL_GET_ADDRESS, K.solanaGetAddress.encode ⟨addressN, some false⟩⟩
  | .signSolanaTx _ unsignedTx _ _, q => q = ⟨some SEEDED_SESSION_ID, SOL_SIGN_TX, K.solanaSignTx.encode ⟨addressN, unsignedTx⟩⟩
  | .signSolanaMessage _ envelope _ _, q => q = ⟨some SEEDED_SESSION_ID, SOL_SIGN_MESSAGE, K.solanaSignMessage.encode ⟨addressN, envelope⟩⟩
  | .getTronAddress _ _ _, q => q = ⟨some SEEDED_SESSION_ID, TRON_GET_ADDRESS, K.tronGetAddress.encode ⟨addressN, some false⟩⟩
  | .signTronTx _ rawTxProto _ _, q => ∃ raw contract rest m, K.tronRawTransaction.decode rawTxProto = .ok raw ∧
      raw.contract = contract :: rest ∧ contractMessage K contract = .ok m ∧
      (q = ⟨some SEEDED_SESSION_ID, TRON_SIGN_TX, K.tronSignTx.encode
        { addressN, refBlockBytes := raw.refBlockBytes, refBlockHash := raw.refBlockHash, expiration := raw.expiration,
          data := raw.data, timestamp := raw.timestamp, feeLimit := raw.feeLimit }⟩ ∨ q = ⟨none, m.1, m.2⟩)

/-! ## The operations ask for nothing else -/

section Asking

variable {K} {α : Type} {P : Request → Prop}

theorem expect_quiet {M : Type} (reply : Reply) (expected : UInt16) (what : String) (codec : Codec M) :
    Script.Asks P (Pairing.expect reply expected what codec) := .bind (.ofExcept _) fun _ => .ofExcept _

/-- One question, and a check of the reply. -/
theorem single {sessionId : UInt8} {type : UInt16} {body : Bytes} {f : Reply → Chat α} (asked : P ⟨some sessionId, type, body⟩)
    (later : ∀ r, Script.Asks P (f r)) : Script.Asks P (Chat.transceiveOn sessionId type body >>= f) :=
  .bind (.ask asked fun _ => .done _) later

theorem answered_quiet {make : α → Value} {chat : Chat α} (asks : Script.Asks P chat) : Script.Asks P (answered make chat) :=
  .bind asks fun _ => .done _

theorem signPsbt_requests (passphrase : PassphraseSpec) (psbtBase64 : String) (coinType : UInt32) (addressN : List UInt32) :
    Script.Asks ((Operation.signPsbt passphrase psbtBase64 coinType).Requests K addressN)
      (Bitcoin.signPsbt K SEEDED_SESSION_ID psbtBase64 coinType) := by
  rw [Bitcoin.signPsbt]
  rcases parses : K.psbtFromStr psbtBase64 with e | psbt
  · exact .fail _
  have acked : ∀ s, Script.Asks ((Operation.signPsbt passphrase psbtBase64 coinType).Requests K addressN)
      (signPsbtTurn K psbt (networkOf coinType) s) := by
    rintro ⟨reply, sigs⟩
    rw [signPsbtTurn_eq]
    refine .ofExcept_bind fun r responds => ?_
    obtain ⟨req, _ | ack⟩ := r
    · exact .done _
    · exact .ask ⟨psbt, parses, .inr ⟨req, ack, (respond_ok responds).2, rfl⟩⟩ fun _ => .done _
  change Script.Asks _ (Chat.transceiveOn _ _ _ >>= _)
  exact single ⟨psbt, parses, .inl rfl⟩ fun _ => .bind (.loop acked fun _ => .done _) fun sigs => .bind (.ofExcept _) fun _ => .done _

theorem signTronTx_requests (passphrase : PassphraseSpec) (rawTxProto : Bytes) (account : UInt32) (path : Option String)
    (addressN : List UInt32) :
    Script.Asks ((Operation.signTronTx passphrase rawTxProto account path).Requests K addressN)
      (Tron.signTx K SEEDED_SESSION_ID addressN rawTxProto) := by
  refine .ofExcept_bind fun raw decoded => ?_
  rcases contracts : raw.contract with _ | ⟨contract, rest⟩
  · exact .fail _
  refine .ofExcept_bind fun m contracted => ?_
  have about : ∀ q, (q = ⟨some SEEDED_SESSION_ID, TRON_SIGN_TX, K.tronSignTx.encode
        { addressN, refBlockBytes := raw.refBlockBytes, refBlockHash := raw.refBlockHash, expiration := raw.expiration,
          data := raw.data, timestamp := raw.timestamp, feeLimit := raw.feeLimit }⟩ ∨ q = ⟨none, m.1, m.2⟩) →
      (Operation.signTronTx passphrase rawTxProto account path).Requests K addressN q :=
    fun q is => ⟨raw, contract, rest, m, Pairing.decode_ok decoded, contracts, contracted, is⟩
  refine single (about _ (.inl rfl)) fun _ => .bind (.ofExcept _) fun _ => .bind (.ask (about _ (.inr rfl)) fun _ => .done _) fun _ =>
    .bind (expect_quiet _ _ _ _) fun msg => ?_
  dsimp only
  split
  · exact .fail _
  · exact .done _

theorem Operation.chat_requests (op : Operation) (addressN : List UInt32) :
    Script.Asks (op.Requests K addressN) (op.chat K addressN) := by
  cases op with
  | identifyPaired => exact .bind (single rfl fun _ => .bind (.ofExcept _) fun _ => .ofExcept _) fun _ => .done _
  | signPsbt passphrase psbtBase64 coinType => exact answered_quiet (signPsbt_requests _ _ _ _)
  | signTronTx passphrase rawTxProto account path => exact answered_quiet (signTronTx_requests _ _ _ _ _)
  | signEthereumTx _ envelope _ _ =>
    refine answered_quiet (.ofExcept_bind fun tx decoded => single ⟨tx, decoded, rfl⟩ fun _ => .bind (expect_quiet _ _ _ _) fun req => ?_)
    split
    · exact .done _
    · exact .fail _
  | _ =>
    refine answered_quiet (single rfl fun _ => .bind (expect_quiet _ _ _ _) fun reply => ?_)
    first | exact .done _ | exact .ofExcept _ | (split <;> first | exact .done _ | exact .fail _)

end Asking

end TrezorCore.Client
