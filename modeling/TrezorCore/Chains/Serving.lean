import TrezorCore.Chains.Merge
import TrezorCore.Chains.Streaming
import TrezorCore.Thp.Service

/-!
# When signing succeeds

With a PSBT that has what a device can ask for, the call returns one for every device that asks for
what is in it, in any order and however often, and finishes. No other run succeeds. What is said of the call against
a list of replies is said of it on a connection, with the replies it gets there.
-/

namespace TrezorCore.Bitcoin

open Script (against)

variable (K : Crates)

/-- A PSBT with everything the exchange needs: each input has an amount and a key to sign with, and
each output is change or pays an address. -/
structure Signable (psbt : Psbt) (network : Network) : Prop where
  count : psbt.inputs.length = psbt.unsignedTx.input.length
  amount : ∀ (i : Nat) (txin : TxIn) (pin : PsbtInput), psbt.unsignedTx.input[i]? = some txin → psbt.inputs[i]? = some pin →
    (∃ utxo, pin.witnessUtxo = some utxo) ∨
      ∃ (prev : Transaction) (txout : TxOut), pin.nonWitnessUtxo = some prev ∧ prev.output[txin.previousOutput.vout.toNat]? = some txout
  key : ∀ pin ∈ psbt.inputs, pin.bip32Derivation ≠ []
  output : ∀ (i : Nat) (txout : TxOut), psbt.unsignedTx.output[i]? = some txout →
    (∃ out : PsbtOutput, psbt.outputs[i]? = some out ∧ out.bip32Derivation ≠ []) ∨
      ∃ address, K.addressFromScript txout.scriptPubkey network = .ok address

/-- The request asks for something that is there: an input or an output of the transaction, or a
part of the previous transaction that is found for its hash. -/
def InRange (psbt : Psbt) (req : TxRequest) : Prop :=
  match kindOf req, hashOf req with
  | some .txinput, none => indexOf req < psbt.unsignedTx.input.length
  | some .txoutput, none => indexOf req < psbt.unsignedTx.output.length
  | some .txmeta, some h => ∃ prev, findPrevTx K psbt h = .ok prev
  | some .txinput, some h => ∃ prev, findPrevTx K psbt h = .ok prev ∧ indexOf req < prev.input.length
  | some .txoutput, some h => ∃ prev, findPrevTx K psbt h = .ok prev ∧ indexOf req < prev.output.length
  | _, _ => False

/-- The device's replies are requests in range and then the end; what follows is not read. -/
inductive Asking (psbt : Psbt) : List Reply → List TxRequest → Prop where
  | finish {reply : Reply} {req : TxRequest} (rest : List Reply) : readTxRequest K reply = .ok req →
      kindOf req = some .txfinished → Asking psbt (reply :: rest) [req]
  | ask {reply : Reply} {req : TxRequest} {rest : List Reply} {reqs : List TxRequest} : readTxRequest K reply = .ok req →
      InRange K psbt req → Asking psbt rest reqs → Asking psbt (reply :: rest) (req :: reqs)

section Success

variable {K} {psbt : Psbt} {network : Network} (signable : Signable K psbt network)

include signable

theorem Signable.input {i : Nat} (inside : i < psbt.unsignedTx.input.length) : KnownInput psbt i := by
  have inside' : i < psbt.inputs.length := by rwa [signable.count]
  have here := List.getElem?_eq_getElem inside
  have there := List.getElem?_eq_getElem inside'
  exact ⟨_, _, here, there, signable.key _ (List.getElem_mem inside'), signable.amount i _ _ here there⟩

theorem Signable.pays {i : Nat} (inside : i < psbt.unsignedTx.output.length) : KnownOutput K psbt network i :=
  have here := List.getElem?_eq_getElem inside
  ⟨_, here, signable.output i _ here⟩

/-- An answer exists exactly when the request is in range. -/
theorem answer_some_iff (req : TxRequest) : (∃ ack, answer K psbt network req = .ok (some ack)) ↔ InRange K psbt req := by
  have inside : ∀ {α : Type} {xs : List α} {i : Nat} {a : α}, xs[i]? = some a → i < xs.length :=
    fun found => (List.getElem?_eq_some_iff.1 found).1
  constructor
  · rintro ⟨ack, answers⟩
    unfold InRange
    cases answered_of_answer answers with
    | input kind own builds =>
      obtain ⟨txin, found, -⟩ := buildInputAck_ok builds
      rw [kind, own]
      exact inside found
    | output kind own builds =>
      obtain ⟨txout, found, -⟩ := Except.bind_eq_ok.1 builds
      rw [kind, own]
      exact inside (orThp_ok.1 found)
    | prevMeta kind prev builds =>
      obtain ⟨tx, found, -⟩ := Except.bind_eq_ok.1 builds
      rw [kind, prev]
      exact ⟨tx, found⟩
    | prevInput kind prev builds =>
      obtain ⟨tx, found, builds⟩ := Except.bind_eq_ok.1 builds
      obtain ⟨txin, there, -⟩ := Except.bind_eq_ok.1 builds
      rw [kind, prev]
      exact ⟨tx, found, inside (orThp_ok.1 there)⟩
    | prevOutput kind prev builds =>
      obtain ⟨tx, found, builds⟩ := Except.bind_eq_ok.1 builds
      obtain ⟨txout, there, -⟩ := Except.bind_eq_ok.1 builds
      rw [kind, prev]
      exact ⟨tx, found, inside (orThp_ok.1 there)⟩
  · intro range
    unfold InRange at range
    rw [answer_eq]
    cases kind : kindOf req with
    | none =>
      rw [kind] at range
      cases range
    | some k =>
      cases hash : hashOf req <;> rw [kind, hash] at range <;> cases k
      case none.txinput => exact map_encode_isOk _ (buildInputAck_isOk (signable.input range))
      case none.txoutput => exact map_encode_isOk _ (buildOutputAck_isOk (signable.pays range))
      case some.txmeta h =>
        obtain ⟨prev, found⟩ := range
        apply map_encode_isOk
        rw [buildPrevMetaAck, found]
        exact ⟨_, rfl⟩
      case some.txinput h =>
        obtain ⟨prev, found, inside⟩ := range
        apply map_encode_isOk
        rw [buildPrevInputAck, found, Except.ok_bind, List.getElem?_eq_getElem inside]
        exact ⟨_, rfl⟩
      case some.txoutput h =>
        obtain ⟨prev, found, inside⟩ := range
        apply map_encode_isOk
        rw [buildPrevOutputAck, found, Except.ok_bind, List.getElem?_eq_getElem inside]
        exact ⟨_, rfl⟩
      all_goals cases range

omit signable in
theorem answer_none_iff (req : TxRequest) : answer K psbt network req = .ok none ↔ kindOf req = some .txfinished := by
  have never : ∀ {M : Type} {encode : M → Bytes} {r : Except TrezorError M}, (some ∘ encode) <$> r ≠ .ok none := by
    intro M encode r
    cases r <;> nofun
  constructor
  · intro ends
    rw [answer_eq] at ends
    cases kind : kindOf req with
    | none =>
      rw [kind] at ends
      cases ends
    | some k =>
      cases hash : hashOf req <;> rw [kind, hash] at ends <;> cases k <;> first | rfl | cases ends | exact absurd ends never
  · intro kind
    rw [answer_eq, kind]

/-- The exchange finishes with these requests when the device asks for what is there. -/
theorem exchange_iff (replies : List Reply) (reqs : List TxRequest) :
    exchange K psbt network replies = some reqs ↔ Asking K psbt replies reqs := by
  induction replies generalizing reqs with
  | nil =>
    constructor
    · intro ends
      cases ends
    · intro asking
      cases asking
  | cons reply replies ih =>
    rcases reads : readTxRequest K reply with e | req
    · have fails : respond K psbt network reply = .error e := by rw [respond, reads, Except.error_bind]
      simp only [exchange, fails]
      constructor
      · intro ends
        cases ends
      · intro asking
        cases asking with
        | finish _ reads' => cases reads.symm.trans reads'
        | ask reads' => cases reads.symm.trans reads'
    have responds : respond K psbt network reply = answer K psbt network req >>= fun ack => .ok (req, ack) := by
      rw [respond, reads, Except.ok_bind]
    rcases answers : answer K psbt network req with e | _ | ack <;> rw [answers] at responds <;>
      simp only [Except.ok_bind, Except.error_bind] at responds <;> simp only [exchange, responds]
    · constructor
      · intro ends
        cases ends
      · intro asking
        cases asking with
        | finish _ reads' kind =>
          cases reads.symm.trans reads'
          cases answers.symm.trans ((answer_none_iff req).2 kind)
        | ask reads' range =>
          cases reads.symm.trans reads'
          obtain ⟨ack, answers'⟩ := (answer_some_iff signable req).2 range
          cases answers.symm.trans answers'
    · constructor
      · intro ends
        cases ends
        exact .finish replies reads ((answer_none_iff req).1 answers)
      · intro asking
        cases asking with
        | finish _ reads' kind =>
          cases reads.symm.trans reads'
          rfl
        | ask reads' range =>
          cases reads.symm.trans reads'
          obtain ⟨ack, answers'⟩ := (answer_some_iff signable req).2 range
          cases answers.symm.trans answers'
    · rw [Option.map_eq_some_iff]
      constructor
      · rintro ⟨later, finishes, rfl⟩
        exact .ask reads ((answer_some_iff signable req).1 ⟨ack, answers⟩) ((ih later).1 finishes)
      · intro asking
        cases asking with
        | finish _ reads' kind =>
          cases reads.symm.trans reads'
          cases answers.symm.trans ((answer_none_iff req).2 kind)
        | ask reads' range asks =>
          cases reads.symm.trans reads'
          exact ⟨_, (ih _).2 asks, rfl⟩

/-- For such a PSBT a signature is usable when its input exists and it parses. -/
theorem usable_iff (i : Nat) (der : Bytes) :
    Usable K psbt i der ↔ i < psbt.unsignedTx.input.length ∧ ∃ sig, K.signatureFromDer der = .ok sig := by
  constructor
  · rintro ⟨input, origin, sig, found, -, parses⟩
    exact ⟨signable.count ▸ (List.getElem?_eq_some_iff.1 found).1, sig, parses⟩
  · rintro ⟨inside, sig, parses⟩
    have inside' : i < psbt.inputs.length := by rwa [signable.count]
    obtain ⟨origin, rest, keyed⟩ := List.exists_cons_of_ne_nil (signable.key _ (List.getElem_mem inside'))
    exact ⟨_, origin, sig, List.getElem?_eq_getElem inside', by rw [keyed, List.head?_cons], parses⟩

end Success

/-- **When signing succeeds.** With a PSBT that has everything that can be asked for, the call returns
`Ok` for exactly the devices that ask for what is there, in any order and however often, that finish,
and whose signatures, as many as there are, are for its inputs and parse. -/
theorem signs_iff_asked (K : Crates) (sessionId : UInt8) (text : String) (coinType : UInt32) (psbt : Psbt)
    (parses : K.psbtFromStr text = .ok psbt) (signable : Signable K psbt (networkOf coinType)) (replies : List Reply) :
    (∃ out, (against (signPsbt K sessionId text coinType) replies).1 = .ok out) ↔
      ∃ reqs, Asking K psbt replies reqs ∧ ∀ i der, lastReported reqs i = some der →
        i < psbt.unsignedTx.input.length ∧ ∃ sig, K.signatureFromDer der = .ok sig := by
  constructor
  · rintro ⟨out, returns⟩
    obtain ⟨reqs, signed, finishes, merges, -⟩ := (signPsbt_ok_iff parses replies out).1 returns
    refine ⟨reqs, (exchange_iff signable replies reqs).1 finishes, fun i der last => (usable_iff signable i der).1 ?_⟩
    by_contra unusable
    have fails : ∃ e, (against (signPsbt K sessionId text coinType) replies).1 = .err e :=
      signPsbt_unusable parses finishes last unusable
    obtain ⟨e, fails⟩ := fails
    cases returns.symm.trans fails
  · rintro ⟨reqs, asking, fine⟩
    have every : ∀ e ∈ collected reqs, Usable K psbt e.1.toNat e.2 :=
      fun e member => (usable_iff signable _ _).2 (fine _ _ (mem_collected.1 member))
    obtain ⟨signed, merges⟩ := (foldlM_ok_iff _ _).2 every
    exact ⟨_, (signPsbt_ok_iff parses replies _).2 ⟨reqs, signed, (exchange_iff signable replies reqs).2 asking, merges, rfl⟩⟩

theorem wallet_signable : Signable Crates.signing walletPsbt (networkOf 0) where
  count := rfl
  amount i txin pin _ there := by
    have only : pin = walletPsbt.inputs.head (by decide) := by
      cases i with
      | zero => exact (Option.some.inj there).symm
      | succ i => cases there
    exact .inl ⟨_, by rw [only]; rfl⟩
  key pin member := by
    obtain rfl := List.mem_singleton.1 member
    exact List.cons_ne_nil _ _
  output i txout here := by
    cases i with
    | zero =>
      cases here
      exact .inr ⟨"bc1qpayee", rfl⟩
    | succ i =>
      cases i with
      | zero => exact .inl ⟨_, rfl, List.cons_ne_nil _ _⟩
      | succ i => cases here

/-- The requests of `signingReplies`. -/
def signingRequests : List TxRequest :=
  [⟨some 0, some ⟨some 0, none⟩, none⟩, ⟨some 1, some ⟨some 0, none⟩, none⟩, ⟨some 3, none, some ⟨some 0, some [0x30, 0x41, 0x42]⟩⟩]

theorem signs_iff_asked_sample :
    ∃ out, (against (signPsbt Crates.signing 1 (walletText walletPsbt) 0) signingReplies).1 = .ok out := by
  refine (signs_iff_asked Crates.signing 1 _ 0 walletPsbt signing_parses wallet_signable signingReplies).2
    ⟨signingRequests, ?_, fun i der last => ?_⟩
  · exact .ask rfl (show 0 < 1 by decide) (.ask rfl (show 0 < 2 by decide) (.finish [] rfl rfl))
  · cases i with
    | zero =>
      cases last
      exact ⟨by decide, _, rfl⟩
    | succ i => cases last

/-! ## On a connection -/

section Connected

variable {sessionId : UInt8} {text : String} {coinType : UInt32} {psbt : Psbt}

/-- However the call ends on a connection, it is the call against the replies it got there, or a
request of it has got none. -/
theorem signPsbt_on (sessionId : UInt8) (text : String) (coinType : UInt32) (h : Host Connection) :
    let r := (Chat.on K (signPsbt K sessionId text coinType)).run h
    ∃ tr : List (Request × Reply), against (signPsbt K sessionId text coinType) (tr.map (·.2)) = (r.1, tr.map (·.1)) ∨
      ∃ q k, against (signPsbt K sessionId text coinType) (tr.map (·.2)) = (.dropped, tr.map (·.1) ++ [q]) ∧
        Script.Broken ((Chat.ask K q).run k) r :=
  Connection.chat_against (signPsbt_paced sessionId text coinType) h

/-- **What a connection returns** is the PSBT with the signatures of the replies, an exchange that
finishes, and what it has sent are the answers to them. -/
theorem signPsbt_on_ok (parses : K.psbtFromStr text = .ok psbt) {h h' : Host Connection} {out : String}
    (returns : (Chat.on K (signPsbt K sessionId text coinType)).run h = (.ok out, h')) :
    ∃ (tr : List (Request × Reply)) (reqs : List TxRequest) (signed : Psbt),
      exchange K psbt (networkOf coinType) (tr.map (·.2)) = some reqs ∧
      (collected reqs).foldlM (mergeSignature K) psbt = .ok signed ∧ out = K.psbtToString signed ∧
      tr.map (·.1) = signTxRequest K sessionId psbt.unsignedTx coinType ::
        (serve K psbt (networkOf coinType) (tr.map (·.2)) []).2.map txAck := by
  obtain ⟨tr, whole | ⟨q, k, -, broken⟩⟩ := signPsbt_on K sessionId text coinType h
  · rw [returns] at whole
    obtain ⟨reqs, signed, finishes, merges, same⟩ := (signPsbt_ok_iff parses _ out).1 (congrArg Prod.fst whole)
    refine ⟨tr, reqs, signed, finishes, merges, same, ?_⟩
    rw [signPsbt_against parses] at whole
    exact (congrArg Prod.snd whole).symm
  · rw [returns] at broken
    exact absurd broken Script.Broken.no_value

end Connected

end TrezorCore.Bitcoin
