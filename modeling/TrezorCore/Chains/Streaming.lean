import TrezorCore.Chains.SignTx

/-!
# What the device is told about the transactions

The device asks for the pieces of the transaction it signs and of the transactions that this
one spends, in any order and as often as it likes. Every answer is a function of the PSBT and
of the request, so the answers of a run fit together: those about the transaction to be signed
are its inputs and outputs, and those about a hash are pieces of one transaction with that hash.
-/

namespace TrezorCore.Bitcoin

open Script (against)

/-! ## Requests -/

def indexOf (req : TxRequest) : Nat := ((req.details.bind (·.requestIndex)).getD 0).toNat

def hashOf (req : TxRequest) : Option Bytes := req.details.bind (·.txHash)

def kindOf (req : TxRequest) : Option RequestType := (RequestType.ofInt (req.requestType.getD 3)).1

/-- A request that a run reads as the `k`-th reply. -/
def Read (K : Crates) (replies : List Reply) (asked : List Request) (k : Nat) (req : TxRequest) : Prop :=
  k < asked.length ∧ ∃ reply, replies[k]? = some reply ∧ readTxRequest K reply = .ok req

/-- A request of a run, with the acknowledgement that is sent next. -/
def Served (K : Crates) (replies : List Reply) (asked : List Request) (req : TxRequest) (ack : Bytes) : Prop :=
  ∃ k, Read K replies asked k req ∧ asked[k + 1]? = some (txAck ack)

/-! ## The non-witness serialization -/

/-- `k` bytes, little-endian. -/
def littleEndian (k n : Nat) : Bytes := (Bytes.toBe k n).reverse

/-- `VarInt`. -/
def compactSize (n : Nat) : Bytes :=
  if n < 0xfd then [UInt8.ofNat n]
  else if n ≤ 0xffff then 0xfd :: littleEndian 2 n
  else if n ≤ 0xffffffff then 0xfe :: littleEndian 4 n
  else 0xff :: littleEndian 8 n

/-- A script behind its length. -/
def sized (script : Bytes) : Bytes := compactSize script.length ++ script

def serializeInput (txid : Bytes) (vout : UInt32) (scriptSig : Bytes) (sequence : UInt32) : Bytes :=
  txid ++ littleEndian 4 vout.toNat ++ sized scriptSig ++ littleEndian 4 sequence.toNat

def serializeOutput (value : UInt64) (scriptPubkey : Bytes) : Bytes :=
  littleEndian 8 value.toNat ++ sized scriptPubkey

/-- A transaction from its serialized inputs and outputs. -/
def serializeTx (version lockTime : UInt32) (inputs outputs : List Bytes) : Bytes :=
  littleEndian 4 version.toNat ++ compactSize inputs.length ++ inputs.flatten ++ compactSize outputs.length ++
    outputs.flatten ++ littleEndian 4 lockTime.toNat

/-- The serialization of a transaction without its witnesses. -/
def serialize (tx : Transaction) : Bytes :=
  serializeTx tx.version.toUInt32 tx.lockTime
    (tx.input.map fun i => serializeInput i.previousOutput.txid.1 i.previousOutput.vout i.scriptSig i.sequence)
    (tx.output.map fun o => serializeOutput o.value o.scriptPubkey)

def sha256d (K : Crates) (bytes : Bytes) : Octets 32 := K.sha256 (K.sha256 bytes).1

/-- A transaction as a device puts it together from the answers. -/
structure Rebuilt where
  version : UInt32
  lockTime : UInt32
  inputs : List TxAckPrevInput
  outputs : List TxAckPrevOutput

/-- Its serialization; the device turns the hashes round again. -/
def Rebuilt.serialize (t : Rebuilt) : Bytes :=
  serializeTx t.version t.lockTime
    (t.inputs.map fun i => serializeInput i.prevHash.reverse i.prevIndex i.scriptSig i.sequence)
    (t.outputs.map fun o => serializeOutput o.amount o.scriptPubkey)

/-- What rust-bitcoin promises: what a txid is, that an address belongs to the script it was made
from, and that every input and output of a parsed transaction stands in the text. -/
structure BitcoinLaws (K : Crates) (scriptOf : String → Network → Option Bytes) : Prop where
  txid : ∀ tx, K.computeTxid tx = sha256d K (serialize tx)
  address : ∀ script network address, K.addressFromScript script network = .ok address →
    scriptOf address network = some script
  text : ∀ text psbt, K.psbtFromStr text = .ok psbt → ∀ tx, tx = psbt.unsignedTx ∨ tx ∈ psbt.inputs.filterMap (·.nonWitnessUtxo) →
    tx.input.length + tx.output.length ≤ text.utf8ByteSize

/-! ## Right answers -/

/-- An acknowledgement says what the request asks about the transaction that is to be signed. -/
def Describes (K : Crates) (scriptOf : String → Network → Option Bytes) (psbt : Psbt) (network : Network) (req : TxRequest)
    (ack : Bytes) : Prop :=
  match kindOf req with
  | some .txinput => ∃ m txin, ack = K.txAckInput.encode m ∧ psbt.unsignedTx.input[indexOf req]? = some txin ∧
      m.prevHash.reverse = txin.previousOutput.txid.1 ∧ m.prevIndex = txin.previousOutput.vout ∧
      m.sequence = some txin.sequence
  | some .txoutput => ∃ m txout, ack = K.txAckOutput.encode m ∧ psbt.unsignedTx.output[indexOf req]? = some txout ∧
      m.amount = txout.value ∧
      ((∃ address, m.address = some address ∧ m.addressN = [] ∧ scriptOf address network = some txout.scriptPubkey) ∨
        (m.address = none ∧ ∃ output origin, psbt.outputs[indexOf req]? = some output ∧
          output.bip32Derivation.head? = some origin ∧ m.addressN = origin.path))
  | _ => False

/-- An acknowledgement is the piece of a transaction that the request asks for. -/
def Rebuilt.Piece (K : Crates) (t : Rebuilt) (req : TxRequest) (ack : Bytes) : Prop :=
  match kindOf req with
  | some .txmeta => ∃ m, ack = K.txAckPrevMeta.encode m ∧ m.version = t.version ∧ m.lockTime = t.lockTime ∧
      m.inputsCount.toNat = t.inputs.length ∧ m.outputsCount.toNat = t.outputs.length
  | some .txinput => ∃ m, ack = K.txAckPrevInput.encode m ∧ t.inputs[indexOf req]? = some m
  | some .txoutput => ∃ m, ack = K.txAckPrevOutput.encode m ∧ t.outputs[indexOf req]? = some m
  | _ => False

/-- A previous transaction with this hash, in display order, among those the PSBT carries. -/
def Carries (K : Crates) (psbt : Psbt) (h : Bytes) (prev : Transaction) : Prop :=
  prev ∈ psbt.inputs.filterMap (·.nonWitnessUtxo) ∧ displayOrder (K.computeTxid prev) = h

/-- The request is for something that is not there. -/
def Missing (K : Crates) (psbt : Psbt) (req : TxRequest) : Prop :=
  match kindOf req, hashOf req with
  | some .txinput, none => psbt.unsignedTx.input.length ≤ indexOf req
  | some .txoutput, none => psbt.unsignedTx.output.length ≤ indexOf req
  | some .txinput, some h => ∀ prev, Carries K psbt h prev → prev.input.length ≤ indexOf req
  | some .txoutput, some h => ∀ prev, Carries K psbt h prev → prev.output.length ≤ indexOf req
  | some .txmeta, some h => ∀ prev, ¬ Carries K psbt h prev
  | _, _ => False

/-- There is an input, with its amount and a key that signs for it. -/
def KnownInput (psbt : Psbt) (i : Nat) : Prop :=
  ∃ txin pin, psbt.unsignedTx.input[i]? = some txin ∧ psbt.inputs[i]? = some pin ∧ pin.bip32Derivation ≠ [] ∧
    ((∃ utxo, pin.witnessUtxo = some utxo) ∨ ∃ (prev : Transaction) (txout : TxOut),
      pin.nonWitnessUtxo = some prev ∧ prev.output[txin.previousOutput.vout.toNat]? = some txout)

/-- There is an output, which is change or pays an address. -/
def KnownOutput (K : Crates) (psbt : Psbt) (network : Network) (i : Nat) : Prop :=
  ∃ txout, psbt.unsignedTx.output[i]? = some txout ∧
    ((∃ out : PsbtOutput, psbt.outputs[i]? = some out ∧ out.bip32Derivation ≠ []) ∨
      ∃ address, K.addressFromScript txout.scriptPubkey network = .ok address)

/-- The request is for something that is there: a known input or output, or a part of a previous
transaction that the PSBT carries. -/
def Present (K : Crates) (psbt : Psbt) (network : Network) (req : TxRequest) : Prop :=
  match kindOf req, hashOf req with
  | some .txinput, none => KnownInput psbt (indexOf req)
  | some .txoutput, none => KnownOutput K psbt network (indexOf req)
  | some .txinput, some h => (∃ prev, Carries K psbt h prev) ∧ ∀ prev, Carries K psbt h prev → indexOf req < prev.input.length
  | some .txoutput, some h => (∃ prev, Carries K psbt h prev) ∧ ∀ prev, Carries K psbt h prev → indexOf req < prev.output.length
  | some .txmeta, some h => ∃ prev, Carries K psbt h prev
  | _, _ => False

variable {K : Crates} {scriptOf : String → Network → Option Bytes} {psbt : Psbt} {network : Network}

theorem answer_eq (req : TxRequest) : answer K psbt network req =
    match kindOf req, hashOf req with
    | some .txfinished, _ => .ok none
    | some .txinput, some h => (some ∘ K.txAckPrevInput.encode) <$> buildPrevInputAck K psbt h (indexOf req)
    | some .txinput, none => (some ∘ K.txAckInput.encode) <$> buildInputAck psbt (indexOf req)
    | some .txoutput, some h => (some ∘ K.txAckPrevOutput.encode) <$> buildPrevOutputAck K psbt h (indexOf req)
    | some .txoutput, none => (some ∘ K.txAckOutput.encode) <$> buildOutputAck K psbt (indexOf req) network
    | some .txmeta, some h => (some ∘ K.txAckPrevMeta.encode) <$> buildPrevMetaAck K psbt h
    | some .txmeta, none => .error (.thp "TXMETA request without a tx_hash")
    | _, _ =>
      .error (.thp (s!"Trezor requested unsupported tx item {(RequestType.ofInt (req.requestType.getD 3)).2} (request_type {req.requestType.getD 3}); " ++
        "RBF-origin / extra-data streaming is not supported")) := rfl

/-! ## The answers are right -/

theorem map_encode_ok {M : Type} {encode : M → Bytes} {r : Except TrezorError M} {ack : Bytes}
    (h : (some ∘ encode) <$> r = .ok (some ack)) : ∃ m, r = .ok m ∧ ack = encode m := by
  cases r with
  | error e => cases h
  | ok m =>
    cases h
    exact ⟨m, rfl, rfl⟩

/-- What an acknowledgement can be, by the kind of the request and whether it has a hash. -/
inductive Answered (K : Crates) (psbt : Psbt) (network : Network) (req : TxRequest) (ack : Bytes) : Prop where
  | input {m : TxAckInput} (kind : kindOf req = some .txinput) (own : hashOf req = none)
      (builds : buildInputAck psbt (indexOf req) = .ok m) (bytes : ack = K.txAckInput.encode m)
  | output {m : TxAckOutput} (kind : kindOf req = some .txoutput) (own : hashOf req = none)
      (builds : buildOutputAck K psbt (indexOf req) network = .ok m) (bytes : ack = K.txAckOutput.encode m)
  | prevMeta {h : Bytes} {m : TxAckPrevMeta} (kind : kindOf req = some .txmeta) (prev : hashOf req = some h)
      (builds : buildPrevMetaAck K psbt h = .ok m) (bytes : ack = K.txAckPrevMeta.encode m)
  | prevInput {h : Bytes} {m : TxAckPrevInput} (kind : kindOf req = some .txinput) (prev : hashOf req = some h)
      (builds : buildPrevInputAck K psbt h (indexOf req) = .ok m) (bytes : ack = K.txAckPrevInput.encode m)
  | prevOutput {h : Bytes} {m : TxAckPrevOutput} (kind : kindOf req = some .txoutput) (prev : hashOf req = some h)
      (builds : buildPrevOutputAck K psbt h (indexOf req) = .ok m) (bytes : ack = K.txAckPrevOutput.encode m)

theorem answered_of_answer {req : TxRequest} {ack : Bytes} (answers : answer K psbt network req = .ok (some ack)) :
    Answered K psbt network req ack := by
  rw [answer_eq] at answers
  cases kind : kindOf req with
  | none =>
    rw [kind] at answers
    cases answers
  | some k =>
    cases hash : hashOf req <;> rw [kind, hash] at answers <;> cases k
    case none.txinput =>
      obtain ⟨m, builds, bytes⟩ := map_encode_ok answers
      exact .input kind hash builds bytes
    case none.txoutput =>
      obtain ⟨m, builds, bytes⟩ := map_encode_ok answers
      exact .output kind hash builds bytes
    case some.txinput h =>
      obtain ⟨m, builds, bytes⟩ := map_encode_ok answers
      exact .prevInput kind hash builds bytes
    case some.txoutput h =>
      obtain ⟨m, builds, bytes⟩ := map_encode_ok answers
      exact .prevOutput kind hash builds bytes
    case some.txmeta h =>
      obtain ⟨m, builds, bytes⟩ := map_encode_ok answers
      exact .prevMeta kind hash builds bytes
    all_goals cases answers

theorem displayOrder_reverse (hash : Octets 32) : (displayOrder hash).reverse = hash.1 := List.reverse_reverse _

theorem buildInputAck_ok {i : Nat} {m : TxAckInput} (builds : buildInputAck psbt i = .ok m) :
    ∃ txin, psbt.unsignedTx.input[i]? = some txin ∧ m.prevHash.reverse = txin.previousOutput.txid.1 ∧
      m.prevIndex = txin.previousOutput.vout ∧ m.sequence = some txin.sequence := by
  unfold buildInputAck at builds
  simp only [Except.bind_eq_ok, orThp_ok] at builds
  obtain ⟨txin, found, pin, -, amount, -, origin, -, builds⟩ := builds
  cases builds
  exact ⟨txin, found, displayOrder_reverse _, rfl, rfl⟩

theorem buildOutputAck_ok (laws : BitcoinLaws K scriptOf) {i : Nat} {m : TxAckOutput}
    (builds : buildOutputAck K psbt i network = .ok m) :
    ∃ txout, psbt.unsignedTx.output[i]? = some txout ∧ m.amount = txout.value ∧
      ((∃ address, m.address = some address ∧ m.addressN = [] ∧ scriptOf address network = some txout.scriptPubkey) ∨
        (m.address = none ∧ ∃ output origin, psbt.outputs[i]? = some output ∧
          output.bip32Derivation.head? = some origin ∧ m.addressN = origin.path)) := by
  unfold buildOutputAck at builds
  simp only [Except.bind_eq_ok, orThp_ok] at builds
  obtain ⟨txout, found, builds⟩ := builds
  cases change : psbt.outputs[i]?.bind (·.bip32Derivation.head?) with
  | some origin =>
    rw [change] at builds
    cases builds
    obtain ⟨output, there, first⟩ := Option.bind_eq_some_iff.1 change
    exact ⟨txout, found, rfl, .inr ⟨rfl, output, origin, there, first, rfl⟩⟩
  | none =>
    rw [change] at builds
    cases made : K.addressFromScript txout.scriptPubkey network with
    | error e =>
      simp only [made] at builds
      cases builds
    | ok address =>
      simp only [made] at builds
      cases builds
      exact ⟨txout, found, rfl, .inl ⟨address, rfl, rfl, laws.address _ _ _ made⟩⟩

/-- An answer about the transaction to be signed describes it. -/
theorem describes_of_answer (laws : BitcoinLaws K scriptOf) {req : TxRequest} {ack : Bytes}
    (answers : answer K psbt network req = .ok (some ack)) (own : hashOf req = none) :
    Describes K scriptOf psbt network req ack := by
  unfold Describes
  cases answered_of_answer answers with
  | input kind _ builds bytes =>
    obtain ⟨txin, right⟩ := buildInputAck_ok builds
    rw [kind]
    exact ⟨_, txin, bytes, right⟩
  | output kind _ builds bytes =>
    obtain ⟨txout, right⟩ := buildOutputAck_ok laws builds
    rw [kind]
    exact ⟨_, txout, bytes, right⟩
  | prevMeta _ prev => cases own.symm.trans prev
  | prevInput _ prev => cases own.symm.trans prev
  | prevOutput _ prev => cases own.symm.trans prev

theorem findPrevTx_ok {h : Bytes} {prev : Transaction} (found : findPrevTx K psbt h = .ok prev) : Carries K psbt h prev := by
  have found := orThp_ok.1 found
  exact ⟨List.mem_of_find?_eq_some found, by simpa using List.find?_some found⟩

/-- What the answers about a previous transaction add up to. -/
def rebuild (prev : Transaction) : Rebuilt where
  version := prev.version.toUInt32
  lockTime := prev.lockTime
  inputs := prev.input.map fun txin =>
    ⟨displayOrder txin.previousOutput.txid, txin.previousOutput.vout, txin.scriptSig, txin.sequence⟩
  outputs := prev.output.map fun txout => ⟨txout.value, txout.scriptPubkey⟩

theorem serialize_rebuild (prev : Transaction) : (rebuild prev).serialize = serialize prev := by
  unfold Rebuilt.serialize serialize rebuild
  simp only [List.map_map, Function.comp_def, displayOrder_reverse]

/-- Every answer about a hash is a piece of the transaction that is found for it. -/
theorem piece_of_answer {req : TxRequest} {ack h : Bytes} (answers : answer K psbt network req = .ok (some ack))
    (about : hashOf req = some h) :
    ∃ prev, findPrevTx K psbt h = .ok prev ∧
      (prev.input.length < 2 ^ 32 → prev.output.length < 2 ^ 32 → (rebuild prev).Piece K req ack) := by
  unfold Rebuilt.Piece
  cases answered_of_answer answers with
  | input _ own => cases about.symm.trans own
  | output _ own => cases about.symm.trans own
  | prevMeta kind prev builds bytes =>
    cases about.symm.trans prev
    obtain ⟨tx, found, builds⟩ := Except.bind_eq_ok.1 builds
    cases builds
    refine ⟨tx, found, fun inputs outputs => ?_⟩
    rw [kind]
    refine ⟨_, bytes, rfl, rfl, ?_, ?_⟩
    · rw [UInt32.toNat_ofNat_of_lt' inputs]
      exact (List.length_map _).symm
    · rw [UInt32.toNat_ofNat_of_lt' outputs]
      exact (List.length_map _).symm
  | prevInput kind prev builds bytes =>
    cases about.symm.trans prev
    obtain ⟨tx, found, builds⟩ := Except.bind_eq_ok.1 builds
    obtain ⟨txin, there, builds⟩ := Except.bind_eq_ok.1 builds
    cases builds
    refine ⟨tx, found, fun _ _ => ?_⟩
    rw [kind]
    refine ⟨_, bytes, ?_⟩
    simp [rebuild, orThp_ok.1 there]
  | prevOutput kind prev builds bytes =>
    cases about.symm.trans prev
    obtain ⟨tx, found, builds⟩ := Except.bind_eq_ok.1 builds
    obtain ⟨txout, there, builds⟩ := Except.bind_eq_ok.1 builds
    cases builds
    refine ⟨tx, found, fun _ _ => ?_⟩
    rw [kind]
    refine ⟨_, bytes, ?_⟩
    simp [rebuild, orThp_ok.1 there]

theorem missing_input {i : Nat} (outside : psbt.unsignedTx.input.length ≤ i) : ∃ e, buildInputAck psbt i = .error e := by
  unfold buildInputAck
  rw [List.getElem?_eq_none outside]
  exact ⟨_, rfl⟩

theorem missing_output {i : Nat} (outside : psbt.unsignedTx.output.length ≤ i) :
    ∃ e, buildOutputAck K psbt i network = .error e := by
  unfold buildOutputAck
  rw [List.getElem?_eq_none outside]
  exact ⟨_, rfl⟩

/-- Without the transaction, or without what comes of it, there is no answer about a hash. -/
theorem missing_prev {α : Type} {h : Bytes} {part : Transaction → Except TrezorError α}
    (fails : ∀ prev, Carries K psbt h prev → ∃ e, part prev = .error e) : ∃ e, findPrevTx K psbt h >>= part = .error e := by
  cases found : findPrevTx K psbt h with
  | error e => exact ⟨e, rfl⟩
  | ok prev => exact fails prev (findPrevTx_ok found)

/-- A request for what is not there is an error. -/
theorem missing_fails {req : TxRequest} (missing : Missing K psbt req) : ∃ e, answer K psbt network req = .error e := by
  have fails : ∀ {M : Type} (encode : M → Bytes) {r : Except TrezorError M}, (∃ e, r = .error e) →
      ∃ e, (some ∘ encode) <$> r = .error e := by
    rintro M encode r ⟨e, rfl⟩
    exact ⟨e, rfl⟩
  unfold Missing at missing
  rw [answer_eq]
  cases kind : kindOf req with
  | none =>
    rw [kind] at missing
    cases missing
  | some k =>
    cases hash : hashOf req <;> rw [kind, hash] at missing <;> cases k
    case none.txinput => exact fails _ (missing_input missing)
    case none.txoutput => exact fails _ (missing_output missing)
    case some.txinput h =>
      apply fails
      apply missing_prev
      intro prev carries
      rw [List.getElem?_eq_none (missing prev carries)]
      exact ⟨_, rfl⟩
    case some.txoutput h =>
      apply fails
      apply missing_prev
      intro prev carries
      rw [List.getElem?_eq_none (missing prev carries)]
      exact ⟨_, rfl⟩
    case some.txmeta h =>
      apply fails
      apply missing_prev
      intro prev carries
      exact absurd carries (missing prev)
    all_goals cases missing

/-! ## What is there is answered -/

theorem inputAmount_ok {i : Nat} {txin : TxIn} {pin : PsbtInput} (amount : (∃ utxo, pin.witnessUtxo = some utxo) ∨
      ∃ (prev : Transaction) (txout : TxOut), pin.nonWitnessUtxo = some prev ∧
        prev.output[txin.previousOutput.vout.toNat]? = some txout) :
    ∃ amount, inputAmount i txin pin = .ok amount := by
  unfold inputAmount
  obtain ⟨utxo, witness⟩ | ⟨prev, txout, full, output⟩ := amount
  · rw [witness]
    exact ⟨_, rfl⟩
  · rw [full]
    cases pin.witnessUtxo with
    | some utxo => exact ⟨_, rfl⟩
    | none =>
      simp only [output]
      exact ⟨_, rfl⟩

theorem buildInputAck_isOk {i : Nat} (known : KnownInput psbt i) : ∃ ack, buildInputAck psbt i = .ok ack := by
  obtain ⟨txin, pin, here, there, keys, amount⟩ := known
  obtain ⟨amount, known⟩ := inputAmount_ok (i := i) amount
  obtain ⟨origin, rest, keyed⟩ := List.exists_cons_of_ne_nil keys
  unfold buildInputAck
  rw [here, there]
  simp only [orThp, Except.ok_bind, known, keyed, List.head?_cons]
  exact ⟨_, rfl⟩

theorem buildOutputAck_isOk {i : Nat} (known : KnownOutput K psbt network i) : ∃ ack, buildOutputAck K psbt i network = .ok ack := by
  obtain ⟨txout, here, goes⟩ := known
  unfold buildOutputAck
  rw [here]
  simp only [orThp, Except.ok_bind]
  obtain ⟨out, there, keys⟩ | ⟨address, pays⟩ := goes
  · obtain ⟨origin, rest, keyed⟩ := List.exists_cons_of_ne_nil keys
    rw [there, Option.bind_some, keyed]
    exact ⟨_, rfl⟩
  · rw [pays]
    split <;> exact ⟨_, rfl⟩

/-- A transaction that the PSBT carries is found, or another one with its hash. -/
theorem findPrevTx_carries {h : Bytes} (carried : ∃ prev, Carries K psbt h prev) :
    ∃ prev, findPrevTx K psbt h = .ok prev ∧ Carries K psbt h prev := by
  obtain ⟨prev, member, hash⟩ := carried
  have there : ((psbt.inputs.filterMap (·.nonWitnessUtxo)).find? fun prev => displayOrder (K.computeTxid prev) == h).isSome := by
    rw [List.find?_isSome]
    exact ⟨prev, member, by simpa using hash⟩
  obtain ⟨first, found⟩ := Option.isSome_iff_exists.1 there
  have finds : findPrevTx K psbt h = .ok first := orThp_ok.2 found
  exact ⟨first, finds, findPrevTx_ok finds⟩

theorem map_encode_isOk {M : Type} (encode : M → Bytes) {r : Except TrezorError M} (builds : ∃ m, r = .ok m) :
    ∃ ack, (some ∘ encode) <$> r = .ok (some ack) := by
  obtain ⟨m, rfl⟩ := builds
  exact ⟨_, rfl⟩

/-- **What is there is answered.** -/
theorem present_answers {req : TxRequest} (present : Present K psbt network req) :
    ∃ ack, answer K psbt network req = .ok (some ack) := by
  unfold Present at present
  rw [answer_eq]
  cases kind : kindOf req with
  | none =>
    rw [kind] at present
    cases present
  | some k =>
    cases hash : hashOf req <;> rw [kind, hash] at present <;> cases k
    case none.txinput => exact map_encode_isOk _ (buildInputAck_isOk present)
    case none.txoutput => exact map_encode_isOk _ (buildOutputAck_isOk present)
    case some.txmeta h =>
      obtain ⟨prev, found, -⟩ := findPrevTx_carries present
      apply map_encode_isOk
      rw [buildPrevMetaAck, found]
      exact ⟨_, rfl⟩
    case some.txinput h =>
      obtain ⟨prev, found, carries⟩ := findPrevTx_carries present.1
      apply map_encode_isOk
      rw [buildPrevInputAck, found, Except.ok_bind, List.getElem?_eq_getElem (present.2 prev carries)]
      exact ⟨_, rfl⟩
    case some.txoutput h =>
      obtain ⟨prev, found, carries⟩ := findPrevTx_carries present.1
      apply map_encode_isOk
      rw [buildPrevOutputAck, found, Except.ok_bind, List.getElem?_eq_getElem (present.2 prev carries)]
      exact ⟨_, rfl⟩
    all_goals cases present

/-! ## Runs -/

section Run

variable {sessionId : UInt8} {text : String} {coinType : UInt32} {replies : List Reply}

/-- Every acknowledgement of a run is the answer to the request before it. -/
theorem answer_of_served (parses : K.psbtFromStr text = .ok psbt) {req : TxRequest} {ack : Bytes}
    (served : Served K replies (against (signPsbt K sessionId text coinType) replies).2 req ack) :
    answer K psbt (networkOf coinType) req = .ok (some ack) := by
  obtain ⟨k, ⟨-, reply, here, reads⟩, sent⟩ := served
  rw [signPsbt_against parses, List.getElem?_cons_succ, List.getElem?_map] at sent
  obtain ⟨ack', acks, same⟩ := Option.map_eq_some_iff.1 sent
  obtain rfl : ack' = ack := congrArg Request.body same
  obtain ⟨reply', req', here', responds⟩ := serve_ack acks
  cases here.symm.trans here'
  obtain ⟨reads', answers⟩ := respond_ok responds
  cases reads.symm.trans reads'
  exact answers

/-- A request that is read and has an answer gets it next. -/
theorem served_of_answer (parses : K.psbtFromStr text = .ok psbt) {k : Nat} {req : TxRequest} {ack : Bytes}
    (read : Read K replies (against (signPsbt K sessionId text coinType) replies).2 k req)
    (answers : answer K psbt (networkOf coinType) req = .ok (some ack)) :
    (against (signPsbt K sessionId text coinType) replies).2[k + 1]? = some (txAck ack) := by
  obtain ⟨inside, reply, here, reads⟩ := read
  rw [signPsbt_against parses] at inside ⊢
  rw [List.length_cons, List.length_map] at inside
  have responds : respond K psbt (networkOf coinType) reply = .ok (req, some ack) := by
    rw [respond, reads, Except.ok_bind, answers, Except.ok_bind]
  rw [List.getElem?_cons_succ, List.getElem?_map, serve_answers (Nat.lt_succ_iff.1 inside) here responds, Option.map_some]

/-- A request that is read and has no answer ends the run, and nothing is sent after it. -/
theorem ends_of_fails (parses : K.psbtFromStr text = .ok psbt) {k : Nat} {req : TxRequest} {e : TrezorError}
    (read : Read K replies (against (signPsbt K sessionId text coinType) replies).2 k req)
    (fails : answer K psbt (networkOf coinType) req = .error e) :
    (against (signPsbt K sessionId text coinType) replies).1 = .err e ∧
      (against (signPsbt K sessionId text coinType) replies).2.length = k + 1 := by
  obtain ⟨inside, reply, here, reads⟩ := read
  rw [signPsbt_against parses] at inside ⊢
  rw [List.length_cons, List.length_map] at inside
  obtain ⟨ends, count⟩ := serve_fails (Nat.lt_succ_iff.1 inside) here (respond_error reads fails)
  constructor
  · simp only [ends]
  · rw [List.length_cons, List.length_map, count]

end Run

/-- **Streaming.** In every run, against any replies of the device, the exchange opens with the
sizes of the transaction; every acknowledgement is the answer to the request before it, and
without a hash it describes the transaction to be signed; the answers about a hash are pieces of
one transaction that has it; a request for what is there is answered next; and a request for what
is not there ends the run with an error. -/
theorem streaming_describes (K : Crates) (scriptOf : String → Network → Option Bytes) (laws : BitcoinLaws K scriptOf)
    (sessionId : UInt8) (text : String) (coinType : UInt32) (psbt : Psbt) (parses : K.psbtFromStr text = .ok psbt)
    (fits : text.utf8ByteSize < 2 ^ 32) (replies : List Reply) :
    let run := against (signPsbt K sessionId text coinType) replies
    (∃ m : SignTx, run.2.head? = some ⟨some sessionId, BTC_SIGN_TX, K.signTx.encode m⟩ ∧
      m.inputsCount.toNat = psbt.unsignedTx.input.length ∧ m.outputsCount.toNat = psbt.unsignedTx.output.length ∧
      m.version = some psbt.unsignedTx.version.toUInt32 ∧ m.lockTime = some psbt.unsignedTx.lockTime) ∧
    (∀ req ack, Served K replies run.2 req ack → answer K psbt (networkOf coinType) req = .ok (some ack) ∧
      (hashOf req = none → Describes K scriptOf psbt (networkOf coinType) req ack)) ∧
    (∀ h, (∃ req ack, Served K replies run.2 req ack ∧ hashOf req = some h) →
      ∃ t : Rebuilt, displayOrder (sha256d K t.serialize) = h ∧
        ∀ req ack, Served K replies run.2 req ack → hashOf req = some h → t.Piece K req ack) ∧
    (∀ k req, Read K replies run.2 k req → Present K psbt (networkOf coinType) req →
      ∃ ack, run.2[k + 1]? = some (txAck ack)) ∧
    ∀ k req, Read K replies run.2 k req → Missing K psbt req → ∃ e, run.1 = .err e ∧ run.2.length = k + 1 := by
  intro run
  have small : ∀ tx, tx = psbt.unsignedTx ∨ tx ∈ psbt.inputs.filterMap (·.nonWitnessUtxo) →
      tx.input.length < 2 ^ 32 ∧ tx.output.length < 2 ^ 32 := by
    intro tx there
    have stands := laws.text text psbt parses tx there
    omega
  refine ⟨?_, ?_, ?_, ?_, ?_⟩
  · obtain ⟨inputs, outputs⟩ := small _ (.inl rfl)
    refine ⟨_, by rw [show run.2 = _ from congrArg (·.2) (signPsbt_against parses replies)]; rfl, ?_, ?_, rfl, rfl⟩
    · exact UInt32.toNat_ofNat_of_lt' inputs
    · exact UInt32.toNat_ofNat_of_lt' outputs
  · intro req ack served
    have answers := answer_of_served parses served
    exact ⟨answers, describes_of_answer laws answers⟩
  · rintro h ⟨req₀, ack₀, served₀, about₀⟩
    obtain ⟨prev, found, -⟩ := piece_of_answer (answer_of_served parses served₀) about₀
    obtain ⟨carried, hash⟩ := findPrevTx_ok found
    obtain ⟨inputs, outputs⟩ := small prev (.inr carried)
    refine ⟨rebuild prev, ?_, fun req ack served about => ?_⟩
    · rw [serialize_rebuild, ← laws.txid, hash]
    · obtain ⟨prev', found', piece⟩ := piece_of_answer (answer_of_served parses served) about
      cases found.symm.trans found'
      exact piece inputs outputs
  · intro k req read present
    obtain ⟨ack, answers⟩ : ∃ ack, answer K psbt (networkOf coinType) req = .ok (some ack) := present_answers present
    exact ⟨ack, served_of_answer parses read answers⟩
  · intro k req read missing
    obtain ⟨e, fails⟩ : ∃ e, answer K psbt (networkOf coinType) req = .error e := missing_fails missing
    exact ⟨e, ends_of_fails parses read fails⟩

/-- A message that the host only writes. -/
def written {M : Type} (fields : M → Bytes) : Codec M := ⟨fields, fun _ => .error "not read by a host"⟩

/-- The small wallet with real transaction ids, and with previous transactions on the wire. -/
def Crates.streaming : Crates :=
  { Crates.signing with
    computeTxid := fun tx => Crypto.toy.sha256 (Crypto.toy.sha256 (serialize tx)).1
    txAckPrevMeta := written fun m =>
      Bytes.toBe 4 m.version.toNat ++ Bytes.toBe 4 m.lockTime.toNat ++ Bytes.toBe 4 m.inputsCount.toNat ++ Bytes.toBe 4 m.outputsCount.toNat
    txAckPrevInput := written fun m => m.prevHash ++ Bytes.toBe 4 m.prevIndex.toNat ++ Bytes.toBe 4 m.sequence.toNat ++ m.scriptSig
    txAckPrevOutput := written fun m => Bytes.toBe 8 m.amount.toNat ++ m.scriptPubkey }

/-- The script of an address. -/
def walletScriptOf (address : String) (_ : Network) : Option Bytes :=
  if address = "bc1qpayee" then some [0, 20, 6] else none

theorem streaming_laws : BitcoinLaws Crates.streaming walletScriptOf where
  txid tx := rfl
  address script network address made := by
    simp only [Crates.streaming, Crates.signing] at made
    split at made
    · next known =>
      cases made
      rw [known]
      rfl
    · cases made
  text text psbt parses tx there := by
    simp only [Crates.streaming, Crates.signing] at parses
    split at parses
    · next known =>
      cases parses
      rw [known]
      rcases there with rfl | there
      · decide
      · obtain rfl : tx = walletPrevTx := by simpa [walletPsbt] using there
        decide
    · cases parses

/-- The hash of the wallet's previous transaction, in display order. -/
def walletPrevHash : Bytes := displayOrder (Crates.streaming.computeTxid walletPrevTx)

/-- A `TxRequest` about the previous transaction. -/
def asksAbout (kind index : UInt8) : Reply := (BTC_TX_REQUEST, [0x08, kind, 0x12, 36, 0x08, index, 0x12, 32] ++ walletPrevHash)

/-- The device asks for the previous transaction, for its second output and for the input that
spends it, and then for an output that is not there. -/
def streamingReplies : List Reply := [asksAbout 2 0, asksAbout 1 1, asksFor 0 0, asksFor 1 9]

def streamingRun : Outcome TrezorError String × List Request :=
  against (signPsbt Crates.streaming 1 (walletText walletPsbt) 0) streamingReplies

/-- The first two of the questions, as they are read. -/
def asksMeta : TxRequest := ⟨some 2, some ⟨some 0, some walletPrevHash⟩, none⟩
def asksOutput : TxRequest := ⟨some 1, some ⟨some 1, some walletPrevHash⟩, none⟩

theorem walletPrevTx_carried : Carries Crates.streaming walletPsbt walletPrevHash walletPrevTx := ⟨List.mem_singleton.2 rfl, rfl⟩

theorem streaming_describes_sample :
    (∃ t : Rebuilt, displayOrder (sha256d Crates.streaming t.serialize) = walletPrevHash ∧
      (∃ ack, streamingRun.2[1]? = some (txAck ack) ∧ t.Piece Crates.streaming asksMeta ack) ∧
      ∃ ack, streamingRun.2[2]? = some (txAck ack) ∧ t.Piece Crates.streaming asksOutput ack) ∧
    ∃ e, streamingRun.1 = .err e ∧ streamingRun.2.length = 4 := by
  have parses : Crates.streaming.psbtFromStr (walletText walletPsbt) = .ok walletPsbt := signing_parses
  obtain ⟨-, -, pieces, answered, refused⟩ :=
    streaming_describes Crates.streaming walletScriptOf streaming_laws 1 _ 0 walletPsbt parses (by decide) streamingReplies
  have sent : streamingRun.2.length = 4 := by decide +kernel
  have readMeta : Read Crates.streaming streamingReplies streamingRun.2 0 asksMeta := ⟨by omega, asksAbout 2 0, rfl, rfl⟩
  have readOutput : Read Crates.streaming streamingReplies streamingRun.2 1 asksOutput := ⟨by omega, asksAbout 1 1, rfl, rfl⟩
  obtain ⟨metaAck, first⟩ := answered 0 asksMeta readMeta ⟨walletPrevTx, walletPrevTx_carried⟩
  obtain ⟨outputAck, second⟩ := answered 1 asksOutput readOutput ⟨⟨walletPrevTx, walletPrevTx_carried⟩, fun prev carries => by
    obtain rfl := List.mem_singleton.1 carries.1
    decide⟩
  obtain ⟨t, hash, piece⟩ := pieces walletPrevHash ⟨asksMeta, metaAck, ⟨0, readMeta, first⟩, rfl⟩
  refine ⟨⟨t, hash, ⟨metaAck, first, piece _ _ ⟨0, readMeta, first⟩ rfl⟩, outputAck, second, piece _ _ ⟨1, readOutput, second⟩ rfl⟩, ?_⟩
  apply refused 3 ⟨some 1, some ⟨some 9, none⟩, none⟩
  · exact ⟨(sent ▸ by decide : 3 < streamingRun.2.length), asksFor 1 9, rfl, rfl⟩
  · show 2 ≤ 9
    decide

end TrezorCore.Bitcoin
