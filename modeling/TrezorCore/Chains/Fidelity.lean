import TrezorCore.Chains.Tron
import TrezorCore.Lib.Protobuf

/-!
# Tron transactions, whole and reduced

`sign_tx` reads `raw_data` through a vendored schema that knows fewer fields than Tron's own, splits it
into a header and the first contract and encodes both again. What the vendored schema does not know is
skipped on the way. Tron's own schema is a parameter: it says what the further fields come to.
-/

namespace TrezorCore.Tron

open Protobuf
open Ethereum (Secp256k1Signature)

/-! ## Tron's own reading -/

/-- A `bytes` field; without an occurrence it is empty. -/
def bytesAt (number : Nat) (fs : List Field) : Bytes := (len? number fs).getD []

/-- A 64-bit number; without an occurrence it is zero. -/
def numberAt (number : Nat) (fs : List Field) : UInt64 := (varint? number fs).getD 0

/-- A varint as an `int32`. -/
def int32 (n : UInt64) : Int := n.toUInt32.toInt32.toInt

/-- The two contracts that `sign_tx` supports. -/
inductive Kind where
  | transfer
  | trigger
  deriving DecidableEq

namespace Kind

/-- Its number in `TronRawContractType`. -/
def number : Kind → Int
  | .transfer => 1
  | .trigger => 31

def ofNumber (n : Int) : Option Kind :=
  if n = 1 then some .transfer else if n = 31 then some .trigger else none

/-- The type of its message. -/
def message : Kind → UInt16
  | .transfer => TRON_TRANSFER_CONTRACT
  | .trigger => TRON_TRIGGER_SMART_CONTRACT

def ofMessage (type : UInt16) : Option Kind :=
  if type = TRON_TRANSFER_CONTRACT then some .transfer
  else if type = TRON_TRIGGER_SMART_CONTRACT then some .trigger
  else none

/-- The type url of its parameter. -/
def typeUrl : Kind → Bytes
  | .transfer => asciiBytes "type.googleapis.com/protocol.TransferContract"
  | .trigger => asciiBytes "type.googleapis.com/protocol.TriggerSmartContract"

/-- The fields that its message has. -/
def known : Kind → List Nat
  | .transfer => [1, 2, 3]
  | .trigger => [1, 2, 4]

end Kind

/-- The parameter of a contract. -/
inductive Content where
  | transfer (ownerAddress toAddress : Bytes) (amount : UInt64)
  | trigger (ownerAddress contractAddress data : Bytes)
  | other (value : Bytes)
  deriving DecidableEq

def Kind.content (fs : List Field) : Kind → Content
  | .transfer => .transfer (bytesAt 1 fs) (bytesAt 2 fs) (numberAt 3 fs)
  | .trigger => .trigger (bytesAt 1 fs) (bytesAt 2 fs) (bytesAt 4 fs)

/-- The values of the further fields, by number. -/
abbrev Further := Nat → List Value

/-- No further field has a value. -/
def nothing : Further := fun _ => []

/-- What the occurrences of a further field come to: nothing, where they stand for its default or for no
field of the schema. -/
abbrev Meaning := Nat → List Value → List Value

/-- The further fields of Tron's own schema, for each of its messages. -/
structure OwnSchema where
  header : Meaning
  contract : Meaning
  parameter : Meaning
  content : Kind → Meaning

/-- What a message says beyond the fields that both schemas know. -/
def further (known : List Nat) (meaning : Meaning) (fs : List Field) : Further :=
  fun n => if n ∈ known then [] else meaning n (values n fs)

structure OwnContract where
  type : Option Int
  typeUrl : Bytes
  content : Content
  further : Further
  furtherParameter : Further
  furtherContent : Further

structure OwnTransaction where
  refBlockBytes : Bytes
  refBlockHash : Bytes
  expiration : UInt64
  data : Bytes
  timestamp : UInt64
  feeLimit : UInt64
  contracts : List OwnContract
  further : Further

def headerKnown : List Nat := [1, 4, 8, 10, 11, 14, 18]

/-- `type` and `parameter`, and inside the parameter `type_url` and `value`. -/
def contractKnown : List Nat := [1, 2]

/-- The content of a parameter, by the type of its contract. -/
def readContent (S : OwnSchema) (type : Option Int) (value : Bytes) : Content × Further :=
  match type.bind Kind.ofNumber, fields value with
  | some k, some vs => (k.content vs, further k.known (S.content k) vs)
  | _, _ => (.other value, nothing)

/-- A contract; the occurrences of its parameter are merged. -/
def readContract (S : OwnSchema) (payload : Bytes) : Option OwnContract :=
  (fields payload).bind fun cs => (fields (lens 2 cs).flatten).map fun ps =>
    let type := (varint? 1 cs).map int32
    let content := readContent S type (bytesAt 2 ps)
    { type, typeUrl := bytesAt 1 ps, content := content.1, further := further contractKnown S.contract cs,
      furtherParameter := further contractKnown S.parameter ps, furtherContent := content.2 }

/-- A transaction with the header in these fields. -/
def withHeader (fs : List Field) (contracts : List OwnContract) (further : Further) : OwnTransaction :=
  { refBlockBytes := bytesAt 1 fs, refBlockHash := bytesAt 4 fs, expiration := numberAt 8 fs, data := bytesAt 10 fs,
    timestamp := numberAt 14 fs, feeLimit := numberAt 18 fs, contracts, further }

/-- The transaction that `raw_data` encodes. -/
def readOwn (S : OwnSchema) (rawTxProto : Bytes) : Option OwnTransaction :=
  (fields rawTxProto).bind fun fs => ((lens 11 fs).mapM (readContract S)).map fun contracts =>
    withHeader fs contracts (further headerKnown S.header fs)

/-- The transaction that the device is told: the header, and the one contract of the type that its
message has. -/
def received (header contract : Request) : Option OwnTransaction :=
  if header.type = TRON_SIGN_TX then
    (Kind.ofMessage contract.type).bind fun k => (fields header.body).bind fun hs => (fields contract.body).map fun vs =>
      { refBlockBytes := bytesAt 2 hs, refBlockHash := bytesAt 3 hs, expiration := numberAt 4 hs, data := bytesAt 5 hs,
        timestamp := numberAt 6 hs, feeLimit := numberAt 7 hs,
        contracts := [⟨some k.number, k.typeUrl, k.content vs, nothing, nothing, nothing⟩], further := nothing }
  else none

/-- The device is told the transaction, whenever it is told one. -/
def Faithful (K : Crates) (S : OwnSchema) (sessionId : UInt8) (path : List UInt32) (rawTxProto : Bytes) : Prop :=
  ∀ replies header contract, ((signTx K sessionId path rawTxProto).against replies).2 = [header, contract] →
    ∃ tx, readOwn S rawTxProto = some tx ∧ received header contract = some tx

/-- Exactly one contract, which states its type and whose parameter is of that type, and no field with a
value, in the header, the contract, its parameter or the content of that, which the vendored schema lacks. -/
def Plain (S : OwnSchema) (rawTxProto : Bytes) : Prop :=
  ∃ fs payload cs ps vs, ∃ k : Kind, fields rawTxProto = some fs ∧ lens 11 fs = [payload] ∧ fields payload = some cs ∧
    fields (lens 2 cs).flatten = some ps ∧ fields (bytesAt 2 ps) = some vs ∧
    (varint? 1 cs).map int32 = some k.number ∧ bytesAt 1 ps = k.typeUrl ∧
    further headerKnown S.header fs = nothing ∧ further contractKnown S.contract cs = nothing ∧
    further contractKnown S.parameter ps = nothing ∧ further k.known (S.content k) vs = nothing

/-! ## What the code relies on of prost -/

section Laws

variable {M : Type}

/-- A decoder reads its message out of the fields on the wire. -/
def Reads (codec : Codec M) (message : List Field → M → Prop) : Prop :=
  ∀ bytes m, codec.decode bytes = .ok m → ∃ fs, fields bytes = some fs ∧ message fs m

/-- An encoder writes the fields that it knows. -/
def Writes (codec : Codec M) (known : M → List Field) : Prop :=
  ∀ m, fields (codec.encode m) = some (known m)

end Laws

/-- A contract without a type has the first one of the enumeration. -/
def ReadsContract (payload : Bytes) (c : TronRawContract) : Prop :=
  ∃ cs ps, fields payload = some cs ∧ fields (lens 2 cs).flatten = some ps ∧
    c.type = ((varint? 1 cs).map int32).getD 1 ∧ c.parameter.value = bytesAt 2 ps

structure ReadsRaw (fs : List Field) (raw : TronRawTransaction) : Prop where
  refBlockBytes : raw.refBlockBytes = bytesAt 1 fs
  refBlockHash : raw.refBlockHash = bytesAt 4 fs
  expiration : raw.expiration = numberAt 8 fs
  data : raw.data = len? 10 fs
  contract : List.Forall₂ ReadsContract (lens 11 fs) raw.contract
  timestamp : raw.timestamp = numberAt 14 fs
  feeLimit : raw.feeLimit = varint? 18 fs

def transferOf (fs : List Field) : TronTransferContract := ⟨bytesAt 1 fs, bytesAt 2 fs, numberAt 3 fs⟩

def triggerOf (fs : List Field) : TronTriggerSmartContract := ⟨bytesAt 1 fs, bytesAt 2 fs, bytesAt 4 fs⟩

def transferFields (c : TronTransferContract) : List Field :=
  [⟨1, .len c.ownerAddress⟩, ⟨2, .len c.toAddress⟩, ⟨3, .varint c.amount⟩]

def triggerFields (c : TronTriggerSmartContract) : List Field :=
  [⟨1, .len c.ownerAddress⟩, ⟨2, .len c.contractAddress⟩, ⟨4, .len c.data⟩]

def signTxFields (m : TronSignTx) : List Field :=
  m.addressN.map (fun i => ⟨1, .varint i.toUInt64⟩) ++
    [⟨2, .len m.refBlockBytes⟩, ⟨3, .len m.refBlockHash⟩, ⟨4, .varint m.expiration⟩] ++
    (m.data.map fun data => ⟨5, .len data⟩).toList ++ [⟨6, .varint m.timestamp⟩] ++
    (m.feeLimit.map fun limit => ⟨7, .varint limit⟩).toList

/-- The generated codecs of the messages that `sign_tx` builds and reads. -/
structure ProstLaws (K : Crates) : Prop where
  rawTransaction : Reads K.tronRawTransaction ReadsRaw
  signTx : Writes K.tronSignTx signTxFields
  readsTransfer : Reads K.tronTransferContract fun fs c => c = transferOf fs
  writesTransfer : Writes K.tronTransferContract transferFields
  readsTrigger : Reads K.tronTriggerSmartContract fun fs c => c = triggerOf fs
  writesTrigger : Writes K.tronTriggerSmartContract triggerFields

/-! ## What is sent -/

/-- The header that goes out for a raw transaction. -/
def headerOf (path : List UInt32) (raw : TronRawTransaction) : TronSignTx :=
  { addressN := path, refBlockBytes := raw.refBlockBytes, refBlockHash := raw.refBlockHash,
    expiration := raw.expiration, data := raw.data, timestamp := raw.timestamp, feeLimit := raw.feeLimit }

section Sent

variable {K : Crates} {sessionId : UInt8} {path : List UInt32} {rawTxProto : Bytes}

/-- What the signature's reply is read as. -/
def finish (K : Crates) (reply : Reply) : Chat Secp256k1Signature := do
  let msg ← Pairing.expect reply TRON_SIGNATURE "TronSignature" K.tronSignature
  let sig := msg.signature
  if sig.length ≠ 65 then .fail (.thp s!"Tron signature was {sig.length} bytes, expected 65 (r||s||v)")
  else pure ⟨sig.getLastD 0, sig.take 32, (sig.drop 32).take 32⟩

/-- The two messages of the exchange. -/
def exchange (K : Crates) (sessionId : UInt8) (ready : TronSignTx × UInt16 × Bytes) : Chat Secp256k1Signature := do
  let (rt, _) ← Chat.transceiveOn sessionId TRON_SIGN_TX (K.tronSignTx.encode ready.1)
  .ofExcept (Pairing.expectType rt TRON_CONTRACT_REQUEST "TronContractRequest")
  let reply ← Chat.transceive ready.2.1 ready.2.2
  finish K reply

/-- What has been worked out before the first of them. -/
def prepare (K : Crates) (path : List UInt32) (rawTxProto : Bytes) : Except TrezorError (TronSignTx × UInt16 × Bytes) := do
  let raw ← Pairing.decode K.tronRawTransaction "Tron raw_data decode" rawTxProto
  match raw.contract with
  | [] => .error (.thp "Tron transaction has no contract")
  | contract :: _ =>
    let said ← contractMessage K contract
    .ok (headerOf path raw, said)

theorem signTx_eq (K : Crates) (sessionId : UInt8) (path : List UInt32) (rawTxProto : Bytes) :
    signTx K sessionId path rawTxProto = .ofExcept (prepare K path rawTxProto) >>= exchange K sessionId := by
  unfold signTx prepare
  cases Pairing.decode K.tronRawTransaction "Tron raw_data decode" rawTxProto with
  | error e => rfl
  | ok raw =>
    obtain ⟨_, _, _, _, contracts, _, _⟩ := raw
    cases contracts with
    | nil => rfl
    | cons contract more =>
      show (Script.ofExcept (contractMessage K contract) >>= _ : Chat _) = .ofExcept (contractMessage K contract >>= _) >>= _
      cases contractMessage K contract <;> rfl

/-- A prepared exchange comes from the first contract of what was decoded. -/
theorem prepare_ok {said : TronSignTx × UInt16 × Bytes} (ready : prepare K path rawTxProto = .ok said) :
    ∃ raw contract more, K.tronRawTransaction.decode rawTxProto = .ok raw ∧ raw.contract = contract :: more ∧
      said.1 = headerOf path raw ∧ contractMessage K contract = .ok said.2 := by
  obtain ⟨raw, decoded, ready⟩ := Except.bind_eq_ok.1 ready
  rcases one : raw.contract with _ | ⟨contract, more⟩ <;> rw [one] at ready
  · cases ready
  · obtain ⟨message, encoded, ready⟩ := Except.bind_eq_ok.1 ready
    cases ready
    exact ⟨raw, contract, more, Pairing.decode_ok decoded, one, rfl, encoded⟩

/-- The signature's reply is the last one. -/
theorem finish_asked (K : Crates) (reply : Reply) (replies : List Reply) : ((finish K reply).against replies).2 = [] := by
  unfold finish
  rw [Pairing.expect_eq]
  apply Script.against_ofExcept
  intro msg _
  simp only
  split <;> rfl

/-- The header goes out, and the contract when the device asks for it. -/
theorem exchange_asked (K : Crates) (sessionId : UInt8) (ready : TronSignTx × UInt16 × Bytes) (replies : List Reply) :
    ((exchange K sessionId ready).against replies).2 =
      ⟨some sessionId, TRON_SIGN_TX, K.tronSignTx.encode ready.1⟩ ::
        if replies.head?.map Prod.fst = some TRON_CONTRACT_REQUEST then [⟨none, ready.2.1, ready.2.2⟩] else [] := by
  cases replies with
  | nil => rfl
  | cons reply replies =>
    show ((Script.ask _ _).against _).2 = _
    simp only [Script.against_ask, List.head?_cons, Option.map_some, Option.some_inj]
    refine congrArg (_ :: ·) ?_
    show ((Script.ofExcept (Pairing.expectType reply.1 _ _) >>= _ : Chat _).against replies).2 = _
    unfold Pairing.expectType
    split
    · cases replies with
      | nil => rfl
      | cons last replies =>
        show ((Script.ask _ _).against _).2 = _
        rw [Script.against_ask]
        exact congrArg (_ :: ·) (finish_asked K last replies)
    · rfl

end Sent

/-! ## What goes through -/

section Through

variable {K : Crates} {S : OwnSchema}

theorem Kind.ofNumber_number (k : Kind) : Kind.ofNumber k.number = some k := by
  cases k <;> rfl

theorem Kind.ofMessage_message (k : Kind) : Kind.ofMessage k.message = some k := by
  cases k <;> rfl

/-- The supported contracts are the two kinds. -/
theorem ofInt_transfer {n : Int} (known : TronRawContractType.ofInt n = some .transferContract) : n = Kind.transfer.number := by
  unfold TronRawContractType.ofInt at known
  grind [Kind.number]

theorem ofInt_trigger {n : Int} (known : TronRawContractType.ofInt n = some .triggerSmartContract) : n = Kind.trigger.number := by
  unfold TronRawContractType.ofInt at known
  grind [Kind.number]

/-- A contract message has the content of the parameter it was made from. -/
theorem contractMessage_ok (laws : ProstLaws K) {contract : TronRawContract} {said : UInt16 × Bytes}
    (message : contractMessage K contract = .ok said) :
    ∃ (k : Kind) (vs ws : List Field), contract.type = k.number ∧ said.1 = k.message ∧
      fields contract.parameter.value = some vs ∧ fields said.2 = some ws ∧ k.content ws = k.content vs := by
  unfold contractMessage at message
  split at message
  · rename_i known
    obtain ⟨c, decoded, same⟩ := Except.bind_eq_ok.1 message
    cases same
    obtain ⟨vs, wire, rfl⟩ := laws.readsTransfer _ c (Pairing.decode_ok decoded)
    exact ⟨.transfer, vs, _, ofInt_transfer known, rfl, wire, laws.writesTransfer _, rfl⟩
  · rename_i known
    obtain ⟨c, decoded, same⟩ := Except.bind_eq_ok.1 message
    cases same
    obtain ⟨vs, wire, rfl⟩ := laws.readsTrigger _ c (Pairing.decode_ok decoded)
    exact ⟨.trigger, vs, _, ofInt_trigger known, rfl, wire, laws.writesTrigger _, rfl⟩
  · cases message

/-- The path takes the first number only. -/
theorem values_signTx (m : TronSignTx) {n : Nat} (further : n ≠ 1) :
    values n (signTxFields m) = values n (signTxFields { m with addressN := [] }) := by
  have path : values n (m.addressN.map fun i => (⟨1, .varint i.toUInt64⟩ : Field)) = [] := by
    simp [values, Ne.symm further]
  unfold signTxFields
  simp only [List.append_assoc, List.map_nil, List.nil_append]
  rw [values_append, path, List.nil_append]

/-- The header that is sent has the fields of the one that was read. -/
theorem received_header (path : List UInt32) {fs : List Field} {raw : TronRawTransaction} (reads : ReadsRaw fs raw) :
    let hs := signTxFields (headerOf path raw)
    bytesAt 2 hs = bytesAt 1 fs ∧ bytesAt 3 hs = bytesAt 4 fs ∧ numberAt 4 hs = numberAt 8 fs ∧ bytesAt 5 hs = bytesAt 10 fs ∧
      numberAt 6 hs = numberAt 14 fs ∧ numberAt 7 hs = numberAt 18 fs := by
  intro hs
  have data : bytesAt 10 fs = raw.data.getD [] := by rw [reads.data, bytesAt]
  have limit : numberAt 18 fs = raw.feeLimit.getD 0 := by rw [reads.feeLimit, numberAt]
  rw [← reads.refBlockBytes, ← reads.refBlockHash, ← reads.expiration, ← reads.timestamp, data, limit]
  simp only [hs, bytesAt, numberAt, len?, varint?, values_signTx _ (show 2 ≠ 1 by decide), values_signTx _ (show 3 ≠ 1 by decide),
    values_signTx _ (show 4 ≠ 1 by decide), values_signTx _ (show 5 ≠ 1 by decide), values_signTx _ (show 6 ≠ 1 by decide),
    values_signTx _ (show 7 ≠ 1 by decide)]
  clear data limit reads
  obtain ⟨_, _, _, data, _, _, limit⟩ := raw
  cases data <;> cases limit <;> exact ⟨rfl, rfl, rfl, rfl, rfl, rfl⟩

/-- What the device is told of a prepared exchange: the header that was read, and the first contract alone. -/
theorem received_prepared (laws : ProstLaws K) {raw : TronRawTransaction} {fs vs : List Field} {k : Kind}
    (reads : ReadsRaw fs raw) (sessionId : UInt8) (path : List UInt32) {body : Bytes} {ws : List Field}
    (wire : fields body = some ws) (same : k.content ws = k.content vs) :
    received ⟨some sessionId, TRON_SIGN_TX, K.tronSignTx.encode (headerOf path raw)⟩ ⟨none, k.message, body⟩ =
      some (withHeader fs [⟨some k.number, k.typeUrl, k.content vs, nothing, nothing, nothing⟩] nothing) := by
  obtain ⟨blockBytes, blockHash, expiration, data, timestamp, limit⟩ := received_header path reads
  unfold received
  rw [if_pos rfl, Kind.ofMessage_message, Option.bind_some, laws.signTx, Option.bind_some, wire, Option.map_some, blockBytes,
    blockHash, expiration, data, timestamp, limit, same, withHeader]

/-- The contract that is sent, as Tron's own schema reads it. -/
theorem readContract_first {payload : Bytes} {cs ps vs : List Field} {k : Kind} (contract : fields payload = some cs)
    (parameter : fields (lens 2 cs).flatten = some ps) (content : fields (bytesAt 2 ps) = some vs) :
    readContract S payload = some ⟨some k.number, k.typeUrl, k.content vs, nothing, nothing, nothing⟩ ↔
      (varint? 1 cs).map int32 = some k.number ∧ bytesAt 1 ps = k.typeUrl ∧ further contractKnown S.contract cs = nothing ∧
      further contractKnown S.parameter ps = nothing ∧ further k.known (S.content k) vs = nothing := by
  unfold readContract
  rw [contract, Option.bind_some, parameter, Option.map_some, Option.some_inj]
  constructor
  · intro same
    injection same with type url inner contractEnd parameterEnd contentEnd
    rw [type] at contentEnd
    simp only [readContent, Option.bind_some, Kind.ofNumber_number, content] at contentEnd
    exact ⟨type, url, contractEnd, parameterEnd, contentEnd⟩
  · rintro ⟨type, url, contractEnd, parameterEnd, contentEnd⟩
    simp only [type, url, contractEnd, parameterEnd, readContent, Option.bind_some, Kind.ofNumber_number, content, contentEnd]

theorem mapM_one {α β : Type} {f : α → Option β} {x : α} {xs : List α} {b : β} :
    (x :: xs).mapM f = some [b] ↔ xs = [] ∧ f x = some b := by
  rw [List.mapM_cons]
  cases f x with
  | none => simp
  | some c =>
    cases xs with
    | nil => simp
    | cons y ys =>
      rw [List.mapM_cons]
      cases f y with
      | none => simp
      | some d => cases ys.mapM f <;> simp

/-- The transaction that was read is the one that is sent when there is one contract, which is whole, and
the header is. -/
theorem readOwn_sent {rawTxProto payload : Bytes} {payloads : List Bytes} {fs : List Field} {c : OwnContract}
    (wire : fields rawTxProto = some fs) (first : lens 11 fs = payload :: payloads) :
    readOwn S rawTxProto = some (withHeader fs [c] nothing) ↔
      payloads = [] ∧ readContract S payload = some c ∧ further headerKnown S.header fs = nothing := by
  unfold readOwn
  rw [wire, Option.bind_some, first, Option.map_eq_some_iff]
  constructor
  · rintro ⟨contracts, all, same⟩
    injection same with _ _ _ _ _ _ one headerEnd
    subst one
    obtain ⟨alone, whole⟩ := mapM_one.1 all
    exact ⟨alone, whole, headerEnd⟩
  · rintro ⟨alone, whole, headerEnd⟩
    exact ⟨[c], mapM_one.2 ⟨alone, whole⟩, by rw [headerEnd]⟩

/-- What a plain transaction is, once its first contract has been read. -/
theorem plain_iff {rawTxProto payload : Bytes} {payloads : List Bytes} {fs cs ps vs : List Field} {k : Kind}
    (wire : fields rawTxProto = some fs) (first : lens 11 fs = payload :: payloads) (contract : fields payload = some cs)
    (parameter : fields (lens 2 cs).flatten = some ps) (content : fields (bytesAt 2 ps) = some vs)
    (type : ((varint? 1 cs).map int32).getD 1 = k.number) :
    Plain S rawTxProto ↔ payloads = [] ∧
      readContract S payload = some ⟨some k.number, k.typeUrl, k.content vs, nothing, nothing, nothing⟩ ∧
      further headerKnown S.header fs = nothing := by
  rw [readContract_first contract parameter content]
  constructor
  · rintro ⟨fs', payload', cs', ps', vs', k', wire', one, contract', parameter', content', stated, url, headerEnd, ends⟩
    cases wire.symm.trans wire'
    cases first.symm.trans one
    cases contract.symm.trans contract'
    cases parameter.symm.trans parameter'
    cases content.symm.trans content'
    rw [stated] at type
    obtain rfl : k' = k := by
      have same := congrArg Kind.ofNumber type
      rw [Option.getD_some, Kind.ofNumber_number, Kind.ofNumber_number] at same
      exact Option.some.inj same
    exact ⟨rfl, ⟨stated, url, ends⟩, headerEnd⟩
  · rintro ⟨rfl, ⟨stated, url, ends⟩, headerEnd⟩
    exact ⟨fs, payload, cs, ps, vs, k, wire, first, contract, parameter, content, stated, url, headerEnd, ends⟩

end Through

/-- **Tron fidelity.** Either `sign_tx` fails before the first message, or a header and a contract go out;
and then they tell the device the transaction of `raw_data`, as Tron's own schema reads it, exactly when
that is a plain one. -/
theorem tron_fidelity_iff {K : Crates} (laws : ProstLaws K) (S : OwnSchema) (sessionId : UInt8) (path : List UInt32)
    (rawTxProto : Bytes) :
    (∃ e, ∀ replies, (signTx K sessionId path rawTxProto).against replies = (.err e, [])) ∨
    (∃ replies header contract, ((signTx K sessionId path rawTxProto).against replies).2 = [header, contract]) ∧
      (Faithful K S sessionId path rawTxProto ↔ Plain S rawTxProto) := by
  unfold Faithful
  simp only [signTx_eq]
  cases ready : prepare K path rawTxProto with
  | error e => exact .inl ⟨e, fun _ => rfl⟩
  | ok said =>
    have asked : ∀ replies, ((Script.ofExcept (.ok said) >>= exchange K sessionId).against replies).2 = _ :=
      exchange_asked K sessionId said
    have both : ∃ replies header contract, ((Script.ofExcept (.ok said) >>= exchange K sessionId).against replies).2 = [header, contract] :=
      ⟨[(TRON_CONTRACT_REQUEST, [])], _, _, asked _⟩
    obtain ⟨raw, contract, more, decoded, one, header, message⟩ := prepare_ok ready
    obtain ⟨fs, wire, reads⟩ := laws.rawTransaction _ raw decoded
    obtain ⟨k, vs, ws, kind, type, content, sent, same⟩ := contractMessage_ok laws message
    have contracts := reads.contract
    rw [one] at contracts
    cases first : lens 11 fs with
    | nil => rw [first] at contracts; cases contracts
    | cons payload payloads =>
      rw [first] at contracts
      obtain ⟨⟨cs, ps, inner, parameter, stated, value⟩, -⟩ := List.forall₂_cons.1 contracts
      rw [value] at content
      have told := received_prepared laws reads sessionId path sent same
      rw [plain_iff wire first inner parameter content (stated.symm.trans kind)]
      refine .inr ⟨both, ?_⟩
      constructor
      · intro faithful
        obtain ⟨tx, own, tells⟩ := faithful [(TRON_CONTRACT_REQUEST, [])] _ _ (asked _)
        rw [header, type, told] at tells
        cases tells
        exact (readOwn_sent wire first).1 own
      · rintro plain replies q q' said
        rw [asked] at said
        split at said
        · cases said
          rw [header, type]
          exact ⟨_, (readOwn_sent wire first).2 plain, told⟩
        · cases said

/-! ## A codec that keeps the laws -/

section Wire

variable {M : Type}

/-- A codec over the wire format, from what it writes and what it makes of the fields that it reads. -/
def wire (write : M → List Field) (read : List Field → Option M) : Codec M where
  encode m := Protobuf.write (write m)
  decode bytes :=
    match (fields bytes).bind read with
    | some m => .ok m
    | none => .error "failed to decode Protobuf message"

theorem wire_reads {write : M → List Field} {read : List Field → Option M} {message : List Field → M → Prop}
    (meets : ∀ fs m, read fs = some m → message fs m) : Reads (wire write read) message := by
  intro bytes m decoded
  simp only [wire] at decoded
  split at decoded
  · rename_i some
    obtain ⟨fs, onWire, found⟩ := Option.bind_eq_some_iff.1 some
    cases decoded
    exact ⟨fs, onWire, meets fs _ found⟩
  · cases decoded

theorem wire_writes {write : M → List Field} (read : List Field → Option M)
    (simple : ∀ m, ∀ f ∈ write m, f.value.Simple) : Writes (wire write read) write :=
  fun m => fields_write (simple m)

end Wire

def contractOf (payload : Bytes) : Option TronRawContract :=
  (fields payload).bind fun cs => (fields (lens 2 cs).flatten).map fun ps =>
    ⟨((varint? 1 cs).map int32).getD 1, ⟨asciiString (bytesAt 1 ps), bytesAt 2 ps⟩⟩

def rawOf (fs : List Field) : Option TronRawTransaction :=
  ((lens 11 fs).mapM contractOf).map fun contract =>
    { refBlockBytes := bytesAt 1 fs, refBlockHash := bytesAt 4 fs, expiration := numberAt 8 fs, data := len? 10 fs,
      contract, timestamp := numberAt 14 fs, feeLimit := varint? 18 fs }

/-- A contract on the wire, with any further fields behind its own. -/
def contractFields (type : Int) (typeUrl value : Bytes) (more : List Field) : List Field :=
  [⟨1, .varint (UInt64.ofNat type.toNat)⟩, ⟨2, .len (write [⟨1, .len typeUrl⟩, ⟨2, .len value⟩])⟩] ++ more

def rawFields (raw : TronRawTransaction) : List Field :=
  [⟨1, .len raw.refBlockBytes⟩, ⟨4, .len raw.refBlockHash⟩, ⟨8, .varint raw.expiration⟩] ++
    (raw.data.map fun data => ⟨10, .len data⟩).toList ++
    (raw.contract.map fun c =>
      ⟨11, .len (write (contractFields c.type (asciiBytes c.parameter.typeUrl) c.parameter.value []))⟩) ++
    [⟨14, .varint raw.timestamp⟩] ++ (raw.feeLimit.map fun limit => ⟨18, .varint limit⟩).toList

def wireCrates : Crates where
  toCrypto := Crates.toy.toCrypto
  toProst := { Prost.toy with
    tronRawTransaction := wire rawFields rawOf
    tronSignTx := wire signTxFields fun _ => none
    tronTransferContract := wire transferFields fun fs => some (transferOf fs)
    tronTriggerSmartContract := wire triggerFields fun fs => some (triggerOf fs) }
  toBitcoinCrate := Crates.toy.toBitcoinCrate

theorem contractOf_reads {payloads : List Bytes} {contracts : List TronRawContract}
    (all : payloads.mapM contractOf = some contracts) : List.Forall₂ ReadsContract payloads contracts := by
  induction payloads generalizing contracts with
  | nil =>
    cases all
    exact .nil
  | cons payload payloads ih =>
    rw [List.mapM_cons] at all
    obtain ⟨c, read, all⟩ := Option.bind_eq_some_iff.1 all
    obtain ⟨more, rest, all⟩ := Option.bind_eq_some_iff.1 all
    cases all
    obtain ⟨cs, inner, read⟩ := Option.bind_eq_some_iff.1 read
    obtain ⟨ps, parameter, rfl⟩ := Option.map_eq_some_iff.1 read
    exact .cons ⟨cs, ps, inner, parameter, rfl, rfl⟩ (ih rest)

theorem wireCrates_laws : ProstLaws wireCrates where
  rawTransaction := by
    apply wire_reads
    intro fs raw read
    obtain ⟨contracts, all, rfl⟩ := Option.map_eq_some_iff.1 read
    exact ⟨rfl, rfl, rfl, rfl, contractOf_reads all, rfl, rfl⟩
  signTx := by
    apply wire_writes
    intro m f mem
    unfold signTxFields at mem
    simp only [List.mem_append, List.mem_map, List.mem_cons, List.not_mem_nil, or_false, Option.mem_toList,
      Option.map_eq_some_iff] at mem
    obtain (((⟨_, -, rfl⟩ | rfl | rfl | rfl) | ⟨_, -, rfl⟩) | rfl) | ⟨_, -, rfl⟩ := mem <;> trivial
  readsTransfer := wire_reads fun fs c read => (Option.some.inj read).symm
  writesTransfer := by
    apply wire_writes
    simp [transferFields, Value.Simple]
  readsTrigger := wire_reads fun fs c read => (Option.some.inj read).symm
  writesTrigger := by
    apply wire_writes
    simp [triggerFields, Value.Simple]

/-! ## Fields that are dropped -/

/-- A schema in which every further field has a value. -/
def everything : OwnSchema := ⟨fun _ vs => vs, fun _ vs => vs, fun _ vs => vs, fun _ _ vs => vs⟩

def sampleTransfer : TronTransferContract := ⟨List.replicate 21 0x41, List.replicate 21 0x42, 1000000⟩

def sampleTrigger : TronTriggerSmartContract := ⟨List.replicate 21 0x41, List.replicate 21 0x43, [0xa9, 0x05, 0x9c, 0xbb]⟩

def sampleRaw (contracts : List (List Field)) : Bytes :=
  write ([⟨1, .len [0x12, 0x34]⟩, ⟨4, .len (List.replicate 8 0xaa)⟩, ⟨8, .varint 111⟩] ++
    contracts.map (fun c => ⟨11, .len (write c)⟩) ++ [⟨14, .varint 222⟩])

def transferContract (more : List Field) : List Field :=
  contractFields 1 Kind.transfer.typeUrl (write (transferFields sampleTransfer)) more

def triggerContract (furtherContent : List Field) : List Field :=
  contractFields 31 Kind.trigger.typeUrl (write (triggerFields sampleTrigger ++ furtherContent)) []

def plainTx : Bytes := sampleRaw [transferContract []]

def twoContracts : Bytes := sampleRaw [transferContract [], triggerContract []]

/-- A `call_value` of 7. -/
def callValueTx : Bytes := sampleRaw [triggerContract [⟨3, .varint 7⟩]]

/-- A permission id of 2. -/
def permissionTx : Bytes := sampleRaw [transferContract [⟨5, .varint 2⟩]]

/-- The parts of a transaction that a reduced one is short of. -/
def beyond (tx : OwnTransaction) : List (List Value × List Value) :=
  tx.contracts.map fun c => (c.further 5, c.furtherContent 3)

theorem received_beyond {header contract : Request} {tx : OwnTransaction} (told : received header contract = some tx) :
    beyond tx = [([], [])] := by
  unfold received at told
  split at told
  · obtain ⟨k, -, told⟩ := Option.bind_eq_some_iff.1 told
    obtain ⟨hs, -, told⟩ := Option.bind_eq_some_iff.1 told
    obtain ⟨vs, -, rfl⟩ := Option.map_eq_some_iff.1 told
    rfl
  · cases told

/-- The device is asked to sign a transaction that it is not told. -/
def SignedReduced (rawTxProto : Bytes) : Prop :=
  (∃ replies header contract, ((signTx wireCrates 1 [] rawTxProto).against replies).2 = [header, contract]) ∧
    ¬ Faithful wireCrates everything 1 [] rawTxProto

theorem signedReduced_of {rawTxProto : Bytes} (isOk : (prepare wireCrates [] rawTxProto).isOk = true)
    (more : (readOwn everything rawTxProto).map beyond ≠ some [([], [])]) : SignedReduced rawTxProto := by
  have sent : ∃ header contract, ((signTx wireCrates 1 [] rawTxProto).against [(TRON_CONTRACT_REQUEST, [])]).2 = [header, contract] := by
    rw [signTx_eq]
    cases ready : prepare wireCrates [] rawTxProto with
    | error e => rw [ready] at isOk; cases isOk
    | ok said => exact ⟨_, _, exchange_asked wireCrates 1 said _⟩
  obtain ⟨header, contract, sent⟩ := sent
  refine ⟨⟨_, header, contract, sent⟩, fun faithful => ?_⟩
  obtain ⟨tx, own, told⟩ := faithful _ header contract sent
  rw [own, Option.map_some, received_beyond told] at more
  exact more rfl

/-- The second contract, the `call_value` and the permission id are dropped, and the device signs the rest. -/
theorem reduced_signed : SignedReduced twoContracts ∧ SignedReduced callValueTx ∧ SignedReduced permissionTx := by
  refine ⟨signedReduced_of ?_ ?_, signedReduced_of ?_ ?_, signedReduced_of ?_ ?_⟩ <;> decide +kernel

theorem further_nothing {known : List Nat} {fs : List Field} (all : ∀ f ∈ fs, f.number ∈ known) :
    further known (fun _ vs => vs) fs = nothing := by
  funext n
  unfold further
  split
  · rfl
  · rename_i fresh
    have none : fs.filter (fun f => f.number = n) = [] := by
      apply List.filter_eq_nil_iff.2
      intro f mem
      simp only [decide_eq_true_eq]
      rintro rfl
      exact fresh (all f mem)
    rw [values, none]
    rfl

/-- A transfer without further fields is plain. -/
theorem plainTx_plain : Plain everything plainTx := by
  have parameter : fields (lens 2 (transferContract [])).flatten =
      some [⟨1, .len Kind.transfer.typeUrl⟩, ⟨2, .len (write (transferFields sampleTransfer))⟩] := by decide +kernel
  refine ⟨_, _, _, _, _, .transfer, fields_write ?_, rfl, fields_write ?_, parameter, fields_write ?_, rfl, rfl,
    further_nothing ?_, further_nothing ?_, further_nothing ?_, further_nothing ?_⟩
  · simp [Value.Simple]
  · simp [transferContract, contractFields, Value.Simple]
  · simp [transferFields, Value.Simple]
  · decide
  · decide
  · decide
  · decide

/-- The device is told all of it. -/
theorem tron_fidelity_iff_sample : Faithful wireCrates everything 1 [] plainTx := by
  obtain ⟨e, rejected⟩ | ⟨-, faithful⟩ := tron_fidelity_iff wireCrates_laws everything 1 [] plainTx
  · have isOk : (prepare wireCrates [] plainTx).isOk = true := by decide +kernel
    have silent := rejected []
    rw [signTx_eq] at silent
    cases ready : prepare wireCrates [] plainTx with
    | error e => rw [ready] at isOk; cases isOk
    | ok said =>
      rw [ready] at silent
      cases silent
  · exact faithful.2 plainTx_plain

end TrezorCore.Tron
