import TrezorCore.Chains.Ethereum
import TrezorCore.Lib.Rlp

/-!
# EIP-1559 envelopes

What `decode_eip1559_envelope` keeps of an envelope. The reader accepts any RLP list of eight
items or more and looks at nothing else: not at the kinds of the items, not at what follows the
eighth, not at what follows the list, and not at whether a header or the chain id is minimal.
On the canonical encoding of a transaction without an access list, which is what the host builds,
nothing is lost; on any other envelope the device signs another transaction.
-/

namespace TrezorCore.Ethereum

open Rlp

/-! ## Big-endian numbers in 64 bits -/

/-- Shifting a byte in is arithmetic modulo the width. -/
theorem shift_or (a x : Nat) (octet : x < 256) : a * 256 % 2 ^ 64 ||| x = (a * 256 + x) % 2 ^ 64 := by
  have high : a * 256 % 2 ^ 64 = (a % 2 ^ 56) <<< 8 := by
    rw [Nat.shiftLeft_eq]
    omega
  rw [high, ← Nat.shiftLeft_add_eq_or_of_lt (by simpa using octet), Nat.shiftLeft_eq]
  omega

theorem foldl_len (bytes : Bytes) :
    bytes.foldl (fun len x => len * 256 % 2 ^ 64 ||| x.toNat) 0 = Bytes.beNat bytes % 2 ^ 64 := by
  induction bytes using List.reverseRecOn with
  | nil => rfl
  | append_singleton bytes b ih =>
    rw [List.foldl_append, ih, Bytes.beNat_snoc]
    show _ * 256 % 2 ^ 64 ||| b.toNat = _
    rw [shift_or _ _ b.toNat_lt]
    omega

theorem toNat_beToU64 (bytes : Bytes) : (beToU64 bytes).toNat = Bytes.beNat bytes % 2 ^ 64 := by
  unfold beToU64
  induction bytes using List.reverseRecOn with
  | nil => rfl
  | append_singleton bytes b ih =>
    have octet : b.toNat < 256 := b.toNat_lt
    rw [List.foldl_append, Bytes.beNat_snoc]
    show ((bytes.foldl _ (0 : UInt64)) <<< (8 : UInt64) ||| UInt64.ofNat b.toNat).toNat = _
    rw [UInt64.toNat_or, UInt64.toNat_shiftLeft, ih, UInt64.toNat_ofNat_of_lt' (Nat.lt_trans octet (by decide))]
    show (_ <<< 8) % 2 ^ 64 ||| _ = _
    rw [Nat.shiftLeft_eq, shift_or _ _ octet]
    omega

/-! ## Reading an item -/

section Read

theorem rlpReadLen_at (pre bytes post : Bytes) (fits : (pre ++ bytes ++ post).length < 2 ^ 64) :
    rlpReadLen (pre ++ bytes ++ post) pre.length bytes.length =
      .ok (Bytes.beNat bytes % 2 ^ 64, pre.length + bytes.length) := by
  simp only [List.length_append] at fits
  unfold rlpReadLen checkedAdd
  rw [if_pos (by omega)]
  simp only [List.length_append]
  rw [if_neg (by omega), foldl_len, List.append_assoc, List.drop_left, List.take_left]

/-- The kind of a header, by what it announces. -/
def kindOf : Bool → Nat
  | false => 0x80
  | true => 0xc0

/-- A small length stands in the first byte. -/
theorem rlpHeader_short (buf : Bytes) (pos : Nat) (isList : Bool) {len : Nat} (small : len < 56) :
    rlpHeader buf pos (UInt8.ofNat (kindOf isList + len)) = .ok (isList, len, pos) := by
  have byte : (UInt8.ofNat (kindOf isList + len)).toNat = kindOf isList + len := by
    rw [UInt8.toNat_ofNat', Nat.mod_eq_of_lt]
    cases isList <;> simp [kindOf] <;> omega
  have upTo : ∀ b : UInt8, UInt8.ofNat (kindOf isList + len) ≤ b ↔ kindOf isList + len ≤ b.toNat := by
    intro b
    rw [UInt8.le_iff_toNat_le, byte]
  unfold rlpHeader
  simp only [upTo, byte]
  cases isList with
  | false =>
    rw [if_pos (by simp [kindOf]; omega)]
    simp [kindOf]
  | true =>
    rw [if_neg (by simp [kindOf]; omega), if_neg (by simp [kindOf]; omega), if_pos (by simp [kindOf]; omega)]
    simp [kindOf]

/-- A larger one stands behind it. -/
theorem rlpHeader_long (buf : Bytes) (pos : Nat) (isList : Bool) {width : Nat} (some : 0 < width) (fits : width ≤ 8) :
    rlpHeader buf pos (UInt8.ofNat (kindOf isList + 55 + width)) =
      (fun r => (isList, r)) <$> rlpReadLen buf pos width := by
  have byte : (UInt8.ofNat (kindOf isList + 55 + width)).toNat = kindOf isList + 55 + width := by
    rw [UInt8.toNat_ofNat', Nat.mod_eq_of_lt]
    cases isList <;> simp [kindOf] <;> omega
  have upTo : ∀ b : UInt8, UInt8.ofNat (kindOf isList + 55 + width) ≤ b ↔ kindOf isList + 55 + width ≤ b.toNat := by
    intro b
    rw [UInt8.le_iff_toNat_le, byte]
  unfold rlpHeader
  simp only [upTo, byte]
  cases isList with
  | false =>
    rw [if_neg (by simp [kindOf]; omega), if_pos (by simp [kindOf]; omega), show kindOf false + 55 + width - 0xb7 = width by simp [kindOf]]
    rfl
  | true =>
    rw [if_neg (by simp [kindOf]; omega), if_neg (by simp [kindOf]; omega), if_neg (by simp [kindOf]; omega),
      show kindOf true + 55 + width - 0xf7 = width by simp [kindOf]]
    rfl

/-- Behind its header, an item is the payload that the header announces. -/
theorem rlpRead_of_header {buf : Bytes} {pos : Nat} {b : UInt8} {isList : Bool} (front payload post : Bytes)
    (whole : buf = front ++ payload ++ post) (fits : buf.length < 2 ^ 64) (first : buf[pos]? = some b) (headed : ¬ b ≤ 0x7f)
    (header : rlpHeader buf (pos + 1) b = .ok (isList, payload.length, front.length)) :
    rlpRead buf pos = .ok (isList, payload, front.length + payload.length) := by
  have length : buf.length = front.length + payload.length + post.length := by
    rw [whole, List.length_append, List.length_append]
  unfold rlpRead
  simp only [first]
  rw [if_neg headed, header]
  simp only [Except.ok_bind, checkedAdd]
  rw [if_pos (by omega)]
  simp only
  rw [if_neg (by omega), whole, List.append_assoc, List.drop_left, List.take_left]

theorem getElem?_front (pre rest : Bytes) (b : UInt8) : (pre ++ b :: rest)[pre.length]? = some b := by
  rw [List.getElem?_append_right (Nat.le_refl _), Nat.sub_self]
  rfl

theorem headed_of (isList : Bool) {n : Nat} (small : n ≤ 63) : ¬ UInt8.ofNat (kindOf isList + n) ≤ 0x7f := by
  rw [UInt8.le_iff_toNat_le, UInt8.toNat_ofNat']
  cases isList <;> simp [kindOf] <;> omega

/-- Reading what has a header gives the kind of the header and the payload behind it. -/
theorem rlpRead_header (pre payload post : Bytes) (isList : Bool)
    (fits : (pre ++ header (kindOf isList) payload.length ++ payload ++ post).length < 2 ^ 64) :
    rlpRead (pre ++ header (kindOf isList) payload.length ++ payload ++ post) pre.length =
      .ok (isList, payload, pre.length + (header (kindOf isList) payload.length).length + payload.length) := by
  rw [← List.length_append]
  by_cases small : payload.length < 56
  · have head : header (kindOf isList) payload.length = [UInt8.ofNat (kindOf isList + payload.length)] := if_pos small
    have headed : ¬ UInt8.ofNat (kindOf isList + payload.length) ≤ 0x7f := headed_of isList (by omega)
    rw [head] at fits ⊢
    refine rlpRead_of_header _ payload post rfl fits ?_ headed ?_
    · rw [List.append_assoc, List.append_assoc]
      exact getElem?_front _ _ _
    · rw [rlpHeader_short _ _ isList small, List.length_append]
      rfl
  · have wide : payload.length < 2 ^ 64 := by
      simp only [List.length_append] at fits
      omega
    have width : (minimalBe payload.length).length ≤ 8 := length_minimalBe_le wide
    have some : 0 < (minimalBe payload.length).length := length_minimalBe_pos (by omega)
    have head : header (kindOf isList) payload.length =
        UInt8.ofNat (kindOf isList + 55 + (minimalBe payload.length).length) :: minimalBe payload.length := if_neg small
    have headed : ¬ UInt8.ofNat (kindOf isList + 55 + (minimalBe payload.length).length) ≤ 0x7f := by
      rw [Nat.add_assoc]
      exact headed_of isList (by omega)
    rw [head] at fits ⊢
    refine rlpRead_of_header _ payload post rfl fits ?_ headed ?_
    · rw [List.append_assoc, List.append_assoc]
      exact getElem?_front _ _ _
    · rw [rlpHeader_long _ _ isList some width]
      have apart : ∀ b : UInt8, pre ++ b :: minimalBe payload.length ++ payload ++ post =
          (pre ++ [b]) ++ minimalBe payload.length ++ (payload ++ post) := by
        intro b
        simp
      rw [apart] at fits ⊢
      have next : ∀ b : UInt8, pre.length + 1 = (pre ++ [b]).length := by
        intro b
        simp
      rw [next, rlpReadLen_at _ _ _ fits, beNat_minimalBe, Nat.mod_eq_of_lt wide]
      show Except.ok (isList, payload.length, _) = _
      rw [← List.length_append, List.append_assoc, List.singleton_append]

/-- Reading the canonical encoding of an item gives its payload. -/
theorem rlpRead_item (pre post : Bytes) (item : Item) (fits : (pre ++ item.encode ++ post).length < 2 ^ 64) :
    ∃ isList, rlpRead (pre ++ item.encode ++ post) pre.length =
      .ok (isList, item.payload, (pre ++ item.encode).length) := by
  cases item with
  | list payload =>
    have whole : pre ++ (Item.list payload).encode ++ post = pre ++ header (kindOf true) payload.length ++ payload ++ post := by
      simp [Item.encode, encodeList, kindOf]
    refine ⟨true, ?_⟩
    rw [whole] at fits ⊢
    rw [rlpRead_header pre payload post true fits]
    simp [Item.encode, encodeList, Item.payload, kindOf, Nat.add_assoc]
  | string bytes =>
    refine ⟨false, ?_⟩
    rcases encodeString_cases bytes with ⟨b, small, rfl, own⟩ | headed
    · have low : b ≤ 0x7f := by
        rw [UInt8.le_iff_toNat_le]
        exact Nat.le_of_lt_succ (UInt8.lt_iff_toNat_lt.1 small)
      unfold rlpRead
      rw [Item.encode, own, List.append_assoc, List.singleton_append, getElem?_front]
      simp only
      rw [if_pos low, List.length_append]
      rfl
    · have whole : pre ++ (Item.string bytes).encode ++ post = pre ++ header (kindOf false) bytes.length ++ bytes ++ post := by
        simp [Item.encode, headed, kindOf]
      rw [whole] at fits ⊢
      rw [rlpRead_header pre bytes post false fits]
      simp [Item.encode, headed, Item.payload, kindOf, Nat.add_assoc]

/-- The items of a list are read one after the other. -/
theorem rlpItems_encode (items : List Item) (pre : Bytes) (fuel : Nat) (enough : items.length ≤ fuel)
    (fits : (pre ++ (items.map Item.encode).flatten).length < 2 ^ 64) :
    rlpItems (pre ++ (items.map Item.encode).flatten) fuel pre.length = .ok (items.map Item.payload) := by
  induction items generalizing pre fuel with
  | nil =>
    rw [List.map_nil, List.flatten_nil, List.append_nil]
    cases fuel with
    | zero => rfl
    | succ fuel => rw [rlpItems, if_neg (Nat.lt_irrefl _), List.map_nil]
  | cons item items ih =>
    obtain ⟨fuel, rfl⟩ : ∃ n, fuel = n + 1 := ⟨fuel - 1, by simp at enough; omega⟩
    have whole : pre ++ ((item :: items).map Item.encode).flatten =
        pre ++ item.encode ++ (items.map Item.encode).flatten := by simp
    rw [whole] at fits ⊢
    have some := item.encode_pos
    obtain ⟨isList, reads⟩ := rlpRead_item pre _ item fits
    rw [rlpItems, if_pos (by simp only [List.length_append]; omega), reads]
    simp only [Except.ok_bind]
    rw [ih (pre ++ item.encode) fuel (by simpa using enough) fits]
    rfl

/-- A canonical list is read as the payloads of its items. -/
theorem rlpDecodeList_encode (items : List Item) (fits : (encodeList (items.map Item.encode).flatten).length < 2 ^ 64) :
    rlpDecodeList (encodeList (items.map Item.encode).flatten) = .ok (items.map Item.payload) := by
  have room : items.length ≤ (items.map Item.encode).flatten.length := by
    clear fits
    induction items with
    | nil => exact Nat.zero_le _
    | cons item items ih =>
      have some := item.encode_pos
      rw [List.map_cons, List.flatten_cons, List.length_append, List.length_cons]
      omega
  have inner : ([] ++ (items.map Item.encode).flatten).length < 2 ^ 64 := by
    rw [encodeList, List.length_append] at fits
    rw [List.nil_append]
    omega
  have reads := rlpRead_header [] (items.map Item.encode).flatten [] true (by simpa [encodeList, kindOf] using fits)
  rw [List.nil_append, List.append_nil, List.length_nil] at reads
  unfold rlpDecodeList encodeList
  rw [show header 0xc0 _ = header (kindOf true) _ from rfl, reads]
  simp only [Except.ok_bind, if_true]
  exact rlpItems_encode items [] _ room inner

end Read

/-! ## The envelope -/

/-- The items of a transaction, with the encodings of its access list's entries. -/
def envelopeItems (accessList : Bytes) (tx : Eip1559Tx) : List Item :=
  [.string (minimalBe tx.chainId.toNat), .string tx.nonce, .string tx.maxPriorityFee, .string tx.maxFee,
    .string tx.gasLimit, .string tx.recipient, .string tx.value, .string tx.data, .list accessList]

/-- The canonical envelope of a transaction. -/
def envelopeWith (accessList : Bytes) (tx : Eip1559Tx) : Bytes :=
  0x02 :: encodeList ((envelopeItems accessList tx).map Item.encode).flatten

/-- The payload that is signed for a transaction: there is no access list. -/
def encodeEip1559 (tx : Eip1559Tx) : Bytes := envelopeWith [] tx

/-- The fields of a canonical envelope come back. -/
theorem decode_envelopeWith (accessList : Bytes) (tx : Eip1559Tx) (fits : (envelopeWith accessList tx).length < 2 ^ 64) :
    decodeEip1559Envelope (envelopeWith accessList tx) = .ok tx := by
  have inner : (encodeList ((envelopeItems accessList tx).map Item.encode).flatten).length < 2 ^ 64 := by
    rw [envelopeWith, List.length_cons] at fits
    omega
  have chainId : beToU64 (minimalBe tx.chainId.toNat) = tx.chainId := by
    apply UInt64.toNat_inj.1
    rw [toNat_beToU64, beNat_minimalBe, Nat.mod_eq_of_lt tx.chainId.toNat_lt]
  show (rlpDecodeList (encodeList ((envelopeItems accessList tx).map Item.encode).flatten) >>= _) = _
  rw [rlpDecodeList_encode _ inner, Except.ok_bind]
  show Except.ok (Eip1559Tx.mk (beToU64 (minimalBe tx.chainId.toNat)) _ _ _ _ _ _ _) = _
  rw [chainId]
  rfl

/-- **Decoding inverts encoding.** The canonical encoding of a transaction is accepted with exactly
its fields, whatever their lengths and whatever is inside the access list. The length of a slice
is a `usize`. -/
theorem decode_inverts_encode (chainId : Nat) (nonce maxPriorityFee maxFee gasLimit recipient value data accessList : Bytes)
    (small : chainId < 2 ^ 64)
    (fits : (0x02 :: encodeList [encodeString (minimalBe chainId), encodeString nonce, encodeString maxPriorityFee,
      encodeString maxFee, encodeString gasLimit, encodeString recipient, encodeString value, encodeString data,
      encodeList accessList].flatten).length < 2 ^ 64) :
    decodeEip1559Envelope (0x02 :: encodeList [encodeString (minimalBe chainId), encodeString nonce,
      encodeString maxPriorityFee, encodeString maxFee, encodeString gasLimit, encodeString recipient, encodeString value,
      encodeString data, encodeList accessList].flatten) =
        .ok ⟨UInt64.ofNat chainId, nonce, maxPriorityFee, maxFee, gasLimit, recipient, value, data⟩ := by
  have number : (UInt64.ofNat chainId).toNat = chainId := UInt64.toNat_ofNat_of_lt' small
  have decodes := decode_envelopeWith accessList
    ⟨UInt64.ofNat chainId, nonce, maxPriorityFee, maxFee, gasLimit, recipient, value, data⟩
  simp only [envelopeWith, envelopeItems, number, List.map_cons, List.map_nil, Item.encode] at decodes
  exact decodes fits

/-- A payment of 7 with a gas limit of 21000, and an address in the access list. -/
theorem decode_inverts_encode_sample :
    decodeEip1559Envelope (0x02 :: encodeList [encodeString (minimalBe 1), encodeString [0x05], encodeString [0x01],
      encodeString [0x02], encodeString [0x52, 0x08], encodeString (List.replicate 20 0x22), encodeString [0x07],
      encodeString [], encodeList (0xd6 :: 0x94 :: List.replicate 20 0x11 ++ [0xc0])].flatten) =
        .ok ⟨1, [0x05], [0x01], [0x02], [0x52, 0x08], List.replicate 20 0x22, [0x07], []⟩ :=
  decode_inverts_encode 1 [0x05] [0x01] [0x02] [0x52, 0x08] (List.replicate 20 0x22) [0x07] []
    (0xd6 :: 0x94 :: List.replicate 20 0x11 ++ [0xc0]) (by decide) (by decide)

/-- The envelope is the canonical encoding of a transaction without an access list. -/
def Canonical (envelope : Bytes) : Prop := ∃ tx, envelope = encodeEip1559 tx

/-! ## The request -/

/-- The message that asks for a signature of a transaction. -/
def requestFor (path : List UInt32) (tx : Eip1559Tx) : EthereumSignTxEip1559 :=
  { addressN := path, nonce := tx.nonce, maxGasFee := tx.maxFee, maxPriorityFee := tx.maxPriorityFee,
    gasLimit := tx.gasLimit, recipient := some (if tx.recipient.isEmpty then "" else "0x" ++ hexLower tx.recipient),
    value := tx.value, dataInitialChunk := some tx.data, dataLength := UInt32.ofNat tx.data.length, chainId := tx.chainId }

def hexValue (c : Char) : Option Nat :=
  if '0' ≤ c ∧ c ≤ '9' then some (c.toNat - 48) else if 'a' ≤ c ∧ c ≤ 'f' then some (c.toNat - 87) else none

/-- Two digits for each byte. -/
def readHex : List Char → Option Bytes
  | [] => some []
  | a :: b :: rest => do
    let high ← hexValue a
    let low ← hexValue b
    let bytes ← readHex rest
    some (UInt8.ofNat (high * 16 + low) :: bytes)
  | _ => none

/-- The recipient as the device reads it. -/
def recipientOf (text : String) : Option Bytes :=
  match text.toList with
  | [] => some []
  | '0' :: 'x' :: digits => readHex digits
  | _ => none

/-- The payload that a device signs for a request. -/
def payloadOf (msg : EthereumSignTxEip1559) : Option Bytes :=
  (recipientOf (msg.recipient.getD "")).map fun recipient =>
    encodeEip1559 ⟨msg.chainId, msg.nonce, msg.maxPriorityFee, msg.maxGasFee, msg.gasLimit, recipient, msg.value,
      msg.dataInitialChunk.getD []⟩

theorem hexValue_hexDigit (n : Nat) (digit : n < 16) : hexValue (hexDigit n) = some n := by
  have all : ∀ n : Fin 16, hexValue (hexDigit n.1) = some n.1 := by decide
  exact all ⟨n, digit⟩

theorem readHex_hexLower (bytes : Bytes) : readHex (hexLower bytes).toList = some bytes := by
  unfold hexLower
  rw [String.toList_ofList]
  induction bytes with
  | nil => rfl
  | cons b bytes ih =>
    have octet : b.toNat < 256 := b.toNat_lt
    have whole : b.toNat / 16 * 16 + b.toNat % 16 = b.toNat := by omega
    rw [List.flatMap_cons, List.cons_append, List.singleton_append, readHex, hexValue_hexDigit _ (by omega),
      hexValue_hexDigit _ (by omega), ih]
    show some (UInt8.ofNat (b.toNat / 16 * 16 + b.toNat % 16) :: bytes) = _
    rw [whole, UInt8.ofNat_toNat]

theorem recipientOf_text (recipient : Bytes) :
    recipientOf (if recipient.isEmpty then "" else "0x" ++ hexLower recipient) = some recipient := by
  cases recipient with
  | nil => rfl
  | cons b rest =>
    have text : ("0x" ++ hexLower (b :: rest)).toList = '0' :: 'x' :: (hexLower (b :: rest)).toList := by
      rw [String.toList_append]
      rfl
    unfold recipientOf
    simp only [List.isEmpty_cons, Bool.false_eq_true, if_false, text]
    exact readHex_hexLower (b :: rest)

/-- The device signs the fields it was sent. -/
theorem payloadOf_requestFor (path : List UInt32) (tx : Eip1559Tx) :
    payloadOf (requestFor path tx) = some (encodeEip1559 tx) := by
  unfold payloadOf requestFor
  simp only [Option.getD_some, recipientOf_text, Option.map_some]

/-! ## What is signed -/

section Signed

variable {envelope : Bytes} {tx : Eip1559Tx}

/-- A canonical envelope is accepted, and it is the encoding of what comes back. -/
theorem Canonical.decode (canonical : Canonical envelope) (fits : envelope.length < 2 ^ 64) :
    ∃ tx, decodeEip1559Envelope envelope = .ok tx ∧ encodeEip1559 tx = envelope := by
  obtain ⟨tx, rfl⟩ := canonical
  exact ⟨tx, decode_envelopeWith [] tx fits, rfl⟩

/-- Signing an accepted envelope is one request, for the decoded transaction. -/
theorem signEip1559_asked (K : Crates) (sessionId : UInt8) (path : List UInt32)
    (decodes : decodeEip1559Envelope envelope = .ok tx) (replies : List Reply) :
    ((signEip1559 K sessionId path envelope).against replies).2 =
      [⟨some sessionId, ETH_SIGN_TX_EIP1559, K.ethereumSignTxEip1559.encode (requestFor path tx)⟩] := by
  unfold signEip1559
  rw [decodes]
  cases replies with
  | nil => rfl
  | cons reply replies =>
    show ((Script.ask _ _).against _).2 = _
    rw [Script.against_ask]
    refine congrArg (_ :: ·) ?_
    -- nothing is asked while the reply is looked at
    simp only [Pairing.expect_eq]
    apply Script.against_ofExcept
    rintro ⟨v, r, s⟩ _
    cases r with
    | none => rfl
    | some r =>
      cases s with
      | none => rfl
      | some s => rfl

end Signed

/-- **Envelopes.** An accepted envelope is what the device signs for it exactly when it is
canonical. A canonical one is accepted; its one request asks for a signature of the envelope
itself; and no other canonical envelope has that request, with whatever path. -/
theorem canonical_envelope_signed (K : Crates) (sessionId : UInt8) (path : List UInt32) (envelope : Bytes)
    (fits : envelope.length < 2 ^ 63) :
    (∀ tx, decodeEip1559Envelope envelope = .ok tx → (encodeEip1559 tx = envelope ↔ Canonical envelope)) ∧
    (Canonical envelope → ∃ tx, decodeEip1559Envelope envelope = .ok tx ∧ encodeEip1559 tx = envelope ∧
      payloadOf (requestFor path tx) = some envelope ∧
      (∀ replies, ((signEip1559 K sessionId path envelope).against replies).2 =
        [⟨some sessionId, ETH_SIGN_TX_EIP1559, K.ethereumSignTxEip1559.encode (requestFor path tx)⟩]) ∧
      ∀ envelope' tx' path', envelope'.length < 2 ^ 63 → Canonical envelope' →
        decodeEip1559Envelope envelope' = .ok tx' →
        { requestFor path' tx' with addressN := path } = requestFor path tx → envelope' = envelope) := by
  have fits : envelope.length < 2 ^ 64 := by omega
  constructor
  · intro tx decodes
    constructor
    · intro same
      exact ⟨tx, same.symm⟩
    · intro canonical
      obtain ⟨tx', decodes', same⟩ := canonical.decode fits
      cases decodes.symm.trans decodes'
      exact same
  · intro canonical
    obtain ⟨tx, decodes, same⟩ := canonical.decode fits
    have payload : payloadOf (requestFor path tx) = some envelope := by rw [payloadOf_requestFor, same]
    refine ⟨tx, decodes, same, payload, signEip1559_asked K sessionId path decodes, ?_⟩
    intro envelope' tx' path' fits' canonical' decodes' request
    obtain ⟨tx'', decodes'', same'⟩ := canonical'.decode (by omega)
    cases decodes'.symm.trans decodes''
    -- the path is no part of what is signed
    have payload' : payloadOf { requestFor path' tx' with addressN := path } = some envelope' := by
      rw [← same']
      exact payloadOf_requestFor path' tx'
    rw [request, payload] at payload'
    exact Option.some.inj payload'.symm

/-- The items of a payment on chain 1, up to its access list. -/
def paymentItems : Bytes :=
  [0x01, 0x05, 0x01, 0x02, 0x82, 0x52, 0x08, 0x94] ++ List.replicate 20 0x22 ++ [0x07, 0x80]

def plainEnvelope : Bytes := [0x02, 0xdf] ++ paymentItems ++ [0xc0]

/-- The same payment with an address in its access list. -/
def listedEnvelope : Bytes := [0x02, 0xf6] ++ paymentItems ++ [0xd7, 0xd6, 0x94] ++ List.replicate 20 0x11 ++ [0xc0]

/-- The access list does not reach the device: both envelopes decode to the same transaction. -/
theorem access_list_dropped :
    plainEnvelope ≠ listedEnvelope ∧
    (∃ tx, decodeEip1559Envelope plainEnvelope = .ok tx ∧ decodeEip1559Envelope listedEnvelope = .ok tx) ∧
    ¬ ∀ envelope tx, decodeEip1559Envelope envelope = .ok tx → encodeEip1559 tx = envelope := by
  have different : plainEnvelope ≠ listedEnvelope := by decide
  have alike : ∃ tx, decodeEip1559Envelope plainEnvelope = .ok tx ∧ decodeEip1559Envelope listedEnvelope = .ok tx :=
    ⟨_, rfl, rfl⟩
  refine ⟨different, alike, fun faithful => ?_⟩
  obtain ⟨tx, plain, listed⟩ := alike
  exact different ((faithful _ tx plain).symm.trans (faithful _ tx listed))

theorem canonical_envelope_signed_sample :
    ∃ tx, decodeEip1559Envelope plainEnvelope = .ok tx ∧ payloadOf (requestFor [] tx) = some plainEnvelope := by
  have canonical : Canonical plainEnvelope := ⟨⟨1, [5], [1], [2], [0x52, 0x08], List.replicate 20 0x22, [7], []⟩, by decide +kernel⟩
  obtain ⟨tx, decodes, -, payload, -⟩ :=
    (canonical_envelope_signed Crates.toy 1 [] plainEnvelope (by decide)).2 canonical
  exact ⟨tx, decodes, payload⟩

end TrezorCore.Ethereum
