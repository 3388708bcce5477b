import TrezorCore.Lib.ShiftRegister
import TrezorCore.Thp.Isolation

/-!
# Bursts of errors

`crc32_ieee` is a reflected shift register of 32 bits whose polynomial has its top bit. Two byte
strings that differ inside a window of 32 bits have different CRCs, and a message that is altered
so is rejected with its last packet, wherever the window lies in the packets.
-/

namespace TrezorCore.Framing

open Reassembler

/-- The bits of a byte string, byte by byte, least significant bit first. -/
def bitsOf (bytes : Bytes) : List Bool := bytes.flatMap fun b => (List.range 8).map b.toBitVec.getLsbD

/-- The bits that differ lie in some 32 consecutive ones. -/
def Burst (a b : Bytes) : Prop := ∃ start, ∀ i, (bitsOf a)[i]? ≠ (bitsOf b)[i]? → start ≤ i ∧ i < start + 32

theorem length_bitsOf (bytes : Bytes) : (bitsOf bytes).length = 8 * bytes.length := by
  induction bytes with
  | nil => rfl
  | cons b bytes ih =>
    show ((List.range 8).map b.toBitVec.getLsbD ++ bitsOf bytes).length = _
    rw [List.length_append, ih, List.length_map, List.length_range, List.length_cons]
    omega

theorem bitsOf_append (a b : Bytes) : bitsOf (a ++ b) = bitsOf a ++ bitsOf b := List.flatMap_append

theorem bitsOf_inj {a b : Bytes} (same : bitsOf a = bitsOf b) : a = b := by
  induction a generalizing b with
  | nil =>
    cases b with
    | nil => rfl
    | cons c b =>
      have len := congrArg List.length same
      rw [length_bitsOf, length_bitsOf] at len
      simp at len
  | cons c a ih =>
    cases b with
    | nil =>
      have len := congrArg List.length same
      rw [length_bitsOf, length_bitsOf] at len
      simp at len
    | cons d b =>
      have split : (List.range 8).map c.toBitVec.getLsbD ++ bitsOf a = (List.range 8).map d.toBitVec.getLsbD ++ bitsOf b :=
        same
      obtain ⟨first, rest⟩ := List.append_inj split (by simp)
      have octet : c = d := by
        apply UInt8.toBitVec_inj.1
        apply BitVec.eq_of_getLsbD_eq
        intro i hi
        exact List.map_inj_left.1 first i (List.mem_range.2 hi)
      rw [octet, ih rest]

theorem burst_of_lt {a b : Bytes} (same : a.length = b.length) (start : Nat)
    (window : ∀ i < 8 * a.length, (bitsOf a)[i]? ≠ (bitsOf b)[i]? → start ≤ i ∧ i < start + 32) : Burst a b := by
  refine ⟨start, fun i apart => window i ?_ apart⟩
  apply Nat.not_le.1
  intro beyond
  apply apart
  rw [List.getElem?_eq_none (by rw [length_bitsOf]; omega), List.getElem?_eq_none (by rw [length_bitsOf]; omega)]

/-! ## The register -/

def poly : BitVec 32 := 0xEDB88320#32

theorem toBitVec_crcBit (crc : UInt32) : (crcBit crc).toBitVec = ShiftRegister.step poly crc.toBitVec := by
  have low : (crc &&& 1).toBitVec = (BitVec.ofBool (crc.toBitVec.getLsbD 0)).setWidth 32 := by
    rw [UInt32.toBitVec_and]
    exact BitVec.and_one_eq_setWidth_ofBool_getLsbD
  unfold crcBit ShiftRegister.step
  simp only [UInt32.toBitVec_xor, UInt32.toBitVec_shiftRight, UInt32.toBitVec_and, UInt32.toBitVec_sub] at low ⊢
  rw [low]
  cases crc.toBitVec.getLsbD 0 <;> rfl

theorem toBitVec_crcBits (n : Nat) (crc : UInt32) : (crcBits n crc).toBitVec = ShiftRegister.steps poly n crc.toBitVec := by
  induction n generalizing crc with
  | zero => rfl
  | succ n ih => rw [crcBits, ih, toBitVec_crcBit, ShiftRegister.steps]

/-- A byte goes in bit by bit. -/
theorem toBitVec_crcByte (crc : UInt32) (byte : UInt8) :
    (crcByte crc byte).toBitVec = ShiftRegister.run poly ((List.range 8).map byte.toBitVec.getLsbD) crc.toBitVec := by
  have wide : byte.toUInt32.toBitVec = byte.toBitVec.setWidth 32 := rfl
  unfold crcByte
  rw [toBitVec_crcBits, UInt32.toBitVec_xor, wide, ShiftRegister.steps_eq_run]
  · rfl
  · intro i hi
    rw [BitVec.getLsbD_setWidth, BitVec.getLsbD_of_ge _ _ hi, Bool.and_false]

theorem toBitVec_foldl (data : Bytes) (crc : UInt32) :
    (data.foldl crcByte crc).toBitVec = ShiftRegister.run poly (bitsOf data) crc.toBitVec := by
  induction data generalizing crc with
  | nil => rfl
  | cons b data ih =>
    have split : bitsOf (b :: data) = (List.range 8).map b.toBitVec.getLsbD ++ bitsOf data := rfl
    rw [List.foldl_cons, ih, toBitVec_crcByte, split, ShiftRegister.run_append]

theorem crc_ne_of_burst {a b : Bytes} (same : a.length = b.length) (differ : a ≠ b) (burst : Burst a b) :
    crc32Ieee a ≠ crc32Ieee b := by
  obtain ⟨start, window⟩ := burst
  intro equal
  have registers : a.foldl crcByte 0xFFFFFFFF = b.foldl crcByte 0xFFFFFFFF := by
    have complements := congrArg (fun crc => ~~~crc) equal
    simpa [crc32Ieee] using complements
  have runs := congrArg UInt32.toBitVec registers
  rw [toBitVec_foldl, toBitVec_foldl] at runs
  have apart : bitsOf a ≠ bitsOf b := fun alike => differ (bitsOf_inj alike)
  have lengths : (bitsOf a).length = (bitsOf b).length := by rw [length_bitsOf, length_bitsOf, same]
  have top : poly.getLsbD 31 = true := by decide
  exact ShiftRegister.run_ne_of_burst top lengths apart window _ runs

/-! ## Altered packets -/

/-- The same packets but for the first `n` bytes that they carry. -/
structure Altered (n : Nat) (original altered : List Bytes) : Prop where
  lengths : altered.map List.length = original.map List.length
  initiation : (altered.headD []).take INIT_HEADER = (original.headD []).take INIT_HEADER
  continuations : altered.tail.map (List.take CONT_HEADER) = original.tail.map (List.take CONT_HEADER)
  behind : (carriedBy altered).drop n = (carriedBy original).drop n

theorem length_dataOf {as bs : List Bytes} (same : as.map List.length = bs.map List.length) :
    (dataOf as).length = (dataOf bs).length := by
  induction as generalizing bs with
  | nil =>
    cases bs with
    | nil => rfl
    | cons b bs => cases same
  | cons a as ih =>
    cases bs with
    | nil => cases same
    | cons b bs =>
      obtain ⟨first, rest⟩ := List.cons.inj same
      show (a.drop CONT_HEADER ++ dataOf as).length = (b.drop CONT_HEADER ++ dataOf bs).length
      rw [List.length_append, List.length_append, ih rest, List.length_drop, List.length_drop, first]

theorem length_carriedBy {as bs : List Bytes} (same : as.map List.length = bs.map List.length) :
    (carriedBy as).length = (carriedBy bs).length := by
  cases as with
  | nil =>
    cases bs with
    | nil => rfl
    | cons b bs => cases same
  | cons a as =>
    cases bs with
    | nil => cases same
    | cons b bs =>
      obtain ⟨first, rest⟩ := List.cons.inj same
      show (a.drop INIT_HEADER ++ dataOf as).length = (b.drop INIT_HEADER ++ dataOf bs).length
      rw [List.length_append, List.length_append, length_dataOf rest, List.length_drop, List.length_drop, first]

section Altered

variable {packetSize : Nat} {f : Frame}

/-- The kind is in the header. -/
theorem isContinuationPacket_take (p : Bytes) : isContinuationPacket (p.take CONT_HEADER) = isContinuationPacket p := by
  cases p <;> rfl

/-- What a message's own packets carry. -/
theorem packets_undisturbed (big : INIT_HEADER < packetSize) (ok : Sendable f) : Undisturbed f (packets packetSize f) := by
  have alone := outcomes_packets big ok {}
  rw [packets_eq big ok.fits] at alone ⊢
  exact (delivers_iff big ok (contPackets_kind big _ _) (restPackets_nil_iff big) {}).1 alone

/-- A wrong payload before the right trailer is no match. -/
theorem verdict_altered {payload : Bytes} (same : payload.length = f.payload.length)
    (differ : payload ≠ f.payload) (burst : Burst payload f.payload) :
    (inProgress f (payload ++ Bytes.toBe 4 (frameCrc f).toNat)).verdict = .err (.thp "THP transport payload CRC mismatch") := by
  have len : bodyLen f - CRC_LEN = payload.length := by
    unfold bodyLen
    omega
  have front : (inProgress f (payload ++ Bytes.toBe 4 (frameCrc f).toNat)).payloadOf = payload := by
    show (payload ++ Bytes.toBe 4 (frameCrc f).toNat).take (bodyLen f - CRC_LEN) = payload
    rw [len, List.take_left]
  have mismatch : ¬ (inProgress f (payload ++ Bytes.toBe 4 (frameCrc f).toNat)).Matches := by
    intro good
    unfold Matches at good
    rw [front] at good
    have good : (crc32Ieee (initHeader f.ctrl f.cid (bodyLen f) ++ payload)).toNat =
      Bytes.beNat ((payload ++ Bytes.toBe 4 (frameCrc f).toNat).drop (bodyLen f - CRC_LEN)) := good
    have small : (frameCrc f).toNat < 256 ^ 4 := (frameCrc f).toNat_lt
    rw [len, List.drop_left, Bytes.beNat_toBe, Nat.mod_eq_of_lt small] at good
    obtain ⟨start, window⟩ := burst
    -- the window moves up behind the header
    have shifted : Burst (initHeader f.ctrl f.cid (bodyLen f) ++ payload) (initHeader f.ctrl f.cid (bodyLen f) ++ f.payload) := by
      refine ⟨8 * INIT_HEADER + start, ?_⟩
      intro i apart
      rw [bitsOf_append, bitsOf_append] at apart
      have header : (bitsOf (initHeader f.ctrl f.cid (bodyLen f))).length = 8 * INIT_HEADER := by
        rw [length_bitsOf, length_initHeader]
      by_cases low : i < 8 * INIT_HEADER
      · exact absurd (by rw [List.getElem?_append_left (by omega), List.getElem?_append_left (by omega)]) apart
      · rw [List.getElem?_append_right (by omega), List.getElem?_append_right (by omega), header] at apart
        have inside := window _ apart
        omega
    exact crc_ne_of_burst (by rw [List.length_append, List.length_append, same])
      (fun equal => differ (List.append_cancel_left equal)) shifted (UInt32.toNat_inj.1 good)
  unfold verdict
  rw [if_neg mismatch]

theorem Altered.enough (big : INIT_HEADER < packetSize) (ok : Sendable f) {n : Nat} {altered : List Bytes}
    (alters : Altered n (packets packetSize f) altered) : bodyLen f ≤ (carriedBy altered).length := by
  obtain ⟨-, -, whole⟩ := packets_undisturbed big ok
  have len := congrArg List.length whole
  rw [List.length_take, length_body] at len
  rw [length_carriedBy alters.lengths]
  omega

/-- An altered message is fed, and the buffer that its packets fill is the altered payload with the
trailer of the message. -/
theorem outcomes_altered (big : INIT_HEADER < packetSize) (ok : Sendable f) {altered : List Bytes}
    (alters : Altered f.payload.length (packets packetSize f) altered) (r : Reassembler) :
    outcomes altered r = silentThen (altered.length - 1)
      (inProgress f ((carriedBy altered).take f.payload.length ++ Bytes.toBe 4 (frameCrc f).toNat)).verdict := by
  have enough := alters.enough big ok
  obtain ⟨lengths, initiation, continuations, behind⟩ := alters
  obtain ⟨long, short, whole⟩ := packets_undisturbed big ok
  have unfinished : (carriedBy altered.dropLast).length < bodyLen f := by
    have same : altered.dropLast.map List.length = (packets packetSize f).dropLast.map List.length := by
      rw [List.map_dropLast, List.map_dropLast, lengths]
    rw [length_carriedBy same]
    exact short
  have buffer : (carriedBy altered).take (bodyLen f) =
      (carriedBy altered).take f.payload.length ++ Bytes.toBe 4 (frameCrc f).toNat := by
    have trailer : ((carriedBy altered).drop f.payload.length).take CRC_LEN = Bytes.toBe 4 (frameCrc f).toNat := by
      have cut : ((carriedBy (packets packetSize f)).take (bodyLen f)).drop f.payload.length =
          Bytes.toBe 4 (frameCrc f).toNat := by
        rw [whole, body, List.drop_left]
      rw [behind, ← cut, List.drop_take]
      unfold bodyLen
      rw [Nat.add_sub_cancel_left]
    rw [← trailer]
    exact List.take_add
  rw [packets_eq big ok.fits] at lengths initiation continuations long
  cases altered with
  | nil => cases lengths
  | cons first later =>
    obtain ⟨-, lengths⟩ := List.cons.inj lengths
    simp only [List.tail_cons] at continuations
    have header : first.take INIT_HEADER = initHeader f.ctrl f.cid (bodyLen f) := by
      rw [show first.take INIT_HEADER = (firstPacket packetSize f).take INIT_HEADER from initiation, firstPacket_eq f big,
        List.take_left' (length_initHeader _ _ _)]
    have continuing : ∀ p ∈ later, Continues p := by
      intro p hp
      constructor
      · have member : p.take CONT_HEADER ∈ later.map (List.take CONT_HEADER) := List.mem_map_of_mem hp
        rw [continuations] at member
        obtain ⟨own, hown, same⟩ := List.mem_map.1 member
        rw [← isContinuationPacket_take, ← same, isContinuationPacket_take]
        exact contPackets_kind big _ _ own hown
      · have member : p.length ∈ later.map List.length := List.mem_map_of_mem hp
        rw [lengths] at member
        obtain ⟨own, hown, same⟩ := List.mem_map.1 member
        rw [← same]
        exact long own hown
    have parts : first = initHeader f.ctrl f.cid (bodyLen f) ++ first.drop INIT_HEADER := by
      rw [← header, List.take_append_drop]
    have sum : carriedBy (first :: later) = first.drop INIT_HEADER ++ dataOf later := rfl
    have run := outcomes_message ok (first.drop INIT_HEADER) continuing (by rw [← parts]; exact unfinished) enough r
    rw [← parts, ← sum, buffer] at run
    exact run

end Altered

/-- **Burst detection.** The CRCs of two byte strings of one length that differ, inside 32 bits, are
different; and a message whose payload is altered inside 32 bits on its way returns nothing until
its last packet, and then a mismatch. -/
theorem crc_detects_bursts :
    (∀ a b : Bytes, a.length = b.length → a ≠ b → Burst a b → crc32Ieee a ≠ crc32Ieee b) ∧
    ∀ (packetSize : Nat) (f : Frame) (altered : List Bytes), 5 < packetSize → Sendable f →
      Altered f.payload.length (packets packetSize f) altered → (carriedBy altered).take f.payload.length ≠ f.payload →
      Burst ((carriedBy altered).take f.payload.length) f.payload →
        outcomes altered {} = silentThen (altered.length - 1) (.err (.thp "THP transport payload CRC mismatch")) := by
  refine ⟨fun a b same differ burst => crc_ne_of_burst same differ burst, ?_⟩
  intro packetSize f altered big ok alters differ burst
  have room : f.payload.length ≤ (carriedBy altered).length := by
    have enough := alters.enough big ok
    unfold bodyLen at enough
    omega
  rw [outcomes_altered big ok alters, verdict_altered _ differ burst]
  rw [List.length_take]
  exact Nat.min_eq_left room

/-- A message of four bytes in packets of seven, so that two of the bytes are in each of two packets. -/
def shortMessage : Frame := ⟨1, 0x04, [7, 7, 7, 7]⟩

/-- The bytes on both sides of the packets' boundary are altered. -/
def shortAltered : List Bytes :=
  (packets 7 shortMessage).mapIdx fun i p => if i = 0 then p.set 6 8 else if i = 1 then p.set 3 9 else p

theorem crc_detects_bursts_sample :
    crc32Ieee [7, 7] ≠ crc32Ieee [7, 8] ∧
      outcomes shortAltered {} = silentThen (shortAltered.length - 1) (.err (.thp "THP transport payload CRC mismatch")) := by
  have single : Burst [7, 7] [7, 8] := burst_of_lt rfl 8 (by decide +kernel)
  have double : Burst ((carriedBy shortAltered).take shortMessage.payload.length) shortMessage.payload :=
    burst_of_lt (by decide +kernel) 8 (by decide +kernel)
  have alters : Altered shortMessage.payload.length (packets 7 shortMessage) shortAltered :=
    ⟨by decide +kernel, by decide +kernel, by decide +kernel, by decide +kernel⟩
  exact ⟨crc_detects_bursts.1 _ _ rfl (by decide) single,
    crc_detects_bursts.2 7 shortMessage shortAltered (by decide) ⟨by decide, by decide⟩ alters (by decide +kernel) double⟩

end TrezorCore.Framing
