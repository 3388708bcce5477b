import TrezorCore.Thp.Framing

/-!
# One packet

What `push_packet` does with a packet that nobody has checked. A packet is well formed as an
initiation or as a continuation, or it is neither, and there is one equation for each case; when
the buffer is full, the push ends with the verdict on it.
-/

namespace TrezorCore.Framing

/-! ## Kinds of packets -/

/-- A packet with an initiation control byte. -/
def isInitiationPacket : Bytes → Bool
  | [] => false
  | ctrl :: _ => !isContinuation ctrl

/-- A packet with a continuation control byte. -/
def isContinuationPacket : Bytes → Bool
  | [] => false
  | ctrl :: _ => isContinuation ctrl

/-- The channel that a packet names. -/
def channelOf (packet : Bytes) : UInt16 := UInt16.ofNat (Bytes.beNat ((packet.drop 1).take 2))

/-- The length that an initiation packet declares. -/
def declaredLen (packet : Bytes) : Nat := Bytes.beNat ((packet.drop 3).take 2)

/-- A well-formed initiation packet. -/
def Initiates (packet : Bytes) : Prop :=
  isInitiationPacket packet = true ∧ INIT_HEADER ≤ packet.length ∧ CRC_LEN ≤ declaredLen packet

/-- A continuation packet with data. -/
def Continues (packet : Bytes) : Prop := isContinuationPacket packet = true ∧ CONT_HEADER < packet.length

instance : DecidablePred Initiates := fun _ => inferInstanceAs (Decidable (_ ∧ _))
instance : DecidablePred Continues := fun _ => inferInstanceAs (Decidable (_ ∧ _))

theorem declaredLen_le (packet : Bytes) : declaredLen packet ≤ 65535 := by
  have bound := Bytes.beNat_lt ((packet.drop 3).take 2)
  have short : ((packet.drop 3).take 2).length ≤ 2 := by
    rw [List.length_take]
    omega
  have room : 256 ^ ((packet.drop 3).take 2).length ≤ 256 ^ 2 := Nat.pow_le_pow_right (by decide) short
  unfold declaredLen
  omega

/-- A packet's kinds exclude each other. -/
theorem not_initiates {packet : Bytes} (continuation : isContinuationPacket packet = true) : ¬ Initiates packet := by
  rintro ⟨initiation, -, -⟩
  cases packet with
  | nil => cases continuation
  | cons ctrl rest =>
    simp only [isContinuationPacket, isInitiationPacket] at continuation initiation
    rw [continuation] at initiation
    cases initiation

theorem Continues.not_initiates {packet : Bytes} (continues : Continues packet) : ¬ Initiates packet :=
  Framing.not_initiates continues.1

/-! ## Pushing -/

namespace Reassembler

theorem slice_ok {bytes : Bytes} {lo hi : Nat} (h : lo ≤ hi ∧ hi ≤ bytes.length) :
    slice bytes lo hi = pure ((bytes.drop lo).take (hi - lo)) := if_pos h

theorem checkedSub_ok {a b : Nat} (h : b ≤ a) : checkedSub a b = pure (a - b) := if_pos h

/-- Short of the declared length, the reassembler waits. -/
theorem complete_short {r : Reassembler} (h : r.buf.length < r.expectedLen) : complete.run r = (.ok none, r) := by
  have : ¬ r.expectedLen ≤ r.buf.length := by omega
  simp [complete, this]

/-- The reassembler refuses the packet. -/
def Malformed (r : Reassembler) (packet : Bytes) : Prop :=
  packet = [] ∨ (isInitiationPacket packet = true ∧ (packet.length < INIT_HEADER ∨ declaredLen packet < CRC_LEN)) ∨
    (isContinuationPacket packet = true ∧ r.active = true ∧ packet.length ≤ CONT_HEADER)

/-- What an initiation packet leaves in the reassembler before the length is looked at. -/
def start (packet : Bytes) : Reassembler :=
  ⟨true, packet.headD 0, channelOf packet, declaredLen packet, (packet.drop INIT_HEADER).take (declaredLen packet)⟩

/-- What a continuation packet leaves there. -/
def extend (r : Reassembler) (packet : Bytes) : Reassembler :=
  { r with buf := r.buf ++ (packet.drop CONT_HEADER).take (r.expectedLen - r.buf.length) }

/-- The reassembler after a payload. -/
def close (r : Reassembler) : Reassembler := { r with active := false, buf := [] }

def payloadOf (r : Reassembler) : Bytes := r.buf.take (r.expectedLen - CRC_LEN)

/-- The trailer of a full buffer is the CRC of the header and the payload. -/
def Matches (r : Reassembler) : Prop :=
  (crc32Ieee (initHeader r.controlByte r.cid r.expectedLen ++ r.payloadOf)).toNat =
    Bytes.beNat (r.buf.drop (r.expectedLen - CRC_LEN))

instance : DecidablePred Matches := fun _ => inferInstanceAs (Decidable (_ = _))

/-- How a push ends when the buffer is full. -/
def verdict (r : Reassembler) : Outcome TrezorError (Option Bytes) :=
  if r.Matches then .ok (some r.payloadOf) else .err (.thp "THP transport payload CRC mismatch")

theorem complete_full {r : Reassembler} (full : r.buf.length = r.expectedLen) (crc : CRC_LEN ≤ r.expectedLen)
    (fits : r.expectedLen ≤ 65535) : complete.run r = (r.verdict, r.close) := by
  have small : r.expectedLen % 65536 = r.expectedLen := Nat.mod_eq_of_lt (by omega)
  have payload : (r.buf.drop 0).take (r.expectedLen - CRC_LEN - 0) = r.payloadOf := rfl
  have trailer : (r.buf.drop (r.expectedLen - CRC_LEN)).take (r.expectedLen - CRC_LEN + CRC_LEN - (r.expectedLen - CRC_LEN)) =
      r.buf.drop (r.expectedLen - CRC_LEN) := by
    apply List.take_of_length_le
    rw [List.length_drop]
    omega
  simp only [complete, Comp.run_get_bind]
  rw [if_pos (by omega), Comp.run_modify_bind, Comp.run_bind]
  simp only [finish, Comp.run_get_bind]
  rw [checkedSub_ok crc, Comp.pure_bind, slice_ok ⟨by omega, by omega⟩, payload, Comp.pure_bind,
    slice_ok ⟨by omega, by omega⟩, trailer, Comp.pure_bind, small]
  unfold verdict
  by_cases good : r.Matches
  · have same : (crc32Ieee (initHeader r.controlByte r.cid r.expectedLen ++ r.payloadOf)).toNat =
        Bytes.beNat (r.buf.drop (r.expectedLen - CRC_LEN)) := good
    rw [if_pos good, if_neg (not_not.2 same)]
    rfl
  · have different : (crc32Ieee (initHeader r.controlByte r.cid r.expectedLen ++ r.payloadOf)).toNat ≠
        Bytes.beNat (r.buf.drop (r.expectedLen - CRC_LEN)) := good
    rw [if_neg good, if_pos different]
    rfl

theorem push_malformed {r : Reassembler} {packet : Bytes} (bad : r.Malformed packet) :
    ∃ e, (pushPacket packet).run r = (.err e, r) := by
  obtain rfl | ⟨initiation, short⟩ | ⟨continuation, active, short⟩ := bad
  · exact ⟨_, rfl⟩
  · cases packet with
    | nil => cases initiation
    | cons ctrl rest =>
      have first : isContinuation ctrl = false := by simpa [isInitiationPacket] using initiation
      simp only [pushPacket, first, Bool.false_eq_true, if_false]
      by_cases header : (ctrl :: rest).length < INIT_HEADER
      · simp only [pushInitiation, header, if_true, Comp.fail_bind]
        exact ⟨_, rfl⟩
      · have declared : Bytes.beNat (((ctrl :: rest).drop 3).take (5 - 3)) < CRC_LEN := short.resolve_left header
        simp only [INIT_HEADER] at header
        simp only [pushInitiation, INIT_HEADER, header, if_false]
        rw [slice_ok ⟨by omega, by omega⟩, Comp.pure_bind, slice_ok ⟨by omega, by omega⟩, Comp.pure_bind, if_pos declared]
        exact ⟨_, rfl⟩
  · cases packet with
    | nil => cases continuation
    | cons ctrl rest =>
      have next : isContinuation ctrl = true := continuation
      simp only [pushPacket, next, if_true, Comp.run_get_bind, active, pushContinuation, short, Comp.fail_bind]
      exact ⟨_, rfl⟩

/-- A continuation packet outside a payload is dropped. -/
theorem pushPacket_stray {first : UInt8} {rest : Bytes} {r : Reassembler} (cont : isContinuation first = true)
    (idle : r.active = false) : (pushPacket (first :: rest)).run r = (.ok none, r) := by
  simp only [pushPacket, cont, if_true, Comp.run_get_bind, idle, Bool.false_eq_true, if_false, Comp.run_pure]

theorem push_dropped {r : Reassembler} {packet : Bytes} (continuation : isContinuationPacket packet = true)
    (idle : r.active = false) : (pushPacket packet).run r = (.ok none, r) := by
  cases packet with
  | nil => cases continuation
  | cons ctrl rest => exact pushPacket_stray continuation idle

theorem push_initiation {packet : Bytes} (initiates : Initiates packet) (r : Reassembler) :
    (pushPacket packet).run r = complete.run (start packet) := by
  obtain ⟨initiation, header, declared⟩ := initiates
  cases packet with
  | nil => cases initiation
  | cons ctrl rest =>
    have first : isContinuation ctrl = false := by simpa [isInitiationPacket] using initiation
    have long : ¬ (ctrl :: rest).length < INIT_HEADER := by omega
    have room : ¬ Bytes.beNat (((ctrl :: rest).drop 3).take (5 - 3)) < CRC_LEN := Nat.not_lt.2 declared
    have begun : (pushInitiation ctrl (ctrl :: rest)).run r = (.ok (), start (ctrl :: rest)) := by
      simp only [pushInitiation, long, if_false]
      simp only [INIT_HEADER] at header
      rw [slice_ok ⟨by omega, by omega⟩, Comp.pure_bind, slice_ok ⟨by omega, by omega⟩, Comp.pure_bind, if_neg room,
        checkedSub_ok (by simp only [INIT_HEADER]; omega), Comp.pure_bind,
        slice_ok ⟨by omega, by simp only [INIT_HEADER]; omega⟩, Comp.pure_bind, Nat.add_sub_cancel_left,
        ← List.length_drop, ← List.take_eq_take_min]
      rfl
    simp only [pushPacket, first, Bool.false_eq_true, if_false]
    rw [Comp.bind_ok begun]

theorem push_continuation {r : Reassembler} {packet : Bytes} (continues : Continues packet) (active : r.active = true)
    (room : r.buf.length ≤ r.expectedLen) : (pushPacket packet).run r = complete.run (r.extend packet) := by
  obtain ⟨continuation, long⟩ := continues
  cases packet with
  | nil => cases continuation
  | cons ctrl rest =>
    have next : isContinuation ctrl = true := continuation
    have header : ¬ (ctrl :: rest).length ≤ CONT_HEADER := by omega
    have extended : (pushContinuation (ctrl :: rest)).run r = (.ok (), r.extend (ctrl :: rest)) := by
      simp only [pushContinuation, header, if_false, Comp.run_get_bind]
      rw [checkedSub_ok room, Comp.pure_bind, checkedSub_ok (by omega), Comp.pure_bind, slice_ok ⟨by omega, by omega⟩,
        Comp.pure_bind, Nat.add_sub_cancel_left, ← List.length_drop, ← List.take_eq_take_min]
      rfl
    simp only [pushPacket, next, if_true, Comp.run_get_bind, active]
    rw [Comp.bind_ok extended]

end Reassembler

end TrezorCore.Framing
