import TrezorCore.Thp.Intake
import TrezorCore.Thp.Reassembly

/-!
# Channels in reassembly

A reassembler keeps the channel of the payload in progress for the CRC, and compares it with
nothing: a continuation packet of another channel is not dropped while a payload is in progress.
Its data go into the buffer, and the payload survives only if they happen to repeat the bytes
that were due.
-/

namespace TrezorCore.Framing

open Reassembler

/-- A continuation packet of another channel. -/
def Foreign (cid : UInt16) (packet : Bytes) : Prop :=
  isContinuationPacket packet = true ∧ CONT_HEADER ≤ packet.length ∧ channelOf packet ≠ cid

instance (cid : UInt16) : DecidablePred (Foreign cid) := fun _ => inferInstanceAs (Decidable (_ ∧ _))

/-- Packets with others in the gaps between them. -/
def weave : List Bytes → List (List Bytes) → List Bytes
  | own :: next :: rest, gap :: gaps => own :: (gap ++ weave (next :: rest) gaps)
  | own, _ => own

/-- The bytes that a first packet and the packets behind it carry. -/
def carriedBy : List Bytes → Bytes
  | [] => []
  | first :: later => first.drop INIT_HEADER ++ dataOf later

/-- Every packet behind the first has data, all before the last carry less than the declared length,
and what is carried begins with the message's own bytes. -/
def Undisturbed (f : Frame) (mixed : List Bytes) : Prop :=
  (∀ p ∈ mixed.tail, CONT_HEADER < p.length) ∧ (carriedBy mixed.dropLast).length < bodyLen f ∧
    (carriedBy mixed).take (bodyLen f) = body f

/-- The first packet stays in front, and behind it there are own packets and inserted ones. -/
theorem weave_cons (own : Bytes) (rest : List Bytes) (gaps : List (List Bytes)) :
    ∃ later, weave (own :: rest) gaps = own :: later ∧ (later = [] ↔ rest = []) ∧
      ∀ p ∈ later, p ∈ rest ∨ ∃ gap ∈ gaps, p ∈ gap := by
  induction rest generalizing own gaps with
  | nil =>
    refine ⟨[], ?_, Iff.rfl, by simp⟩
    cases gaps <;> rfl
  | cons next rest ih =>
    cases gaps with
    | nil => exact ⟨next :: rest, rfl, by simp, fun p hp => .inl hp⟩
    | cons gap gaps =>
      obtain ⟨later, woven, -, members⟩ := ih next gaps
      refine ⟨gap ++ weave (next :: rest) gaps, rfl, by simp [woven], ?_⟩
      intro p hp
      obtain inserted | behind := List.mem_append.1 hp
      · exact .inr ⟨gap, List.mem_cons_self, inserted⟩
      · rw [woven] at behind
        obtain rfl | behind := List.mem_cons.1 behind
        · exact .inl List.mem_cons_self
        · obtain own | ⟨gap', member, inserted⟩ := members p behind
          · exact .inl (List.mem_cons_of_mem _ own)
          · exact .inr ⟨gap', List.mem_cons_of_mem _ member, inserted⟩

theorem contPackets_kind {packetSize : Nat} {cid : UInt16} (big : INIT_HEADER < packetSize) (fuel : Nat) (rest : Bytes) :
    ∀ p ∈ contPackets packetSize cid fuel rest, isContinuationPacket p = true := by
  induction fuel generalizing rest with
  | zero =>
    intro p hp
    simp [contPackets] at hp
  | succ fuel ih =>
    intro p hp
    cases rest with
    | nil => simp at hp
    | cons b bs =>
      rw [contPackets_cons big (by simp)] at hp
      obtain rfl | hp := List.mem_cons.1 hp
      · have head : isContinuation CONTINUATION_CONTROL = true := by decide
        exact head
      · exact ih _ p hp

/-- A full buffer gives the payload exactly when it is the message's body. -/
theorem verdict_iff {f : Frame} {buf : Bytes} (full : buf.length = bodyLen f) :
    (inProgress f buf).verdict = .ok (some f.payload) ↔ buf = body f := by
  have len : bodyLen f - CRC_LEN = f.payload.length := by
    unfold bodyLen
    omega
  constructor
  · intro delivered
    unfold verdict at delivered
    split at delivered
    · next good =>
      have payload : buf.take (bodyLen f - CRC_LEN) = f.payload := by
        simpa [payloadOf, inProgress] using delivered
      have crc : (frameCrc f).toNat = Bytes.beNat (buf.drop (bodyLen f - CRC_LEN)) := by
        have good : (crc32Ieee (initHeader f.ctrl f.cid (bodyLen f) ++ buf.take (bodyLen f - CRC_LEN))).toNat =
          Bytes.beNat (buf.drop (bodyLen f - CRC_LEN)) := good
        rw [payload] at good
        exact good
      have trailer : (buf.drop (bodyLen f - CRC_LEN)).length = 4 := by
        rw [List.length_drop, full]
        unfold bodyLen CRC_LEN
        omega
      have written := Bytes.toBe_beNat (buf.drop (bodyLen f - CRC_LEN))
      rw [trailer, ← crc] at written
      unfold body
      rw [written, ← payload, List.take_append_drop]
    · cases delivered
  · rintro rfl
    exact verdict_body f

section Delivery

variable {packetSize : Nat} {f : Frame}

/-- The continuation packets of a message, from where the first packet left it. -/
theorem outcomes_contPackets (big : INIT_HEADER < packetSize) (ok : Sendable f) (fuel : Nat) (buf rest : Bytes)
    (split : body f = buf ++ rest) (more : rest ≠ []) (enough : rest.length ≤ fuel) :
    outcomes (contPackets packetSize f.cid fuel rest) (inProgress f buf) =
      silentThen ((contPackets packetSize f.cid fuel rest).length - 1) (.ok (some f.payload)) := by
  induction fuel generalizing buf rest with
  | zero => exact absurd (List.eq_nil_of_length_eq_zero (Nat.le_zero.1 enough)) more
  | succ fuel ih =>
    have room : 0 < packetSize - CONT_HEADER := by
      simp only [INIT_HEADER, CONT_HEADER] at big ⊢
      omega
    rw [contPackets_cons big more, outcomes, push_contPacket ok room f.cid split more]
    by_cases done : rest.length ≤ packetSize - CONT_HEADER
    · rw [if_pos done, List.drop_eq_nil_of_le done, contPackets_nil]
      rfl
    · rw [if_neg done]
      have left : rest.drop (packetSize - CONT_HEADER) ≠ [] := by
        intro nil
        exact done (List.drop_eq_nil_iff.1 nil)
      have whole : body f = buf ++ rest.take (packetSize - CONT_HEADER) ++ rest.drop (packetSize - CONT_HEADER) := by
        rw [List.append_assoc, List.take_append_drop]
        exact split
      have short : (rest.drop (packetSize - CONT_HEADER)).length ≤ fuel := by
        rw [List.length_drop]
        omega
      have positive : 0 < (contPackets packetSize f.cid fuel (rest.drop (packetSize - CONT_HEADER))).length := by
        apply List.length_pos_iff.2
        cases fuel with
        | zero => exact absurd (List.eq_nil_of_length_eq_zero (Nat.le_zero.1 short)) left
        | succ fuel =>
          rw [contPackets_cons big left]
          exact List.cons_ne_nil _ _
      simp only
      rw [ih _ _ whole left short, List.length_cons]
      generalize (contPackets packetSize f.cid fuel (rest.drop (packetSize - CONT_HEADER))).length = n at positive
      obtain ⟨k, rfl⟩ : ∃ k, n = k + 1 := ⟨n - 1, by omega⟩
      rfl

/-- A message that fits its first packet needs no other. -/
theorem restPackets_nil_iff (big : INIT_HEADER < packetSize) :
    restPackets packetSize f ((body f).drop (packetSize - INIT_HEADER)) = [] ↔ bodyLen f ≤ packetSize - INIT_HEADER := by
  unfold restPackets
  constructor
  · intro nil
    apply Nat.not_lt.1
    intro long
    have left : (body f).drop (packetSize - INIT_HEADER) ≠ [] := by
      intro nothing
      have short := List.drop_eq_nil_iff.1 nothing
      rw [length_body] at short
      omega
    obtain ⟨k, hk⟩ : ∃ k, bodyLen f = k + 1 := ⟨bodyLen f - 1, by omega⟩
    rw [hk, contPackets_cons big left] at nil
    cases nil
  · intro done
    rw [List.drop_eq_nil_of_le (by rwa [length_body]), contPackets_nil]

/-- A message fed alone. -/
theorem outcomes_packets (big : INIT_HEADER < packetSize) (ok : Sendable f) (r : Reassembler) :
    outcomes (packets packetSize f) r = silentThen ((packets packetSize f).length - 1) (.ok (some f.payload)) := by
  rw [packets_eq big ok.fits, outcomes, push_firstPacket ok big]
  unfold restPackets
  by_cases done : bodyLen f ≤ packetSize - INIT_HEADER
  · have nothing : (body f).drop (packetSize - INIT_HEADER) = [] := List.drop_eq_nil_of_le (by rwa [length_body])
    rw [if_pos done, nothing, contPackets_nil]
    rfl
  · have left : (body f).drop (packetSize - INIT_HEADER) ≠ [] := by
      intro nil
      exact done (by simpa using List.drop_eq_nil_iff.1 nil)
    have short : ((body f).drop (packetSize - INIT_HEADER)).length ≤ bodyLen f := by
      rw [List.length_drop, length_body]
      omega
    have rest := outcomes_contPackets big ok (bodyLen f) _ _ (List.take_append_drop _ (body f)).symm left short
    rw [if_neg done]
    simp only
    rw [rest, List.length_cons]
    have positive : 0 < (contPackets packetSize f.cid (bodyLen f) ((body f).drop (packetSize - INIT_HEADER))).length := by
      apply List.length_pos_iff.2
      obtain ⟨k, hk⟩ : ∃ k, bodyLen f = k + 1 := ⟨bodyLen f - 1, by unfold bodyLen CRC_LEN; omega⟩
      rw [hk, contPackets_cons big left]
      exact List.cons_ne_nil _ _
    generalize (contPackets packetSize f.cid (bodyLen f) ((body f).drop (packetSize - INIT_HEADER))).length = n at positive
    obtain ⟨k, rfl⟩ : ∃ k, n = k + 1 := ⟨n - 1, by omega⟩
    rfl

/-- Any packets under the headers of a message, of which only the last completes it. -/
theorem outcomes_message (ok : Sendable f) (data : Bytes) {later : List Bytes} (continuing : ∀ p ∈ later, Continues p)
    (short : (carriedBy ((initHeader f.ctrl f.cid (bodyLen f) ++ data) :: later).dropLast).length < bodyLen f)
    (full : bodyLen f ≤ (data ++ dataOf later).length) (r : Reassembler) :
    outcomes ((initHeader f.ctrl f.cid (bodyLen f) ++ data) :: later) r =
      silentThen later.length (inProgress f ((data ++ dataOf later).take (bodyLen f))).verdict := by
  have crc : CRC_LEN ≤ bodyLen f := by
    unfold bodyLen
    omega
  rw [outcomes, pushPacket_first ok]
  cases later with
  | nil =>
    have whole : dataOf [] = [] := rfl
    rw [whole, List.append_nil] at full ⊢
    have filled : (data.take (bodyLen f)).length = bodyLen f := by
      rw [List.length_take]
      exact Nat.min_eq_left full
    rw [complete_full (r := inProgress f (data.take (bodyLen f))) filled crc ok.fits]
    rfl
  | cons next rest =>
    have front : ((initHeader f.ctrl f.cid (bodyLen f) ++ data) :: next :: rest).dropLast =
        (initHeader f.ctrl f.cid (bodyLen f) ++ data) :: (next :: rest).dropLast := rfl
    have carried : carriedBy ((initHeader f.ctrl f.cid (bodyLen f) ++ data) :: (next :: rest).dropLast) =
        data ++ dataOf (next :: rest).dropLast := by
      show (initHeader f.ctrl f.cid (bodyLen f) ++ data).drop INIT_HEADER ++ _ = _
      rw [List.drop_left' (length_initHeader _ _ _)]
    rw [front, carried] at short
    have still : data.length < bodyLen f := by
      rw [List.length_append] at short
      omega
    rw [List.take_of_length_le (Nat.le_of_lt still), complete_short still]
    simp only
    rw [outcomes_fill (r := inProgress f data) (by simp) (.inr ⟨rfl, crc, ok.fits, still⟩) rfl continuing short full]
    rfl

/-- A first packet with continuation packets behind it, if the message needs any. -/
theorem delivers_iff (big : INIT_HEADER < packetSize) (ok : Sendable f) {later : List Bytes}
    (kind : ∀ p ∈ later, isContinuationPacket p = true) (needed : later = [] ↔ bodyLen f ≤ packetSize - INIT_HEADER)
    (r : Reassembler) :
    outcomes (firstPacket packetSize f :: later) r = silentThen later.length (.ok (some f.payload)) ↔
      Undisturbed f (firstPacket packetSize f :: later) := by
  have first := push_firstPacket ok big r
  have data : (firstPacket packetSize f).drop INIT_HEADER = (body f).take (packetSize - INIT_HEADER) ++
      List.replicate (packetSize - INIT_HEADER - bodyLen f) 0 := by
    rw [firstPacket_eq f big, List.drop_left' (length_initHeader _ _ _)]
  have positive : 0 < bodyLen f := by
    unfold bodyLen CRC_LEN
    omega
  by_cases done : bodyLen f ≤ packetSize - INIT_HEADER
  · obtain rfl := needed.2 done
    rw [if_pos done] at first
    have holds : Undisturbed f [firstPacket packetSize f] := by
      refine ⟨by simp, positive, ?_⟩
      show ((firstPacket packetSize f).drop INIT_HEADER ++ dataOf []).take (bodyLen f) = body f
      have whole : (body f).take (packetSize - INIT_HEADER) = body f := List.take_of_length_le (by rwa [length_body])
      rw [data, whole, show dataOf [] = [] from rfl, List.append_nil]
      exact List.take_left' (length_body f)
    rw [outcomes, outcomes, first]
    exact ⟨fun _ => holds, fun _ => rfl⟩
  · have nonempty : later ≠ [] := fun nil => done (needed.1 nil)
    have active : (inProgress f ((body f).take (packetSize - INIT_HEADER))).active = true := rfl
    have valid : (inProgress f ((body f).take (packetSize - INIT_HEADER))).Valid := by
      refine .inr ⟨rfl, ?_, ok.fits, ?_⟩
      · show CRC_LEN ≤ bodyLen f
        unfold bodyLen
        omega
      · show ((body f).take (packetSize - INIT_HEADER)).length < bodyLen f
        rw [List.length_take, length_body]
        omega
    have exact : (firstPacket packetSize f).drop INIT_HEADER = (body f).take (packetSize - INIT_HEADER) := by
      rw [data, show packetSize - INIT_HEADER - bodyLen f = 0 by omega]
      simp
    have front : (firstPacket packetSize f :: later).dropLast = firstPacket packetSize f :: later.dropLast :=
      List.dropLast_cons_of_ne_nil nonempty
    obtain ⟨k, hk⟩ : ∃ k, later.length = k + 1 := ⟨later.length - 1, by have := List.length_pos_iff.2 nonempty; omega⟩
    have silent : silentThen later.length (.ok (some f.payload)) = .ok none :: silentThen (later.length - 1) (.ok (some f.payload)) := by
      rw [hk]
      rfl
    rw [if_neg done] at first
    rw [outcomes, first, silent, List.cons.injEq]
    unfold Undisturbed
    rw [front]
    simp only [carriedBy, exact, List.tail_cons, true_and]
    generalize (body f).take (packetSize - INIT_HEADER) = pre at active valid
    have buffer : ((pre ++ dataOf later).take (bodyLen f) = body f → bodyLen f ≤ (pre ++ dataOf later).length) := by
      intro whole
      have len := congrArg List.length whole
      rw [List.length_take, length_body] at len
      omega
    constructor
    · intro delivers
      obtain ⟨continuing, short, full⟩ := fill_of_outcomes nonempty valid active kind delivers
      have ends := outcomes_fill nonempty valid active continuing short full
      rw [delivers] at ends
      have verdict := (List.cons.inj (List.append_cancel_left ends)).1
      refine ⟨fun p hp => (continuing p hp).2, short, ?_⟩
      apply (verdict_iff _).1 verdict.symm
      show ((pre ++ dataOf later).take (bodyLen f)).length = bodyLen f
      rw [List.length_take]
      exact Nat.min_eq_left full
    · rintro ⟨long, short, whole⟩
      have ends := outcomes_fill nonempty valid active (fun p hp => ⟨kind p hp, long p hp⟩) short (buffer whole)
      have verdict : (inProgress f ((pre ++ dataOf later).take (bodyLen f))).verdict = .ok (some f.payload) := by
        rw [whole]
        exact (verdict_iff (length_body f)).2 rfl
      rw [ends]
      exact congrArg _ verdict

end Delivery

/-- **Isolation.** A message fed alone comes out with its last packet. With continuation packets of
other channels between its packets it does so exactly when these have data, leave the message
unfinished until its last packet, and repeat the message's own bytes. -/
theorem isolated_iff {packetSize : Nat} (big : 5 < packetSize) {f : Frame} (ok : Sendable f) {gaps : List (List Bytes)}
    (foreign : ∀ gap ∈ gaps, ∀ p ∈ gap, Foreign f.cid p) (r : Reassembler) :
    outcomes (packets packetSize f) r = silentThen ((packets packetSize f).length - 1) (.ok (some f.payload)) ∧
    (outcomes (weave (packets packetSize f) gaps) r =
        silentThen ((weave (packets packetSize f) gaps).length - 1) (.ok (some f.payload)) ↔
      Undisturbed f (weave (packets packetSize f) gaps)) := by
  refine ⟨outcomes_packets big ok r, ?_⟩
  rw [packets_eq big ok.fits]
  obtain ⟨later, woven, empty, members⟩ := weave_cons (firstPacket packetSize f)
    (restPackets packetSize f ((body f).drop (packetSize - INIT_HEADER))) gaps
  rw [woven]
  apply delivers_iff big ok
  · intro p hp
    obtain own | ⟨gap, member, inserted⟩ := members p hp
    · exact contPackets_kind big _ _ p own
    · exact (foreign gap member p inserted).1
  · rw [empty]
    exact restPackets_nil_iff big

/-- A message of two packets on channel 1, and a packet of channel 2 with three bytes. -/
def sampleMessage : Frame := ⟨1, 0x04, List.replicate 100 7⟩

def samplePacket : Bytes := Bytes.resize 64 [0x80, 0, 2, 1, 2, 3]

/-- The packet of channel 2 is absorbed, and the message of channel 1 is lost. -/
theorem foreign_packet_absorbed :
    Sendable sampleMessage ∧ Foreign sampleMessage.cid samplePacket ∧
    outcomes (packets 64 sampleMessage) {} = [.ok none, .ok (some sampleMessage.payload)] ∧
    outcomes (weave (packets 64 sampleMessage) [[samplePacket]]) {} =
      [.ok none, .err (.thp "THP transport payload CRC mismatch"), .ok none] ∧
    ¬ ∀ gaps : List (List Bytes), (∀ gap ∈ gaps, ∀ p ∈ gap, Foreign sampleMessage.cid p) →
      outcomes (weave (packets 64 sampleMessage) gaps) {} =
        silentThen ((weave (packets 64 sampleMessage) gaps).length - 1) (.ok (some sampleMessage.payload)) := by
  have sendable : Sendable sampleMessage := ⟨by decide, by decide⟩
  have foreign : Foreign sampleMessage.cid samplePacket := by decide +kernel
  have alone : outcomes (packets 64 sampleMessage) {} = [.ok none, .ok (some sampleMessage.payload)] := by decide +kernel
  have mixed : outcomes (weave (packets 64 sampleMessage) [[samplePacket]]) {} =
      [.ok none, .err (.thp "THP transport payload CRC mismatch"), .ok none] := by
    decide +kernel
  refine ⟨sendable, foreign, alone, mixed, ?_⟩
  intro isolated
  have same := isolated [[samplePacket]] (by simpa using foreign)
  rw [mixed] at same
  have length : (weave (packets 64 sampleMessage) [[samplePacket]]).length = 3 := by decide +kernel
  rw [length] at same
  simp [silentThen, List.replicate_succ] at same

theorem isolated_iff_sample :
    outcomes (packets 64 sampleMessage) {} =
        silentThen ((packets 64 sampleMessage).length - 1) (.ok (some sampleMessage.payload)) ∧
      ¬ Undisturbed sampleMessage (weave (packets 64 sampleMessage) [[samplePacket]]) := by
  have foreign : Foreign sampleMessage.cid samplePacket := by decide +kernel
  have big : 5 < 64 := by decide
  have sendable : Sendable sampleMessage := ⟨by decide, by decide⟩
  have all : ∀ gap ∈ [[samplePacket]], ∀ p ∈ gap, Foreign sampleMessage.cid p := by simpa using foreign
  obtain ⟨alone, disturbed⟩ := isolated_iff big sendable all {}
  refine ⟨alone, ?_⟩
  rw [← disturbed]
  decide +kernel

end TrezorCore.Framing
