import TrezorCore.Thp.Packet

/-!
# Arbitrary packets

What a reassembler does with packets that nobody has checked; `push_cases` lists what one of them
can do. Between packets the reassembler is idle with an empty buffer, or it is short of the
declared length, and then its buffer is what the packets since the last initiation have carried.
-/

namespace TrezorCore.Framing

/-! ## Packets -/

/-- The data of the continuation packets among some packets. -/
def dataParts (packets : List Bytes) : Bytes :=
  (packets.filter fun p => decide (Continues p)).flatMap fun p => p.drop CONT_HEADER

theorem dataParts_append (ps qs : List Bytes) : dataParts (ps ++ qs) = dataParts ps ++ dataParts qs := by
  unfold dataParts
  rw [List.filter_append, List.flatMap_append]

@[simp] theorem dataParts_nil : dataParts [] = [] := rfl

theorem dataParts_continues {packet : Bytes} (continues : Continues packet) :
    dataParts [packet] = packet.drop CONT_HEADER := by
  unfold dataParts
  rw [List.filter_cons_of_pos (by simpa using continues)]
  simp

theorem dataParts_skips {packet : Bytes} (other : ¬ Continues packet) : dataParts [packet] = [] := by
  unfold dataParts
  rw [List.filter_cons_of_neg (by simpa using other)]
  rfl

/-! ## The invariant -/

namespace Reassembler

/-- Idle with an empty buffer, or short of a declared length that has room for the CRC. -/
def Valid (r : Reassembler) : Prop :=
  (r.active = false ∧ r.buf = []) ∨
    (r.active = true ∧ CRC_LEN ≤ r.expectedLen ∧ r.expectedLen ≤ 65535 ∧ r.buf.length < r.expectedLen)

/-- The packet is taken, and this is the reassembler before the length is looked at. -/
def Takes (r : Reassembler) (packet : Bytes) (r' : Reassembler) : Prop :=
  (Initiates packet ∧ r' = start packet) ∨ (Continues packet ∧ r.active = true ∧ r' = r.extend packet)

/-- What a packet can do. -/
theorem push_cases {r : Reassembler} (valid : r.Valid) (packet : Bytes) :
    (r.Malformed packet ∧ ∃ e, (pushPacket packet).run r = (.err e, r)) ∨
    (¬ r.Malformed packet ∧ isContinuationPacket packet = true ∧ r.active = false ∧ (pushPacket packet).run r = (.ok none, r)) ∨
    (¬ r.Malformed packet ∧ ∃ r', r.Takes packet r' ∧ (pushPacket packet).run r = complete.run r') := by
  by_cases bad : r.Malformed packet
  · exact .inl ⟨bad, push_malformed bad⟩
  right
  cases packet with
  | nil => exact absurd (.inl rfl) bad
  | cons ctrl rest =>
    cases first : isContinuation ctrl with
    | false =>
      have initiation : isInitiationPacket (ctrl :: rest) = true := by simp [isInitiationPacket, first]
      have initiates : Initiates (ctrl :: rest) := by
        refine ⟨initiation, ?_, ?_⟩
        · apply Nat.not_lt.1
          exact fun short => bad (.inr (.inl ⟨initiation, .inl short⟩))
        · apply Nat.not_lt.1
          exact fun short => bad (.inr (.inl ⟨initiation, .inr short⟩))
      exact .inr ⟨bad, _, .inl ⟨initiates, rfl⟩, push_initiation initiates r⟩
    | true =>
      cases active : r.active with
      | false => exact .inl ⟨bad, first, rfl, push_dropped first active⟩
      | true =>
        have continues : Continues (ctrl :: rest) := by
          refine ⟨first, ?_⟩
          apply Nat.not_le.1
          exact fun short => bad (.inr (.inr ⟨first, active, short⟩))
        obtain ⟨idle, -⟩ | ⟨-, -, -, room⟩ := valid
        · rw [active] at idle
          cases idle
        · exact .inr ⟨bad, _, .inr ⟨continues, active, rfl⟩, push_continuation continues active (Nat.le_of_lt room)⟩

/-- What is taken is at most what was declared. -/
theorem Takes.bounds {r r' : Reassembler} {packet : Bytes} (valid : r.Valid) (takes : r.Takes packet r') :
    r'.active = true ∧ CRC_LEN ≤ r'.expectedLen ∧ r'.expectedLen ≤ 65535 ∧ r'.buf.length ≤ r'.expectedLen := by
  obtain ⟨⟨-, -, declared⟩, rfl⟩ | ⟨-, active, rfl⟩ := takes
  · exact ⟨rfl, declared, declaredLen_le packet, List.length_take_le _ _⟩
  · obtain ⟨idle, -⟩ | ⟨-, crc, fits, room⟩ := valid
    · rw [active] at idle
      cases idle
    · refine ⟨active, crc, fits, ?_⟩
      show (r.buf ++ (packet.drop CONT_HEADER).take (r.expectedLen - r.buf.length)).length ≤ r.expectedLen
      rw [List.length_append, List.length_take]
      omega

/-- A packet that is taken leaves the buffer short, or it fills it and the CRC decides. -/
theorem Takes.ends {r r' : Reassembler} {packet : Bytes} (valid : r.Valid) (takes : r.Takes packet r') :
    (r'.buf.length < r'.expectedLen ∧ complete.run r' = (.ok none, r')) ∨
      (r'.buf.length = r'.expectedLen ∧ complete.run r' = (r'.verdict, r'.close)) := by
  obtain ⟨-, crc, fits, room⟩ := takes.bounds valid
  obtain short | full := Nat.lt_or_eq_of_le room
  · exact .inl ⟨short, complete_short short⟩
  · exact .inr ⟨full, complete_full full crc fits⟩

theorem close_valid (r : Reassembler) : r.close.Valid := .inl ⟨rfl, rfl⟩

/-- **The invariant is kept.** -/
theorem push_valid {r : Reassembler} (valid : r.Valid) (packet : Bytes) : ((pushPacket packet).run r).2.Valid := by
  obtain ⟨-, e, run⟩ | ⟨-, -, -, run⟩ | ⟨-, r', takes, run⟩ := push_cases valid packet
  · rw [run]
    exact valid
  · rw [run]
    exact valid
  · rw [run]
    obtain ⟨active, crc, fits, -⟩ := takes.bounds valid
    obtain ⟨short, ends⟩ | ⟨-, ends⟩ := takes.ends valid
    · rw [ends]
      exact .inr ⟨active, crc, fits, short⟩
    · rw [ends]
      exact r'.close_valid

/-! ## Many packets -/

/-- The reassembler after some packets. -/
def after (packets : List Bytes) (r : Reassembler) : Reassembler :=
  packets.foldl (fun r packet => ((pushPacket packet).run r).2) r

@[simp] theorem after_nil (r : Reassembler) : after [] r = r := rfl

theorem after_snoc (packets : List Bytes) (packet : Bytes) (r : Reassembler) :
    after (packets ++ [packet]) r = ((pushPacket packet).run (after packets r)).2 := by
  unfold after
  rw [List.foldl_append]
  rfl

/-- What the packets since the last initiation have carried. -/
def Carried (packets : List Bytes) (r : Reassembler) : Prop :=
  ∃ before first later, packets = before ++ first :: later ∧ Initiates first ∧ (∀ p ∈ later, ¬ Initiates p) ∧
    r.controlByte = first.headD 0 ∧ r.cid = channelOf first ∧ r.expectedLen = declaredLen first ∧
    r.buf = (first.drop INIT_HEADER ++ dataParts later).take (declaredLen first)

/-- A reassembler after packets is valid, and in the middle of a payload it holds what was carried. -/
structure Tracks (packets : List Bytes) (r : Reassembler) : Prop where
  valid : r.Valid
  carried : r.active = true → Carried packets r

theorem Carried.skip {packets : List Bytes} {r : Reassembler} {packet : Bytes} (carried : Carried packets r)
    (initiates : ¬ Initiates packet) (continues : ¬ Continues packet) : Carried (packets ++ [packet]) r := by
  obtain ⟨before, first, later, rfl, starts, others, ctrl, cid, len, buf⟩ := carried
  refine ⟨before, first, later ++ [packet], by simp, starts, ?_, ctrl, cid, len, ?_⟩
  · intro p hp
    obtain hp | hp := List.mem_append.1 hp
    · exact others p hp
    · rw [List.mem_singleton.1 hp]
      exact initiates
  · rw [dataParts_append, dataParts_skips continues, List.append_nil]
    exact buf

/-- What is taken has been carried. -/
theorem Takes.carried {packets : List Bytes} {r r' : Reassembler} {packet : Bytes} (tracks : Tracks packets r)
    (takes : r.Takes packet r') : Carried (packets ++ [packet]) r' := by
  obtain ⟨initiates, rfl⟩ | ⟨continues, active, rfl⟩ := takes
  · refine ⟨packets, packet, [], rfl, initiates, by simp, rfl, rfl, rfl, ?_⟩
    rw [dataParts_nil, List.append_nil]
    rfl
  · obtain ⟨before, first, later, rfl, starts, others, ctrl, cid, len, buf⟩ := tracks.carried active
    refine ⟨before, first, later ++ [packet], by simp, starts, ?_, ctrl, cid, len, ?_⟩
    · intro p hp
      obtain hp | hp := List.mem_append.1 hp
      · exact others p hp
      · rw [List.mem_singleton.1 hp]
        exact continues.not_initiates
    · show r.buf ++ (packet.drop CONT_HEADER).take (r.expectedLen - r.buf.length) = _
      rw [dataParts_append, dataParts_continues continues, ← List.append_assoc, List.take_append, buf, len, List.length_take]
      congr 2
      omega

/-- A packet that is refused carries nothing. -/
theorem Malformed.carries_nothing {r : Reassembler} {packet : Bytes} (bad : r.Malformed packet) :
    ¬ Initiates packet ∧ ¬ (Continues packet ∧ r.active = true) := by
  obtain rfl | ⟨initiation, short⟩ | ⟨-, active, short⟩ := bad
  · constructor
    · rintro ⟨h, -⟩
      cases h
    · rintro ⟨⟨h, -⟩, -⟩
      cases h
  · constructor
    · rintro ⟨-, header, declared⟩
      omega
    · rintro ⟨⟨continuation, -⟩, -⟩
      cases packet with
      | nil => cases initiation
      | cons ctrl rest =>
        simp only [isInitiationPacket, isContinuationPacket] at initiation continuation
        rw [continuation] at initiation
        cases initiation
  · constructor
    · rintro ⟨-, header, -⟩
      simp only [INIT_HEADER, CONT_HEADER] at header short
      omega
    · rintro ⟨⟨-, long⟩, -⟩
      omega

/-- One packet more. -/
theorem push_tracks {packets : List Bytes} {r : Reassembler} (tracks : Tracks packets r) (packet : Bytes) :
    Tracks (packets ++ [packet]) ((pushPacket packet).run r).2 := by
  refine ⟨push_valid tracks.valid packet, ?_⟩
  obtain ⟨bad, e, run⟩ | ⟨-, -, idle, run⟩ | ⟨-, r', takes, run⟩ := push_cases tracks.valid packet
  · rw [run]
    intro active
    obtain ⟨initiates, continues⟩ := bad.carries_nothing
    exact (tracks.carried active).skip initiates fun h => continues ⟨h, active⟩
  · rw [run]
    intro active
    rw [idle] at active
    cases active
  · rw [run]
    obtain ⟨-, ends⟩ | ⟨-, ends⟩ := takes.ends tracks.valid
    · rw [ends]
      exact fun _ => takes.carried tracks
    · rw [ends]
      intro active
      cases active

theorem after_tracks (packets : List Bytes) : Tracks packets (after packets {}) := by
  induction packets using List.reverseRecOn with
  | nil =>
    constructor
    · exact .inl ⟨rfl, rfl⟩
    · intro active
      cases active
  | append_singleton packets packet ih =>
    rw [after_snoc]
    exact push_tracks ih packet

/-- What is carried in `first` and the continuation packets behind it, with the CRC. -/
def carriedBy (first : Bytes) (later : List Bytes) : Bytes := first.drop INIT_HEADER ++ dataParts later

/-- What comes of a packet that is taken: all that has been carried is kept while it is short of
the declared length, and at the declared length the CRC decides. -/
theorem Takes.tells {packets : List Bytes} {r r' : Reassembler} {packet : Bytes} (tracks : Tracks packets r)
    (takes : r.Takes packet r') :
    ∃ before first later, packets ++ [packet] = before ++ first :: later ∧ Initiates first ∧ (∀ p ∈ later, ¬ Initiates p) ∧
      (((carriedBy first later).length < declaredLen first ∧ complete.run r' =
          (.ok none, ⟨true, first.headD 0, channelOf first, declaredLen first, carriedBy first later⟩)) ∨
        (declaredLen first ≤ (carriedBy first later).length ∧ ∃ payload crc,
          payload ++ crc = (carriedBy first later).take (declaredLen first) ∧ crc.length = CRC_LEN ∧
          complete.run r' =
            (if (crc32Ieee (initHeader (first.headD 0) (channelOf first) (declaredLen first) ++ payload)).toNat = Bytes.beNat crc
              then .ok (some payload) else .err (.thp "THP transport payload CRC mismatch"), r'.close))) := by
  obtain ⟨active, crc, -, -⟩ := takes.bounds tracks.valid
  obtain ⟨before, first, later, packets, starts, others, ctrl, cid, len, buf⟩ := takes.carried tracks
  have held : r'.buf = (carriedBy first later).take (declaredLen first) := buf
  refine ⟨before, first, later, packets, starts, others, ?_⟩
  obtain ⟨short, ends⟩ | ⟨full, ends⟩ := takes.ends tracks.valid
  · left
    rw [held, len, List.length_take] at short
    have room : (carriedBy first later).length < declaredLen first := by omega
    refine ⟨room, ?_⟩
    rw [List.take_of_length_le (Nat.le_of_lt room)] at held
    rw [ends]
    cases r'
    cases active
    cases ctrl
    cases cid
    cases len
    cases held
    rfl
  · right
    have size := full
    rw [held, len, List.length_take] at size
    refine ⟨by omega, r'.payloadOf, r'.buf.drop (r'.expectedLen - CRC_LEN), ?_, ?_, ?_⟩
    · rw [← held]
      exact List.take_append_drop _ _
    · rw [List.length_drop]
      omega
    · rw [ends, Reassembler.verdict, ← ctrl, ← cid, ← len]
      rfl

/-! ## A run of continuation packets -/

/-- What pushing some packets returns, one after the other. -/
def outcomes : List Bytes → Reassembler → List (Outcome TrezorError (Option Bytes))
  | [], _ => []
  | packet :: rest, r => ((pushPacket packet).run r).1 :: outcomes rest ((pushPacket packet).run r).2

/-- Nothing until the last of `n + 1` packets, then `last`. -/
def silentThen (n : Nat) (last : Outcome TrezorError (Option Bytes)) : List (Outcome TrezorError (Option Bytes)) :=
  List.replicate n (.ok none) ++ [last]

/-- The bytes behind the headers of continuation packets. -/
def dataOf (packets : List Bytes) : Bytes := packets.flatMap fun p => p.drop CONT_HEADER

/-- The reassembler with these bytes received, up to the declared length. -/
def filled (r : Reassembler) (bytes : Bytes) : Reassembler := { r with buf := (r.buf ++ bytes).take r.expectedLen }

theorem extend_eq {r : Reassembler} {packet : Bytes} (room : r.buf.length < r.expectedLen) :
    r.extend packet = r.filled (packet.drop CONT_HEADER) := by
  unfold extend filled
  rw [List.take_append, List.take_of_length_le (Nat.le_of_lt room)]

/-- Bytes that do not fill the buffer are all there. -/
theorem filled_short {r : Reassembler} {bytes : Bytes} (short : (r.filled bytes).buf.length < r.expectedLen) :
    r.filled bytes = { r with buf := r.buf ++ bytes } := by
  unfold filled at short ⊢
  rw [List.length_take] at short
  rw [List.take_of_length_le (by omega)]

section Run

variable {r : Reassembler} {packet : Bytes}

/-- What a continuation packet with data does to a reassembler in the middle of a payload. -/
theorem push_filled (valid : r.Valid) (active : r.active = true) (continues : Continues packet) :
    (((r.filled (packet.drop CONT_HEADER)).buf.length < r.expectedLen ∧
        (pushPacket packet).run r = (.ok none, r.filled (packet.drop CONT_HEADER))) ∨
      ((r.filled (packet.drop CONT_HEADER)).buf.length = r.expectedLen ∧
        (pushPacket packet).run r =
          ((r.filled (packet.drop CONT_HEADER)).verdict, (r.filled (packet.drop CONT_HEADER)).close))) := by
  obtain ⟨idle, -⟩ | ⟨-, crc, fits, room⟩ := valid
  · rw [active] at idle
    cases idle
  · rw [push_continuation continues active (Nat.le_of_lt room), ← extend_eq room]
    exact Takes.ends (.inr ⟨active, crc, fits, room⟩) (.inr ⟨continues, active, rfl⟩)

theorem verdict_ne_none (r : Reassembler) : r.verdict ≠ .ok none := by
  unfold verdict
  split <;> simp

/-- Continuation packets with data, of which only the last fills the buffer. -/
theorem outcomes_fill {packets : List Bytes} (nonempty : packets ≠ []) (valid : r.Valid) (active : r.active = true)
    (continuing : ∀ p ∈ packets, Continues p) (short : (r.buf ++ dataOf packets.dropLast).length < r.expectedLen)
    (full : r.expectedLen ≤ (r.buf ++ dataOf packets).length) :
    outcomes packets r = silentThen (packets.length - 1) (r.filled (dataOf packets)).verdict := by
  induction packets generalizing r with
  | nil => exact absurd rfl nonempty
  | cons packet rest ih =>
    have first := push_filled valid active (continuing packet List.mem_cons_self)
    cases rest with
    | nil =>
      have whole : dataOf [packet] = packet.drop CONT_HEADER := by simp [dataOf]
      rw [whole] at full ⊢
      obtain ⟨still, -⟩ | ⟨-, run⟩ := first
      · unfold filled at still
        rw [List.length_take] at still
        omega
      · rw [outcomes, outcomes, run]
        rfl
    | cons next rest =>
      have more : dataOf (packet :: (next :: rest).dropLast) = packet.drop CONT_HEADER ++ dataOf (next :: rest).dropLast := by
        simp [dataOf]
      have all : dataOf (packet :: next :: rest) = packet.drop CONT_HEADER ++ dataOf (next :: rest) := by simp [dataOf]
      rw [List.dropLast_cons_cons, more, ← List.append_assoc] at short
      rw [all, ← List.append_assoc] at full
      have still : (r.filled (packet.drop CONT_HEADER)).buf.length < r.expectedLen := by
        rw [List.length_append] at short
        unfold filled
        rw [List.length_take]
        omega
      obtain ⟨-, run⟩ | ⟨filled, -⟩ := first
      · have valid' := push_valid valid packet
        rw [run] at valid'
        rw [outcomes, run]
        simp only
        rw [filled_short still] at valid' ⊢
        rw [ih (by simp) valid' active (fun p hp => continuing p (List.mem_cons_of_mem _ hp)) short full]
        unfold filled
        rw [all, ← List.append_assoc]
        rfl
      · omega

/-- Continuation packets that return nothing until the last one have data, and only the last
fills the buffer. -/
theorem fill_of_outcomes {packets : List Bytes} {payload : Bytes} (nonempty : packets ≠ []) (valid : r.Valid)
    (active : r.active = true) (kind : ∀ p ∈ packets, isContinuationPacket p = true)
    (delivers : outcomes packets r = silentThen (packets.length - 1) (.ok (some payload))) :
    (∀ p ∈ packets, Continues p) ∧ (r.buf ++ dataOf packets.dropLast).length < r.expectedLen ∧
      r.expectedLen ≤ (r.buf ++ dataOf packets).length := by
  induction packets generalizing r with
  | nil => exact absurd rfl nonempty
  | cons packet rest ih =>
    obtain ⟨idle, -⟩ | ⟨-, -, -, room⟩ := id valid
    · rw [active] at idle
      cases idle
    have long : CONT_HEADER < packet.length := by
      apply Nat.not_le.1
      intro short
      obtain ⟨e, run⟩ := push_malformed (.inr (.inr ⟨kind packet List.mem_cons_self, active, short⟩))
      rw [outcomes, run] at delivers
      cases rest <;> simp [silentThen, List.replicate_succ] at delivers
    have continues : Continues packet := ⟨kind packet List.mem_cons_self, long⟩
    have first := push_filled valid active continues
    cases rest with
    | nil =>
      have whole : dataOf [packet] = packet.drop CONT_HEADER := by simp [dataOf]
      obtain ⟨-, run⟩ | ⟨filled, -⟩ := first
      · rw [outcomes, outcomes, run] at delivers
        simp [silentThen] at delivers
      · refine ⟨?_, ?_, ?_⟩
        · intro p hp
          rw [List.mem_singleton.1 hp]
          exact continues
        · simpa [dataOf] using room
        · rw [whole]
          unfold Reassembler.filled at filled
          rw [List.length_take] at filled
          omega
    | cons next rest =>
      have more : dataOf (packet :: (next :: rest).dropLast) = packet.drop CONT_HEADER ++ dataOf (next :: rest).dropLast := by
        simp [dataOf]
      have all : dataOf (packet :: next :: rest) = packet.drop CONT_HEADER ++ dataOf (next :: rest) := by simp [dataOf]
      have silent : silentThen ((packet :: next :: rest).length - 1) (.ok (some payload)) =
          .ok none :: silentThen ((next :: rest).length - 1) (.ok (some payload)) := rfl
      rw [outcomes, silent] at delivers
      obtain ⟨head, tail⟩ := List.cons.inj delivers
      obtain ⟨still, run⟩ | ⟨-, run⟩ := first
      · have valid' := push_valid valid packet
        rw [run] at valid' tail
        rw [filled_short still] at valid' tail
        obtain ⟨continuing, short, full⟩ :=
          ih (by simp) valid' active (fun p hp => kind p (List.mem_cons_of_mem _ hp)) tail
        refine ⟨?_, ?_, ?_⟩
        · intro p hp
          obtain rfl | hp := List.mem_cons.1 hp
          · exact continues
          · exact continuing p hp
        · rw [List.dropLast_cons_cons, more, ← List.append_assoc]
          exact short
        · rw [all, ← List.append_assoc]
          exact full
      · rw [run] at head
        exact absurd head (verdict_ne_none _)

end Run

end Reassembler

open Reassembler

/-- **Safety and exactness.** Whatever packets have come, the next one makes nothing underflow
and no index go out of range; it leaves the reassembler idle with an empty buffer, or short of a
declared length of 4 to 65535; a malformed one changes nothing, and any other that ends with an
error is a CRC mismatch and leaves it idle; and a payload that comes out is, with its CRC, the
declared length's worth of what has been carried since the last initiation. An initiation, and a
continuation in the middle of a payload, is kept as a whole until the declared length is there,
and then the payload comes out if its CRC matches; any other well-formed packet is passed over. -/
theorem reassembler_safe_and_exact (packets : List Bytes) (packet : Bytes) :
    let r := after packets {}
    let outcome := ((pushPacket packet).run r).1
    let r' := after (packets ++ [packet]) {}
    outcome ≠ .panicked ∧ outcome ≠ .dropped ∧ r' = ((pushPacket packet).run r).2 ∧
    ((r'.active = false ∧ r'.buf = []) ∨
      (r'.active = true ∧ 4 ≤ r'.expectedLen ∧ r'.expectedLen ≤ 65535 ∧ r'.buf.length < r'.expectedLen)) ∧
    (r.Malformed packet → (∃ e, outcome = .err e) ∧ r' = r) ∧
    (∀ e, outcome = .err e → ¬ r.Malformed packet → e = .thp "THP transport payload CRC mismatch" ∧ r'.active = false) ∧
    (∀ payload, outcome = .ok (some payload) →
      ∃ before first later crc, packets ++ [packet] = before ++ first :: later ∧ Initiates first ∧
        (∀ p ∈ later, ¬ Initiates p) ∧ crc.length = 4 ∧ payload.length + 4 = declaredLen first ∧
        payload ++ crc = (first.drop 5 ++ dataParts later).take (declaredLen first) ∧
        (crc32Ieee (initHeader (first.headD 0) (channelOf first) (declaredLen first) ++ payload)).toNat =
          Bytes.beNat crc) ∧
    (Initiates packet ∨ (Continues packet ∧ r.active = true) →
      ∃ before first later, packets ++ [packet] = before ++ first :: later ∧ Initiates first ∧ (∀ p ∈ later, ¬ Initiates p) ∧
        (((carriedBy first later).length < declaredLen first ∧ outcome = .ok none ∧
            r' = ⟨true, first.headD 0, channelOf first, declaredLen first, carriedBy first later⟩) ∨
          (declaredLen first ≤ (carriedBy first later).length ∧ ∃ payload crc,
            payload ++ crc = (carriedBy first later).take (declaredLen first) ∧ crc.length = 4 ∧
            outcome =
              if (crc32Ieee (initHeader (first.headD 0) (channelOf first) (declaredLen first) ++ payload)).toNat = Bytes.beNat crc
                then .ok (some payload) else .err (.thp "THP transport payload CRC mismatch")))) ∧
    (¬ r.Malformed packet → ¬ (Initiates packet ∨ (Continues packet ∧ r.active = true)) → outcome = .ok none ∧ r' = r) := by
  intro r outcome r'
  have tracks : Tracks packets r := after_tracks packets
  have next : r' = ((pushPacket packet).run r).2 := after_snoc packets packet {}
  have valid : r'.Valid := by
    rw [next]
    exact push_valid tracks.valid packet
  obtain ⟨bad, e, run⟩ | ⟨good, continuation, idle, run⟩ | ⟨good, r'', takes, run⟩ := push_cases tracks.valid packet
  · have ends : outcome = .err e := congrArg Prod.fst run
    have same : r' = r := next.trans (congrArg Prod.snd run)
    obtain ⟨initiates, continues⟩ := bad.carries_nothing
    rw [ends]
    exact ⟨by simp, by simp, next, valid, fun _ => ⟨⟨e, rfl⟩, same⟩, fun _ _ good => absurd bad good, by simp,
      fun taken => absurd taken (not_or.2 ⟨initiates, continues⟩), fun good => absurd bad good⟩
  · have ends : outcome = .ok none := congrArg Prod.fst run
    have same : r' = r := next.trans (congrArg Prod.snd run)
    have passed : ¬ (Initiates packet ∨ (Continues packet ∧ r.active = true)) := by
      rintro (initiates | ⟨-, active⟩)
      · exact not_initiates continuation initiates
      · rw [idle] at active
        cases active
    rw [ends]
    exact ⟨by simp, by simp, next, valid, fun bad => absurd bad good, by simp, by simp, fun taken => absurd taken passed,
      fun _ _ => ⟨rfl, same⟩⟩
  · have taken : Initiates packet ∨ (Continues packet ∧ r.active = true) := by
      obtain ⟨initiates, -⟩ | ⟨continues, active, -⟩ := takes
      · exact .inl initiates
      · exact .inr ⟨continues, active⟩
    have told := takes.tells tracks
    obtain ⟨before, first, later, split, starts, others, ⟨short, ends⟩ | ⟨full, payload, crc, whole, size, ends⟩⟩ := told
    · have returned : outcome = .ok none := congrArg Prod.fst (run.trans ends)
      have left := next.trans (congrArg Prod.snd (run.trans ends))
      rw [returned]
      exact ⟨by simp, by simp, next, valid, fun bad => absurd bad good, by simp, by simp,
        fun _ => ⟨before, first, later, split, starts, others, .inl ⟨short, rfl, left⟩⟩, fun _ passed => absurd taken passed⟩
    · have returned := congrArg Prod.fst (run.trans ends)
      have closed : r'.active = false := congrArg Reassembler.active (next.trans (congrArg Prod.snd (run.trans ends)))
      have exact : payload.length + 4 = declaredLen first := by
        have lengths := congrArg List.length whole
        rw [List.length_append, List.length_take, size] at lengths
        have crc : CRC_LEN = 4 := rfl
        omega
      change outcome = _ at returned
      refine ⟨?_, ?_, next, valid, fun bad => absurd bad good, ?_, ?_,
        fun _ => ⟨before, first, later, split, starts, others, .inr ⟨full, payload, crc, whole, size, returned⟩⟩,
        fun _ passed => absurd taken passed⟩
      · rw [returned]
        split <;> simp
      · rw [returned]
        split <;> simp
      · intro e error _
        rw [returned] at error
        split at error
        · cases error
        · cases error
          exact ⟨rfl, closed⟩
      · intro delivered ok
        rw [returned] at ok
        split at ok
        · next matches_ =>
          cases ok
          exact ⟨before, first, later, crc, split, starts, others, size, exact, whole, matches_⟩
        · cases ok

end TrezorCore.Framing
