import TrezorCore.Thp.Packet

/-!
# Segmentation and reassembly fit together

A frame's body is its payload and the CRC trailer. `segment` cuts the body into packets,
and the reassembler's buffer after the first packets of a frame is a prefix of the body.
`pushPacket_first` and `pushPacket_next` say so for one packet; `inProgress` is the state
that carries it from packet to packet.
-/

namespace TrezorCore.Framing

theorem isContinuation_eq_false (b : UInt8) : isContinuation b = false ↔ b &&& 0x80 = 0 := by
  revert b
  apply Bytes.forall_octet
  decide +kernel

/-! ## A frame's packets -/

/-- A frame the framing layer can carry: an initiation control byte and a length that fits. -/
structure Sendable (f : Frame) : Prop where
  initiation : isContinuation f.ctrl = false
  fits : f.payload.length + CRC_LEN ≤ 65535

/-- The declared length. -/
def bodyLen (f : Frame) : Nat := f.payload.length + CRC_LEN

def frameCrc (f : Frame) : UInt32 := crc32Ieee (initHeader f.ctrl f.cid (bodyLen f) ++ f.payload)

/-- The payload with its CRC trailer. -/
def body (f : Frame) : Bytes := f.payload ++ Bytes.toBe 4 (frameCrc f).toNat

@[simp] theorem length_body (f : Frame) : (body f).length = bodyLen f := by
  simp [body, bodyLen, CRC_LEN]

@[simp] theorem length_initHeader (ctrl : UInt8) (cid : UInt16) (n : Nat) :
    (initHeader ctrl cid n).length = INIT_HEADER := by
  simp [initHeader, INIT_HEADER]

@[simp] theorem length_contHeader (cid : UInt16) : (contHeader cid).length = CONT_HEADER := by
  simp [contHeader, CONT_HEADER]

/-- The packets of a frame; none when it cannot be segmented. -/
def packets (packetSize : Nat) (f : Frame) : List Bytes :=
  match segment packetSize f.cid f.ctrl f.payload with
  | .ok packets => packets
  | .error _ => []

/-- The initiation packet. -/
def firstPacket (packetSize : Nat) (f : Frame) : Bytes :=
  Bytes.resize packetSize (initHeader f.ctrl f.cid (bodyLen f) ++ (body f).take (packetSize - INIT_HEADER))

/-- The continuation packets that carry `rest`. -/
def restPackets (packetSize : Nat) (f : Frame) (rest : Bytes) : List Bytes :=
  contPackets packetSize f.cid (bodyLen f) rest

theorem segment_ok {packetSize : Nat} {f : Frame} (big : INIT_HEADER < packetSize)
    (fits : f.payload.length + CRC_LEN ≤ 65535) :
    segment packetSize f.cid f.ctrl f.payload =
      .ok (firstPacket packetSize f :: restPackets packetSize f ((body f).drop (packetSize - INIT_HEADER))) := by
  have h1 : ¬ packetSize ≤ INIT_HEADER := by omega
  have h2 : ¬ 65535 < f.payload.length + CRC_LEN := by omega
  have len : (f.payload ++ Bytes.toBe 4 (frameCrc f).toNat).length = bodyLen f := length_body f
  simp only [segment, h1, h2, if_false]
  rw [firstPacket, restPackets, List.take_eq_take_min (i := packetSize - INIT_HEADER),
    List.drop_eq_drop_min (i := packetSize - INIT_HEADER)]
  simp only [body]
  simp only [frameCrc, bodyLen] at len ⊢
  rw [len]

/-- `segment` fails exactly on a packet size with no room or a payload too long. -/
theorem segment_error_iff (packetSize : Nat) (cid : UInt16) (ctrl : UInt8) (payload : Bytes) :
    (∃ e, segment packetSize cid ctrl payload = .error e) ↔
      packetSize ≤ INIT_HEADER ∨ 65535 < payload.length + CRC_LEN := by
  by_cases h1 : packetSize ≤ INIT_HEADER
  · simp [segment, h1]
  · by_cases h2 : 65535 < payload.length + CRC_LEN <;> simp [segment, h1, h2]

theorem packets_eq {packetSize : Nat} {f : Frame} (big : INIT_HEADER < packetSize)
    (fits : f.payload.length + CRC_LEN ≤ 65535) :
    packets packetSize f =
      firstPacket packetSize f :: restPackets packetSize f ((body f).drop (packetSize - INIT_HEADER)) := by
  simp only [packets, segment_ok big fits]

theorem firstPacket_eq {packetSize : Nat} (f : Frame) (big : INIT_HEADER < packetSize) :
    firstPacket packetSize f = initHeader f.ctrl f.cid (bodyLen f) ++
      ((body f).take (packetSize - INIT_HEADER) ++ List.replicate (packetSize - INIT_HEADER - bodyLen f) 0) := by
  have len : (initHeader f.ctrl f.cid (bodyLen f) ++ (body f).take (packetSize - INIT_HEADER)).length =
      INIT_HEADER + min (packetSize - INIT_HEADER) (bodyLen f) := by simp
  rw [firstPacket, Bytes.resize_eq (by omega), len, List.append_assoc]
  congr 3
  omega

@[simp] theorem contPackets_nil (packetSize : Nat) (cid : UInt16) (fuel : Nat) :
    contPackets packetSize cid fuel [] = [] := by
  cases fuel <;> rfl

/-- The continuation packets, one at a time. -/
theorem contPackets_cons {packetSize fuel : Nat} {cid : UInt16} {rest : Bytes} (big : INIT_HEADER < packetSize)
    (more : rest ≠ []) :
    contPackets packetSize cid (fuel + 1) rest =
      (contHeader cid ++ (rest.take (packetSize - CONT_HEADER) ++
        List.replicate (packetSize - CONT_HEADER - rest.length) 0)) ::
      contPackets packetSize cid fuel (rest.drop (packetSize - CONT_HEADER)) := by
  have len : (contHeader cid ++ rest.take (packetSize - CONT_HEADER)).length =
      CONT_HEADER + min (packetSize - CONT_HEADER) rest.length := by simp
  have small : CONT_HEADER ≤ INIT_HEADER := by decide
  rw [contPackets, ← List.take_eq_take_min, ← List.drop_eq_drop_min, Bytes.resize_eq (by omega), len,
    List.append_assoc]
  · congr 4
    omega
  · exact more

theorem length_contPackets {packetSize : Nat} {cid : UInt16} :
    ∀ fuel rest, ∀ p ∈ contPackets packetSize cid fuel rest, p.length = packetSize := by
  intro fuel
  induction fuel with
  | zero => intro rest p hp; simp [contPackets] at hp
  | succ fuel ih =>
    intro rest p hp
    cases rest with
    | nil => simp [contPackets] at hp
    | cons b bs =>
      rw [contPackets] at hp
      rcases List.mem_cons.1 hp with rfl | hp
      · exact Bytes.length_resize _ _
      · exact ih _ p hp
      · simp

/-- Every packet has the packet size. -/
theorem length_of_segment {packetSize : Nat} {cid : UInt16} {ctrl : UInt8} {payload : Bytes}
    {ps : List Bytes} (h : segment packetSize cid ctrl payload = .ok ps) :
    ∀ p ∈ ps, p.length = packetSize := by
  have ok : ¬ (packetSize ≤ INIT_HEADER ∨ 65535 < payload.length + CRC_LEN) := by
    rw [← segment_error_iff packetSize cid ctrl, h]
    simp
  have eq := segment_ok (f := ⟨cid, ctrl, payload⟩) (by omega : INIT_HEADER < packetSize)
    (by simp only; omega)
  rw [h, Except.ok.injEq] at eq
  intro p hp
  rw [eq] at hp
  rcases List.mem_cons.1 hp with rfl | hp
  · exact Bytes.length_resize _ _
  · exact length_contPackets _ _ p hp

/-! ## The packets of a frame -/

/-- The reassembler in the middle of frame `f`, with `buf` received so far. -/
def inProgress (f : Frame) (buf : Bytes) : Reassembler :=
  ⟨true, f.ctrl, f.cid, bodyLen f, buf⟩

namespace Reassembler

/-- The verdict on a frame's own body is its payload. -/
theorem verdict_body (f : Frame) : (inProgress f (body f)).verdict = .ok (some f.payload) := by
  have crcLt : (frameCrc f).toNat < 256 ^ 4 := (frameCrc f).toNat_lt
  have split : bodyLen f - CRC_LEN = f.payload.length := by simp [bodyLen]
  have head : (inProgress f (body f)).payloadOf = f.payload := by
    show (body f).take (bodyLen f - CRC_LEN) = _
    rw [split, body, List.take_left]
  have trailer : (body f).drop (bodyLen f - CRC_LEN) = Bytes.toBe 4 (frameCrc f).toNat := by
    rw [split, body, List.drop_left]
  have good : (inProgress f (body f)).Matches := by
    unfold Matches
    rw [head]
    show (frameCrc f).toNat = Bytes.beNat ((body f).drop (bodyLen f - CRC_LEN))
    rw [trailer, Bytes.beNat_toBe, Nat.mod_eq_of_lt crcLt]
  rw [verdict, if_pos good, head]

/-- The whole body gives the payload and leaves the reassembler idle. -/
theorem complete_body {f : Frame} (ok : Sendable f) :
    complete.run (inProgress f (body f)) = (.ok (some f.payload), { inProgress f [] with active := false }) := by
  have room : CRC_LEN ≤ (inProgress f (body f)).expectedLen := by simp [inProgress, bodyLen]
  rw [complete_full (length_body f) room ok.fits, verdict_body]
  rfl

/-- The header fields as the reassembler reads them. -/
theorem header_fields {f : Frame} (ok : Sendable f) (data : Bytes) :
    let packet := initHeader f.ctrl f.cid (bodyLen f) ++ data
    UInt16.ofNat (Bytes.beNat ((packet.drop 1).take 2)) = f.cid ∧
      Bytes.beNat ((packet.drop 3).take 2) = bodyLen f ∧ packet.drop INIT_HEADER = data := by
  obtain ⟨c0, c1, hc⟩ := List.length_eq_two.1 (Bytes.length_toBe 2 f.cid.toNat)
  obtain ⟨l0, l1, hl⟩ := List.length_eq_two.1 (Bytes.length_toBe 2 (bodyLen f))
  have cid : UInt16.ofNat (Bytes.beNat [c0, c1]) = f.cid := by
    have small : f.cid.toNat < 256 ^ 2 := f.cid.toNat_lt
    rw [← hc, Bytes.beNat_toBe, Nat.mod_eq_of_lt small, UInt16.ofNat_toNat]
  have len : Bytes.beNat [l0, l1] = bodyLen f := by
    rw [← hl, Bytes.beNat_toBe]
    exact Nat.mod_eq_of_lt (by have := ok.fits; simp only [bodyLen]; omega)
  simp [initHeader, hc, hl, cid, len, INIT_HEADER]

/-- An initiation packet starts a frame over, whatever the reassembler was doing. -/
theorem pushPacket_first {f : Frame} (ok : Sendable f) (data : Bytes) (r : Reassembler) :
    (pushPacket (initHeader f.ctrl f.cid (bodyLen f) ++ data)).run r =
      complete.run (inProgress f (data.take (bodyLen f))) := by
  obtain ⟨cid, len, rest⟩ := header_fields ok data
  have initiates : Initiates (initHeader f.ctrl f.cid (bodyLen f) ++ data) := by
    refine ⟨?_, by simp, ?_⟩
    · simp [isInitiationPacket, initHeader, ok.initiation]
    · unfold declaredLen
      rw [len]
      simp [bodyLen]
  have begun : start (initHeader f.ctrl f.cid (bodyLen f) ++ data) = inProgress f (data.take (bodyLen f)) := by
    unfold start channelOf declaredLen
    rw [cid, len, rest]
    rfl
  rw [push_initiation initiates, begun]

/-- A continuation packet extends the frame in progress up to the declared length. -/
theorem pushPacket_next {f : Frame} {buf data : Bytes} (cid : UInt16) (some : data ≠ [])
    (room : buf.length ≤ bodyLen f) :
    (pushPacket (contHeader cid ++ data)).run (inProgress f buf) =
      complete.run (inProgress f (buf ++ data.take (bodyLen f - buf.length))) := by
  have pos : 0 < data.length := List.length_pos_iff.2 some
  have continues : Continues (contHeader cid ++ data) := by
    refine ⟨by simp [isContinuationPacket, contHeader]; decide, ?_⟩
    simp only [List.length_append, length_contHeader]
    omega
  have rest : (contHeader cid ++ data).drop CONT_HEADER = data := by
    rw [← length_contHeader cid, List.drop_left]
  have extended : (inProgress f buf).extend (contHeader cid ++ data) =
      inProgress f (buf ++ data.take (bodyLen f - buf.length)) := by
    unfold extend
    rw [rest]
    rfl
  rw [push_continuation continues rfl room, extended]

/-- The reassembler after frame `f`. -/
def idle (f : Frame) : Reassembler := { inProgress f [] with active := false }

/-- A frame's own first packet finishes the frame, or leaves a proper prefix of its body. -/
theorem push_firstPacket {packetSize : Nat} {f : Frame} (ok : Sendable f) (big : INIT_HEADER < packetSize)
    (r : Reassembler) :
    (pushPacket (firstPacket packetSize f)).run r =
      if bodyLen f ≤ packetSize - INIT_HEADER then (.ok (some f.payload), idle f)
      else (.ok none, inProgress f ((body f).take (packetSize - INIT_HEADER))) := by
  have cut : ((body f).take (packetSize - INIT_HEADER) ++
      List.replicate (packetSize - INIT_HEADER - bodyLen f) 0).take (bodyLen f) =
      (body f).take (packetSize - INIT_HEADER) := by
    rw [← length_body f]
    exact Bytes.take_padded _ _
  rw [firstPacket_eq f big, pushPacket_first ok, cut]
  split
  · next done =>
    rw [List.take_of_length_le (by rw [length_body]; exact done), complete_body ok]
    rfl
  · next more =>
    refine complete_short ?_
    simp only [inProgress, List.length_take, length_body]
    omega

/-- So does the packet that carries the next bytes of the body. -/
theorem push_contPacket {n : Nat} {f : Frame} {buf rest : Bytes} (ok : Sendable f) (room : 0 < n)
    (cid : UInt16) (split : body f = buf ++ rest) (more : rest ≠ []) :
    (pushPacket (contHeader cid ++ (rest.take n ++ List.replicate (n - rest.length) 0))).run (inProgress f buf) =
      if rest.length ≤ n then (.ok (some f.payload), idle f)
      else (.ok none, inProgress f (buf ++ rest.take n)) := by
  have len : bodyLen f = buf.length + rest.length := by rw [← length_body, split, List.length_append]
  have pos : 0 < rest.length := List.length_pos_iff.2 more
  have some : rest.take n ++ List.replicate (n - rest.length) 0 ≠ [] := by
    apply List.ne_nil_of_length_pos
    simp only [List.length_append, List.length_take, List.length_replicate]
    omega
  have left : bodyLen f - buf.length = rest.length := by omega
  rw [pushPacket_next cid some (by omega), left, Bytes.take_padded]
  split
  · next done =>
    rw [List.take_of_length_le done, ← split, complete_body ok]
    rfl
  · next short =>
    refine complete_short ?_
    simp only [inProgress, List.length_append, List.length_take]
    omega

end Reassembler

end TrezorCore.Framing
