import TrezorCore.Thp.Connection
import TrezorCore.Thp.Reassembly

/-!
# Reading a stream of frames

`read_framed` on a stream of chunks. A frame's packets give the frame and nothing of what
follows them is touched (`readLoop_frame`); chunks that belong to no payload are skipped,
and an unfinished message is given up at the next initiation packet, so a stream of
messages with such debris between them reads back as the messages (`readStream_legs`).
-/

namespace TrezorCore

open Framing

/-- The same world with other chunks waiting. -/
def Wire.withInbox (w : Wire) (inbox : List (Except TrezorTransportError Bytes)) : Wire := { w with inbox }

def Host.withInbox {γ : Type} (h : Host γ) (inbox : List (Except TrezorTransportError Bytes)) : Host γ :=
  { h with wire := h.wire.withInbox inbox }

theorem Host.withInbox_of_eq {γ : Type} {h : Host γ} {inbox : List (Except TrezorTransportError Bytes)}
    (hin : h.wire.inbox = inbox) : h.withInbox inbox = h := by
  subst hin
  rfl

namespace Connection

/-- Chunks the transport will hand over. -/
def arriving (chunks : List Bytes) : List (Except TrezorTransportError Bytes) := chunks.map .ok

/-- `read_framed` from the middle of a message. -/
def readLoop (b : Reassembler × UInt8) : Io Connection (UInt8 × Bytes) := Io.loop readFramedTurn b

theorem readFramed_eq : readFramed = readLoop ({}, 0) := rfl

/-- Nothing was read; what the transport will do is as before. -/
structure Quiet (h h' : Host Connection) : Prop where
  inbox : h'.wire.inbox = h.wire.inbox
  onWrite : h'.wire.onWrite = h.wire.onWrite

theorem Quiet.refl (h : Host Connection) : Quiet h h := ⟨rfl, rfl⟩

theorem Quiet.trans (a b c : Host Connection) (h1 : Quiet a b) (h2 : Quiet b c) : Quiet a c :=
  ⟨h2.inbox.trans h1.inbox, h2.onWrite.trans h1.onWrite⟩

theorem absorbChunk_quiet (reasm : Reassembler) (ctrl : UInt8) (chunk : Bytes) :
    Comp.Keeps Quiet (absorbChunk reasm ctrl chunk) := by
  cases chunk with
  | nil => exact Quiet.refl
  | cons first rest =>
    refine .bind Quiet.trans (.runLocal Quiet.refl _ _) fun r => ?_
    obtain ⟨done, reasm⟩ := r
    cases done with
    | none => exact Quiet.refl
    | some payload =>
      refine .bind Quiet.trans (fun _ => ⟨rfl, rfl⟩) fun _ => ?_
      generalize (if first &&& CONTINUATION_BIT = 0 then first else ctrl) = c
      by_cases hc : c = Control.TRANSPORT_ERROR
      · exact (if_pos hc).symm ▸ Quiet.refl
      · exact (if_neg hc).symm ▸ Quiet.refl

/-- A turn of `read_framed` consumes a chunk. -/
theorem readFramedTurn_lowers (b : Reassembler × UInt8) (h : Host Connection) (b' : Reassembler × UInt8)
    (h' : Host Connection) (turn : (readFramedTurn b).run h = (.ok (.inl b'), h')) :
    h'.wire.inbox.length < h.wire.inbox.length := by
  obtain ⟨chunk, h1, read, absorb⟩ := Comp.bind_eq_ok turn
  have same := absorbChunk_quiet b.1 b.2 chunk h1
  rw [absorb] at same
  rw [same.inbox]
  rcases hin : h.wire.inbox with _ | ⟨e | c, rest⟩
  · simp [Io.readChunk, hin] at read
  · simp [Io.readChunk, hin] at read
  · simp only [Io.readChunk, hin, Prod.mk.injEq] at read
    rw [← read.2]
    simp

/-- One chunk of `read_framed`. -/
theorem readLoop_chunk {h : Host Connection} {chunk : Bytes} {rest : List (Except TrezorTransportError Bytes)}
    (hin : h.wire.inbox = .ok chunk :: rest) (b : Reassembler × UInt8) :
    (readLoop b).run h = (absorbChunk b.1 b.2 chunk >>= Sum.elim readLoop pure).run (h.withInbox rest) := by
  have read : Io.readChunk.run h = (.ok chunk, h.withInbox rest) := by
    simp [Io.readChunk, hin, Host.withInbox, Wire.withInbox]
  rw [readLoop, Io.loop, Comp.loop_eq readFramedTurn_lowers, readFramedTurn, Comp.bind_assoc, Comp.bind_ok read]
  rfl

/-- An empty chunk is skipped. -/
theorem readLoop_empty {h : Host Connection} {rest : List (Except TrezorTransportError Bytes)}
    (hin : h.wire.inbox = .ok [] :: rest) (b : Reassembler × UInt8) :
    (readLoop b).run h = (readLoop b).run (h.withInbox rest) := by
  rw [readLoop_chunk hin]
  rfl

/-- The control byte `read_framed` remembers after a chunk. -/
def ctrlAfter (ctrl first : UInt8) : UInt8 := if first &&& CONTINUATION_BIT = 0 then first else ctrl

/-- A chunk that does not finish a payload. -/
theorem readLoop_more {h : Host Connection} {first : UInt8} {chunk : Bytes}
    {rest : List (Except TrezorTransportError Bytes)} {reasm reasm' : Reassembler} {ctrl : UInt8}
    (hin : h.wire.inbox = .ok (first :: chunk) :: rest)
    (push : (Reassembler.pushPacket (first :: chunk)).run reasm = (.ok none, reasm')) :
    (readLoop (reasm, ctrl)).run h = (readLoop (reasm', ctrlAfter ctrl first)).run (h.withInbox rest) := by
  rw [readLoop_chunk hin]
  simp only [absorbChunk]
  rw [Comp.bind_assoc, Comp.bind_ok (Comp.runLocal_ok push _)]
  rfl

/-- What `read_framed` returns for a complete frame. -/
def received (ctrl : UInt8) (payload : Bytes) : Outcome TrezorError (UInt8 × Bytes) :=
  if ctrl = Control.TRANSPORT_ERROR then .err (decodeTransportError payload) else .ok (ctrl, payload)

/-- The state once a frame has been read and `rest` still waits. -/
def afterFrame (h : Host Connection) (ctrl : UInt8) (payload : Bytes)
    (rest : List (Except TrezorTransportError Bytes)) : Host Connection :=
  { h.withInbox rest with wire := (h.withInbox rest).wire.log (.frameIn ctrl payload) }

/-- A chunk that finishes a payload. -/
theorem readLoop_done {h : Host Connection} {first : UInt8} {chunk payload : Bytes}
    {rest : List (Except TrezorTransportError Bytes)} {reasm reasm' : Reassembler} {ctrl : UInt8}
    (hin : h.wire.inbox = .ok (first :: chunk) :: rest)
    (push : (Reassembler.pushPacket (first :: chunk)).run reasm = (.ok (some payload), reasm')) :
    (readLoop (reasm, ctrl)).run h =
      (received (ctrlAfter ctrl first) payload, afterFrame h (ctrlAfter ctrl first) payload rest) := by
  rw [readLoop_chunk hin]
  simp only [absorbChunk]
  rw [Comp.bind_assoc, Comp.bind_ok (Comp.runLocal_ok push _)]
  simp only [Comp.bind_assoc, Io.run_note_bind, received]
  change ((if ctrlAfter ctrl first = Control.TRANSPORT_ERROR then Comp.fail _ else pure _) >>= _ : Io Connection _).run _ = _
  by_cases hc : ctrlAfter ctrl first = Control.TRANSPORT_ERROR
  · rw [if_pos hc, if_pos hc]
    rfl
  · rw [if_neg hc, if_neg hc]
    rfl

/-! ## A frame, and a part of one -/

@[simp] theorem ctrlAfter_cont (ctrl : UInt8) : ctrlAfter ctrl CONTINUATION_CONTROL = ctrl :=
  if_neg (by decide)

theorem ctrlAfter_init {first : UInt8} (init : isContinuation first = false) (ctrl : UInt8) :
    ctrlAfter ctrl first = first :=
  if_pos ((isContinuation_eq_false first).1 init)

section Frame

variable {packetSize : Nat} {f : Frame} {rest : List (Except TrezorTransportError Bytes)}

/-- The last packets of a frame give the frame. -/
theorem readLoop_conts (ok : Sendable f) (big : INIT_HEADER < packetSize) :
    ∀ (fuel : Nat) (buf left : Bytes) (h : Host Connection), body f = buf ++ left → left ≠ [] →
      left.length ≤ fuel → h.wire.inbox = arriving (contPackets packetSize f.cid fuel left) ++ rest →
      (readLoop (inProgress f buf, f.ctrl)).run h =
        (received f.ctrl f.payload, afterFrame h f.ctrl f.payload rest) := by
  -- on the number of packets; the buffer and what is left always make up the body
  intro fuel
  induction fuel with
  | zero =>
    intro buf left h _ more enough
    exact absurd (List.length_eq_zero_iff.1 (Nat.le_zero.1 enough)) more
  | succ fuel ih =>
    intro buf left h split more enough hin
    have room : 0 < packetSize - CONT_HEADER := by simp only [INIT_HEADER, CONT_HEADER] at *; omega
    have push := Reassembler.push_contPacket ok room f.cid split more
    rw [contPackets_cons big more, arriving, List.map_cons, List.cons_append] at hin
    by_cases last : left.length ≤ packetSize - CONT_HEADER
    · rw [if_pos last] at push
      rw [List.drop_of_length_le last, contPackets_nil] at hin
      rw [readLoop_done hin push, ctrlAfter_cont]
      rfl
    · rw [if_neg last] at push
      rw [readLoop_more hin push, ctrlAfter_cont]
      refine ih _ _ (h.withInbox _) ?_ ?_ ?_ rfl
      · rw [List.append_assoc, List.take_append_drop, split]
      · exact List.ne_nil_of_length_pos (by rw [List.length_drop]; omega)
      · rw [List.length_drop]; omega

/-- Short of the last packet the frame stays in progress. -/
theorem readLoop_conts_take (ok : Sendable f) (big : INIT_HEADER < packetSize) :
    ∀ (fuel count : Nat) (buf left : Bytes) (h : Host Connection), body f = buf ++ left →
      count < (contPackets packetSize f.cid fuel left).length →
      h.wire.inbox = arriving ((contPackets packetSize f.cid fuel left).take count) ++ rest →
      ∃ r, (readLoop (inProgress f buf, f.ctrl)).run h = (readLoop r).run (h.withInbox rest) := by
  intro fuel
  induction fuel with
  | zero =>
    intro count buf left h _ short
    exact absurd short (by simp [contPackets])
  | succ fuel ih =>
    intro count buf left h split short hin
    have room : 0 < packetSize - CONT_HEADER := by simp only [INIT_HEADER, CONT_HEADER] at *; omega
    have more : left ≠ [] := by rintro rfl; simp [contPackets] at short
    have push := Reassembler.push_contPacket ok room f.cid split more
    rw [contPackets_cons big more] at hin short
    cases count with
    | zero =>
      have same : h.withInbox rest = h := Host.withInbox_of_eq hin
      exact ⟨_, by rw [same]⟩
    | succ count =>
      have inside : ¬ left.length ≤ packetSize - CONT_HEADER := by
        intro last
        rw [List.drop_of_length_le last, contPackets_nil] at short
        simp at short
      rw [if_neg inside] at push
      rw [List.take_succ_cons, arriving, List.map_cons, List.cons_append] at hin
      rw [readLoop_more hin push, ctrlAfter_cont]
      refine ih count _ _ (h.withInbox _) ?_ ?_ rfl
      · rw [List.append_assoc, List.take_append_drop, split]
      · simpa using short

/-- **One frame.** Whatever `read_framed` was in the middle of, a frame's packets give that
frame, and what follows them stays unread. -/
theorem readLoop_frame (ok : Sendable f) (big : INIT_HEADER < packetSize) (r : Reassembler × UInt8)
    {h : Host Connection} (hin : h.wire.inbox = arriving (packets packetSize f) ++ rest) :
    (readLoop r).run h = (received f.ctrl f.payload, afterFrame h f.ctrl f.payload rest) := by
  have push := Reassembler.push_firstPacket ok big r.1
  have fields := firstPacket_eq f big
  simp only [initHeader, List.cons_append] at fields
  rw [packets_eq big ok.fits, arriving, List.map_cons, List.cons_append, restPackets] at hin
  rw [fields] at push hin
  by_cases last : bodyLen f ≤ packetSize - INIT_HEADER
  · rw [if_pos last] at push
    rw [List.drop_of_length_le (by rw [length_body]; exact last), contPackets_nil] at hin
    rw [readLoop_done hin push, ctrlAfter_init ok.initiation]
    rfl
  · rw [if_neg last] at push
    rw [readLoop_more hin push, ctrlAfter_init ok.initiation]
    refine readLoop_conts ok big (bodyLen f) _ _ (h.withInbox _) (List.take_append_drop _ _).symm ?_ ?_ rfl
    · exact List.ne_nil_of_length_pos (by rw [List.length_drop, length_body]; omega)
    · rw [List.length_drop, length_body]; omega

/-- A frame that breaks off leaves `read_framed` in the middle of it. -/
theorem readLoop_abandoned (ok : Sendable f) {count : Nat} (some : 0 < count)
    (short : count < (packets packetSize f).length) (r : Reassembler × UInt8) {h : Host Connection}
    (hin : h.wire.inbox = arriving ((packets packetSize f).take count) ++ rest) :
    ∃ r', (readLoop r).run h = (readLoop r').run (h.withInbox rest) := by
  obtain ⟨count, rfl⟩ : ∃ k, count = k + 1 := ⟨count - 1, by omega⟩
  have big : INIT_HEADER < packetSize := by
    by_contra small
    simp [packets, Framing.segment, Nat.not_lt.1 small] at short
  have push := Reassembler.push_firstPacket ok big r.1
  have fields := firstPacket_eq f big
  simp only [initHeader, List.cons_append] at fields
  rw [packets_eq big ok.fits] at short hin
  rw [List.take_succ_cons, arriving, List.map_cons, List.cons_append] at hin
  rw [fields] at push hin
  have inside : ¬ bodyLen f ≤ packetSize - INIT_HEADER := by
    intro last
    rw [List.drop_of_length_le (by rw [length_body]; exact last), restPackets, contPackets_nil] at short
    simp at short
  rw [if_neg inside] at push
  rw [readLoop_more hin push, ctrlAfter_init ok.initiation]
  refine readLoop_conts_take ok big (bodyLen f) count _ _ (h.withInbox _) (List.take_append_drop _ _).symm ?_ rfl
  simpa [restPackets] using short

end Frame

/-! ## A stream of messages -/

/-- A chunk that belongs to no payload: an empty one, or a continuation packet. -/
def Ignorable : Bytes → Prop
  | [] => True
  | first :: _ => isContinuation first = true

/-- A message that broke off: a proper non-empty prefix of its packets. -/
structure Abandoned where
  frame : Frame
  packetSize : Nat
  count : Nat
  sendable : Sendable frame
  nonempty : 0 < count
  proper : count < (packets packetSize frame).length

def Abandoned.chunks (a : Abandoned) : List Bytes := (packets a.packetSize a.frame).take a.count

/-- A message and what the stream carries before it. -/
structure Leg where
  noise : List Bytes
  ignorable : ∀ chunk ∈ noise, Ignorable chunk
  abandoned : List Abandoned
  frame : Frame
  sendable : Sendable frame

def Leg.chunks (packetSize : Nat) (leg : Leg) : List Bytes :=
  leg.noise ++ (leg.abandoned.flatMap Abandoned.chunks ++ packets packetSize leg.frame)

/-- The chunks of a whole stream, with more behind them. -/
def stream (packetSize : Nat) (rest : List (Except TrezorTransportError Bytes)) :
    List Leg → List (Except TrezorTransportError Bytes)
  | [] => rest
  | leg :: legs => arriving (leg.chunks packetSize) ++ stream packetSize rest legs

/-- Call `read_framed` `n` times: what each call returns and leaves unread. -/
def readMany : Nat → Host Connection →
    List (Outcome TrezorError (UInt8 × Bytes) × List (Except TrezorTransportError Bytes))
  | 0, _ => []
  | n + 1, h => ((readFramed.run h).1, (readFramed.run h).2.wire.inbox) :: readMany n (readFramed.run h).2

/-- The messages of a stream, each with the stream behind it. -/
def messages (packetSize : Nat) (rest : List (Except TrezorTransportError Bytes)) :
    List Leg → List (Outcome TrezorError (UInt8 × Bytes) × List (Except TrezorTransportError Bytes))
  | [] => []
  | leg :: legs =>
    (received leg.frame.ctrl leg.frame.payload, stream packetSize rest legs) :: messages packetSize rest legs

theorem readLoop_noise {rest : List (Except TrezorTransportError Bytes)} {r : Reassembler} {ctrl : UInt8}
    (idle : r.active = false) : ∀ (noise : List Bytes) (h : Host Connection), (∀ c ∈ noise, Ignorable c) →
      h.wire.inbox = arriving noise ++ rest →
      (readLoop (r, ctrl)).run h = (readLoop (r, ctrl)).run (h.withInbox rest) := by
  intro noise
  induction noise with
  | nil => intro h _ hin; rw [Host.withInbox_of_eq (show h.wire.inbox = rest from hin)]
  | cons chunk noise ih =>
    intro h ignorable hin
    have first := ignorable chunk List.mem_cons_self
    have later := ih (h.withInbox (arriving noise ++ rest))
      (fun c hc => ignorable c (List.mem_cons_of_mem _ hc)) rfl
    cases chunk with
    | nil => rw [readLoop_empty hin]; exact later
    | cons b bs =>
      have kept : ctrlAfter ctrl b = ctrl := if_neg fun clear => by
        rw [Ignorable, (isContinuation_eq_false b).2 clear] at first
        exact Bool.false_ne_true first
      rw [readLoop_more hin (Reassembler.pushPacket_stray first idle), kept]
      exact later

theorem readLoop_abandoned_all {rest : List (Except TrezorTransportError Bytes)} :
    ∀ (abandoned : List Abandoned) (r : Reassembler × UInt8) (h : Host Connection),
      h.wire.inbox = arriving (abandoned.flatMap Abandoned.chunks) ++ rest →
      ∃ r', (readLoop r).run h = (readLoop r').run (h.withInbox rest) := by
  intro abandoned
  induction abandoned with
  | nil => intro r h hin; exact ⟨r, by rw [Host.withInbox_of_eq (show h.wire.inbox = rest from hin)]⟩
  | cons a abandoned ih =>
    intro r h hin
    rw [List.flatMap_cons, arriving, List.map_append, List.append_assoc] at hin
    obtain ⟨r1, first⟩ := readLoop_abandoned a.sendable a.nonempty a.proper r hin
    obtain ⟨r2, later⟩ := ih r1 (h.withInbox (arriving (abandoned.flatMap Abandoned.chunks) ++ rest)) rfl
    exact ⟨r2, first.trans later⟩

/-- One call of `read_framed` takes one leg off the stream. -/
theorem readFramed_leg {packetSize : Nat} (big : INIT_HEADER < packetSize) (leg : Leg)
    {rest : List (Except TrezorTransportError Bytes)} {h : Host Connection}
    (hin : h.wire.inbox = arriving (leg.chunks packetSize) ++ rest) :
    readFramed.run h =
      (received leg.frame.ctrl leg.frame.payload, afterFrame h leg.frame.ctrl leg.frame.payload rest) := by
  rw [Leg.chunks, arriving, List.map_append, List.map_append, List.append_assoc, List.append_assoc] at hin
  obtain ⟨r, broken⟩ := readLoop_abandoned_all leg.abandoned ({}, 0)
    (h.withInbox (arriving (leg.abandoned.flatMap Abandoned.chunks) ++ (arriving (packets packetSize leg.frame) ++ rest))) rfl
  calc readFramed.run h
      = (readLoop r).run (h.withInbox (arriving (packets packetSize leg.frame) ++ rest)) := by
        rw [readFramed_eq, readLoop_noise rfl leg.noise h leg.ignorable hin]
        exact broken
    _ = _ := readLoop_frame leg.sendable big r rfl

theorem readMany_stream {packetSize : Nat} (big : INIT_HEADER < packetSize)
    (rest : List (Except TrezorTransportError Bytes)) : ∀ (legs : List Leg) (h : Host Connection),
      h.wire.inbox = stream packetSize rest legs → readMany legs.length h = messages packetSize rest legs := by
  intro legs
  induction legs with
  | nil => intro h _; rfl
  | cons leg legs ih =>
    intro h hin
    rw [List.length_cons, readMany, readFramed_leg big leg hin]
    rw [ih _ rfl]
    rfl

/-- **Framing round trip.** Every message that fits is segmented into packets of the packet
size; a stream of messages, with ignorable chunks and broken-off messages between them,
is read back one message a call; and `segment` fails only for want of room. -/
theorem framing_round_trip (packetSize : Nat) (big : 5 < packetSize) :
    (∀ f : Frame, Sendable f → ∃ ps, segment packetSize f.cid f.ctrl f.payload = .ok ps ∧
      ∀ p ∈ ps, p.length = packetSize) ∧
    (∀ (legs : List Leg) (rest : List (Except TrezorTransportError Bytes)) (h : Host Connection),
      h.wire.inbox = stream packetSize rest legs → readMany legs.length h = messages packetSize rest legs) ∧
    ∀ (size : Nat) (cid : UInt16) (ctrl : UInt8) (payload : Bytes),
      (∃ e, segment size cid ctrl payload = .error e) ↔ size ≤ 5 ∨ 65535 < payload.length + 4 := by
  refine ⟨fun f ok => ?_, fun legs rest h hin => readMany_stream big rest legs h hin, fun size cid ctrl payload => ?_⟩
  · exact ⟨_, segment_ok big ok.fits, length_of_segment (segment_ok big ok.fits)⟩
  · exact segment_error_iff size cid ctrl payload

/-- An empty chunk, a stray continuation packet and the first half of a message, then a message. -/
def sampleLeg : Leg where
  noise := [[], [0x80, 0x12, 0x34]]
  ignorable := by simp [Ignorable, isContinuation, CONTINUATION_MASK]
  abandoned :=
    [{ frame := ⟨0x1234, 0x04, List.replicate 100 7⟩
       packetSize := 64
       count := 1
       sendable := ⟨rfl, by decide⟩
       nonempty := by decide
       proper := by decide +kernel }]
  frame := ⟨0x1234, 0x14, [1, 2, 3]⟩
  sendable := ⟨rfl, by decide⟩

theorem framing_round_trip_sample :
    5 < 64 ∧
      readMany 2 ⟨initial 0 64, Wire.quiet.withInbox (stream 64 [] [sampleLeg, sampleLeg])⟩ =
        messages 64 [] [sampleLeg, sampleLeg] :=
  ⟨by decide, (framing_round_trip 64 (by decide)).2.1 [sampleLeg, sampleLeg] [] _ rfl⟩

end Connection

end TrezorCore
