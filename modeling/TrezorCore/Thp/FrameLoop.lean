import TrezorCore.Thp.Stream

/-!
# Frame by frame

`send_data` and `recv_data` both wait in `awaitFrame`, which reads a frame and hands it to
a step. Writing never reads, so a step leaves the waiting chunks alone; with that the
waiting loop has its unfolding equation (`awaitFrame_eq`), and on a stream of frames it
consumes one frame a turn (`awaitFrame_frame`). `incoming` is what arrives, frame by frame,
whatever the chunks are.
-/

namespace TrezorCore.Connection

open Framing

/-- What writing a packet keeps, writing a frame's packets keeps. -/
theorem writePackets_keeps {R : Host Connection → Host Connection → Prop} (refl : ∀ h, R h h)
    (trans : ∀ a b c, R a b → R b c → R a c) (chunk : ∀ packet, Comp.Keeps R (Io.writeChunk packet)) :
    ∀ packets, Comp.Keeps R (writePackets packets)
  | [] => refl
  | packet :: rest => .bind trans (chunk packet) fun _ => writePackets_keeps refl trans chunk rest

/-! ## Writing does not read -/

theorem writeChunk_quiet (packet : Bytes) : Comp.Keeps Quiet (Io.writeChunk packet) := by
  intro h
  simp only [Io.writeChunk]
  split <;> exact ⟨rfl, rfl⟩

theorem writePackets_quiet (packets : List Bytes) : Comp.Keeps Quiet (writePackets packets) :=
  writePackets_keeps Quiet.refl Quiet.trans writeChunk_quiet packets

theorem writeFramed_quiet (ctrl : UInt8) (payload : Bytes) : Comp.Keeps Quiet (writeFramed ctrl payload) := by
  refine .bind Quiet.trans Quiet.refl fun c => ?_
  refine .bind Quiet.trans (.ofExcept Quiet.refl _) fun packets => ?_
  exact .bind Quiet.trans (fun _ => ⟨rfl, rfl⟩) fun _ => writePackets_quiet packets

theorem sendDataStep_quiet (ctrl : UInt8) (payload : Bytes) : Comp.Keeps Quiet (sendDataStep ctrl payload) := by
  refine .bind Quiet.trans Quiet.refl fun c => ?_
  by_cases ack : Control.isAck ctrl
  · rw [if_pos ack]
    by_cases current : Control.ackSeqOf ctrl = c.sendSeq
    · rw [if_pos current]
      exact fun _ => ⟨rfl, rfl⟩
    · rw [if_neg current]
      exact Quiet.refl
  · rw [if_neg ack]
    refine .bind Quiet.trans (fun _ => ⟨rfl, rfl⟩) fun _ => .bind Quiet.trans (fun _ => ⟨rfl, rfl⟩) fun _ =>
      .bind Quiet.trans (writeFramed_quiet _ _) fun _ => ?_
    by_cases fresh : Control.seqOf ctrl = c.recvSeq
    · rw [if_pos fresh]
      exact fun _ => ⟨rfl, rfl⟩
    · rw [if_neg fresh]
      exact Quiet.refl

theorem recvDataStep_quiet (ctrl : UInt8) (payload : Bytes) : Comp.Keeps Quiet (recvDataStep ctrl payload) := by
  by_cases ack : Control.isAck ctrl
  · rw [recvDataStep, if_pos ack]
    exact Quiet.refl
  · rw [recvDataStep, if_neg ack]
    refine .bind Quiet.trans (writeFramed_quiet _ _) fun _ => .bind Quiet.trans Quiet.refl fun c => ?_
    by_cases fresh : Control.seqOf ctrl = c.recvSeq
    · rw [if_pos fresh]
      exact fun _ => ⟨rfl, rfl⟩
    · rw [if_neg fresh]
      exact Quiet.refl

/-! ## Reading consumes -/

/-- What is left to read is a suffix of what there was. -/
def Consumes (h h' : Host Connection) : Prop := h'.wire.inbox <:+ h.wire.inbox

theorem Consumes.refl (h : Host Connection) : Consumes h h := List.suffix_refl _

theorem Consumes.trans (a b c : Host Connection) (h1 : Consumes a b) (h2 : Consumes b c) : Consumes a c :=
  List.IsSuffix.trans h2 h1

theorem Quiet.consumes (h h' : Host Connection) (same : Quiet h h') : Consumes h h' := by
  show h'.wire.inbox <:+ h.wire.inbox
  exact same.inbox ▸ List.suffix_refl _

theorem readChunk_consumes : Comp.Keeps Consumes (Io.readChunk : Io Connection Bytes) := by
  intro h
  rw [Consumes]
  rcases hin : h.wire.inbox with _ | ⟨e | c, rest⟩
  · simp [Io.readChunk, hin]
  · simp [Io.readChunk, hin]
  · simp [Io.readChunk, hin]

theorem readFramedTurn_consumes (b : Reassembler × UInt8) : Comp.Keeps Consumes (readFramedTurn b) :=
  .bind Consumes.trans readChunk_consumes fun chunk => (absorbChunk_quiet b.1 b.2 chunk).mono Quiet.consumes

theorem readLoop_consumes (b : Reassembler × UInt8) : Comp.Keeps Consumes (readLoop b) :=
  .loop Consumes.refl Consumes.trans readFramedTurn_consumes b

/-- A frame takes at least one chunk. -/
theorem readFramed_lowers {h h' : Host Connection} {f : UInt8 × Bytes} (run : readFramed.run h = (.ok f, h')) :
    h'.wire.inbox.length < h.wire.inbox.length := by
  rcases hin : h.wire.inbox with _ | ⟨e | chunk, rest⟩
  · rw [readFramed_eq, readLoop, Io.loop, Comp.loop_eq readFramedTurn_lowers] at run
    simp [readFramedTurn, Io.readChunk, hin, Comp.run_bind] at run
  · rw [readFramed_eq, readLoop, Io.loop, Comp.loop_eq readFramedTurn_lowers] at run
    simp [readFramedTurn, Io.readChunk, hin, Comp.run_bind] at run
  · rw [readFramed_eq, readLoop_chunk hin] at run
    have after : Consumes (h.withInbox rest) h' := by
      have keeps : Comp.Keeps Consumes (absorbChunk {} 0 chunk >>= Sum.elim readLoop pure) := by
        refine .bind Consumes.trans ((absorbChunk_quiet _ _ _).mono Quiet.consumes) fun r => ?_
        cases r with
        | inl b => exact readLoop_consumes b
        | inr f => exact Consumes.refl
      have := keeps (h.withInbox rest)
      rwa [run] at this
    have := after.length_le
    rw [List.length_cons]
    exact Nat.lt_succ_of_le this

/-! ## The waiting loop -/

section Await

variable {α : Type} {step : UInt8 → Bytes → Io Connection (Unit ⊕ α)}

/-- **The waiting loop's equation**, for a step that does not read. -/
theorem awaitFrame_eq (quiet : ∀ ctrl payload, Comp.Keeps Quiet (step ctrl payload)) :
    awaitFrame step =
      readFramed >>= fun f => step f.1 f.2 >>= Sum.elim (fun _ => awaitFrame step) pure := by
  have lowers : ∀ (b : Unit) (h : Host Connection) (b' : Unit) (h' : Host Connection),
      (readFramed >>= fun f => step f.1 f.2).run h = (.ok (.inl b'), h') →
        h'.wire.inbox.length < h.wire.inbox.length := by
    intro _ h _ h' turn
    obtain ⟨f, h1, read, rest⟩ := Comp.bind_eq_ok turn
    have same := quiet f.1 f.2 h1
    rw [rest] at same
    rw [same.inbox]
    exact readFramed_lowers read
  exact (Comp.loop_eq lowers ()).trans (Comp.bind_assoc _ _ _)

/-- One frame of the waiting loop. -/
theorem awaitFrame_frame (quiet : ∀ ctrl payload, Comp.Keeps Quiet (step ctrl payload)) {packetSize : Nat}
    {f : Frame} (ok : Sendable f) (big : INIT_HEADER < packetSize) {rest : List (Except TrezorTransportError Bytes)}
    {h : Host Connection} (hin : h.wire.inbox = arriving (packets packetSize f) ++ rest) :
    (awaitFrame step).run h =
      if f.ctrl = Control.TRANSPORT_ERROR then
        (.err (decodeTransportError f.payload), afterFrame h f.ctrl f.payload rest)
      else
        (step f.ctrl f.payload >>= Sum.elim (fun _ => awaitFrame step) pure).run
          (afterFrame h f.ctrl f.payload rest) := by
  have read := readLoop_frame ok big ({}, 0) hin
  rw [← readFramed_eq] at read
  have turn := congrArg (fun x => x.run h) (awaitFrame_eq quiet)
  rw [turn]
  by_cases isError : f.ctrl = Control.TRANSPORT_ERROR
  · rw [received, if_pos isError] at read
    rw [if_pos isError, Comp.bind_err read]
  · rw [received, if_neg isError] at read
    rw [if_neg isError, Comp.bind_ok read]

end Await

/-- With nothing to read, the waiting loop waits. -/
theorem awaitFrame_nil {α : Type} (step : UInt8 → Bytes → Io Connection (Unit ⊕ α)) {h : Host Connection}
    (hin : h.wire.inbox = []) : (awaitFrame step).run h = (.dropped, h) := by
  simp [awaitFrame, Io.loop, Comp.loop, Comp.iterate, Comp.run_bind, readFramed, readFramedTurn, Io.readChunk, hin]

/-! ## What a step does to the connection -/

/-- The connection is as before. -/
def SameOwn (h h' : Host Connection) : Prop := h'.own = h.own

theorem SameOwn.refl (h : Host Connection) : SameOwn h h := rfl

theorem SameOwn.trans (a b c : Host Connection) (h1 : SameOwn a b) (h2 : SameOwn b c) : SameOwn a c :=
  Eq.trans h2 h1

theorem writePackets_own (packets : List Bytes) : Comp.Keeps SameOwn (writePackets packets) := by
  refine writePackets_keeps SameOwn.refl SameOwn.trans (fun packet h => ?_) packets
  simp only [Io.writeChunk]
  split <;> rfl

theorem writeFramed_own (ctrl : UInt8) (payload : Bytes) : Comp.Keeps SameOwn (writeFramed ctrl payload) := by
  refine .bind SameOwn.trans SameOwn.refl fun c => ?_
  refine .bind SameOwn.trans (.ofExcept SameOwn.refl _) fun packets => ?_
  exact .bind SameOwn.trans SameOwn.refl fun _ => writePackets_own packets

theorem absorbChunk_own (reasm : Reassembler) (ctrl : UInt8) (chunk : Bytes) :
    Comp.Keeps SameOwn (absorbChunk reasm ctrl chunk) := by
  cases chunk with
  | nil => exact SameOwn.refl
  | cons first rest =>
    refine .bind SameOwn.trans (.runLocal SameOwn.refl _ _) fun r => ?_
    obtain ⟨done, reasm⟩ := r
    cases done with
    | none => exact SameOwn.refl
    | some payload =>
      refine .bind SameOwn.trans SameOwn.refl fun _ => ?_
      generalize (if first &&& CONTINUATION_BIT = 0 then first else ctrl) = c
      by_cases hc : c = Control.TRANSPORT_ERROR
      · exact (if_pos hc).symm ▸ SameOwn.refl
      · exact (if_neg hc).symm ▸ SameOwn.refl

theorem readFramed_own : Comp.Keeps SameOwn readFramed := by
  refine .loop SameOwn.refl SameOwn.trans (fun b => ?_) _
  refine .bind SameOwn.trans (fun h => ?_) fun chunk => absorbChunk_own b.1 b.2 chunk
  simp only [Io.readChunk]
  split <;> rfl

/-- `send_data` waits on only at a stale ACK, and then nothing has happened. -/
theorem sendDataStep_waits {ctrl : UInt8} {payload : Bytes} {h h' : Host Connection}
    (run : (sendDataStep ctrl payload).run h = (.ok (.inl ()), h')) :
    Control.isAck ctrl = true ∧ Control.ackSeqOf ctrl ≠ h.own.sendSeq ∧ h' = h := by
  rw [sendDataStep, Io.run_own_bind] at run
  by_cases ack : Control.isAck ctrl
  · rw [if_pos ack] at run
    by_cases current : Control.ackSeqOf ctrl = h.own.sendSeq
    · rw [if_pos current] at run
      simp at run
    · rw [if_neg current] at run
      exact ⟨ack, current, (Prod.mk.inj run).2.symm⟩
  · rw [if_neg ack] at run
    simp only [Io.run_modifyOwn_bind, Io.run_note_bind] at run
    obtain ⟨_, k, _, rest⟩ := Comp.bind_eq_ok run
    by_cases fresh : Control.seqOf ctrl = h.own.recvSeq
    · rw [if_pos fresh] at rest
      simp at rest
    · rw [if_neg fresh] at rest
      simp at rest

/-- `recv_data` waits on at an ACK or a duplicate, and the connection is as before. -/
theorem recvDataStep_waits {ctrl : UInt8} {payload : Bytes} {h h' : Host Connection}
    (run : (recvDataStep ctrl payload).run h = (.ok (.inl ()), h')) : h'.own = h.own := by
  by_cases ack : Control.isAck ctrl
  · rw [recvDataStep, if_pos ack] at run
    rw [← (Prod.mk.inj run).2]
  · rw [recvDataStep, if_neg ack] at run
    obtain ⟨_, k, wrote, rest⟩ := Comp.bind_eq_ok run
    have own := writeFramed_own (Control.ackFor (Control.seqOf ctrl)) [] h
    rw [show (writeFramed _ _).run h = (.ok _, k) from wrote] at own
    rw [Io.run_own_bind] at rest
    by_cases fresh : Control.seqOf ctrl = k.own.recvSeq
    · rw [if_pos fresh] at rest
      simp at rest
    · rw [if_neg fresh] at rest
      rw [← (Prod.mk.inj rest).2]
      exact own

/-! ## Writes that the transport takes -/

/-- The transport takes the next `n` packets. -/
def TakesNext (n : Nat) (w : Wire) : Prop := ∀ k < n, w.onWrite (w.written + k) = .done

/-- Packets are written when the transport takes each of them. -/
theorem writePackets_takes : ∀ (packets : List Bytes) (h : Host Connection), TakesNext packets.length h.wire →
    ∃ w, (writePackets packets).run h = (.ok (), ⟨h.own, w⟩) ∧ w.onWrite = h.wire.onWrite ∧ w.inbox = h.wire.inbox ∧
      w.written = h.wire.written + packets.length
  | [], h, _ => ⟨h.wire, rfl, rfl, rfl, rfl⟩
  | packet :: rest, h, takes => by
    have taken : h.wire.onWrite h.wire.written = .done := takes 0 (Nat.succ_pos _)
    have first : (Io.writeChunk packet).run h =
        (.ok (), ⟨h.own, { h.wire.log (.wrote packet) with written := h.wire.written + 1 }⟩) := by
      simp only [Io.writeChunk, taken]
    obtain ⟨w, run, onWrite, inbox, written⟩ := writePackets_takes rest
      ⟨h.own, { h.wire.log (.wrote packet) with written := h.wire.written + 1 }⟩ fun k lt => by
        have := takes (k + 1) (Nat.succ_lt_succ lt)
        rwa [Nat.add_comm k 1, ← Nat.add_assoc] at this
    refine ⟨w, by rw [writePackets, Comp.bind_ok first, run], onWrite, inbox, written.trans ?_⟩
    rw [List.length_cons, Nat.add_comm rest.length, ← Nat.add_assoc]

/-- They are written only then. -/
theorem takesNext_of_ok : ∀ (packets : List Bytes) {h h' : Host Connection},
    (writePackets packets).run h = (.ok (), h') → TakesNext packets.length h.wire
  | [], _, _, _ => fun k lt => absurd lt (Nat.not_lt_zero k)
  | packet :: rest, h, h', run => by
    obtain ⟨_, h1, first, later⟩ := Comp.bind_eq_ok run
    cases reply : h.wire.onWrite h.wire.written with
    | done =>
      simp only [Io.writeChunk, reply] at first
      cases first
      have takes := takesNext_of_ok rest later
      intro k lt
      cases k with
      | zero => exact reply
      | succ k =>
        have := takes k (Nat.lt_of_succ_lt_succ lt)
        rwa [Nat.add_assoc, Nat.add_comm 1 k] at this
    | failed e =>
      simp only [Io.writeChunk, reply] at first
      cases first
    | never =>
      simp only [Io.writeChunk, reply] at first
      cases first

section Written

variable {h : Host Connection} {ctrl : UInt8} {payload : Bytes}

/-- A frame that fits is written packet by packet. -/
theorem writeFramed_run (big : INIT_HEADER < h.own.packetSize) (fits : payload.length + CRC_LEN ≤ 65535) :
    (writeFramed ctrl payload).run h =
      (writePackets (packets h.own.packetSize ⟨h.own.cid, ctrl, payload⟩)).run
        ⟨h.own, h.wire.log (.frameOut ⟨h.own.cid, ctrl, payload⟩)⟩ := by
  have seg := segment_ok (f := ⟨h.own.cid, ctrl, payload⟩) big fits
  rw [← packets_eq big fits] at seg
  simp only at seg
  rw [writeFramed, Io.run_own_bind, seg, Comp.ofExcept_ok, Comp.pure_bind, Io.run_note_bind]

theorem writeFramed_takes (big : INIT_HEADER < h.own.packetSize) (fits : payload.length + CRC_LEN ≤ 65535)
    (takes : TakesNext (packets h.own.packetSize ⟨h.own.cid, ctrl, payload⟩).length h.wire) :
    ∃ w, (writeFramed ctrl payload).run h = (.ok (), ⟨h.own, w⟩) ∧ w.onWrite = h.wire.onWrite ∧ w.inbox = h.wire.inbox ∧
      w.written = h.wire.written + (packets h.own.packetSize ⟨h.own.cid, ctrl, payload⟩).length := by
  rw [writeFramed_run big fits]
  exact writePackets_takes _ _ takes

/-- The packets of the ACK for a data frame. -/
def ackPackets (c : Connection) (ctrl : UInt8) : List Bytes :=
  packets c.packetSize ⟨c.cid, Control.ackFor (Control.seqOf ctrl), []⟩

/-- `recv_data` on a data frame whose ACK the transport takes. -/
theorem recvDataStep_acked (payload : Bytes) (data : Control.isAck ctrl = false) (big : INIT_HEADER < h.own.packetSize)
    (takes : TakesNext (ackPackets h.own ctrl).length h.wire) :
    ∃ w, w.onWrite = h.wire.onWrite ∧ w.inbox = h.wire.inbox ∧ w.written = h.wire.written + (ackPackets h.own ctrl).length ∧
      (recvDataStep ctrl payload).run h =
        if Control.seqOf ctrl = h.own.recvSeq then
          (.ok (.inr (ctrl, payload)), ⟨{ h.own with recvSeq := h.own.recvSeq ^^^ 1 }, w⟩)
        else (.ok (.inl ()), ⟨h.own, w⟩) := by
  have fits : ([] : Bytes).length + CRC_LEN ≤ 65535 := by decide
  obtain ⟨w, acked, onWrite, inbox, written⟩ := writeFramed_takes big fits takes
  refine ⟨w, onWrite, inbox, written, ?_⟩
  simp only [recvDataStep, data, Bool.false_eq_true, if_false]
  rw [Comp.bind_ok (show (sendAck (Control.seqOf ctrl)).run h = _ from acked), Io.run_own_bind]
  by_cases fresh : Control.seqOf ctrl = h.own.recvSeq
  · rw [if_pos fresh, if_pos fresh]
    rfl
  · rw [if_neg fresh, if_neg fresh]
    rfl

/-- The ACK of a data frame comes first, so the step returns only if the transport takes it. -/
theorem recvDataStep_takesNext {r : Unit ⊕ (UInt8 × Bytes)} {h' : Host Connection} (data : Control.isAck ctrl = false)
    (big : INIT_HEADER < h.own.packetSize) (run : (recvDataStep ctrl payload).run h = (.ok r, h')) :
    TakesNext (ackPackets h.own ctrl).length h.wire := by
  simp only [recvDataStep, data, Bool.false_eq_true, if_false] at run
  obtain ⟨_, h1, acked, -⟩ := Comp.bind_eq_ok run
  rw [sendAck, writeFramed_run big (by decide)] at acked
  have takes := takesNext_of_ok _ acked
  exact takes

end Written

/-! A transport that takes every write. -/

theorem writePackets_done (packets : List Bytes) (h : Host Connection) (done : ∀ n, h.wire.onWrite n = .done) :
    ∃ w, (writePackets packets).run h = (.ok (), ⟨h.own, w⟩) ∧ w.onWrite = h.wire.onWrite ∧ w.inbox = h.wire.inbox := by
  obtain ⟨w, run, onWrite, inbox, -⟩ := writePackets_takes packets h fun _ _ => done _
  exact ⟨w, run, onWrite, inbox⟩

theorem writeFramed_done {h : Host Connection} (ctrl : UInt8) (payload : Bytes) (done : ∀ n, h.wire.onWrite n = .done)
    (big : INIT_HEADER < h.own.packetSize) (fits : payload.length + CRC_LEN ≤ 65535) :
    ∃ w, (writeFramed ctrl payload).run h = (.ok (), ⟨h.own, w⟩) ∧ w.onWrite = h.wire.onWrite ∧
      w.inbox = h.wire.inbox := by
  rw [writeFramed_run big fits]
  exact writePackets_done _ _ done

/-- `recv_data` on a data frame, once its ACK has gone out. -/
theorem recvDataStep_data {ctrl : UInt8} (payload : Bytes) {h : Host Connection} (data : Control.isAck ctrl = false)
    (done : ∀ n, h.wire.onWrite n = .done) (big : INIT_HEADER < h.own.packetSize) :
    ∃ w, w.onWrite = h.wire.onWrite ∧ w.inbox = h.wire.inbox ∧ (recvDataStep ctrl payload).run h =
      if Control.seqOf ctrl = h.own.recvSeq then
        (.ok (.inr (ctrl, payload)), ⟨{ h.own with recvSeq := h.own.recvSeq ^^^ 1 }, w⟩)
      else (.ok (.inl ()), ⟨h.own, w⟩) := by
  obtain ⟨w, onWrite, inbox, -, run⟩ := recvDataStep_acked payload data big fun _ _ => done _
  exact ⟨w, onWrite, inbox, run⟩

/-! ## The frames of an inbox -/

/-- The frames that calls of `read_framed` make of these chunks, the first call in the middle of
one, until a call fails or has to wait. -/
def incoming : Reassembler × UInt8 → List (Except TrezorTransportError Bytes) → List (UInt8 × Bytes)
  | _, [] => []
  | _, .error _ :: _ => []
  | b, .ok [] :: rest => incoming b rest
  | b, .ok (first :: chunk) :: rest =>
    match (Reassembler.pushPacket (first :: chunk)).run b.1 with
    | (.ok none, reasm) => incoming (reasm, ctrlAfter b.2 first) rest
    | (.ok (some payload), _) =>
      if ctrlAfter b.2 first = Control.TRANSPORT_ERROR then []
      else (ctrlAfter b.2 first, payload) :: incoming ({}, 0) rest
    | _ => []

/-- A call of `read_framed` takes the first of them, and without one it returns nothing. -/
theorem readLoop_incoming (b : Reassembler × UInt8) (inbox : List (Except TrezorTransportError Bytes)) :
    ∀ h : Host Connection, h.wire.inbox = inbox →
      (incoming b inbox = [] ∧ ∀ f h', (readLoop b).run h ≠ (.ok f, h')) ∨
        ∃ f rest, (readLoop b).run h = (.ok f, afterFrame h f.1 f.2 rest) ∧
          incoming b inbox = f :: incoming ({}, 0) rest := by
  induction b, inbox using incoming.induct with
  | case1 b =>
    intro h inbox
    refine .inl ⟨rfl, fun f h' run => ?_⟩
    rw [readLoop, Io.loop, Comp.loop_eq readFramedTurn_lowers] at run
    simp [readFramedTurn, Io.readChunk, inbox, Comp.run_bind] at run
  | case2 b e rest =>
    intro h inbox
    refine .inl ⟨rfl, fun f h' run => ?_⟩
    rw [readLoop, Io.loop, Comp.loop_eq readFramedTurn_lowers] at run
    simp [readFramedTurn, Io.readChunk, inbox, Comp.run_bind] at run
  | case3 b rest ih =>
    intro h inbox
    rw [incoming, readLoop_empty inbox]
    exact ih (h.withInbox rest) rfl
  | case4 b first chunk rest reasm push ih =>
    intro h inbox
    rw [readLoop_more inbox push]
    simp only [incoming, push]
    exact ih (h.withInbox rest) rfl
  | case5 b first chunk rest payload reasm push isError =>
    intro h inbox
    refine .inl ⟨by simp only [incoming, push, isError, if_true], fun f h' run => ?_⟩
    rw [readLoop_done inbox push, received, if_pos isError] at run
    cases run
  | case6 b first chunk rest payload reasm push data ih =>
    intro h inbox
    refine .inr ⟨(ctrlAfter b.2 first, payload), rest, ?_, by simp only [incoming, push, data, if_false]⟩
    rw [readLoop_done inbox push, received, if_neg data]
  | case7 b first chunk rest none done =>
    intro h inbox
    rcases push : (Reassembler.pushPacket (first :: chunk)).run b.1 with ⟨(_ | payload) | _ | _ | _, reasm⟩
    · exact absurd push (none reasm)
    · exact absurd push (done payload reasm)
    all_goals
      refine .inl ⟨by simp only [incoming, push], fun f h' run => ?_⟩
      rw [readLoop_chunk inbox] at run
      simp [absorbChunk, Comp.run_bind, Comp.runLocal, push] at run

end TrezorCore.Connection
