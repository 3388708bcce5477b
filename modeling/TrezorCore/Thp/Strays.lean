import TrezorCore.Thp.FrameLoop

/-!
# Frames that are not ours

`read_framed` hands every CRC-valid frame up, whatever channel it is addressed to, and
`send_data` and `recv_data` decide on the control byte alone. Two runs over the same
stream, one with extra frames in it, show which extra frames make a difference:
`strays_unaffected_iff` is exact. The two runs differ in their history and, where an extra
frame is acknowledged, in the number of writes; `Alike` is what they have in common.
-/

namespace TrezorCore.Connection

open Framing

/-! ## Two runs -/

/-- The connections agree, and so do the replies to the writes to come. -/
structure Alike (h h' : Host Connection) : Prop where
  own : h.own = h'.own
  onWrite : h.wire.onWrite = h'.wire.onWrite
  written : h.wire.written = h'.wire.written ∨ ∀ n, h.wire.onWrite n = .done

theorem Alike.refl (h : Host Connection) : Alike h h := ⟨rfl, rfl, .inl rfl⟩

theorem Alike.trans {a b c : Host Connection} (h1 : Alike a b) (h2 : Alike b c) : Alike a c := by
  refine ⟨h1.own.trans h2.own, h1.onWrite.trans h2.onWrite, ?_⟩
  rcases h1.written with w1 | all
  · rcases h2.written with w2 | all
    · exact .inl (w1.trans w2)
    · exact .inr (h1.onWrite ▸ all)
  · exact .inr all

/-- `Alike`, with the same chunks waiting. -/
def AlikeAll (h h' : Host Connection) : Prop := Alike h h' ∧ h.wire.inbox = h'.wire.inbox

theorem own_alike : Comp.Respects Alike (Io.own : Io Connection Connection) :=
  fun _ _ rel => ⟨congrArg Outcome.ok rel.own, rel⟩

theorem modifyOwn_alike (f : Connection → Connection) : Comp.Respects Alike (Io.modifyOwn f) :=
  fun _ _ rel => ⟨rfl, congrArg f rel.own, rel.onWrite, rel.written⟩

theorem note_alike (e : Event) : Comp.Respects Alike (Io.note e : Io Connection Unit) :=
  fun _ _ rel => ⟨rfl, rel.own, rel.onWrite, rel.written⟩

theorem writeChunk_alike (packet : Bytes) : Comp.Respects Alike (Io.writeChunk packet : Io Connection Unit) := by
  intro h h' rel
  have reply : h.wire.onWrite h.wire.written = h'.wire.onWrite h'.wire.written := by
    rcases rel.written with same | all
    · rw [rel.onWrite, same]
    · rw [all, ← rel.onWrite, all]
  have written : h.wire.written + 1 = h'.wire.written + 1 ∨ ∀ n, h.wire.onWrite n = .done :=
    rel.written.imp_left (congrArg (· + 1))
  simp only [Io.writeChunk, reply]
  split <;> exact ⟨rfl, rel.own, rel.onWrite, written⟩

theorem writePackets_alike : ∀ packets, Comp.Respects Alike (writePackets packets)
  | [] => .pure ()
  | packet :: rest => .bind (writeChunk_alike packet) fun _ => writePackets_alike rest

theorem writeFramed_alike (ctrl : UInt8) (payload : Bytes) : Comp.Respects Alike (writeFramed ctrl payload) :=
  .bind own_alike fun _ => .bind (.ofExcept _) fun packets => .bind (note_alike _) fun _ => writePackets_alike packets

theorem sendDataStep_alike (ctrl : UInt8) (payload : Bytes) : Comp.Respects Alike (sendDataStep ctrl payload) := by
  refine .bind own_alike fun c => ?_
  by_cases ack : Control.isAck ctrl
  · rw [if_pos ack]
    by_cases current : Control.ackSeqOf ctrl = c.sendSeq
    · rw [if_pos current]
      exact .bind (modifyOwn_alike _) fun _ => .pure _
    · rw [if_neg current]
      exact .pure _
  · rw [if_neg ack]
    refine .bind (modifyOwn_alike _) fun _ => .bind (note_alike _) fun _ => .bind (writeFramed_alike _ _) fun _ => ?_
    by_cases fresh : Control.seqOf ctrl = c.recvSeq
    · rw [if_pos fresh]
      exact .bind (modifyOwn_alike _) fun _ => .pure _
    · rw [if_neg fresh]
      exact .pure _

theorem recvDataStep_alike (ctrl : UInt8) (payload : Bytes) : Comp.Respects Alike (recvDataStep ctrl payload) := by
  by_cases ack : Control.isAck ctrl
  · rw [recvDataStep, if_pos ack]
    exact .pure _
  · rw [recvDataStep, if_neg ack]
    refine .bind (writeFramed_alike _ _) fun _ => .bind own_alike fun c => ?_
    by_cases fresh : Control.seqOf ctrl = c.recvSeq
    · rw [if_pos fresh]
      exact .bind (modifyOwn_alike _) fun _ => .pure _
    · rw [if_neg fresh]
      exact .pure _

/-- A computation that does not read keeps the chunks of both runs the same. -/
theorem alikeAll_of_quiet {α : Type} {x : Io Connection α} (alike : Comp.Respects Alike x)
    (quiet : Comp.Keeps Quiet x) : Comp.Respects AlikeAll x := by
  intro h h' rel
  obtain ⟨same, after⟩ := alike h h' rel.1
  exact ⟨same, after, (quiet h).inbox.trans (rel.2.trans (quiet h').inbox.symm)⟩

theorem readChunk_alike : Comp.Respects AlikeAll (Io.readChunk : Io Connection Bytes) := by
  rintro h h' ⟨rel, inbox⟩
  simp only [Io.readChunk, ← inbox]
  split
  · exact ⟨rfl, rel, inbox⟩
  · exact ⟨rfl, ⟨rel.own, rel.onWrite, rel.written⟩, rfl⟩
  · exact ⟨rfl, ⟨rel.own, rel.onWrite, rel.written⟩, rfl⟩

theorem absorbChunk_alike (reasm : Reassembler) (ctrl : UInt8) (chunk : Bytes) :
    Comp.Respects Alike (absorbChunk reasm ctrl chunk) := by
  cases chunk with
  | nil => exact .pure _
  | cons first rest =>
    refine .bind (.runLocal _ _) fun r => ?_
    obtain ⟨done, reasm⟩ := r
    cases done with
    | none => exact .pure _
    | some payload =>
      refine .bind (note_alike _) fun _ => ?_
      generalize (if first &&& CONTINUATION_BIT = 0 then first else ctrl) = c
      by_cases hc : c = Control.TRANSPORT_ERROR
      · exact (if_pos hc).symm ▸ .fail _
      · exact (if_neg hc).symm ▸ .pure _

theorem readFramed_alike : Comp.Respects AlikeAll readFramed := by
  refine .loop (fun h h' rel => by rw [rel.2]) (fun b => ?_) _
  exact .bind readChunk_alike fun chunk =>
    alikeAll_of_quiet (absorbChunk_alike b.1 b.2 chunk) (absorbChunk_quiet b.1 b.2 chunk)

/-! ## A stream with extra frames in it -/

/-- `fs'` is `fs` with extra frames at some of its boundaries. -/
inductive Inserted (extra : Frame → Prop) : List Frame → List Frame → Prop where
  | nil : Inserted extra [] []
  | keep (f : Frame) {fs fs' : List Frame} : Inserted extra fs fs' → Inserted extra (f :: fs) (f :: fs')
  | insert {g : Frame} {fs fs' : List Frame} : extra g → Inserted extra fs fs' → Inserted extra fs (g :: fs')

/-- The packets of a list of frames. -/
def frames (packetSize : Nat) (fs : List Frame) : List (Except TrezorTransportError Bytes) :=
  arriving (fs.flatMap (packets packetSize))

theorem frames_cons (packetSize : Nat) (f : Frame) (fs : List Frame)
    (rest : List (Except TrezorTransportError Bytes)) :
    frames packetSize (f :: fs) ++ rest = arriving (packets packetSize f) ++ (frames packetSize fs ++ rest) := by
  simp [frames, arriving]

/-- What is compared between the two runs. -/
structure SameResult {α : Type} (r r' : Outcome TrezorError α × Host Connection) : Prop where
  outcome : r.1 = r'.1
  own : r.2.own = r'.2.own

/-- A waiting loop is blind to extra frames on which its step waits on. -/
theorem awaitFrame_inserted {α : Type} {step : UInt8 → Bytes → Io Connection (Unit ⊕ α)} {c : Connection}
    {extra : Frame → Prop} {writes : (Nat → WriteReply) → Prop} {packetSize : Nat}
    {rest : List (Except TrezorTransportError Bytes)} (big : INIT_HEADER < packetSize)
    (quiet : ∀ ctrl payload, Comp.Keeps Quiet (step ctrl payload))
    (alike : ∀ ctrl payload, Comp.Respects Alike (step ctrl payload))
    (waits : ∀ ctrl payload h h', (step ctrl payload).run h = (.ok (.inl ()), h') → h'.own = h.own)
    (sendable : ∀ g, extra g → Sendable g)
    (skips : ∀ g, extra g → g.ctrl ≠ Control.TRANSPORT_ERROR ∧ ∀ h : Host Connection, h.own = c →
      writes h.wire.onWrite → ∃ h', (step g.ctrl g.payload).run h = (.ok (.inl ()), h') ∧ Alike h h') :
    ∀ {fs fs' : List Frame}, Inserted extra fs fs' → (∀ f ∈ fs, Sendable f) → ∀ {h h' : Host Connection},
      Alike h h' → h.own = c → writes h.wire.onWrite → h.wire.inbox = frames packetSize fs ++ rest →
      h'.wire.inbox = frames packetSize fs' ++ rest →
      SameResult ((awaitFrame step).run h) ((awaitFrame step).run h') := by
  -- by induction on how the streams differ; the loop goes on only with the connection unchanged
  intro fs fs' ins
  induction ins with
  | nil =>
    intro _ h h' rel _ _ hin hin'
    have all : Comp.Respects AlikeAll (awaitFrame step) := by
      refine .loop (fun h h' rel => by rw [rel.2]) (fun _ => ?_) _
      exact .bind readFramed_alike fun f => alikeAll_of_quiet (alike f.1 f.2) (quiet f.1 f.2)
    obtain ⟨same, after⟩ := all h h' ⟨rel, hin.trans hin'.symm⟩
    exact ⟨same, after.1.own⟩
  | @keep f fs fs' ins ih =>
    intro ok h h' rel own ws hin hin'
    rw [frames_cons] at hin hin'
    have okf := ok f List.mem_cons_self
    rw [awaitFrame_frame quiet okf big hin, awaitFrame_frame quiet okf big hin']
    by_cases isError : f.ctrl = Control.TRANSPORT_ERROR
    · rw [if_pos isError, if_pos isError]
      exact ⟨rfl, rel.own⟩
    rw [if_neg isError, if_neg isError]
    have read : Alike (afterFrame h f.ctrl f.payload (frames packetSize fs ++ rest))
        (afterFrame h' f.ctrl f.payload (frames packetSize fs' ++ rest)) := ⟨rel.own, rel.onWrite, rel.written⟩
    obtain ⟨same, after⟩ := alike f.ctrl f.payload _ _ read
    have q := quiet f.ctrl f.payload (afterFrame h f.ctrl f.payload (frames packetSize fs ++ rest))
    have q' := quiet f.ctrl f.payload (afterFrame h' f.ctrl f.payload (frames packetSize fs' ++ rest))
    rw [Comp.run_bind, Comp.run_bind]
    rcases hs : (step f.ctrl f.payload).run (afterFrame h f.ctrl f.payload (frames packetSize fs ++ rest)) with ⟨o, k⟩
    rcases ht : (step f.ctrl f.payload).run (afterFrame h' f.ctrl f.payload (frames packetSize fs' ++ rest)) with ⟨o', k'⟩
    rw [hs, ht] at same after
    rw [hs] at q
    rw [ht] at q'
    subst same
    rcases o with (⟨⟩ | a) | e | _ | _
    · have still := waits _ _ _ _ hs
      have ws' : writes k.wire.onWrite := by rw [q.onWrite]; exact ws
      exact ih (fun f hf => ok f (List.mem_cons_of_mem _ hf)) after (still.trans own) ws' q.inbox q'.inbox
    all_goals exact ⟨rfl, after.own⟩
  | @insert g fs fs' stray ins ih =>
    intro ok h h' rel own ws hin hin'
    rw [frames_cons] at hin'
    have read : Alike h (afterFrame h' g.ctrl g.payload (frames packetSize fs' ++ rest)) :=
      ⟨rel.own, rel.onWrite, rel.written⟩
    obtain ⟨notError, skip⟩ := skips g stray
    obtain ⟨k', run, same⟩ := skip _ (read.own.symm.trans own) (read.onWrite ▸ ws)
    have q' := quiet g.ctrl g.payload (afterFrame h' g.ctrl g.payload (frames packetSize fs' ++ rest))
    rw [run] at q'
    rw [awaitFrame_frame quiet (sendable g stray) big hin', if_neg notError, Comp.bind_ok run]
    exact ih ok (read.trans same) own ws hin q'.inbox

/-! ## Which extra frames make a difference -/

/-- The control bytes a channel's own traffic has: ACKs, transport errors and data. -/
def expectedCtrl (ctrl : UInt8) : Bool :=
  Control.isAck ctrl || ctrl == Control.TRANSPORT_ERROR ||
    [Control.HANDSHAKE_INIT_RESPONSE, Control.HANDSHAKE_COMPLETION_RESPONSE, Control.ENCRYPTED_TRANSPORT].contains
      (ctrl &&& ~~~Control.SEQ_BIT)

/-- A CRC-valid frame that is not part of the channel's traffic. -/
structure Stray (c : Connection) (g : Frame) : Prop where
  sendable : Sendable g
  foreign : g.cid ≠ c.cid ∨ expectedCtrl g.ctrl = false

/-- What a call returns and leaves in the connection's protocol state. -/
def observed {α : Type} (r : Outcome TrezorError α × Host Connection) :
    Outcome TrezorError α × UInt8 × UInt8 × Option (UInt8 × Bytes) :=
  (r.1, r.2.own.sendSeq, r.2.own.recvSeq, r.2.own.pendingData)

/-- Extra frames in the stream change nothing, on any wire that replies to writes like this. -/
def Unaffected {α : Type} (c : Connection) (extra : Frame → Prop) (writes : (Nat → WriteReply) → Prop)
    (x : Io Connection α) : Prop :=
  ∀ (w : Wire) (fs fs' : List Frame) (rest : List (Except TrezorTransportError Bytes)),
    writes w.onWrite → (∀ f ∈ fs, Sendable f) → Inserted extra fs fs' →
      observed (x.run ⟨c, w.withInbox (frames c.packetSize fs ++ rest)⟩) =
        observed (x.run ⟨c, w.withInbox (frames c.packetSize fs' ++ rest)⟩)

/-- Any transport; and one that takes every write. -/
def anyWrites (_ : Nat → WriteReply) : Prop := True
def allDone (onWrite : Nat → WriteReply) : Prop := ∀ n, onWrite n = .done

theorem SameResult.observed {α : Type} {r r' : Outcome TrezorError α × Host Connection} (same : SameResult r r') :
    observed r = observed r' := by
  rw [Connection.observed, Connection.observed, same.outcome, same.own]

theorem SameResult.bind {α β : Type} {x : Io Connection α} {f : α → Io Connection β} {h h' : Host Connection}
    (first : SameResult (x.run h) (x.run h'))
    (later : ∀ a k k', k.own = k'.own → SameResult ((f a).run k) ((f a).run k')) :
    SameResult ((x >>= f).run h) ((x >>= f).run h') := by
  obtain ⟨outcome, own⟩ := first
  rw [Comp.run_bind, Comp.run_bind]
  rcases hs : x.run h with ⟨o, k⟩
  rcases ht : x.run h' with ⟨o', k'⟩
  rw [hs, ht] at outcome own
  subst outcome
  cases o with
  | ok a => exact later a k k' own
  | err e => exact ⟨rfl, own⟩
  | panicked => exact ⟨rfl, own⟩
  | dropped => exact ⟨rfl, own⟩

/-- `send_data` waits on at a stale ACK. -/
theorem sendDataStep_stale {ctrl : UInt8} {payload : Bytes} {h : Host Connection} (ack : Control.isAck ctrl = true)
    (stale : Control.ackSeqOf ctrl ≠ h.own.sendSeq) : (sendDataStep ctrl payload).run h = (.ok (.inl ()), h) := by
  rw [sendDataStep, Io.run_own_bind, if_pos ack, if_neg stale]
  rfl

/-- On any other frame it returns, once the ACK it may have to write goes out. -/
theorem sendDataStep_returns {ctrl : UInt8} {payload : Bytes} {h : Host Connection}
    (other : ¬ (Control.isAck ctrl = true ∧ Control.ackSeqOf ctrl ≠ h.own.sendSeq)) (done : allDone h.wire.onWrite)
    (big : INIT_HEADER < h.own.packetSize) : ∃ k, (sendDataStep ctrl payload).run h = (.ok (.inr ()), k) := by
  rw [sendDataStep, Io.run_own_bind]
  by_cases ack : Control.isAck ctrl
  · rw [if_pos ack, if_pos (not_not.1 fun stale => other ⟨ack, stale⟩)]
    exact ⟨_, rfl⟩
  · rw [if_neg ack]
    simp only [Io.run_modifyOwn_bind, Io.run_note_bind]
    obtain ⟨w, run, -⟩ := writeFramed_done (Control.ackFor (Control.seqOf ctrl)) []
      (h := ⟨{ h.own with sendSeq := h.own.sendSeq ^^^ 1 },
        h.wire.log (.implicitAck (Control.seqOf ctrl = h.own.recvSeq))⟩) done big (by decide)
    rw [sendAck, Comp.bind_ok run]
    by_cases fresh : Control.seqOf ctrl = h.own.recvSeq
    · rw [if_pos fresh]
      exact ⟨_, rfl⟩
    · rw [if_neg fresh]
      exact ⟨_, rfl⟩

theorem isAck_ne_error {ctrl : UInt8} (ack : Control.isAck ctrl = true) : ctrl ≠ Control.TRANSPORT_ERROR := by
  rintro rfl
  exact absurd ack (by decide)

section Iff

variable {c : Connection} {extra : Frame → Prop} (big : INIT_HEADER < c.packetSize)
include big

theorem sendData_unaffected {writes : (Nat → WriteReply) → Prop} (sendable : ∀ g, extra g → Sendable g)
    (stale : ∀ g, extra g → Control.isAck g.ctrl = true ∧ Control.ackSeqOf g.ctrl ≠ c.sendSeq)
    (baseCtrl : UInt8) (payload : Bytes) : Unaffected c extra writes (sendData baseCtrl payload) := by
  intro w fs fs' rest ws ok ins
  refine SameResult.observed ?_
  simp only [sendData, Io.run_own_bind, Io.run_note_bind]
  -- the request is written the same way in both runs
  let e := Event.sendBegins c.pendingData.isSome
  let h : Host Connection := ⟨c, (w.withInbox (frames c.packetSize fs ++ rest)).log e⟩
  let h' : Host Connection := ⟨c, (w.withInbox (frames c.packetSize fs' ++ rest)).log e⟩
  let ctrl := Control.withSeq baseCtrl c.sendSeq
  obtain ⟨same, after⟩ := writeFramed_alike ctrl payload h h' ⟨rfl, rfl, .inl rfl⟩
  have q := writeFramed_quiet ctrl payload h
  have q' := writeFramed_quiet ctrl payload h'
  have own := writeFramed_own ctrl payload h
  change SameResult ((writeFramed ctrl payload >>= _).run h) ((writeFramed ctrl payload >>= _).run h')
  rw [Comp.run_bind, Comp.run_bind]
  rcases hs : (writeFramed ctrl payload).run h with ⟨o, k⟩
  rcases ht : (writeFramed ctrl payload).run h' with ⟨o', k'⟩
  rw [hs, ht] at same after
  rw [hs] at q own
  rw [ht] at q'
  subst same
  cases o with
  | ok _ =>
    have ws' : writes k.wire.onWrite := by rw [q.onWrite]; exact ws
    refine SameResult.bind ?_ fun _ _ _ same => ⟨rfl, same⟩
    refine awaitFrame_inserted big sendDataStep_quiet sendDataStep_alike
      (fun _ _ _ _ run => congrArg Host.own (sendDataStep_waits run).2.2) sendable (fun g hg => ?_)
      ins ok after own ws' q.inbox q'.inbox
    obtain ⟨ack, old⟩ := stale g hg
    exact ⟨isAck_ne_error ack, fun k own _ => ⟨k, sendDataStep_stale ack (by rw [own]; exact old), .refl k⟩⟩
  | err e => exact ⟨rfl, after.own⟩
  | panicked => exact ⟨rfl, after.own⟩
  | dropped => exact ⟨rfl, after.own⟩

theorem recvData_unaffected {writes : (Nat → WriteReply) → Prop} (sendable : ∀ g, extra g → Sendable g)
    (skips : ∀ g, extra g → Control.isAck g.ctrl = true ∨
      (g.ctrl ≠ Control.TRANSPORT_ERROR ∧ Control.seqOf g.ctrl ≠ c.recvSeq ∧ ∀ onWrite, writes onWrite → allDone onWrite)) :
    Unaffected c extra writes recvData := by
  intro w fs fs' rest ws ok ins
  refine SameResult.observed ?_
  simp only [recvData, Io.run_own_bind]
  split
  · exact ⟨rfl, rfl⟩
  · refine SameResult.bind ?_ fun _ _ _ same => ⟨rfl, same⟩
    refine awaitFrame_inserted big recvDataStep_quiet recvDataStep_alike
      (fun _ _ _ _ run => recvDataStep_waits run) sendable (fun g hg => ?_) ins ok
      (h := ⟨c, w.withInbox (frames c.packetSize fs ++ rest)⟩)
      ⟨rfl, rfl, .inl rfl⟩ rfl (show writes w.onWrite from ws) rfl rfl
    by_cases ack : Control.isAck g.ctrl = true
    · refine ⟨isAck_ne_error ack, fun k _ _ => ⟨k, ?_, .refl k⟩⟩
      rw [recvDataStep, if_pos ack]
      rfl
    · obtain ⟨notError, old, done⟩ := (skips g hg).resolve_left ack
      refine ⟨notError, fun k own ws => ?_⟩
      obtain ⟨w, onWrite, -, run⟩ := recvDataStep_data g.payload (Bool.eq_false_iff.2 ack) (done _ ws)
        (by rw [own]; exact big)
      rw [if_neg (by rw [own]; exact old)] at run
      exact ⟨_, run, rfl, onWrite.symm, .inr (done _ ws)⟩

end Iff

/-! ### The frames that do -/

section Affected

variable {h : Host Connection} (done : allDone h.wire.onWrite) (big : INIT_HEADER < h.own.packetSize)
include done big

/-- Once the request is out, `send_data` is its waiting loop. -/
theorem sendData_written (baseCtrl : UInt8) (payload : Bytes) (fits : payload.length + CRC_LEN ≤ 65535) :
    ∃ w e, (sendData baseCtrl payload).run h = (awaitFrame sendDataStep >>= fun _ => Io.note e).run ⟨h.own, w⟩ ∧
      allDone w.onWrite ∧ w.inbox = h.wire.inbox := by
  obtain ⟨w, run, onWrite, inbox⟩ := writeFramed_done (Control.withSeq baseCtrl h.own.sendSeq) payload
    (h := ⟨h.own, h.wire.log (.sendBegins h.own.pendingData.isSome)⟩) done big fits
  refine ⟨w, .sent (Control.withSeq baseCtrl h.own.sendSeq) payload, ?_, by rw [onWrite]; exact done, inbox⟩
  simp only [sendData, Io.run_own_bind, Io.run_note_bind]
  rw [Comp.bind_ok run]

theorem sendData_waits (hin : h.wire.inbox = []) (baseCtrl : UInt8) : ((sendData baseCtrl []).run h).1 = .dropped := by
  obtain ⟨w, e, run, -, inbox⟩ := sendData_written done big baseCtrl [] (by decide)
  rw [run, Comp.run_bind, awaitFrame_nil sendDataStep (h := ⟨h.own, w⟩) (inbox.trans hin)]

/-- A frame other than a stale ACK ends `send_data`. -/
theorem sendData_ends {g : Frame} {rest : List (Except TrezorTransportError Bytes)} (ok : Sendable g)
    (hin : h.wire.inbox = arriving (packets h.own.packetSize g) ++ rest)
    (other : ¬ (Control.isAck g.ctrl = true ∧ Control.ackSeqOf g.ctrl ≠ h.own.sendSeq)) (baseCtrl : UInt8) :
    ((sendData baseCtrl []).run h).1 ≠ .dropped := by
  obtain ⟨w, e, run, done', inbox⟩ := sendData_written done big baseCtrl [] (by decide)
  rw [run, Comp.run_bind, awaitFrame_frame sendDataStep_quiet ok big (h := ⟨h.own, w⟩) (inbox.trans hin)]
  by_cases isError : g.ctrl = Control.TRANSPORT_ERROR
  · rw [if_pos isError]
    simp
  · obtain ⟨k, returns⟩ := sendDataStep_returns (h := afterFrame ⟨h.own, w⟩ g.ctrl g.payload rest) other done' big
    rw [if_neg isError, Comp.bind_ok returns]
    simp

end Affected

theorem recvData_waits {h : Host Connection} (hin : h.wire.inbox = []) (empty : h.own.pendingData = none) :
    (recvData.run h).1 = .dropped := by
  simp only [recvData, Io.run_own_bind, empty]
  rw [Comp.run_bind, awaitFrame_nil recvDataStep hin]

/-- A frame that `recv_data` does not step over ends it. -/
theorem recvData_ends {h : Host Connection} {g : Frame} {rest : List (Except TrezorTransportError Bytes)}
    (big : INIT_HEADER < h.own.packetSize) (ok : Sendable g) (empty : h.own.pendingData = none)
    (hin : h.wire.inbox = arriving (packets h.own.packetSize g) ++ rest)
    (ends : ∀ k : Host Connection, k.own = h.own → k.wire.onWrite = h.wire.onWrite →
      g.ctrl = Control.TRANSPORT_ERROR ∨ (∃ k' f, (recvDataStep g.ctrl g.payload).run k = (.ok (.inr f), k')) ∨
        ∃ k' e, (recvDataStep g.ctrl g.payload).run k = (.err e, k')) :
    (recvData.run h).1 ≠ .dropped := by
  simp only [recvData, Io.run_own_bind, empty]
  rw [Comp.run_bind, awaitFrame_frame recvDataStep_quiet ok big hin]
  by_cases isError : g.ctrl = Control.TRANSPORT_ERROR
  · rw [if_pos isError]
    simp
  rw [if_neg isError]
  rcases (ends (afterFrame h g.ctrl g.payload rest) rfl rfl).resolve_left isError with ⟨k, f, returns⟩ | ⟨k, e, fails⟩
  · rw [Comp.bind_ok returns]
    simp
  · rw [Comp.bind_err fails]
    simp

/-- A transport on which every write fails. -/
def noWrites : Nat → WriteReply := fun _ => .failed (.io "write failed")

/-- There the ACK of a data frame fails, and `recv_data` with it. -/
theorem recvDataStep_fails {ctrl : UInt8} {payload : Bytes} {h : Host Connection} (data : Control.isAck ctrl = false)
    (big : INIT_HEADER < h.own.packetSize) (fails : h.wire.onWrite = noWrites) :
    ∃ k e, (recvDataStep ctrl payload).run h = (.err e, k) := by
  have seg := segment_ok (f := ⟨h.own.cid, Control.ackFor (Control.seqOf ctrl), []⟩) big
    (show ([] : Bytes).length + CRC_LEN ≤ 65535 by decide)
  simp only at seg
  simp only [recvDataStep, data, Bool.false_eq_true, if_false]
  rw [sendAck, writeFramed, Comp.bind_assoc, Io.run_own_bind, seg, Comp.ofExcept_ok, Comp.pure_bind, Comp.bind_assoc,
    Io.run_note_bind, writePackets, Comp.bind_assoc]
  exact ⟨_, _, Comp.bind_err (by simp only [Io.writeChunk, Wire.log, fails, noWrites]; rfl)⟩

section Iff

variable {c : Connection} {extra : Frame → Prop}

/-- What an insertion that changes nothing says about one frame on its own. -/
theorem Unaffected.alone {α : Type} {x : Io Connection α} {writes : (Nat → WriteReply) → Prop}
    (unaffected : Unaffected c extra writes x) {g : Frame} (hg : extra g) (onWrite : Nat → WriteReply)
    (ws : writes onWrite) :
    (x.run ⟨c, Wire.replying onWrite⟩).1 =
      (x.run ⟨c, (Wire.replying onWrite).withInbox (arriving (packets c.packetSize g) ++ [])⟩).1 := by
  have same := unaffected (Wire.replying onWrite) [] [g] [] ws (fun f hf => absurd hf List.not_mem_nil)
    (.insert hg .nil)
  have one : frames c.packetSize [g] ++ [] = arriving (packets c.packetSize g) ++ [] := frames_cons _ g [] []
  rw [one] at same
  have outcome := congrArg Prod.fst same
  exact outcome

theorem sendData_unaffected_iff (big : INIT_HEADER < c.packetSize) (sendable : ∀ g, extra g → Sendable g)
    {writes : (Nat → WriteReply) → Prop} (ws : writes fun _ => .done) :
    (∀ baseCtrl payload, Unaffected c extra writes (sendData baseCtrl payload)) ↔
      ∀ g, extra g → Control.isAck g.ctrl = true ∧ Control.ackSeqOf g.ctrl ≠ c.sendSeq := by
  refine ⟨fun unaffected g hg => ?_, fun stale _ _ => sendData_unaffected big sendable stale _ _⟩
  by_contra other
  have same := (unaffected Control.ENCRYPTED_TRANSPORT []).alone hg _ ws
  rw [sendData_waits (h := ⟨c, _⟩) (fun _ => rfl) big rfl] at same
  exact sendData_ends (h := ⟨c, _⟩) (fun _ => rfl) big (sendable g hg) rfl other _ same.symm

theorem recvData_unaffected_of_pending {writes : (Nat → WriteReply) → Prop} (stashed : c.pendingData.isSome) :
    Unaffected c extra writes recvData := by
  obtain ⟨frame, pending⟩ := Option.isSome_iff_exists.1 stashed
  intro w fs fs' rest _ _ _
  simp only [recvData, Io.run_own_bind, pending]
  rfl

theorem recvData_unaffected_iff_allDone (big : INIT_HEADER < c.packetSize) (sendable : ∀ g, extra g → Sendable g) :
    Unaffected c extra allDone recvData ↔ c.pendingData.isSome ∨ ∀ g, extra g →
      Control.isAck g.ctrl = true ∨ (g.ctrl ≠ Control.TRANSPORT_ERROR ∧ Control.seqOf g.ctrl ≠ c.recvSeq) := by
  constructor
  · intro unaffected
    rcases pending : c.pendingData with _ | frame
    · refine .inr fun g hg => ?_
      by_contra other
      have same := unaffected.alone hg (fun _ => .done) (fun _ => rfl)
      rw [recvData_waits (h := ⟨c, _⟩) rfl pending] at same
      refine recvData_ends (h := ⟨c, _⟩) big (sendable g hg) pending rfl (fun k own onWrite => ?_) same.symm
      by_cases isError : g.ctrl = Control.TRANSPORT_ERROR
      · exact .inl isError
      · have fresh : Control.seqOf g.ctrl = k.own.recvSeq := by
          rw [own]
          exact not_not.1 fun old => other (.inr ⟨isError, old⟩)
        obtain ⟨w, -, -, run⟩ := recvDataStep_data g.payload (Bool.eq_false_iff.2 fun ack => other (.inl ack))
          (fun n => by rw [onWrite]; rfl) (by rw [own]; exact big)
        rw [if_pos fresh] at run
        exact .inr (.inl ⟨_, _, run⟩)
    · exact .inl rfl
  · rintro (stashed | skips)
    · exact recvData_unaffected_of_pending stashed
    · exact recvData_unaffected big sendable fun g hg =>
        (skips g hg).imp_right fun ⟨notError, old⟩ => ⟨notError, old, fun _ done => done⟩

theorem recvData_unaffected_iff_anyWrites (big : INIT_HEADER < c.packetSize) (sendable : ∀ g, extra g → Sendable g) :
    Unaffected c extra anyWrites recvData ↔ c.pendingData.isSome ∨ ∀ g, extra g → Control.isAck g.ctrl = true := by
  constructor
  · intro unaffected
    rcases pending : c.pendingData with _ | frame
    · refine .inr fun g hg => ?_
      by_contra data
      have same := unaffected.alone hg noWrites trivial
      rw [recvData_waits (h := ⟨c, _⟩) rfl pending] at same
      refine recvData_ends (h := ⟨c, _⟩) big (sendable g hg) pending rfl (fun k own onWrite => ?_) same.symm
      exact .inr (.inr (recvDataStep_fails (Bool.eq_false_iff.2 data) (by rw [own]; exact big) onWrite))
    · exact .inl rfl
  · rintro (stashed | acks)
    · exact recvData_unaffected_of_pending stashed
    · exact recvData_unaffected big sendable fun g hg => .inl (acks g hg)

/-- **Which stray frames count.** For an allocated connection, stray frames of the kind `G`
leave `send_data` alone exactly when each is an ACK of the other sequence bit. They leave
`recv_data` alone exactly when a frame is stashed or each is an ACK; on a transport that
takes every write, data frames that repeat the other sequence bit do no harm either. -/
theorem strays_unaffected_iff (c : Connection) (big : 5 < c.packetSize) (G : Frame → Prop) :
    (∀ writes : (Nat → WriteReply) → Prop, writes (fun _ => .done) →
      ((∀ baseCtrl payload, Unaffected c (fun g => G g ∧ Stray c g) writes (sendData baseCtrl payload)) ↔
        ∀ g, G g → Stray c g → Control.isAck g.ctrl = true ∧ Control.ackSeqOf g.ctrl ≠ c.sendSeq)) ∧
    (Unaffected c (fun g => G g ∧ Stray c g) anyWrites recvData ↔
      c.pendingData.isSome ∨ ∀ g, G g → Stray c g → Control.isAck g.ctrl = true) ∧
    (Unaffected c (fun g => G g ∧ Stray c g) allDone recvData ↔
      c.pendingData.isSome ∨ ∀ g, G g → Stray c g →
        Control.isAck g.ctrl = true ∨ (g.ctrl ≠ Control.TRANSPORT_ERROR ∧ Control.seqOf g.ctrl ≠ c.recvSeq)) := by
  have sendable : ∀ g, G g ∧ Stray c g → Sendable g := fun g hg => hg.2.sendable
  refine ⟨fun writes ws => ?_, ?_, ?_⟩
  · rw [sendData_unaffected_iff big sendable ws]
    simp only [and_imp]
  · rw [recvData_unaffected_iff_anyWrites big sendable]
    simp only [and_imp]
  · rw [recvData_unaffected_iff_allDone big sendable]
    simp only [and_imp]

end Iff

/-- A connection on channel 0x1234, and a PING on it. -/
def allocated : Connection := { initial 0 64 with cid := 0x1234 }
def ping : Frame := ⟨0x1234, Control.PING, []⟩

theorem ping_stray : Stray allocated ping := ⟨⟨rfl, by decide⟩, .inr rfl⟩

theorem strays_unaffected_iff_ping :
    5 < allocated.packetSize ∧ ¬ ∀ baseCtrl payload,
      Unaffected allocated (fun g => g = ping ∧ Stray allocated g) anyWrites (sendData baseCtrl payload) := by
  refine ⟨by decide, fun unaffected => ?_⟩
  have stale := ((strays_unaffected_iff allocated (by decide) (· = ping)).1 anyWrites trivial).1 unaffected
  exact absurd (stale ping rfl ping_stray).1 (by decide)

/-- With nothing but a PING coming in, `send_data` returns `Ok`. -/
theorem ping_counts :
    Stray allocated ping ∧
    ((sendData Control.ENCRYPTED_TRANSPORT [1]).run ⟨allocated, Wire.replying fun _ => .done⟩).1 = .dropped ∧
    ((sendData Control.ENCRYPTED_TRANSPORT [1]).run ⟨allocated, (Wire.replying fun _ => .done).withInbox
      (arriving (packets allocated.packetSize ping) ++ [])⟩).1 = .ok () ∧
    ¬ Unaffected allocated (Stray allocated) anyWrites (sendData Control.ENCRYPTED_TRANSPORT [1]) := by
  have without : ((sendData Control.ENCRYPTED_TRANSPORT [1]).run
      ⟨allocated, Wire.replying fun _ => .done⟩).1 = .dropped := by decide +kernel
  have within : ((sendData Control.ENCRYPTED_TRANSPORT [1]).run ⟨allocated, (Wire.replying fun _ => .done).withInbox
      (arriving (packets allocated.packetSize ping) ++ [])⟩).1 = .ok () := by decide +kernel
  refine ⟨ping_stray, without, within, fun unaffected => ?_⟩
  have outcome := unaffected.alone ping_stray (fun _ => .done) trivial
  cases without.symm.trans (outcome.trans within)

end TrezorCore.Connection
