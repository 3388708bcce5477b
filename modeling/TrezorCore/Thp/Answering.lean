import TrezorCore.Lib.Simulation
import TrezorCore.Thp.Dialogue
import TrezorCore.Thp.Link
import TrezorCore.Thp.Strays

/-!
# A device that answers

The link under an honest device. The device answers each data message of the host with one
of its own: it acknowledges first, or the data is the acknowledgement. Around these frames
the transport may carry noise, messages that broke off, stale acknowledgements and
repetitions of old data. `sendData_answered` and `recvData_due` say that none of it shows:
the message goes out, the answer comes back, and the line moves on by one message in each
direction.
-/

namespace TrezorCore.Connection

open Framing Link

abbrev Inbox := List (Except TrezorTransportError Bytes)

/-- Where a channel stands between two exchanges: the alternating bits are the parities of how
many data messages went out and came in. -/
structure Line where
  packetSize : Nat
  big : INIT_HEADER < packetSize
  cid : UInt16
  sends : Nat
  receives : Nat

namespace Line

variable (l : Line)

/-- A message further in each direction. -/
def next : Line := { l with sends := l.sends + 1, receives := l.receives + 1 }

/-- The connection between two exchanges, -/
def connection (session : Option Session) (who : Speaker) : Connection :=
  ⟨who.id, l.packetSize, l.cid, bit l.sends, bit l.receives, session, who.activeSessionId, who.seededWith, none⟩

/-- once a message is acknowledged, -/
def asked (session : Option Session) (who : Speaker) : Connection :=
  { l.connection session who with sendSeq := bit (l.sends + 1) }

/-- and when its answer was taken for the acknowledgement. -/
def stashed (session : Option Session) (who : Speaker) (f : Frame) : Connection :=
  { l.next.connection session who with pendingData := some (f.ctrl, f.payload) }

def ack : Frame := ⟨l.cid, Control.ackFor (bit l.sends), []⟩

def data (base : UInt8) (payload : Bytes) : Frame := ⟨l.cid, Control.withSeq base (bit l.receives), payload⟩

/-- An acknowledgement that `send_data` passes over. -/
def Stale (f : Frame) : Prop := Control.isAck f.ctrl = true ∧ Control.ackSeqOf f.ctrl ≠ bit l.sends

/-- A frame that `recv_data` passes over. -/
def Repeated (f : Frame) : Prop :=
  Control.isAck f.ctrl = true ∨ f.ctrl ≠ Control.TRANSPORT_ERROR ∧ Control.seqOf f.ctrl ≠ bit l.receives

/-- The data message that is due. -/
structure Fresh (f : Frame) : Prop where
  data : Control.isAck f.ctrl = false
  noError : f.ctrl ≠ Control.TRANSPORT_ERROR
  seq : Control.seqOf f.ctrl = bit l.receives

/-- The device answers a message with `f`; behind it comes `rest`. -/
inductive Answered (f : Frame) (rest : Inbox) : Inbox → Prop
  | acked {stale repeats : List Leg} {ack data : Leg} : (∀ g ∈ stale, l.Stale g.frame) → ack.frame = l.ack →
      (∀ g ∈ repeats, l.Repeated g.frame) → data.frame = f →
      Answered f rest (stream l.packetSize rest (stale ++ ack :: (repeats ++ [data])))
  | implicit {stale : List Leg} {data : Leg} : (∀ g ∈ stale, l.Stale g.frame) → data.frame = f →
      Answered f rest (stream l.packetSize rest (stale ++ [data]))

/-- The message went out, and its answer is on the way or in the connection. -/
inductive Due (session : Option Session) (who : Speaker) (f : Frame) (rest : Inbox) : Connection → Inbox → Prop
  | coming {repeats : List Leg} {data : Leg} : (∀ g ∈ repeats, l.Repeated g.frame) → data.frame = f →
      Due session who f rest (l.asked session who) (stream l.packetSize rest (repeats ++ [data]))
  | stashed : Due session who f rest (l.stashed session who f) rest

end Line

/-- Nothing that the host writes is lost. -/
def Writes (h : Host Connection) : Prop := allDone h.wire.onWrite

/-! ## Streams -/

theorem stream_append (packetSize : Nat) (rest : Inbox) (a b : List Leg) :
    stream packetSize rest (a ++ b) = stream packetSize (stream packetSize rest b) a := by
  induction a with
  | nil => rfl
  | cons leg a ih => rw [List.cons_append, stream, stream, ih]

section Await

variable {α : Type} {step : UInt8 → Bytes → Io Connection (Unit ⊕ α)}

/-- The waiting loop at the next message of a stream. -/
theorem awaitFrame_leg (quiet : ∀ ctrl payload, Comp.Keeps Quiet (step ctrl payload)) {packetSize : Nat}
    (big : INIT_HEADER < packetSize) (leg : Leg) (noError : leg.frame.ctrl ≠ Control.TRANSPORT_ERROR) {rest : Inbox}
    {h : Host Connection} (hin : h.wire.inbox = arriving (leg.chunks packetSize) ++ rest) :
    (awaitFrame step).run h = (step leg.frame.ctrl leg.frame.payload >>= Sum.elim (fun _ => awaitFrame step) pure).run
      (afterFrame h leg.frame.ctrl leg.frame.payload rest) := by
  have read := readFramed_leg big leg hin
  rw [received, if_neg noError] at read
  have turn := congrArg (fun x => x.run h) (awaitFrame_eq quiet)
  rw [turn, Comp.bind_ok read]

/-- It passes over the messages that its step passes over. -/
theorem awaitFrame_passes (quiet : ∀ ctrl payload, Comp.Keeps Quiet (step ctrl payload)) {packetSize : Nat}
    (big : INIT_HEADER < packetSize) {c : Connection} {rest : Inbox} :
    ∀ (legs : List Leg), (∀ leg ∈ legs, leg.frame.ctrl ≠ Control.TRANSPORT_ERROR ∧ ∀ h : Host Connection, h.own = c →
        Writes h → ∃ k, (step leg.frame.ctrl leg.frame.payload).run h = (.ok (.inl ()), k) ∧ k.own = c ∧ Writes k) →
      ∀ h : Host Connection, h.own = c → Writes h → h.wire.inbox = stream packetSize rest legs →
        ∃ k, (awaitFrame step).run h = (awaitFrame step).run k ∧ k.own = c ∧ Writes k ∧ k.wire.inbox = rest
  | [], _, h, own, writes, hin => ⟨h, rfl, own, writes, hin⟩
  | leg :: legs, passes, h, own, writes, hin => by
    obtain ⟨noError, skips⟩ := passes leg (List.mem_cons_self ..)
    obtain ⟨k, skip, own', writes'⟩ := skips (afterFrame h leg.frame.ctrl leg.frame.payload (stream packetSize rest legs)) own writes
    have same := quiet leg.frame.ctrl leg.frame.payload
      (afterFrame h leg.frame.ctrl leg.frame.payload (stream packetSize rest legs))
    rw [skip] at same
    obtain ⟨k', later, ends⟩ := awaitFrame_passes quiet big legs (fun g hg => passes g (List.mem_cons_of_mem _ hg)) k own'
      writes' same.inbox
    refine ⟨k', ?_, ends⟩
    rw [awaitFrame_leg quiet big leg noError hin, Comp.bind_ok skip]
    exact later

end Await

/-- A message with nothing around it. -/
def Leg.plain (f : Frame) (sendable : Sendable f) : Leg := ⟨[], nofun, [], f, sendable⟩

theorem withSeq_initiation {base : UInt8} (zero : isContinuation (Control.withSeq base 0) = false)
    (one : isContinuation (Control.withSeq base 1) = false) (n : Nat) : isContinuation (Control.withSeq base (bit n)) = false := by
  rcases bit_cases n with ⟨even, -⟩ | ⟨odd, -⟩
  · rw [even]
    exact zero
  · rw [odd]
    exact one

/-- A frame that fits can be an answer. -/
theorem Line.Answered.exists (l : Line) {f : Frame} (sendable : Sendable f) (rest : Inbox) : ∃ inbox, l.Answered f rest inbox :=
  ⟨_, @Line.Answered.implicit l f rest [] (.plain f sendable) nofun rfl⟩

/-! ## An exchange of the link -/

section Exchange

variable {l : Line} {session : Option Session} {who : Speaker} {f : Frame} {rest inbox : Inbox}

theorem bit_flip (n : Nat) : bit n ^^^ 1 = bit (n + 1) := (bit_succ n).symm

/-- `send_data` at the acknowledgement. -/
theorem sendDataStep_ack {h : Host Connection} (own : h.own = l.connection session who) :
    (sendDataStep l.ack.ctrl l.ack.payload).run h = (.ok (.inr ()), ⟨l.asked session who, h.wire⟩) := by
  have current : Control.ackSeqOf l.ack.ctrl = h.own.sendSeq := by
    rw [own]
    exact ackSeqOf_ackFor _
  have ack : Control.isAck l.ack.ctrl = true := isAck_ackFor _
  rw [sendDataStep, Io.run_own_bind, if_pos ack, if_pos current, Io.run_modifyOwn_bind, own]
  simp only [Line.connection, Line.asked, bit_flip, Comp.run_pure]

/-- `send_data` at an answer that it takes for the acknowledgement. -/
theorem sendDataStep_data {h : Host Connection} (own : h.own = l.connection session who) (writes : Writes h)
    (fresh : l.Fresh f) : ∃ w, (sendDataStep f.ctrl f.payload).run h = (.ok (.inr ()), ⟨l.stashed session who f, w⟩) ∧
      w.onWrite = h.wire.onWrite ∧ w.inbox = h.wire.inbox := by
  have current : Control.seqOf f.ctrl = h.own.recvSeq := by
    rw [own]
    exact fresh.seq
  obtain ⟨w, acked, onWrite, unread⟩ := writeFramed_done (Control.ackFor (Control.seqOf f.ctrl)) [] (h :=
    ⟨{ h.own with sendSeq := h.own.sendSeq ^^^ 1 }, h.wire.log (.implicitAck (Control.seqOf f.ctrl = h.own.recvSeq))⟩)
    writes (by rw [own]; exact l.big) (by decide)
  refine ⟨w, ?_, onWrite, unread⟩
  rw [← sendAck] at acked
  rw [sendDataStep, Io.run_own_bind, if_neg (by rw [fresh.data]; decide), Io.run_modifyOwn_bind, Io.run_note_bind,
    Comp.bind_ok acked, if_pos current, Io.run_modifyOwn_bind, own]
  simp only [Line.connection, Line.stashed, Line.next, bit_flip, Comp.run_pure]

/-- **Sending to a device that answers.** -/
theorem sendData_answered (fresh : l.Fresh f) (base : UInt8) {payload : Bytes} (fits : payload.length + CRC_LEN ≤ 65535) :
    Comp.Triple (fun h => h.own = l.connection session who ∧ Writes h ∧ l.Answered f rest h.wire.inbox)
      (sendData base payload) (fun _ h => l.Due session who f rest h.own h.wire.inbox ∧ Writes h) fun _ => False := by
  rintro h ⟨own, writes, answered⟩
  have big : INIT_HEADER < h.own.packetSize := by
    rw [own]
    exact l.big
  obtain ⟨w, e, sent, done, unread⟩ := sendData_written writes big base payload fits
  rw [sent]
  have stalePasses : ∀ {stale : List Leg}, (∀ g ∈ stale, l.Stale g.frame) → ∀ leg ∈ stale,
      leg.frame.ctrl ≠ Control.TRANSPORT_ERROR ∧ ∀ k : Host Connection, k.own = h.own → Writes k →
        ∃ k', (sendDataStep leg.frame.ctrl leg.frame.payload).run k = (.ok (.inl ()), k') ∧ k'.own = h.own ∧ Writes k' := by
    intro stale old leg hleg
    obtain ⟨ack, other⟩ := old leg hleg
    refine ⟨isAck_ne_error ack, fun k same writes => ⟨k, sendDataStep_stale ack ?_, same, writes⟩⟩
    rw [same, own]
    exact other
  generalize hin : h.wire.inbox = inbox at answered unread
  cases answered with
  | @acked stale repeats ack data old isAck skipped isData =>
    rw [stream_append] at unread
    obtain ⟨k, waits, own', writes', left⟩ := awaitFrame_passes sendDataStep_quiet l.big stale (stalePasses old) ⟨h.own, w⟩ rfl
      done unread
    have noError : ack.frame.ctrl ≠ Control.TRANSPORT_ERROR := by
      rw [isAck]
      exact isAck_ne_error (isAck_ackFor _)
    have turn := sendDataStep_ack (l := l) (h := afterFrame k ack.frame.ctrl ack.frame.payload (stream l.packetSize rest (repeats ++ [data]))) (own'.trans own)
    rw [← isAck] at turn
    rw [Comp.run_bind, waits, awaitFrame_leg sendDataStep_quiet l.big ack noError left, Comp.bind_ok turn]
    exact ⟨.coming skipped isData, writes'⟩
  | @implicit stale data old isData =>
    rw [stream_append] at unread
    obtain ⟨k, waits, own', writes', left⟩ := awaitFrame_passes sendDataStep_quiet l.big stale (stalePasses old) ⟨h.own, w⟩ rfl
      done unread
    have next : k.wire.inbox = arriving (data.chunks l.packetSize) ++ rest := left
    obtain ⟨w', turn, onWrite, left'⟩ := sendDataStep_data (l := l) (h := afterFrame k data.frame.ctrl data.frame.payload rest) (own'.trans own) writes' (isData.symm ▸ fresh)
    rw [isData] at turn
    rw [Comp.run_bind, waits, awaitFrame_leg sendDataStep_quiet l.big data (isData.symm ▸ fresh.noError) next, isData,
      Comp.bind_ok turn]
    refine ⟨?_, ?_⟩
    · show l.Due session who f rest _ w'.inbox
      rw [left']
      exact .stashed
    · show allDone w'.onWrite
      rw [onWrite]
      exact writes'

/-- **Receiving from it.** -/
theorem recvData_due (fresh : l.Fresh f) :
    Comp.Triple (fun h => l.Due session who f rest h.own h.wire.inbox ∧ Writes h) recvData
      (fun r h => r = (f.ctrl, f.payload) ∧ h.own = l.next.connection session who ∧ h.wire.inbox = rest ∧ Writes h)
      fun _ => False := by
  rintro h ⟨due, writes⟩
  generalize hown : h.own = c at due
  generalize hin : h.wire.inbox = inbox at due
  rw [recvData, Io.run_own_bind, hown]
  cases due with
  | stashed =>
    simp only [Line.stashed, Line.connection, Io.run_modifyOwn_bind, Io.run_note_bind, Comp.run_pure, hown]
    exact ⟨trivial, trivial, hin, writes⟩
  | @coming repeats data skipped isData =>
    rw [stream_append] at hin
    have passes : ∀ leg ∈ repeats, leg.frame.ctrl ≠ Control.TRANSPORT_ERROR ∧ ∀ k : Host Connection,
        k.own = l.asked session who → Writes k →
          ∃ k', (recvDataStep leg.frame.ctrl leg.frame.payload).run k = (.ok (.inl ()), k') ∧ k'.own = l.asked session who ∧
            Writes k' := by
      intro leg hleg
      by_cases ack : Control.isAck leg.frame.ctrl = true
      · refine ⟨isAck_ne_error ack, fun k own writes => ⟨k, ?_, own, writes⟩⟩
        rw [recvDataStep, if_pos ack]
        rfl
      · obtain ⟨noError, other⟩ := (skipped leg hleg).resolve_left ack
        refine ⟨noError, fun k own writes => ?_⟩
        obtain ⟨w, onWrite, -, run⟩ := recvDataStep_data leg.frame.payload (h := k) (Bool.not_eq_true _ ▸ ack) writes
          (by rw [own]; exact l.big)
        refine ⟨⟨k.own, w⟩, ?_, own, ?_⟩
        · rw [run, if_neg]
          rw [own]
          exact other
        · show allDone w.onWrite
          rw [onWrite]
          exact writes
    obtain ⟨k, waits, own', writes', left⟩ := awaitFrame_passes recvDataStep_quiet l.big repeats passes h hown writes hin
    have own'' : (afterFrame k data.frame.ctrl data.frame.payload rest).own = l.asked session who := own'
    obtain ⟨w, onWrite, unread, turn⟩ := recvDataStep_data data.frame.payload
      (h := afterFrame k data.frame.ctrl data.frame.payload rest) (show Control.isAck data.frame.ctrl = false from isData.symm ▸ fresh.data) writes' (by rw [own'']; exact l.big)
    have current : Control.seqOf data.frame.ctrl = (afterFrame k data.frame.ctrl data.frame.payload rest).own.recvSeq := by
      rw [own'', isData]
      exact fresh.seq
    rw [if_pos current] at turn
    have next : k.wire.inbox = arriving (data.chunks l.packetSize) ++ rest := left
    simp only [Line.asked, Line.connection]
    rw [Comp.run_bind, waits, awaitFrame_leg recvDataStep_quiet l.big data (isData.symm ▸ fresh.noError) next,
      Comp.bind_ok turn]
    refine ⟨by rw [isData], ?_, unread, ?_⟩
    · show { k.own with recvSeq := k.own.recvSeq ^^^ 1 } = _
      rw [own']
      simp only [Line.asked, Line.connection, Line.next, bit_flip]
    · show allDone w.onWrite
      rw [onWrite]
      exact writes'

end Exchange

end TrezorCore.Connection
