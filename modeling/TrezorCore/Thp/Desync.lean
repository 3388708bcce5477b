import TrezorCore.Thp.History
import TrezorCore.Thp.Wires

/-!
# Failed sends and receives

`send_app` seals before the framing layer checks the length and before anything is written, so a
message that is too long, or whose first write fails, has used up a nonce by the time the call
fails. `recv_app` acknowledges a frame and flips the awaited bit before the AEAD has looked at
it, so a frame that is refused has taken the place of the genuine one: the session's receive
nonce is still that frame's, but the link skips it as a duplicate. Both are stated with the
exact inputs on which they happen.
-/

namespace TrezorCore.Connection

open Framing

variable (K : Crates)

/-! ## Sending -/

/-- Between the two a packet was written: the transport took one of the writes. -/
def PacketWritten (w w' : Wire) : Prop := ∃ n, w.written ≤ n ∧ n < w'.written ∧ w.onWrite n = .done

/-- When `send_app` fails before a packet is out, the connection is as it was. -/
def SendAtomic (h : Host Connection) (messageType : UInt16) (protobuf : Bytes) : Prop :=
  ∀ e h', (sendApp K messageType protobuf).run h = (.err e, h') → ¬ PacketWritten h.wire h'.wire → h'.own = h.own

section Send

variable {K}

theorem length_encodeAppMessage (m : AppMessage) : (encodeAppMessage m).length = m.body.length + 3 := by
  simp only [encodeAppMessage, List.cons_append, List.length_cons, List.length_append, Bytes.length_toBe]
  omega

/-- Calls of `write_chunk` are counted up. -/
theorem counting : Across fun w w' => w.written ≤ w'.written :=
  .of (fun _ => Nat.le_refl _) (fun _ _ _ h1 h2 => Nat.le_trans h1 h2) (fun _ _ _ => Nat.le_refl _)
    (fun _ _ _ _ => Nat.le_refl _) fun _ _ => Nat.le_succ _

theorem writePackets_counting (packets : List Bytes) : Comp.Keeps (OnWire fun w w' => w.written ≤ w'.written) (writePackets packets) := by
  refine writePackets_keeps counting.refl' counting.trans' (fun packet h => ?_) packets
  simp only [Io.writeChunk]
  split <;> exact Nat.le_succ h.wire.written

/-- A payload that the framing layer refuses. -/
theorem sendData_refused {base : UInt8} {payload : Bytes} {h : Host Connection} {e : TrezorError}
    (refused : segment h.own.packetSize h.own.cid (Control.withSeq base h.own.sendSeq) payload = .error e) :
    (sendData base payload).run h = (.err e, ⟨h.own, h.wire.log (.sendBegins h.own.pendingData.isSome)⟩) := by
  simp only [sendData, writeFramed, Comp.bind_assoc, Io.run_own_bind, Io.run_note_bind, refused, Comp.ofExcept_error,
    Comp.fail_bind, Comp.run_fail]

/-- A payload that it accepts: the first packet is written first, and the answer to it decides. -/
theorem sendData_first (base : UInt8) (payload : Bytes) {h : Host Connection} (big : INIT_HEADER < h.own.packetSize)
    (fits : payload.length + CRC_LEN ≤ 65535) :
    match h.wire.onWrite h.wire.written with
    | .done => h.wire.written < ((sendData base payload).run h).2.wire.written
    | .failed e => ∃ w, (sendData base payload).run h = (.err (.ofTransport e), ⟨h.own, w⟩) ∧ w.written = h.wire.written + 1
    | .never => ∃ h', (sendData base payload).run h = (.dropped, h') := by
  have framed : (writeFramed (Control.withSeq base h.own.sendSeq) payload).run
      ⟨h.own, h.wire.log (.sendBegins h.own.pendingData.isSome)⟩ = _ := writeFramed_run big fits
  rw [packets_eq (f := ⟨h.own.cid, Control.withSeq base h.own.sendSeq, payload⟩) big fits, writePackets] at framed
  generalize restPackets _ _ _ = rest at framed
  simp only [sendData, Io.run_own_bind, Io.run_note_bind]
  rw [Comp.run_bind, framed, ← Comp.run_bind, Comp.bind_assoc, Comp.run_bind]
  cases reply : h.wire.onWrite h.wire.written with
  | done =>
    have later (k : Host Connection) : k.wire.written ≤ ((writePackets rest >>= fun _ => awaitFrame sendDataStep >>= fun _ =>
        Io.note (.sent (Control.withSeq base h.own.sendSeq) payload)).run k).2.wire.written :=
      counting.bind (writePackets_counting rest) (fun _ =>
        counting.bind (counting.awaitFrame counting.sendDataStep) fun _ => counting.note rfl) k
    simp only [Io.writeChunk, Wire.log, reply]
    exact later ⟨h.own, { h.wire with written := h.wire.written + 1, trace := _ }⟩
  | failed e =>
    simp only [Io.writeChunk, Wire.log, reply]
    exact ⟨_, rfl, rfl⟩
  | never =>
    simp only [Io.writeChunk, Wire.log, reply]
    exact ⟨_, rfl⟩

/-- **`send_app` is atomic exactly on the messages that fit, unless the first write fails**: a frame's
length field holds the ciphertext and its checksum, a packet has room for more than a header,
and the nonce has moved on before anything is written. -/
theorem sendAtomic_iff (tag : ∀ key iv aad plaintext, (K.aesGcmEncrypt key iv aad plaintext).length = plaintext.length + 16)
    {h : Host Connection} {session : Session} (established : h.own.session = some session) (messageType : UInt16)
    (protobuf : Bytes) :
    SendAtomic K h messageType protobuf ↔
      (5 < h.own.packetSize ∧ protobuf.length + 23 ≤ 65535) ∧ ∀ e, h.wire.onWrite h.wire.written ≠ .failed e := by
  let message : AppMessage := ⟨h.own.activeSessionId, messageType, protobuf⟩
  have size : (appCiphertext K session message).length + CRC_LEN = protobuf.length + 23 := by
    rw [appCiphertext, tag, length_encodeAppMessage]
    rfl
  have run := sendApp_run (K := K) established messageType protobuf
  -- a failure that leaves the nonce moved on, with nothing written
  have spent : ∀ {e h'}, (sendApp K messageType protobuf).run h = (.err e, h') → h'.own = (afterSeal K h session message).own →
      ¬ PacketWritten h.wire h'.wire → ¬ SendAtomic K h messageType protobuf := by
    intro e h' failed own unwritten atomic
    have sessions : some { session with nonceSend := session.nonceSend + 1 } = some session :=
      (congrArg Connection.session (own.symm.trans (atomic e h' failed unwritten))).trans established
    have nonce : session.nonceSend + 1 = session.nonceSend := congrArg Session.nonceSend (Option.some.inj sessions)
    simp at nonce
  by_cases fits : 5 < h.own.packetSize ∧ protobuf.length + 23 ≤ 65535
  · have first := sendData_first Control.ENCRYPTED_TRANSPORT (appCiphertext K session message)
      (h := afterSeal K h session message) fits.1 (by rw [size]; exact fits.2)
    rw [← run, show (afterSeal K h session message).wire.onWrite (afterSeal K h session message).wire.written =
      h.wire.onWrite h.wire.written from rfl] at first
    cases reply : h.wire.onWrite h.wire.written with
    | done =>
      rw [reply] at first
      refine iff_of_true (fun e h' failed unwritten => absurd ⟨_, Nat.le_refl _, ?_, reply⟩ unwritten) ⟨fits, nofun⟩
      rw [failed] at first
      exact first
    | failed e =>
      rw [reply] at first
      obtain ⟨w, failed, written⟩ := first
      refine iff_of_false (spent failed rfl ?_) fun taken => taken.2 e rfl
      rintro ⟨n, low, high, done⟩
      rw [written] at high
      obtain rfl : n = h.wire.written := Nat.le_antisymm (Nat.le_of_lt_succ high) low
      rw [reply] at done
      cases done
    | never =>
      rw [reply] at first
      obtain ⟨h'', dropped⟩ := first
      refine iff_of_true (fun e h' failed => ?_) ⟨fits, nofun⟩
      rw [dropped] at failed
      cases failed
  · -- the frame is refused before a packet is there
    obtain ⟨e, refused⟩ := (segment_error_iff h.own.packetSize h.own.cid
      (Control.withSeq Control.ENCRYPTED_TRANSPORT h.own.sendSeq) (appCiphertext K session message)).2 (by
        have len := size
        simp only [CRC_LEN, INIT_HEADER] at len ⊢
        omega)
    have failed := run.trans (sendData_refused (h := afterSeal K h session message) refused)
    refine iff_of_false (spent failed rfl ?_) fun fitting => fits fitting.1
    rintro ⟨n, low, high, -⟩
    exact absurd high (Nat.not_lt.2 low)

end Send

/-! ## Receiving -/

/-- `recv_app` takes a frame off the link and fails because the AEAD refuses it. -/
structure Rejects (h h' : Host Connection) (ctrl : UInt8) (ct : Bytes) : Prop where
  fails : ∃ e, (recvApp K).run h = (.err e, h')
  refused : ∃ es key iv, h'.wire.trace = h.wire.trace ++ es ++ [.delivered ctrl ct, .opened key iv [] ct none]

/-- A genuine frame with this sequence bit that arrives next is delivered by the next `recv_app`,
on a transport that takes every write. -/
def Retries (c : Connection) (seq : UInt8) : Prop :=
  ∀ (w : Wire) (session : Session) (cid : UInt16) (ct pt : Bytes) (m : AppMessage) (packetSize : Nat)
    (rest : List (Except TrezorTransportError Bytes)),
    (∀ n, w.onWrite n = .done) → c.session = some session →
    K.aesGcmDecrypt session.keyRecv (ivFromNonce session.nonceRecv) [] ct = some pt → decodeAppMessage pt = .ok m →
    ct.length + CRC_LEN ≤ 65535 → INIT_HEADER < packetSize →
    w.inbox = arriving (packets packetSize ⟨cid, Control.withSeq Control.ENCRYPTED_TRANSPORT seq, ct⟩) ++ rest →
    ∃ h', (recvApp K).run ⟨c, w⟩ = (.ok (m.type, m.body), h') ∧ h'.wire.inbox = rest

/-- Of these frames, `frame` is the first data frame with the awaited bit, and the transport takes the
ACKs up to its own. -/
def Awaited (c : Connection) (w : Wire) (frames : List (UInt8 × Bytes)) (frame : UInt8 × Bytes) : Prop :=
  ∃ before after, frames.filter (fun f => !Control.isAck f.1) = before ++ frame :: after ∧
    (∀ f ∈ before, Control.seqOf f.1 ≠ c.recvSeq) ∧ Control.seqOf frame.1 = c.recvSeq ∧
    TakesNext ((before ++ [frame]).flatMap fun f => ackPackets c f.1).length w

/-- The data frame that is next: the stashed one, or else the awaited one of those that come in. -/
def NextData (h : Host Connection) (frame : UInt8 × Bytes) : Prop :=
  h.own.pendingData = some frame ∨
    h.own.pendingData = none ∧ Awaited h.own h.wire (incoming ({}, 0) h.wire.inbox) frame

/-- The next data frame, if there is one, opens under the session's key and nonce. -/
def NextOpens (h : Host Connection) : Prop :=
  ∀ frame session, NextData h frame → h.own.session = some session →
    (K.aesGcmDecrypt session.keyRecv (ivFromNonce session.nonceRecv) [] frame.2).isSome

/-- The stashed frame carries the bit that is still awaited, which `send_data` flips as it stashes. -/
def StashAwaited (c : Connection) : Prop := ∃ f, c.pendingData = some f ∧ Control.seqOf f.1 = c.recvSeq

section Receive

variable {K} {h h' : Host Connection} {session : Session}

/-- `recv_data` takes a frame with the awaited bit. -/
theorem recvDataStep_takes {ctrl : UInt8} {payload : Bytes} {frame : UInt8 × Bytes}
    (run : (recvDataStep ctrl payload).run h = (.ok (.inr frame), h')) :
    frame = (ctrl, payload) ∧ Control.seqOf frame.1 = h.own.recvSeq ∧
      h'.own = { h.own with recvSeq := h.own.recvSeq ^^^ 1 } := by
  by_cases ack : Control.isAck ctrl
  · rw [recvDataStep, if_pos ack] at run
    simp at run
  · rw [recvDataStep, if_neg ack] at run
    obtain ⟨_, k, wrote, rest⟩ := Comp.bind_eq_ok run
    have own := writeFramed_own (Control.ackFor (Control.seqOf ctrl)) [] h
    rw [show (writeFramed _ _).run h = (.ok _, k) from wrote] at own
    rw [Io.run_own_bind] at rest
    by_cases fresh : Control.seqOf ctrl = k.own.recvSeq
    · rw [if_pos fresh] at rest
      cases rest
      have same : k.own = h.own := own
      exact ⟨rfl, same ▸ fresh, by rw [same]⟩
    · rw [if_neg fresh] at rest
      simp at rest

/-- The waiting loop of `recv_data` returns a frame with the awaited bit, and flips that bit. -/
theorem awaitFrame_recv (c : Connection) :
    Comp.Triple (fun s => s.own = c) (awaitFrame recvDataStep)
      (fun f s => Control.seqOf f.1 = c.recvSeq ∧ s.own = { c with recvSeq := c.recvSeq ^^^ 1 }) fun _ => True := by
  unfold awaitFrame Io.loop
  suffices turn : ∀ u : Unit, Comp.Triple (fun s : Host Connection => s.own = c) _ (Sum.elim (fun _ s => s.own = c) _) fun _ => True
    from Comp.Triple.loop (fun _ _ _ => trivial) turn ()
  intro u
  have read : Comp.Triple (fun s : Host Connection => s.own = c) readFramed (fun _ s => s.own = c) fun _ => True :=
    .of_keeps readFramed_own (fun s s' same own _ => Eq.trans same own) fun _ _ _ _ => trivial
  refine .bind read fun f => ?_
  intro s own
  rcases hx : (recvDataStep f.1 f.2).run s with ⟨(_ | frame) | _ | _ | _, s'⟩
  · exact (recvDataStep_waits hx).trans own
  · obtain ⟨-, fresh, same⟩ := recvDataStep_takes hx
    rw [← own]
    exact ⟨fresh, same⟩
  all_goals trivial

theorem recvData_unstashed (none : h.own.pendingData = none) :
    recvData.run h = (awaitFrame recvDataStep >>= fun frame => do
      Io.note (.delivered frame.1 frame.2)
      pure frame).run h := by
  simp only [recvData, Io.run_own_bind, none]

/-- `recv_data` takes the stash, or waits for a frame with the awaited bit. -/
theorem recvData_ok {frame : UInt8 × Bytes} (run : recvData.run h = (.ok frame, h')) :
    (∃ es, h'.wire.trace = h.wire.trace ++ es ++ [.delivered frame.1 frame.2]) ∧
      (h.own.pendingData = some frame ∧ h'.own = { h.own with pendingData := none } ∨
        h.own.pendingData = none ∧ Control.seqOf frame.1 = h.own.recvSeq ∧
          h'.own = { h.own with recvSeq := h.own.recvSeq ^^^ 1 }) := by
  rcases pending : h.own.pendingData with _ | stash
  · rw [recvData_unstashed pending] at run
    obtain ⟨f, h1, awaited, rest⟩ := Comp.bind_eq_ok run
    rw [Io.run_note_bind] at rest
    cases rest
    obtain ⟨es, grown, -⟩ := (LinkOnly.awaitFrame LinkOnly.recvDataStep h).events
    have taken := awaitFrame_recv h.own h rfl
    rw [awaited] at grown taken
    refine ⟨⟨es, ?_⟩, .inr ⟨rfl, taken⟩⟩
    rw [Wire.log_trace, grown]
  · simp only [recvData, Io.run_own_bind, pending, Io.run_modifyOwn_bind, Io.run_note_bind] at run
    cases run
    exact ⟨⟨[], by rw [Wire.log_trace, List.append_nil]⟩, .inl ⟨rfl, rfl⟩⟩

/-! ### The frame that is next -/

theorem TakesNext.add {m n : Nat} {w : Wire} :
    TakesNext (m + n) w ↔ TakesNext m w ∧ TakesNext n { w with written := w.written + m } := by
  constructor
  · refine fun takes => ⟨fun k lt => takes k (by omega), fun k lt => ?_⟩
    rw [Nat.add_assoc]
    exact takes (m + k) (by omega)
  · rintro ⟨first, later⟩ k lt
    by_cases low : k < m
    · exact first k low
    · have := later (k - m) (by omega)
      rwa [show w.written + m + (k - m) = w.written + k by omega] at this

/-- ACKs are passed over. -/
theorem awaited_ack {c : Connection} {w : Wire} {f : UInt8 × Bytes} (ack : Control.isAck f.1 = true)
    (frames : List (UInt8 × Bytes)) (frame : UInt8 × Bytes) : Awaited c w (f :: frames) frame ↔ Awaited c w frames frame := by
  simp only [Awaited, List.filter_cons, ack, Bool.not_true, Bool.false_eq_true, if_false]

/-- A data frame is acknowledged, and it is the awaited one or the wait goes on. -/
theorem awaited_data {c : Connection} {w : Wire} {f : UInt8 × Bytes} (data : Control.isAck f.1 = false)
    (frames : List (UInt8 × Bytes)) (frame : UInt8 × Bytes) :
    Awaited c w (f :: frames) frame ↔ TakesNext (ackPackets c f.1).length w ∧
      if Control.seqOf f.1 = c.recvSeq then frame = f
      else Awaited c { w with written := w.written + (ackPackets c f.1).length } frames frame := by
  simp only [Awaited, List.filter_cons, data, Bool.not_false, if_true]
  constructor
  · rintro ⟨before, after, split, passed, awaited, takes⟩
    cases before with
    | nil =>
      rw [List.nil_append, List.cons.injEq] at split
      obtain ⟨rfl, rfl⟩ := split
      simp only [List.nil_append, List.flatMap_singleton] at takes
      exact ⟨takes, by rw [if_pos awaited]⟩
    | cons g before =>
      rw [List.cons_append, List.cons.injEq] at split
      obtain ⟨rfl, split⟩ := split
      rw [List.cons_append, List.flatMap_cons, List.length_append, TakesNext.add] at takes
      refine ⟨takes.1, ?_⟩
      rw [if_neg (passed f List.mem_cons_self)]
      exact ⟨before, after, split, fun g mem => passed g (List.mem_cons_of_mem _ mem), awaited, takes.2⟩
  · rintro ⟨takes, rest⟩
    by_cases awaited : Control.seqOf f.1 = c.recvSeq
    · rw [if_pos awaited] at rest
      subst rest
      refine ⟨[], _, rfl, nofun, awaited, ?_⟩
      simpa only [List.nil_append, List.flatMap_singleton] using takes
    · rw [if_neg awaited] at rest
      obtain ⟨before, after, split, passed, seq, later⟩ := rest
      refine ⟨f :: before, after, by rw [split, List.cons_append], ?_, seq, ?_⟩
      · intro g mem
        rcases List.mem_cons.1 mem with rfl | mem
        · exact awaited
        · exact passed g mem
      · rw [List.cons_append, List.flatMap_cons, List.length_append, TakesNext.add]
        exact ⟨takes, later⟩

/-- The waiting loop of `recv_data` returns the awaited frame. -/
theorem awaitFrame_awaited (frames : List (UInt8 × Bytes)) (frame : UInt8 × Bytes) :
    ∀ h : Host Connection, INIT_HEADER < h.own.packetSize → incoming ({}, 0) h.wire.inbox = frames →
      ((∃ h', (awaitFrame recvDataStep).run h = (.ok frame, h')) ↔ Awaited h.own h.wire frames frame) := by
  -- frame by frame, as they come in
  induction frames with
  | nil =>
    intro h _ empty
    rw [awaitFrame_eq recvDataStep_quiet, readFramed_eq]
    rcases readLoop_incoming ({}, 0) h.wire.inbox h rfl with ⟨-, unread⟩ | ⟨f, rest, -, some⟩
    · refine iff_of_false ?_ ?_
      · rintro ⟨h', run⟩
        obtain ⟨f, h1, read, -⟩ := Comp.bind_eq_ok run
        exact unread f h1 read
      · rintro ⟨before, after, split, -⟩
        simp at split
    · rw [empty] at some
      cases some
  | cons f frames ih =>
    intro h big arrived
    rw [awaitFrame_eq recvDataStep_quiet, readFramed_eq]
    rcases readLoop_incoming ({}, 0) h.wire.inbox h rfl with ⟨none, -⟩ | ⟨g, rest, read, some⟩
    · rw [arrived] at none
      cases none
    · rw [arrived, List.cons.injEq] at some
      obtain ⟨rfl, rfl⟩ := some
      rw [Comp.bind_ok read]
      cases ack : Control.isAck f.1 with
      | true =>
        have step : (recvDataStep f.1 f.2).run (afterFrame h f.1 f.2 rest) = (.ok (.inl ()), afterFrame h f.1 f.2 rest) := by
          rw [recvDataStep, if_pos ack]
          rfl
        rw [Comp.bind_ok step, awaited_ack ack]
        exact ih (afterFrame h f.1 f.2 rest) big rfl
      | false =>
        rw [awaited_data ack]
        by_cases takes : TakesNext (ackPackets h.own f.1).length h.wire
        · obtain ⟨w, onWrite, inbox, written, step⟩ :=
            recvDataStep_acked (h := afterFrame h f.1 f.2 rest) f.2 ack big takes
          rw [and_iff_right takes]
          by_cases fresh : Control.seqOf f.1 = h.own.recvSeq
          · rw [if_pos fresh]
            rw [Comp.bind_ok (step.trans (if_pos fresh))]
            constructor
            · rintro ⟨h', run⟩
              exact (Outcome.ok.inj (Prod.mk.inj run).1).symm
            · intro same
              rw [same]
              exact ⟨_, rfl⟩
          · rw [if_neg fresh, Comp.bind_ok (step.trans (if_neg fresh)), Sum.elim_inl]
            have later := ih ⟨h.own, w⟩ big (by rw [inbox]; rfl)
            simp only [Awaited, TakesNext, onWrite, written] at later ⊢
            exact later
        · refine iff_of_false ?_ fun both => takes both.1
          rintro ⟨h', run⟩
          obtain ⟨r, h1, step, -⟩ := Comp.bind_eq_ok run
          exact takes (recvDataStep_takesNext (h := afterFrame h f.1 f.2 rest) ack big step)

/-- **`recv_data` returns the data frame that is next**, and none else. -/
theorem recvData_iff (big : INIT_HEADER < h.own.packetSize) (frame : UInt8 × Bytes) :
    (∃ h', recvData.run h = (.ok frame, h')) ↔ NextData h frame := by
  rcases pending : h.own.pendingData with _ | stash
  · rw [recvData_unstashed pending, NextData, pending, ← awaitFrame_awaited _ frame h big rfl]
    constructor
    · rintro ⟨h', run⟩
      obtain ⟨f, h1, awaited, rest⟩ := Comp.bind_eq_ok run
      cases rest
      exact .inr ⟨rfl, h1, awaited⟩
    · rintro (stashed | ⟨-, h1, awaited⟩)
      · cases stashed
      · exact ⟨_, Comp.bind_ok awaited⟩
  · simp only [NextData, pending, recvData, Io.run_own_bind, Io.run_modifyOwn_bind, Io.run_note_bind]
    constructor
    · rintro ⟨h', run⟩
      cases run
      exact .inl rfl
    · rintro (stashed | ⟨none, -⟩)
      · cases stashed
        exact ⟨_, rfl⟩
      · cases none

/-! ### A frame that the AEAD refuses -/

/-- A frame that `recv_data` hands over and the AEAD refuses. -/
theorem recvApp_refuses {frame : UInt8 × Bytes} {h1 : Host Connection} (taken : recvData.run h = (.ok frame, h1))
    (established : h1.own.session = some session)
    (refused : K.aesGcmDecrypt session.keyRecv (ivFromNonce session.nonceRecv) [] frame.2 = none) :
    (recvApp K).run h = (.err (.thp "AES-GCM authentication failed"), afterOpen h1 session frame.2 none) := by
  have opened := openApp_run (K := K) established frame.2
  rw [refused] at opened
  rw [recvApp, Comp.bind_ok taken, Comp.bind_err opened]

theorem rejects_of_refused {frame : UInt8 × Bytes} {h1 : Host Connection} (taken : recvData.run h = (.ok frame, h1))
    (established : h.own.session = some session)
    (refused : K.aesGcmDecrypt session.keyRecv (ivFromNonce session.nonceRecv) [] frame.2 = none) :
    Rejects K h (afterOpen h1 session frame.2 none) frame.1 frame.2 := by
  have kept : h1.own.session = some session := by
    have same := (LinkOnly.recvData h).session
    rw [taken] at same
    exact same.trans established
  obtain ⟨⟨es, history⟩, -⟩ := recvData_ok taken
  refine ⟨⟨_, recvApp_refuses taken kept refused⟩, es, session.keyRecv, ivFromNonce session.nonceRecv, ?_⟩
  simp only [afterOpen, Wire.log_trace, history, List.append_assoc]
  rfl

/-- The frame of a rejection is the one `recv_data` handed over, and the bits are as it left them. -/
theorem Rejects.taken {ctrl : UInt8} {ct : Bytes} (rejects : Rejects K h h' ctrl ct) (established : h.own.session = some session) :
    ∃ h1, recvData.run h = (.ok (ctrl, ct), h1) ∧ h'.own = h1.own ∧
      K.aesGcmDecrypt session.keyRecv (ivFromNonce session.nonceRecv) [] ct = none := by
  obtain ⟨e, run⟩ := rejects.fails
  obtain ⟨es, key, iv, history⟩ := rejects.refused
  rw [recvApp] at run
  rcases taken : recvData.run h with ⟨frame | _ | _ | _, h1⟩
  · have kept : h1.own.session = some session := by
      have same := (LinkOnly.recvData h).session
      rw [taken] at same
      exact same.trans established
    obtain ⟨⟨first, before⟩, -⟩ := recvData_ok taken
    rw [Comp.bind_ok taken] at run
    have opened := openApp_run (K := K) kept frame.2
    rcases decrypted : K.aesGcmDecrypt session.keyRecv (ivFromNonce session.nonceRecv) [] frame.2 with _ | pt
    · rw [decrypted] at opened
      rw [Comp.bind_err opened] at run
      cases run
      -- both histories end with the frame that was handed over
      have ends : h.wire.trace ++ first ++ [.delivered frame.1 frame.2,
          .opened session.keyRecv (ivFromNonce session.nonceRecv) [] frame.2 none] =
          h.wire.trace ++ es ++ [.delivered ctrl ct, .opened key iv [] ct none] := by
        rw [← history]
        simp [afterOpen, before]
      have same := (List.append_inj' ends rfl).2
      simp only [List.cons.injEq, Event.delivered.injEq, and_true] at same
      obtain ⟨⟨rfl, rfl⟩, -⟩ := same
      exact ⟨h1, rfl, by simp [afterOpen, ← kept], decrypted⟩
    · -- the plaintext is there, so the last thing that happened is not a refusal
      rcases decoded : decodeAppMessage pt with e' | m
      · simp only [decrypted, decoded] at opened
        rw [Comp.bind_err opened] at run
        cases run
        have last := congrArg List.getLast? history
        simp [afterOpen] at last
      · simp only [decrypted, decoded] at opened
        rw [Comp.bind_ok opened] at run
        simp at run
  · -- the link layer failed, and it never opens anything
    rw [Comp.bind_err taken] at run
    cases run
    obtain ⟨more, grown, link⟩ := (LinkOnly.recvData h).events
    rw [taken] at grown
    have mem : .opened key iv [] ct none ∈ more := by
      rw [grown, List.append_assoc] at history
      rw [List.append_cancel_left history]
      simp
    exact absurd (link _ mem) Bool.false_ne_true
  · rw [Comp.run_bind, taken] at run
    simp at run
  · rw [Comp.run_bind, taken] at run
    simp at run

/-! ### The frame that comes again -/

/-- A transport frame carries the bit it was given. -/
theorem transport_ctrl (ctrl : UInt8) :
    let again := Control.withSeq Control.ENCRYPTED_TRANSPORT (Control.seqOf ctrl)
    Control.seqOf again = Control.seqOf ctrl ∧ Control.isAck again = false ∧ again ≠ Control.TRANSPORT_ERROR ∧
      isContinuation again = false := by
  revert ctrl
  apply Bytes.forall_octet
  decide +kernel

/-- The awaited bit: the frame is delivered. -/
theorem retries_of_awaited {c : Connection} {ctrl : UInt8} (none : c.pendingData = none)
    (awaited : Control.seqOf ctrl = c.recvSeq) (big : INIT_HEADER < c.packetSize) : Retries K c (Control.seqOf ctrl) := by
  intro w session cid ct pt m packetSize rest done established opens decoded fits room hin
  obtain ⟨seq, data, other, initiation⟩ := transport_ctrl ctrl
  generalize Control.withSeq Control.ENCRYPTED_TRANSPORT (Control.seqOf ctrl) = again at seq data other initiation hin
  have turn := awaitFrame_frame recvDataStep_quiet (h := ⟨c, w⟩) (f := ⟨cid, again, ct⟩)
    ⟨initiation, fits⟩ room hin
  obtain ⟨w', -, inbox, step⟩ := recvDataStep_data ct data (h := afterFrame ⟨c, w⟩ again ct rest) done big
  rw [if_neg other, Comp.bind_ok (step.trans (if_pos (seq.trans awaited)))] at turn
  have delivered : recvData.run ⟨c, w⟩ =
      (.ok (again, ct), ⟨{ c with recvSeq := c.recvSeq ^^^ 1 }, w'.log (.delivered again ct)⟩) := by
    rw [recvData_unstashed none, Comp.bind_ok turn]
    rfl
  have opened := openApp_run (K := K) (h := ⟨{ c with recvSeq := c.recvSeq ^^^ 1 }, w'.log (.delivered again ct)⟩)
    established ct
  rw [opens] at opened
  simp only [decoded] at opened
  rw [recvApp, Comp.bind_ok delivered, Comp.bind_ok opened]
  exact ⟨_, rfl, inbox⟩

/-- The other bit: the genuine frame is taken for a duplicate. -/
theorem not_retries {c : Connection} {ctrl : UInt8} (aead : K.toCrypto.AeadLaws) (established : c.session = some session)
    (none : c.pendingData = none) (passed : Control.seqOf ctrl ≠ c.recvSeq) : ¬ Retries K c (Control.seqOf ctrl) := by
  intro retries
  let m : AppMessage := ⟨0, 0, []⟩
  let ct := K.aesGcmEncrypt session.keyRecv (ivFromNonce session.nonceRecv) [] (encodeAppMessage m)
  let again := Control.withSeq Control.ENCRYPTED_TRANSPORT (Control.seqOf ctrl)
  let w := Wire.quiet.withInbox (arriving (packets 6 ⟨0, again, ct⟩) ++ [])
  have fits : ct.length + CRC_LEN ≤ 65535 := by
    rw [aead.length_encrypt, length_encodeAppMessage]
    decide
  obtain ⟨h', run, -⟩ := retries w session 0 ct (encodeAppMessage m) m 6 [] (fun _ => rfl) established
    (aead.decrypt_encrypt _ _ _ _) (decodeAppMessage_encode m) fits (by decide) rfl
  obtain ⟨seq, data, other, initiation⟩ := transport_ctrl ctrl
  have turn := awaitFrame_frame recvDataStep_quiet (h := ⟨c, w⟩) (f := ⟨0, again, ct⟩)
    ⟨initiation, fits⟩ (by decide : INIT_HEADER < 6) rfl
  rw [if_neg other] at turn
  rw [recvApp] at run
  obtain ⟨frame, h1, taken, -⟩ := Comp.bind_eq_ok run
  rw [recvData_unstashed none] at taken
  obtain ⟨frame', h2, awaited, -⟩ := Comp.bind_eq_ok taken
  rw [turn] at awaited
  obtain ⟨r, h3, step, later⟩ := Comp.bind_eq_ok awaited
  rcases r with _ | frame''
  · -- skipped, and nothing else is there
    have quiet := recvDataStep_quiet again ct (afterFrame ⟨c, w⟩ again ct [])
    rw [step] at quiet
    rw [Sum.elim_inl, awaitFrame_nil recvDataStep quiet.inbox] at later
    simp at later
  · obtain ⟨rfl, fresh, -⟩ := recvDataStep_takes step
    exact passed (seq.symm.trans fresh)

theorem flip_ne (b : UInt8) : b ≠ b ^^^ 1 := by
  revert b
  apply Bytes.forall_octet
  decide +kernel

/-- What a rejection leaves behind. -/
theorem Rejects.after {ctrl : UInt8} {ct : Bytes} (rejects : Rejects K h h' ctrl ct) (established : h.own.session = some session) :
    h'.own.session = some session ∧ h'.own.pendingData = none ∧ h'.own.packetSize = h.own.packetSize ∧
      (Control.seqOf ctrl = h'.own.recvSeq ↔ StashAwaited h.own) := by
  obtain ⟨h1, taken, same, -⟩ := rejects.taken established
  obtain ⟨-, ⟨stash, own⟩ | ⟨empty, awaited, own⟩⟩ := recvData_ok taken
  · rw [same, own]
    refine ⟨established, rfl, rfl, fun seq => ⟨_, stash, seq⟩, ?_⟩
    rintro ⟨f, pending, seq⟩
    obtain rfl : (ctrl, ct) = f := Option.some.inj (stash.symm.trans pending)
    exact seq
  · rw [same, own]
    refine ⟨established, empty, rfl, fun seq => ?_, ?_⟩
    · -- the bit has just been flipped
      exact absurd (awaited.symm.trans seq) (flip_ne h.own.recvSeq)
    · rintro ⟨f, pending, -⟩
      rw [empty] at pending
      cases pending

end Receive

/-- **Desynchronisation, exactly.** At a connection with a session and a message, a failed send
leaves no trace and a rejected frame can be retried if and only if the message fits and the first
write does not fail, and either the data frame that is next opens, so that none is rejected, or
it is a stashed frame whose bit is still awaited. -/
theorem desync_iff (K : Crates) (aead : K.toCrypto.AeadLaws) (h : Host Connection) (session : Session)
    (established : h.own.session = some session) (messageType : UInt16) (protobuf : Bytes) :
    (SendAtomic K h messageType protobuf ∧
        ∀ h' ctrl ct, Rejects K h h' ctrl ct → Retries K h'.own (Control.seqOf ctrl)) ↔
      ((5 < h.own.packetSize ∧ protobuf.length + 23 ≤ 65535) ∧ ∀ e, h.wire.onWrite h.wire.written ≠ .failed e) ∧
        (NextOpens K h ∨ StashAwaited h.own) := by
  rw [sendAtomic_iff aead.length_encrypt established]
  refine and_congr_right fun fits => ⟨fun retries => ?_, ?_⟩
  · by_contra neither
    obtain ⟨closed, fresh⟩ := not_or.1 neither
    refine closed fun frame session' next established' => ?_
    by_contra refused
    obtain rfl : session' = session := Option.some.inj (established'.symm.trans established)
    obtain ⟨h1, taken⟩ := (recvData_iff fits.1.1 frame).2 next
    have rejects := rejects_of_refused taken established (Option.not_isSome_iff_eq_none.1 refused)
    obtain ⟨kept, none, -, seq⟩ := rejects.after established
    exact not_retries aead kept none (fun same => fresh (seq.1 same)) (retries _ _ _ rejects)
  · rintro (opens | awaited) h' ctrl ct rejects
    · obtain ⟨h1, taken, -, refused⟩ := rejects.taken established
      have opened := opens _ _ ((recvData_iff fits.1.1 _).1 ⟨h1, taken⟩) established
      rw [refused] at opened
      cases opened
    · obtain ⟨-, none, size, seq⟩ := rejects.after established
      exact retries_of_awaited none (seq.2 awaited) (by rw [size]; exact fits.1.1)

/-- A connection with a session, its first messages still to come. -/
def freshConnection : Connection :=
  { initial 0 BLE_PACKET_SIZE with
    cid := 0x1234, session := some ⟨List.Vector.replicate 32 1, List.Vector.replicate 32 2, 0, 1⟩ }

/-- A forged frame with the awaited bit, and the connection it comes in on. -/
def forgedArrival : Host Connection :=
  ⟨freshConnection, Wire.quiet.withInbox
    (arriving (packets BLE_PACKET_SIZE ⟨0x1234, Control.ENCRYPTED_TRANSPORT, List.replicate 20 9⟩))⟩

theorem desync_iff_sample :
    (SendAtomic Crates.toy forgedArrival 0 [] ∧
        ∀ h' ctrl ct, Rejects Crates.toy forgedArrival h' ctrl ct → Retries Crates.toy h'.own (Control.seqOf ctrl)) ↔
      ((5 < forgedArrival.own.packetSize ∧ ([] : Bytes).length + 23 ≤ 65535) ∧
          ∀ e, forgedArrival.wire.onWrite forgedArrival.wire.written ≠ .failed e) ∧
        (NextOpens Crates.toy forgedArrival ∨ StashAwaited forgedArrival.own) :=
  desync_iff Crates.toy Crypto.toy_aead forgedArrival _ rfl 0 []

/-- A message one byte too long moves the send nonce, so does any message whose first packet the
transport refuses, and a forged frame makes the genuine one a duplicate. -/
theorem failures_desync :
    ¬ SendAtomic Crates.toy forgedArrival 0 (List.replicate 65513 0) ∧
      ¬ SendAtomic Crates.toy ⟨freshConnection, Wire.replying fun _ => .failed (.disconnected "gone")⟩ 0 [] ∧
      ∃ h' ctrl ct, Rejects Crates.toy forgedArrival h' ctrl ct ∧ ¬ Retries Crates.toy h'.own (Control.seqOf ctrl) := by
  have established : freshConnection.session =
      some ⟨List.Vector.replicate 32 1, List.Vector.replicate 32 2, 0, 1⟩ := rfl
  refine ⟨fun atomic => ?_, fun atomic => ?_, ?_⟩
  · have fits := ((sendAtomic_iff (K := Crates.toy) (h := forgedArrival) Crypto.toy_aead.length_encrypt established 0 _).1 atomic).1.2
    rw [List.length_replicate] at fits
    omega
  · exact ((sendAtomic_iff (K := Crates.toy) (h := ⟨freshConnection, _⟩) Crypto.toy_aead.length_encrypt established 0 _).1 atomic).2 _ rfl
  · have value : (recvData.run forgedArrival).1 = .ok (Control.ENCRYPTED_TRANSPORT, List.replicate 20 9) := by
      decide +kernel
    have taken := Comp.run_of_outcome value
    have rejects := rejects_of_refused (K := Crates.toy) taken established (by decide +kernel)
    obtain ⟨kept, none, -, seq⟩ := rejects.after established
    refine ⟨_, _, _, rejects, not_retries Crypto.toy_aead kept none fun same => ?_⟩
    obtain ⟨f, pending, -⟩ := seq.1 same
    cases pending

end TrezorCore.Connection
