import TrezorCore.Thp.FrameLoop
import TrezorCore.Thp.Link

/-!
# Alternating calls, event by event

A host that alternates `send_data` and `recv_data` against the device of `Link`. `At`
relates the connection and its history to a state the device and the links can be in
meanwhile; each event of the history keeps it, or moves it to the next phase of a round.
`At.fine` reads off what the run has shown so far.
-/

namespace TrezorCore.Connection

open Framing Link

/-- `n` calls, alternately `send_data` and `recv_data`. The next message may depend on the
replies so far, as the handshake's second message does. -/
def alternate (next : List (UInt8 × Bytes) → UInt8 × Bytes) : Nat → List (UInt8 × Bytes) → Io Connection Unit
  | 0, _ => pure ()
  | 1, replies => sendData (next replies).1 (next replies).2
  | n + 2, replies => do
    sendData (next replies).1 (next replies).2
    let reply ← recvData
    alternate next n (replies ++ [reply])

/-- What `allocate` leaves behind. -/
structure Allocated (c : Connection) : Prop where
  sendSeq : c.sendSeq = 0
  recvSeq : c.recvSeq = 0
  pendingData : c.pendingData = none

/-! ## Reading a history -/

/-- What `recv_data` returned. -/
def deliveries (es : List Event) : List (UInt8 × Bytes) :=
  es.filterMap fun
    | .delivered ctrl payload => some (ctrl, payload)
    | _ => none

/-- The messages for which `send_data` returned `Ok`. -/
def sentOks (es : List Event) : List (UInt8 × Bytes) :=
  es.filterMap fun
    | .sent ctrl payload => some (ctrl, payload)
    | _ => none

/-- The messages `send_data` put on the link. -/
def dataOuts (es : List Event) : List (UInt8 × Bytes) :=
  es.filterMap fun
    | .frameOut f => if Control.isAck f.ctrl then none else some (f.ctrl, f.payload)
    | _ => none

/-- Events that none of the projections counts. -/
def passive : Event → Bool
  | .delivered _ _ | .sent _ _ | .frameOut _ | .frameIn _ _ | .sendBegins true => false
  | _ => true

theorem deliveries_passive {e : Event} (h : passive e = true) (es : List Event) : deliveries (es ++ [e]) = deliveries es := by
  cases e <;> simp_all [deliveries, passive]

theorem sentOks_passive {e : Event} (h : passive e = true) (es : List Event) : sentOks (es ++ [e]) = sentOks es := by
  cases e <;> simp_all [sentOks, passive]

theorem dataOuts_passive {e : Event} (h : passive e = true) (es : List Event) : dataOuts (es ++ [e]) = dataOuts es := by
  cases e <;> simp_all [dataOuts, passive]

end TrezorCore.Connection

namespace TrezorCore.Link

variable {payloads : List (UInt8 × Bytes)} {gate : Nat → Nat → Prop} {es : List Event} {s s' : System}

/-- What an event does to the device and the links. -/
def Sees : Event → System → System → Prop
  | .frameOut f, s, s' => s' = s.hostSends f.ctrl f.payload
  | .frameIn ctrl payload, s, s' => HostReads s ctrl payload s'
  | _, s, s' => s' = s

/-- The last event of a history, and the moves since. -/
theorem Reaches.last {e : Event} (h : Reaches payloads gate (es ++ [e]) s) :
    ∃ s0 s1, Reaches payloads gate es s0 ∧ Sees e s0 s1 ∧ Relation.ReflTransGen (Moves payloads gate) s1 s := by
  generalize ht : es ++ [e] = t at h
  induction h with
  | start => simp at ht
  | moves _ m ih =>
    obtain ⟨s0, s1, before, sees, since⟩ := ih ht
    exact ⟨s0, s1, before, sees, since.tail m⟩
  | out f before =>
    obtain ⟨rfl, rfl⟩ := List.concat_inj.1 (by simpa using ht)
    exact ⟨_, _, before, rfl, .refl⟩
  | read before r =>
    obtain ⟨rfl, rfl⟩ := List.concat_inj.1 (by simpa using ht)
    exact ⟨_, _, before, r, .refl⟩
  | @unseen t s e' before frame =>
    obtain ⟨rfl, rfl⟩ := List.concat_inj.1 (by simpa using ht)
    refine ⟨s, s, before, ?_, .refl⟩
    cases e <;> first | rfl | exact absurd frame nofun

/-- Before the first event, only moves. -/
theorem Reaches.first (h : Reaches payloads gate [] s) : Relation.ReflTransGen (Moves payloads gate) {} s := by
  generalize ht : ([] : List Event) = t at h
  induction h with
  | start => exact .refl
  | moves _ m ih => exact (ih ht).tail m
  | out f before => simp at ht
  | read before r => simp at ht
  | unseen before frame => simp at ht

/-- Moves leave the host's side alone. -/
theorem Moves.host (m : Moves payloads gate s s') : s'.read = s.read ∧ s'.hostSent = s.hostSent := by
  cases m with
  | deviceReads next =>
    rw [System.deviceReads]
    split
    · split <;> exact ⟨rfl, rfl⟩
    · split <;> exact ⟨rfl, rfl⟩
  | _ => exact ⟨rfl, rfl⟩

end TrezorCore.Link

namespace TrezorCore.Connection

open Framing Link

/-! ## The host and every state of the device -/

section At

variable (payloads : List (UInt8 × Bytes)) (gate : Nat → Nat → Prop)

/-- The device replies to requests, and `send_data` took no frame it had seen for an ACK. -/
structure Prompt (es : List Event) : Prop where
  answers : Answers gate
  valid : ∀ p ∈ payloads, IsData p.1
  fresh : Event.implicitAck false ∉ es

/-- The host with connection `c` after `es`, and the device in state `s`: `k` replies are
outstanding, `w` requests wait for an ACK and `under` is on its way in `send_data`. -/
structure At (k w : Nat) (under : List (UInt8 × Bytes)) (c : Connection) (es : List Event) (s : System) : Prop where
  receiving : Receiving payloads s
  recvSeq : c.recvSeq = bit s.read
  got : deliveries es ++ c.pendingData.toList = (dataFrames payloads).take s.read
  replies : s.read + k = s.hostSent.length
  hostSent : s.hostSent = dataOuts es
  sendSeq : c.sendSeq = bit (s.hostSent.length - w)
  sent : sentOks es ++ under = s.hostSent
  begins : Event.sendBegins true ∉ es
  sending : Prompt payloads gate es → Sending w s

/-- The properties of a run, at its end. -/
structure Fine (c : Connection) (es : List Event) (s : System) : Prop where
  inOrder : deliveries es ++ c.pendingData.toList <+: dataFrames payloads
  begins : Event.sendBegins true ∉ es
  received : Prompt payloads gate es →
    sentOks es <+: s.accepted ∧ s.accepted <+: dataOuts es ∧ (dataOuts es).length ≤ (sentOks es).length + 1

end At

variable {payloads : List (UInt8 × Bytes)} {gate : Nat → Nat → Prop} {k w : Nat} {under : List (UInt8 × Bytes)}
  {c : Connection} {es : List Event} {s s' : System}

theorem Prompt.before {es' : List Event} (h : Prompt payloads gate (es ++ es')) : Prompt payloads gate es :=
  ⟨h.answers, h.valid, fun old => h.fresh (List.mem_append_left _ old)⟩

namespace At

theorem moves (h : At payloads gate k w under c es s) (m : Moves payloads gate s s') :
    At payloads gate k w under c es s' := by
  obtain ⟨read, hostSent⟩ := m.host
  refine ⟨h.receiving.moves m, ?_, ?_, ?_, ?_, ?_, ?_, h.begins, fun p => (h.sending p).moves p.valid p.answers m⟩
  · rw [read]; exact h.recvSeq
  · rw [read]; exact h.got
  · rw [read, hostSent]; exact h.replies
  · rw [hostSent]; exact h.hostSent
  · rw [hostSent]; exact h.sendSeq
  · rw [hostSent]; exact h.sent

theorem start (allocated : Allocated c) : At payloads gate 0 0 [] c [] {} := by
  refine ⟨.start, allocated.recvSeq, ?_, rfl, rfl, allocated.sendSeq, rfl, List.not_mem_nil, fun _ => .start⟩
  rw [allocated.pendingData]
  rfl

/-- An event that no projection counts. -/
theorem passive {e : Event} (h : At payloads gate k w under c es s) (passive : passive e = true) :
    At payloads gate k w under c (es ++ [e]) s := by
  refine ⟨h.receiving, h.recvSeq, ?_, h.replies, ?_, h.sendSeq, ?_, ?_, fun p => h.sending p.before⟩
  · rw [deliveries_passive passive]; exact h.got
  · rw [dataOuts_passive passive]; exact h.hostSent
  · rw [sentOks_passive passive]; exact h.sent
  · intro mem
    rcases List.mem_append.1 mem with old | new
    · exact h.begins old
    · rw [← List.mem_singleton.1 new] at passive
      exact absurd passive nofun

theorem begins_snoc {e : Event} (h : At payloads gate k w under c es s) (other : e ≠ .sendBegins true) :
    Event.sendBegins true ∉ es ++ [e] := by
  intro mem
  rcases List.mem_append.1 mem with old | new
  · exact h.begins old
  · exact other (List.mem_singleton.1 new).symm

/-- The host sends its next request. -/
theorem request (h : At payloads gate 0 0 [] c es s) {f : Frame} (data : Control.isAck f.ctrl = false)
    (seq : Control.seqOf f.ctrl = c.sendSeq) :
    At payloads gate 1 1 [(f.ctrl, f.payload)] c (es ++ [.frameOut f]) (s.hostSends f.ctrl f.payload) := by
  have sending := fun p : Prompt payloads gate (es ++ [.frameOut f]) =>
    (h.sending p.before).sendsData data (seq.trans h.sendSeq) f.payload
  have receiving := h.receiving.sendsData data f.payload
  have same : s.hostSends f.ctrl f.payload =
      { s with up := s.up ++ [⟨f.ctrl, f.payload, s.hostSent.length, 0⟩],
               hostSent := s.hostSent ++ [(f.ctrl, f.payload)] } := by
    rw [System.hostSends, data, if_neg Bool.false_ne_true]
  rw [same] at sending receiving ⊢
  have replies := h.replies
  refine ⟨receiving, h.recvSeq, ?_, ?_, ?_, ?_, ?_, h.begins_snoc (by simp), sending⟩
  · simpa [deliveries] using h.got
  · simp only [List.length_append, List.length_singleton]; omega
  · simp [dataOuts, data, h.hostSent]
  · simpa using h.sendSeq
  · simpa [sentOks] using h.sent

/-- The host acknowledges the payload it read last. -/
theorem ackOut (h : At payloads gate k w under c es s) (cid : UInt16) {b : UInt8} (some : 1 ≤ s.read)
    (hb : b = bit (s.read - 1)) :
    At payloads gate k w under c (es ++ [.frameOut ⟨cid, Control.ackFor b, []⟩]) (s.hostSends (Control.ackFor b) []) := by
  have sending := fun p : Prompt payloads gate (es ++ [.frameOut ⟨cid, Control.ackFor b, []⟩]) =>
    (h.sending p.before).sendsAck b
  have receiving := h.receiving.sendsAck some hb
  have same : s.hostSends (Control.ackFor b) [] =
      { s with up := s.up ++ [⟨Control.ackFor b, [], s.read - 1, 0⟩] } := by
    rw [System.hostSends, if_pos (isAck_ackFor b)]
  rw [same] at sending receiving ⊢
  refine ⟨receiving, h.recvSeq, ?_, h.replies, ?_, h.sendSeq, ?_, h.begins_snoc (by simp), sending⟩
  · simpa [deliveries] using h.got
  · simpa [dataOuts, isAck_ackFor] using h.hostSent
  · simpa [sentOks] using h.sent

/-- A frame the host reads leaves the projections of its history alone. -/
theorem history (h : At payloads gate k w under c es s) (ctrl : UInt8) (payload : Bytes) :
    deliveries (es ++ [.frameIn ctrl payload]) = deliveries es ∧ dataOuts (es ++ [.frameIn ctrl payload]) = dataOuts es ∧
      sentOks (es ++ [.frameIn ctrl payload]) = sentOks es ∧ Event.sendBegins true ∉ es ++ [.frameIn ctrl payload] :=
  ⟨by simp [deliveries], by simp [dataOuts], by simp [sentOks], h.begins_snoc (by simp)⟩

theorem hostSent_reads {ctrl : UInt8} {payload : Bytes} (r : HostReads s ctrl payload s') : s'.hostSent = s.hostSent := by
  cases r <;> rfl

/-- Reading an ACK or a retransmission. -/
theorem rereads (h : At payloads gate k w under c es s) (one : w ≤ 1) {ctrl : UInt8} {payload : Bytes}
    (r : HostReads s ctrl payload s') (same : s'.read = s.read) :
    At payloads gate k w under c (es ++ [.frameIn ctrl payload]) s' := by
  obtain ⟨delivered, outs, oks, begins⟩ := h.history ctrl payload
  have hostSent := hostSent_reads r
  refine ⟨(h.receiving.reads r).1, ?_, ?_, ?_, ?_, ?_, ?_, begins, fun p => ((h.sending p.before).reads one r).1⟩
  · rw [same]; exact h.recvSeq
  · rw [delivered, same]; exact h.got
  · rw [same, hostSent]; exact h.replies
  · rw [outs, hostSent]; exact h.hostSent
  · rw [hostSent]; exact h.sendSeq
  · rw [oks, hostSent]; exact h.sent

theorem readsAck (h : At payloads gate k w under c es s) (one : w ≤ 1) {ctrl : UInt8} {payload : Bytes}
    (r : HostReads s ctrl payload s') (ack : Control.isAck ctrl = true) :
    At payloads gate k w under c (es ++ [.frameIn ctrl payload]) s' := by
  refine h.rereads one r ?_
  rcases (h.receiving.reads r).2 with ⟨-, same⟩ | ⟨data, -⟩
  · exact same
  · rw [ack] at data
    exact absurd data nofun

/-- The ACK the host waits for. -/
theorem acked (h : At payloads gate 1 1 under c es s) {ctrl : UInt8} {payload : Bytes} (r : HostReads s ctrl payload s')
    (ack : Control.isAck ctrl = true) (current : Control.ackSeqOf ctrl = c.sendSeq) :
    At payloads gate 1 0 under { c with sendSeq := c.sendSeq ^^^ 1 } (es ++ [.frameIn ctrl payload]) s' := by
  have read := h.readsAck (Nat.le_refl 1) r ack
  have some : 1 ≤ s.hostSent.length := by have := h.replies; omega
  have hostSent := hostSent_reads r
  refine ⟨read.receiving, read.recvSeq, read.got, read.replies, read.hostSent, ?_, read.sent, read.begins, fun p => ?_⟩
  · simp only
    rw [h.sendSeq, ← bit_succ, hostSent, Nat.sub_add_cancel some, Nat.sub_zero]
  · exact ((h.sending p.before).reads (Nat.le_refl 1) r).2.1 ack some (current.trans h.sendSeq)

/-- A data frame the host has seen before. -/
theorem readsStale (h : At payloads gate k w under c es s) (one : w ≤ 1) {ctrl : UInt8} {payload : Bytes}
    (r : HostReads s ctrl payload s') (data : Control.isAck ctrl = false) (stale : Control.seqOf ctrl ≠ c.recvSeq) :
    At payloads gate k w under c (es ++ [.frameIn ctrl payload]) s' ∧ 1 ≤ s'.read ∧
      Control.seqOf ctrl = bit (s'.read - 1) := by
  rcases (h.receiving.reads r).2 with ⟨ack, -⟩ | ⟨-, lower, upper, some, frame⟩
  · rw [data] at ack
    exact absurd ack nofun
  · have seq := seqOf_dataFrame frame
    refine ⟨h.rereads one r ?_, some, seq⟩
    by_contra new
    -- the next payload shows the bit the host expects
    have next : s'.read - 1 = s.read := by omega
    rw [next, ← h.recvSeq] at seq
    exact stale seq

/-- The data frame the host waits for: the connection to come counts it as pending. -/
theorem readsFresh (h : At payloads gate 1 w under c es s) (one : w ≤ 1) (empty : c.pendingData = none) {ctrl : UInt8}
    {payload : Bytes} (r : HostReads s ctrl payload s') (data : Control.isAck ctrl = false)
    (fresh : Control.seqOf ctrl = c.recvSeq) {sendSeq : UInt8} (next : sendSeq = bit s.hostSent.length) :
    At payloads gate 0 0 under { c with sendSeq, recvSeq := c.recvSeq ^^^ 1, pendingData := some (ctrl, payload) }
        (es ++ [.frameIn ctrl payload]) s' ∧
      1 ≤ s'.read ∧ Control.seqOf ctrl = bit (s'.read - 1) := by
  obtain ⟨delivered, outs, oks, begins⟩ := h.history ctrl payload
  have hostSent := hostSent_reads r
  have replies := h.replies
  obtain ⟨receiving, ⟨ack, -⟩ | ⟨-, lower, upper, some, frame⟩⟩ := h.receiving.reads r
  · rw [data] at ack
    exact absurd ack nofun
  have seq := seqOf_dataFrame frame
  have read : s'.read = s.read + 1 := by
    have := eq_of_bit_eq (seq.symm.trans (fresh.trans h.recvSeq)) (by omega) (by omega)
    omega
  refine ⟨⟨receiving, ?_, ?_, ?_, ?_, ?_, ?_, begins, fun p => ?_⟩, some, seq⟩
  · simp only
    rw [h.recvSeq, read, bit_succ]
  · have got := h.got
    rw [empty, Option.toList_none, List.append_nil] at got
    rw [read, Nat.add_sub_cancel] at frame
    rw [delivered, read, List.take_add_one, got, frame]
  · rw [read, hostSent]; omega
  · rw [outs, hostSent]; exact h.hostSent
  · simp only
    rw [hostSent, next, Nat.sub_zero]
  · rw [oks, hostSent]; exact h.sent
  · exact ((h.sending p.before).reads one r).2.2 data (by omega)

/-- A retransmission taken for an ACK: after it, nothing is promised about the device. -/
theorem misled (h : At payloads gate 1 1 under c es s) :
    At payloads gate 1 0 under { c with sendSeq := c.sendSeq ^^^ 1 } (es ++ [.implicitAck false]) s := by
  have noted := h.passive (e := .implicitAck false) rfl
  have some : 1 ≤ s.hostSent.length := by have := h.replies; omega
  refine ⟨noted.receiving, noted.recvSeq, noted.got, noted.replies, noted.hostSent, ?_, noted.sent, noted.begins,
    fun p => absurd (List.mem_append_right es List.mem_cons_self) p.fresh⟩
  simp only
  rw [h.sendSeq, ← bit_succ, Nat.sub_add_cancel some, Nat.sub_zero]

/-- `send_data` returns. -/
theorem completes {m : UInt8 × Bytes} (h : At payloads gate k w [m] c es s) :
    At payloads gate k w [] c (es ++ [.sent m.1 m.2]) s := by
  refine ⟨h.receiving, h.recvSeq, ?_, h.replies, ?_, h.sendSeq, ?_, h.begins_snoc (by simp), fun p => h.sending p.before⟩
  · simpa [deliveries] using h.got
  · simpa [dataOuts] using h.hostSent
  · simpa [sentOks] using h.sent

/-- `recv_data` returns the pending frame. -/
theorem delivers {f : UInt8 × Bytes} (h : At payloads gate k w under { c with pendingData := some f } es s) :
    At payloads gate k w under { c with pendingData := none } (es ++ [.delivered f.1 f.2]) s := by
  refine ⟨h.receiving, h.recvSeq, ?_, h.replies, ?_, h.sendSeq, ?_, h.begins_snoc (by simp), fun p => h.sending p.before⟩
  · simpa [deliveries] using h.got
  · simpa [dataOuts] using h.hostSent
  · simpa [sentOks] using h.sent

/-- What the run has shown so far, also while the connection lags behind. -/
theorem fine {c' : Connection} (h : At payloads gate k w under c es s) (waits : w ≤ under.length)
    (one : under.length ≤ 1) (pending : c'.pendingData = none ∨ c'.pendingData = c.pendingData) :
    Fine payloads gate c' es s := by
  have len := congrArg List.length h.sent
  rw [List.length_append] at len
  refine ⟨?_, h.begins, fun p => ?_⟩
  · have all : deliveries es ++ c.pendingData.toList <+: dataFrames payloads := h.got ▸ List.take_prefix _ _
    rcases pending with none | same
    · rw [none, Option.toList_none, List.append_nil]
      exact (List.prefix_append _ _).trans all
    · rw [same]
      exact all
  · have sending := h.sending p
    have lower := sending.lower
    have upper := sending.upper
    have oks : sentOks es <+: s.hostSent := h.sent ▸ List.prefix_append _ _
    have accepted : s.accepted <+: s.hostSent := by
      rw [sending.accepted]
      exact List.take_prefix _ _
    refine ⟨List.prefix_of_prefix_length_le oks accepted (by omega), h.hostSent ▸ accepted, ?_⟩
    rw [← h.hostSent]
    omega

end At

end TrezorCore.Connection
