import TrezorCore.Thp.Alternation

/-!
# Delivery over a lossy link

The runs of a host that alternates `send_data` and `recv_data`, however they end. Along
every run the payloads come in order, each once; and a message whose send completed was
accepted by the device, as long as the data frames that `send_data` took for an ACK were
new. A retransmission breaks the second property: `send_data` takes it for the ACK of a
request that was lost.
-/

namespace TrezorCore.Connection

open Framing Link

/-! ## Histories along a run -/

section On

variable {t : List Event} {Φ Ψ : Connection → List Event → Prop}

/-- The events since `t` and the connection are so. -/
def On (t : List Event) (Φ : Connection → List Event → Prop) (h : Host Connection) : Prop :=
  ∃ es, h.wire.trace = t ++ es ∧ Φ h.own es

theorem On.mono {h : Host Connection} (on : On t Φ h) (imp : ∀ es, Φ h.own es → Ψ h.own es) : On t Ψ h := by
  obtain ⟨es, trace, holds⟩ := on
  exact ⟨es, trace, imp es holds⟩

/-- One more event, and perhaps another connection. -/
theorem On.log {h : Host Connection} (on : On t Φ h) (e : Event) (c : Connection)
    (imp : ∀ es, Φ h.own es → Ψ c (es ++ [e])) : On t Ψ ⟨c, h.wire.log e⟩ := by
  obtain ⟨es, trace, holds⟩ := on
  exact ⟨es ++ [e], by rw [Wire.log_trace, trace, List.append_assoc], imp es holds⟩

theorem writeChunk_on (packet : Bytes) (wrote : ∀ c es, Ψ c es → Ψ c (es ++ [.wrote packet])) :
    Comp.Triple (On t Ψ) (Io.writeChunk packet) (fun _ => On t Ψ) (On t Ψ) := by
  intro h on
  have after : On t Ψ ⟨h.own, { h.wire.log (.wrote packet) with written := h.wire.written + 1 }⟩ :=
    on.log (.wrote packet) h.own fun es => wrote h.own es
  rcases reply : h.wire.onWrite h.wire.written with _ | e | _ <;> simp only [Io.writeChunk, reply] <;> exact after

theorem writePackets_on (wrote : ∀ packet c es, Ψ c es → Ψ c (es ++ [.wrote packet])) :
    ∀ packets, Comp.Triple (On t Ψ) (writePackets packets) (fun _ => On t Ψ) (On t Ψ)
  | [] => .pure () fun _ on => on
  | packet :: rest => .bind (writeChunk_on packet (wrote packet)) fun _ => writePackets_on wrote rest

/-- A frame goes out, all of it or a part. -/
theorem writeFramed_on {ctrl : UInt8} {payload : Bytes} {B : Host Connection → Prop}
    (out : ∀ c es, Φ c es → Ψ c (es ++ [.frameOut ⟨c.cid, ctrl, payload⟩]))
    (wrote : ∀ packet c es, Ψ c es → Ψ c (es ++ [.wrote packet])) (before : ∀ h, On t Φ h → B h)
    (during : ∀ h, On t Ψ h → B h) :
    Comp.Triple (On t Φ) (writeFramed ctrl payload) (fun _ => On t Ψ) B := by
  intro h on
  rw [writeFramed, Io.run_own_bind]
  rcases seg : segment h.own.packetSize h.own.cid ctrl payload with e | packets
  · exact before h on
  · rw [Comp.ofExcept_ok, Comp.pure_bind, Io.run_note_bind]
    have logged : On t Ψ ⟨h.own, h.wire.log (.frameOut ⟨h.own.cid, ctrl, payload⟩)⟩ := on.log _ h.own (out h.own)
    exact (writePackets_on wrote packets).conseq (fun _ on => on) (fun _ _ on => on) during _ logged

/-- After a frame came in. -/
def Read (Φ : Connection → List Event → Prop) (ctrl : UInt8) (payload : Bytes) (c : Connection) (es : List Event) :
    Prop :=
  ∃ before, es = before ++ [.frameIn ctrl payload] ∧ Φ c before

theorem readChunk_on : Comp.Triple (On t Φ) (Io.readChunk : Io Connection Bytes) (fun _ => On t Φ) (On t Φ) := by
  intro h on
  rcases hin : h.wire.inbox with _ | ⟨e | chunk, rest⟩ <;> simp only [Io.readChunk, hin] <;> exact on

theorem absorbChunk_on {B : Host Connection → Prop} (reasm : Reassembler) (ctrl : UInt8) (before : ∀ h, On t Φ h → B h)
    (refused : ∀ payload h, On t (Read Φ Control.TRANSPORT_ERROR payload) h → B h) : ∀ chunk : Bytes,
    Comp.Triple (On t Φ) (absorbChunk reasm ctrl chunk)
      (Sum.elim (fun _ => On t Φ) fun f => On t (Read Φ f.1 f.2)) B
  | [] => .pure _ fun _ on => on
  | first :: rest => by
    refine .bind (Q := fun _ => On t Φ) ?_ fun r => ?_
    · exact .of_keeps (R := Eq) (.runLocal (fun _ => rfl) _ _) (fun h h' same on _ => same ▸ on)
        fun h h' same on => before h' (same ▸ on)
    · obtain ⟨_ | payload, reasm⟩ := r
      · exact .pure _ fun _ on => on
      · intro h on
        have logged : ∀ ctrl, On t (Read Φ ctrl payload) ⟨h.own, h.wire.log (.frameIn ctrl payload)⟩ :=
          fun ctrl => on.log (.frameIn ctrl payload) h.own fun es holds => ⟨es, rfl, holds⟩
        simp only [Io.run_note_bind]
        generalize (if first &&& CONTINUATION_BIT = 0 then first else ctrl) = seen
        by_cases isError : seen = Control.TRANSPORT_ERROR
        · rw [if_pos isError, isError]
          exact refused payload _ (logged _)
        · rw [if_neg isError]
          exact logged seen

/-- A frame comes in, or the call ends before that or on a transport error. -/
theorem readFramed_on {B : Host Connection → Prop} (before : ∀ h, On t Φ h → B h)
    (refused : ∀ payload h, On t (Read Φ Control.TRANSPORT_ERROR payload) h → B h) :
    Comp.Triple (On t Φ) readFramed (fun f => On t (Read Φ f.1 f.2)) B := by
  have turn : ∀ b, Comp.Triple (On t Φ) (readFramedTurn b)
      (Sum.elim (fun _ => On t Φ) fun f => On t (Read Φ f.1 f.2)) B := fun b =>
    .bind (readChunk_on.conseq (fun _ on => on) (fun _ _ on => on) before)
      fun chunk => absorbChunk_on b.1 b.2 before refused chunk
  exact Comp.Triple.loop (fun _ => before) turn _

/-- The waiting loop's rule. -/
theorem awaitFrame_on {α : Type} {step : UInt8 → Bytes → Io Connection (Unit ⊕ α)} {Q : α → Host Connection → Prop}
    {B : Host Connection → Prop} (before : ∀ h, On t Φ h → B h)
    (refused : ∀ payload h, On t (Read Φ Control.TRANSPORT_ERROR payload) h → B h)
    (turn : ∀ ctrl payload, Comp.Triple (On t (Read Φ ctrl payload)) (step ctrl payload)
      (Sum.elim (fun _ => On t Φ) Q) B) :
    Comp.Triple (On t Φ) (awaitFrame step) Q B := by
  have turns : ∀ _ : Unit, Comp.Triple (On t Φ) (readFramed >>= fun f => step f.1 f.2)
      (Sum.elim (fun _ => On t Φ) Q) B := fun _ => .bind (readFramed_on before refused) fun f => turn f.1 f.2
  exact Comp.Triple.loop (fun _ => before) turns ()

end On

/-! ## The phases of a round -/

section Phases

variable (payloads : List (UInt8 × Bytes)) (gate : Nat → Nat → Prop)

/-- The connection has `C`, and as soon as it is `f c` it is `At`, whatever the device does. -/
def Heading (C : Connection → Prop) (k w : Nat) (under : List (UInt8 × Bytes)) (f : Connection → Connection)
    (c : Connection) (es : List Event) : Prop :=
  C c ∧ ∀ s, Reaches payloads gate es s → At payloads gate k w under (f c) es s

/-- So, and the last payload read shows bit `b`. -/
def Acking (b : UInt8) (C : Connection → Prop) (k w : Nat) (under : List (UInt8 × Bytes)) (f : Connection → Connection)
    (c : Connection) (es : List Event) : Prop :=
  C c ∧ ∀ s, Reaches payloads gate es s →
    At payloads gate k w under (f c) es s ∧ 1 ≤ s.read ∧ b = bit (s.read - 1)

/-- The stash is empty. -/
def Empty (c : Connection) : Prop := c.pendingData = none

/-- Before a request. -/
abbrev Ready := Heading payloads gate Empty 0 0 [] fun c => c

/-- In `send_data`, until the ACK. -/
abbrev Waiting (m : UInt8 × Bytes) := Heading payloads gate Empty 1 1 [m] fun c => c

/-- The request is settled; its reply is in the stash or still to come. -/
def Settled (under : List (UInt8 × Bytes)) (c : Connection) (es : List Event) : Prop :=
  ∀ s, Reaches payloads gate es s → At payloads gate (if c.pendingData.isSome then 0 else 1) 0 under c es s

/-- However a run ends. -/
def Ends (c : Connection) (es : List Event) : Prop := ∀ s, Reaches payloads gate es s → Fine payloads gate c es s

end Phases

section Rounds

variable {payloads : List (UInt8 × Bytes)} {gate : Nat → Nat → Prop} {t es : List Event} {c : Connection}
  {C : Connection → Prop} {k w : Nat} {under : List (UInt8 × Bytes)} {f : Connection → Connection}

/-- A property that the device's moves keep, after one more event. -/
theorem always_snoc {P : System → Prop} {e : Event} (stable : ∀ s s', Moves payloads gate s s' → P s → P s')
    (step : ∀ s0 s1, Reaches payloads gate es s0 → Sees e s0 s1 → P s1) {s : System}
    (h : Reaches payloads gate (es ++ [e]) s) : P s := by
  obtain ⟨s0, s1, before, sees, since⟩ := h.last
  have holds := step s0 s1 before sees
  clear h sees
  induction since with
  | refl => exact holds
  | tail _ m ih => exact stable _ _ m ih

/-- The device does not see the passive events. -/
theorem sees_passive {e : Event} (quiet : passive e = true) {s s' : System} (sees : Sees e s s') : s' = s := by
  revert sees quiet
  cases e <;> intro quiet sees <;> first | exact sees | exact absurd quiet Bool.false_ne_true

theorem Acking.moves {b : UInt8} {s s' : System} (m : Moves payloads gate s s')
    (h : At payloads gate k w under c es s ∧ 1 ≤ s.read ∧ b = bit (s.read - 1)) :
    At payloads gate k w under c es s' ∧ 1 ≤ s'.read ∧ b = bit (s'.read - 1) := by
  rw [m.host.1]
  exact ⟨h.1.moves m, h.2⟩

theorem Heading.passive {e : Event} (quiet : passive e = true) (h : Heading payloads gate C k w under f c es) :
    Heading payloads gate C k w under f c (es ++ [e]) := by
  refine ⟨h.1, fun s => always_snoc (fun _ _ m a => a.moves m) fun s0 s1 before sees => ?_⟩
  rw [sees_passive quiet sees]
  exact (h.2 s0 before).passive quiet

theorem Acking.passive {b : UInt8} {e : Event} (quiet : passive e = true) (h : Acking payloads gate b C k w under f c es) :
    Acking payloads gate b C k w under f c (es ++ [e]) := by
  refine ⟨h.1, fun s => always_snoc (fun _ _ => Acking.moves) fun s0 s1 before sees => ?_⟩
  rw [sees_passive quiet sees]
  obtain ⟨at0, last⟩ := h.2 s0 before
  exact ⟨at0.passive quiet, last⟩

theorem Heading.ends (h : Heading payloads gate C k w under f c es) (empty : ∀ c, C c → Empty c)
    (waits : w ≤ under.length) (one : under.length ≤ 1) : Ends payloads gate c es :=
  fun s reach => (h.2 s reach).fine waits one (.inl (empty c h.1))

theorem Acking.heading {b : UInt8} (h : Acking payloads gate b C k w under f c es) :
    Heading payloads gate C k w under f c es :=
  ⟨h.1, fun s reach => (h.2 s reach).1⟩

/-- Acking keeps the phase. -/
theorem sendAck_on {b : UInt8} (empty : ∀ c, C c → Empty c) (waits : w ≤ under.length) (one : under.length ≤ 1) :
    Comp.Triple (On t (Acking payloads gate b C k w under f)) (sendAck b)
      (fun _ => On t (Heading payloads gate C k w under f)) (On t (Ends payloads gate)) := by
  refine writeFramed_on (fun c es h => ⟨h.1, fun s => ?_⟩) (fun packet c es h => h.passive rfl)
    (fun h on => on.mono fun es a => a.heading.ends empty waits one)
    fun h on => on.mono fun es a => a.ends empty waits one
  refine always_snoc (fun _ _ m a => a.moves m) fun s0 s1 before sees => ?_
  obtain ⟨at0, some, hb⟩ := h.2 s0 before
  exact sees ▸ at0.ackOut c.cid some hb

/-- An ACK read in a phase keeps it. -/
theorem Heading.readsAck {ctrl : UInt8} {payload : Bytes} (one : w ≤ 1) (ack : Control.isAck ctrl = true)
    (h : Heading payloads gate C k w under f c es) :
    Heading payloads gate C k w under f c (es ++ [.frameIn ctrl payload]) := by
  refine ⟨h.1, fun s => always_snoc (fun _ _ m a => a.moves m) fun s0 s1 before sees => ?_⟩
  exact (h.2 s0 before).readsAck one sees ack

/-- So does a retransmission, which is to be acknowledged again. -/
theorem Heading.readsStale {ctrl : UInt8} {payload : Bytes} (one : w ≤ 1) (data : Control.isAck ctrl = false)
    (stale : Control.seqOf ctrl ≠ (f c).recvSeq) (h : Heading payloads gate C k w under f c es) :
    Acking payloads gate (Control.seqOf ctrl) C k w under f c (es ++ [.frameIn ctrl payload]) := by
  refine ⟨h.1, fun s => always_snoc (fun _ _ => Acking.moves) fun s0 s1 before sees => ?_⟩
  exact (h.2 s0 before).readsStale one sees data stale

/-- A transport error ends a call in a phase without any harm. -/
theorem Heading.refused {payload : Bytes} (h : Heading payloads gate Empty 1 w under (fun c => c) c es)
    (waits : w ≤ under.length) (one : under.length ≤ 1) :
    Ends payloads gate c (es ++ [.frameIn Control.TRANSPORT_ERROR payload]) := by
  intro s reach
  have somewhere : ∃ k' w' c', w' ≤ under.length ∧
      At payloads gate k' w' under c' (es ++ [.frameIn Control.TRANSPORT_ERROR payload]) s := by
    refine always_snoc (P := fun s => ∃ k' w' c', w' ≤ under.length ∧ At payloads gate k' w' under c' _ s)
      (fun s s' m ⟨k', w', c', le, a⟩ => ⟨k', w', c', le, a.moves m⟩) (fun s0 s1 before sees => ?_) reach
    have at0 := h.2 s0 before
    by_cases fresh : Control.seqOf Control.TRANSPORT_ERROR = c.recvSeq
    · exact ⟨0, 0, _, Nat.zero_le _, (at0.readsFresh (waits.trans one) h.1 sees rfl fresh rfl).1⟩
    · exact ⟨1, w, c, waits, (at0.readsStale (waits.trans one) sees rfl fresh).1⟩
  obtain ⟨k', w', c', le, at1⟩ := somewhere
  exact at1.fine le one (.inl h.1)

theorem Settled.ofEmpty (h : Heading payloads gate Empty 1 0 under (fun c => c) c es) : Settled payloads gate under c es := by
  intro s reach
  rw [show c.pendingData = none from h.1]
  exact h.2 s reach

/-! ## Rounds -/

/-- A frame inside `send_data`. -/
theorem sendDataStep_on (m : UInt8 × Bytes) (ctrl : UInt8) (payload : Bytes) :
    Comp.Triple (On t (Read (Waiting payloads gate m) ctrl payload)) (sendDataStep ctrl payload)
      (Sum.elim (fun _ => On t (Waiting payloads gate m)) fun _ => On t (Settled payloads gate [m]))
      (On t (Ends payloads gate)) := by
  rintro ⟨c, wire⟩ ⟨_, trace, es, rfl, waiting⟩
  have empty : c.pendingData = none := waiting.1
  rw [sendDataStep, Io.run_own_bind]
  by_cases ack : Control.isAck ctrl = true
  · rw [if_pos ack]
    by_cases current : Control.ackSeqOf ctrl = c.sendSeq
    · rw [if_pos current]
      refine ⟨_, trace, .ofEmpty ⟨empty, fun s => ?_⟩⟩
      refine always_snoc (fun _ _ m a => a.moves m) fun s0 s1 before sees => ?_
      exact (waiting.2 s0 before).acked sees ack current
    · rw [if_neg current]
      exact ⟨_, trace, waiting.readsAck (Nat.le_refl 1) ack⟩
  · rw [if_neg ack]
    have data := Bool.eq_false_iff.2 ack
    simp only [Io.run_modifyOwn_bind, Io.run_note_bind]
    by_cases fresh : Control.seqOf ctrl = c.recvSeq
    · -- the reply itself: it goes into the stash once it is acknowledged
      have acking : Acking payloads gate (Control.seqOf ctrl) Empty 0 0 [m]
          (fun c => { c with recvSeq := c.recvSeq ^^^ 1, pendingData := some (ctrl, payload) })
          { c with sendSeq := c.sendSeq ^^^ 1 } (es ++ [.frameIn ctrl payload]) := by
        refine ⟨empty, fun s => always_snoc (fun _ _ => Acking.moves) fun s0 s1 before sees => ?_⟩
        have at0 := waiting.2 s0 before
        refine at0.readsFresh (Nat.le_refl 1) empty sees data fresh ?_
        have := at0.replies
        rw [at0.sendSeq, ← bit_succ, Nat.sub_add_cancel (by omega)]
      simp only [if_pos fresh]
      refine Comp.Triple.bind (sendAck_on (fun _ e => e) (Nat.zero_le _) (by exact Nat.le_refl 1)) (fun _ => ?_) _
        ⟨_, by rw [Wire.log_trace, trace, List.append_assoc], acking.passive rfl⟩
      rintro h ⟨es, trace, heading⟩
      exact ⟨es, trace, heading.2⟩
    · have acking : Acking payloads gate (Control.seqOf ctrl) Empty 1 0 [m] (fun c => c)
          { c with sendSeq := c.sendSeq ^^^ 1 } (es ++ [.frameIn ctrl payload] ++ [.implicitAck false]) := by
        have stale : Acking payloads gate _ Empty 1 1 [m] (fun c => c) c (es ++ [.frameIn ctrl payload]) :=
          waiting.readsStale (Nat.le_refl 1) data fresh
        refine ⟨empty, fun s => always_snoc (fun _ _ => Acking.moves) fun s0 s1 before sees => ?_⟩
        obtain ⟨at0, last⟩ := stale.2 s0 before
        rw [show s1 = s0 from sees]
        exact ⟨at0.misled, last⟩
      simp only [if_neg fresh, decide_eq_false fresh]
      refine Comp.Triple.bind (sendAck_on (fun _ e => e) (Nat.zero_le _) (by exact Nat.le_refl 1)) (fun _ => ?_) _
        ⟨_, by rw [Wire.log_trace, trace, List.append_assoc], acking⟩
      rintro h ⟨es, trace, heading⟩
      exact ⟨es, trace, .ofEmpty heading⟩

/-- `send_data` between rounds settles its request. -/
theorem sendData_on {baseCtrl : UInt8} (valid : IsData baseCtrl) (payload : Bytes) :
    Comp.Triple (On t (Ready payloads gate)) (sendData baseCtrl payload) (fun _ => On t (Settled payloads gate []))
      (On t (Ends payloads gate)) := by
  rintro ⟨c, wire⟩ ⟨es, trace, ready⟩
  rw [sendData, Io.run_own_bind, Io.run_note_bind, show c.pendingData = none from ready.1]
  have begun : On t (Heading payloads gate (fun c' => Empty c' ∧ c'.sendSeq = c.sendSeq) 0 0 [] fun c => c)
      ⟨c, wire.log (.sendBegins false)⟩ :=
    ⟨_, by rw [Wire.log_trace, trace, List.append_assoc], Heading.passive rfl ⟨⟨ready.1, rfl⟩, ready.2⟩⟩
  refine Comp.Triple.bind (Q := fun _ => On t (Waiting payloads gate (Control.withSeq baseCtrl c.sendSeq, payload)))
    ?_ (fun _ => Comp.Triple.bind
      (Q := fun _ => On t (Settled payloads gate [(Control.withSeq baseCtrl c.sendSeq, payload)])) ?_ fun _ => ?_) _ begun
  · refine writeFramed_on (fun c' es h => ⟨h.1.1, fun s => ?_⟩) (fun packet c es h => h.passive rfl)
      (fun h on => on.mono fun es a => a.ends (fun _ e => e.1) (Nat.le_refl 0) (Nat.zero_le 1))
      fun h on => on.mono fun es a => a.ends (fun _ e => e) (Nat.le_refl 1) (Nat.le_refl 1)
    refine always_snoc (fun _ _ m a => a.moves m) fun s0 s1 before sees => ?_
    have at0 := h.2 s0 before
    have seq : c.sendSeq = bit s0.hostSent.length := h.1.2.symm.trans at0.sendSeq
    rw [show s1 = s0.hostSends (Control.withSeq baseCtrl c.sendSeq) payload from sees]
    refine at0.request (f := ⟨c'.cid, Control.withSeq baseCtrl c.sendSeq, payload⟩) ?_ ?_
    · simp only [seq]
      exact isAck_withSeq valid _
    · simp only [seq, h.1.2]
      exact seqOf_withSeq baseCtrl _
  · refine awaitFrame_on (fun h on => on.mono fun es a => a.ends (fun _ e => e) (Nat.le_refl 1) (Nat.le_refl 1))
      (fun payload h on => on.mono fun es ⟨before, last, a⟩ => last ▸ a.refused (Nat.le_refl 1) (Nat.le_refl 1))
      fun ctrl payload => sendDataStep_on _ ctrl payload
  · rintro h ⟨es, trace, settled⟩
    refine ⟨es ++ [.sent _ payload], by rw [← List.append_assoc, ← trace]; rfl, fun s => ?_⟩
    refine always_snoc (fun _ _ m a => a.moves m) fun s0 s1 before sees => ?_
    rw [show s1 = s0 from sees]
    exact (settled s0 before).completes

/-- A frame inside `recv_data`. -/
theorem recvDataStep_on (ctrl : UInt8) (payload : Bytes) :
    Comp.Triple (On t (Read (Heading payloads gate Empty 1 0 [] fun c => c) ctrl payload)) (recvDataStep ctrl payload)
      (Sum.elim (fun _ => On t (Heading payloads gate Empty 1 0 [] fun c => c)) fun frame =>
        On t (Heading payloads gate Empty 0 0 [] fun c => { c with pendingData := some frame }))
      (On t (Ends payloads gate)) := by
  rintro ⟨c, wire⟩ ⟨_, trace, es, rfl, waiting⟩
  by_cases ack : Control.isAck ctrl = true
  · rw [recvDataStep, if_pos ack]
    exact ⟨_, trace, waiting.readsAck (Nat.zero_le 1) ack⟩
  · rw [recvDataStep, if_neg ack]
    have data := Bool.eq_false_iff.2 ack
    by_cases fresh : Control.seqOf ctrl = c.recvSeq
    · have acking : Acking payloads gate (Control.seqOf ctrl) (fun c' => Empty c' ∧ c'.recvSeq = c.recvSeq) 0 0 []
          (fun c => { c with recvSeq := c.recvSeq ^^^ 1, pendingData := some (ctrl, payload) }) c
          (es ++ [.frameIn ctrl payload]) := by
        refine ⟨⟨waiting.1, rfl⟩, fun s => always_snoc (fun _ _ => Acking.moves) fun s0 s1 before sees => ?_⟩
        have at0 := waiting.2 s0 before
        exact at0.readsFresh (Nat.zero_le 1) waiting.1 sees data fresh at0.sendSeq
      refine Comp.Triple.bind (sendAck_on (fun _ e => e.1) (Nat.zero_le _) (by exact Nat.zero_le 1)) (fun _ => ?_) _
        ⟨_, trace, acking⟩
      rintro h ⟨es, trace, heading⟩
      rw [Io.run_own_bind, if_pos (fresh.trans heading.1.2.symm)]
      exact ⟨es, trace, heading.1.1, heading.2⟩
    · have acking : Acking payloads gate (Control.seqOf ctrl) (fun c' => Empty c' ∧ c'.recvSeq = c.recvSeq) 1 0 []
          (fun c => c) c (es ++ [.frameIn ctrl payload]) := by
        exact ⟨⟨waiting.1, rfl⟩, (waiting.readsStale (Nat.zero_le 1) data fresh).2⟩
      refine Comp.Triple.bind (sendAck_on (fun _ e => e.1) (Nat.zero_le _) (by exact Nat.zero_le 1)) (fun _ => ?_) _
        ⟨_, trace, acking⟩
      rintro h ⟨es, trace, heading⟩
      have same : Control.seqOf ctrl ≠ h.own.recvSeq := fun eq => fresh (eq.trans heading.1.2)
      rw [Io.run_own_bind, if_neg same]
      exact ⟨es, trace, heading.1.1, heading.2⟩

/-- Handing a frame over ends a round. -/
theorem delivered_on (frame : UInt8 × Bytes) :
    Comp.Triple (On t (Heading payloads gate Empty 0 0 [] fun c => { c with pendingData := some frame }))
      (Io.note (.delivered frame.1 frame.2) >>= fun _ => pure frame) (fun _ => On t (Ready payloads gate))
      (On t (Ends payloads gate)) := by
  rintro ⟨c, wire⟩ ⟨es, trace, heading⟩
  refine ⟨es ++ [.delivered frame.1 frame.2], by rw [← List.append_assoc, ← trace]; rfl, heading.1, fun s => ?_⟩
  refine always_snoc (fun _ _ m a => a.moves m) fun s0 s1 before sees => ?_
  rw [show s1 = s0 from sees]
  have after := (heading.2 s0 before).delivers
  rwa [show { c with pendingData := none } = c from by rw [← heading.1]] at after

/-- `recv_data` after a settled request ends the round. -/
theorem recvData_on :
    Comp.Triple (On t (Settled payloads gate [])) recvData (fun _ => On t (Ready payloads gate))
      (On t (Ends payloads gate)) := by
  rintro ⟨c, wire⟩ ⟨es, trace, settled⟩
  rw [recvData, Io.run_own_bind]
  rcases pending : c.pendingData with _ | frame
  · have waiting : Heading payloads gate Empty 1 0 [] (fun c => c) c es := by
      refine ⟨pending, fun s reach => ?_⟩
      have at0 := settled s reach
      simp only [pending] at at0
      exact at0
    refine Comp.Triple.bind (awaitFrame_on ?_ ?_ recvDataStep_on) delivered_on _ ⟨es, trace, waiting⟩
    · exact fun h on => on.mono fun es a => a.ends (fun _ e => e) (Nat.le_refl 0) (Nat.zero_le 1)
    · exact fun payload h on => on.mono fun es ⟨before, last, a⟩ => last ▸ a.refused (Nat.le_refl 0) (Nat.zero_le 1)
  · rw [Io.run_modifyOwn_bind]
    refine delivered_on frame _ ⟨es, trace, rfl, fun s reach => ?_⟩
    have at0 := settled s reach
    simp only [pending] at at0
    exact (show { c with pendingData := some frame } = c from by rw [← pending]) ▸ at0

/-- A whole run, however it ends. -/
theorem alternate_on {next : List (UInt8 × Bytes) → UInt8 × Bytes} (valid : ∀ replies, IsData (next replies).1) :
    ∀ n replies, Comp.Triple (On t (Ready payloads gate)) (alternate next n replies)
      (fun _ => On t (Ends payloads gate)) (On t (Ends payloads gate))
  | 0, _ => .pure () fun _ on => on.mono fun _ ready => ready.ends (fun _ e => e) (Nat.le_refl 0) (Nat.zero_le 1)
  | 1, replies => by
    refine (sendData_on (valid replies) _).conseq (fun _ on => on) (fun _ h on => ?_) fun _ on => on
    exact on.mono fun _ settled s reach => (settled s reach).fine (Nat.le_refl 0) (Nat.zero_le 1) (.inr rfl)
  | n + 2, replies => .bind (sendData_on (valid replies) _) fun _ => .bind recvData_on fun reply =>
    alternate_on valid n (replies ++ [reply])

theorem alternate_ends {next : List (UInt8 × Bytes) → UInt8 × Bytes} (valid : ∀ replies, IsData (next replies).1) (n : Nat)
    {h : Host Connection} (allocated : Allocated h.own)
    (ran : ((alternate next n []).run h).2.wire.trace = h.wire.trace ++ es) :
    Ends payloads gate ((alternate next n []).run h).2.own es := by
  have ready : On h.wire.trace (Ready payloads gate) h := by
    refine ⟨[], (List.append_nil _).symm, allocated.pendingData, fun s reach => ?_⟩
    have since := reach.first
    clear reach
    induction since with
    | refl => exact .start allocated
    | tail _ m ih => exact ih.moves m
  obtain ⟨es', trace, ends⟩ := (alternate_on valid n []).after ready
  obtain rfl := List.append_cancel_left (trace.symm.trans ran)
  exact ends

end Rounds

/-- **In-order delivery.** Against every device that follows the alternating-bit rule, over
links that lose what they like, what `recv_data` returned, with the stash, is a prefix of
what the device sends; and no `send_data` begins with a full stash. -/
theorem delivery_in_order (payloads : List (UInt8 × Bytes)) (gate : Nat → Nat → Prop)
    (next : List (UInt8 × Bytes) → UInt8 × Bytes) (valid : ∀ replies, IsData (next replies).1) (n : Nat)
    (h : Host Connection) (allocated : Allocated h.own) (es : List Event)
    (ran : ((alternate next n []).run h).2.wire.trace = h.wire.trace ++ es) (s : System)
    (reach : Reaches payloads gate es s) :
    deliveries es ++ ((alternate next n []).run h).2.own.pendingData.toList <+: dataFrames payloads ∧
      Event.sendBegins true ∉ es := by
  have fine := alternate_ends valid n allocated ran s reach
  exact ⟨fine.inOrder, fine.begins⟩

/-- **A completed send was received**, in the runs in which the device sends its payloads as
replies and `send_data` took no retransmission for an ACK. -/
theorem sent_was_accepted (payloads : List (UInt8 × Bytes)) (gate : Nat → Nat → Prop)
    (next : List (UInt8 × Bytes) → UInt8 × Bytes) (valid : ∀ replies, IsData (next replies).1) (n : Nat)
    (h : Host Connection) (allocated : Allocated h.own) (es : List Event)
    (ran : ((alternate next n []).run h).2.wire.trace = h.wire.trace ++ es) (s : System)
    (reach : Reaches payloads gate es s) (prompt : Prompt payloads gate es) :
    sentOks es <+: s.accepted ∧ s.accepted <+: dataOuts es ∧ (dataOuts es).length ≤ (sentOks es).length + 1 :=
  (alternate_ends valid n allocated ran s reach).received prompt

/-! ## Two runs

The host sends a request, gets its reply and sends the next request. In the first run the
reply comes once; in the second it is retransmitted while the second request is lost. -/

def request (replies : List (UInt8 × Bytes)) : UInt8 × Bytes :=
  (Control.ENCRYPTED_TRANSPORT, [UInt8.ofNat replies.length])

def reply : UInt8 × Bytes := (Control.ENCRYPTED_TRANSPORT, [9])

/-- A host on channel 0x1234 to which these frames come in. -/
def receiving (frames : List (UInt8 × Bytes)) : Host Connection where
  own := { initial 0 16 with cid := 0x1234 }
  wire := { Wire.quiet with inbox := frames.flatMap fun f => arriving (packets 16 ⟨0x1234, f.1, f.2⟩) }

def history (frames : List (UInt8 × Bytes)) : List Event :=
  ((alternate request 3 []).run (receiving frames)).2.wire.trace

def promptFrames : List (UInt8 × Bytes) := [(Control.ackFor 0, []), reply, (Control.ackFor 1, [])]

def promptSchedule : List (List Act) :=
  [[], [.deviceReads, .deviceAcks], [.deviceSends], [], [], [.deviceReads, .deviceReads, .deviceAcks]]

def retransmitted : List (UInt8 × Bytes) := [(Control.ackFor 0, []), reply, reply]

def lossySchedule : List (List Act) :=
  [[], [.deviceReads, .deviceAcks], [.deviceSends], [], [], [.loseUp 0, .deviceSends, .loseUp 0]]

theorem receiving_allocated (frames : List (UInt8 × Bytes)) : Allocated (receiving frames).own := ⟨rfl, rfl, rfl⟩

theorem history_eq (frames : List (UInt8 × Bytes)) :
    ((alternate request 3 []).run (receiving frames)).2.wire.trace = (receiving frames).wire.trace ++ history frames :=
  (List.nil_append _).symm

theorem request_valid (replies : List (UInt8 × Bytes)) : IsData (request replies).1 :=
  (by decide : IsData Control.ENCRYPTED_TRANSPORT)

/-- The device asks for a request before each of its payloads. -/
theorem lt_answers : Answers fun k n => k < n := fun _ _ h => h

/-- A schedule that works out leads to a state of the system. -/
theorem reaches_of_replay (frames : List (UInt8 × Bytes)) (schedule : List (List Act)) (P : System → Bool)
    (h : (replay [reply] (fun k n => k < n) {} schedule (history frames)).any P = true) :
    ∃ s, Reaches [reply] (fun k n => k < n) (history frames) s ∧ P s = true := by
  obtain ⟨s, hs, hP⟩ := (Option.any_eq_true _ _).1 h
  exact ⟨s, Reaches.replay (history frames) schedule .start hs, hP⟩

theorem delivery_in_order_sample : ∃ s, Reaches [reply] (fun k n => k < n) (history retransmitted) s ∧
    deliveries (history retransmitted) ++
      ((alternate request 3 []).run (receiving retransmitted)).2.own.pendingData.toList <+: dataFrames [reply] ∧
    Event.sendBegins true ∉ history retransmitted := by
  obtain ⟨s, reach, -⟩ := reaches_of_replay retransmitted lossySchedule (fun _ => true) (by decide +kernel)
  exact ⟨s, reach, delivery_in_order [reply] _ request request_valid 3 _ (receiving_allocated _) _ (history_eq _) s reach⟩

theorem promptFrames_prompt : Prompt [reply] (fun k n => k < n) (history promptFrames) :=
  ⟨lt_answers, by decide, by decide +kernel⟩

theorem sent_was_accepted_sample : ∃ s, Reaches [reply] (fun k n => k < n) (history promptFrames) s ∧
    (sentOks (history promptFrames)).length = 2 ∧ sentOks (history promptFrames) <+: s.accepted ∧
    s.accepted <+: dataOuts (history promptFrames) ∧
    (dataOuts (history promptFrames)).length ≤ (sentOks (history promptFrames)).length + 1 := by
  obtain ⟨s, reach, -⟩ := reaches_of_replay promptFrames promptSchedule (fun _ => true) (by decide +kernel)
  exact ⟨s, reach, by decide +kernel, sent_was_accepted [reply] _ request request_valid 3 _ (receiving_allocated _) _
    (history_eq _) s reach promptFrames_prompt⟩

/-- `send_data` takes a retransmission for the ACK of a request that was lost. -/
theorem retransmission_acks_request :
    ((alternate request 3 []).run (receiving retransmitted)).1 = .ok () ∧
    Answers (fun k n => k < n) ∧ (∀ p ∈ [reply], IsData p.1) ∧
    ∃ s, Reaches [reply] (fun k n => k < n) (history retransmitted) s ∧
      sentOks (history retransmitted) = [(0x04, [0]), (0x14, [1])] ∧ s.accepted = [(0x04, [0])] ∧
      ¬ sentOks (history retransmitted) <+: s.accepted := by
  have sent : sentOks (history retransmitted) = [(0x04, [0]), (0x14, [1])] := by decide +kernel
  obtain ⟨s, reach, accepted⟩ := reaches_of_replay retransmitted lossySchedule (fun s => s.accepted = [(0x04, [0])])
    (by decide +kernel)
  have accepted : s.accepted = [(0x04, [0])] := of_decide_eq_true accepted
  refine ⟨by decide +kernel, lt_answers, by decide, s, reach, sent, accepted, ?_⟩
  rw [sent, accepted]
  decide

end TrezorCore.Connection
