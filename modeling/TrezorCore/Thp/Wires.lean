import TrezorCore.Thp.Chat
import TrezorCore.Thp.FrameLoop

/-!
# Relations between the wire before and after

Whatever a connection does to the wire it does by recording an event, taking a read off the
inbox and writing a frame. A relation that these keep is kept by every exchange; a relation
that drawing from the RNG keeps as well is kept by everything. What a relation asks of the
frames it may ask for each kind of them: `Acking` takes ACKs for granted, `Speaking` the
messages too, and `Across` every frame.
-/

namespace TrezorCore

/-- A relation between wires, as one between hosts. -/
def OnWire (Q : Wire → Wire → Prop) {γ : Type} (h h' : Host γ) : Prop := Q h.wire h'.wire

/-- The events of a message and of a frame that leave the host. -/
def Event.leaves : Event → Bool
  | .appOut _ _ | .frameOut _ | .wrote _ => true
  | _ => false

/-- A relation that reading, recording and acknowledging keep. -/
structure Acking (Q : Wire → Wire → Prop) : Prop where
  refl : ∀ w, Q w w
  trans : ∀ a b c, Q a b → Q b c → Q a c
  log : ∀ w e, e.leaves = false → Q w (w.log e)
  read : ∀ w r rest, w.inbox = r :: rest → Q w { w with inbox := rest }
  ack : ∀ seq, Comp.Keeps (OnWire Q) (Connection.sendAck seq)

/-- One that sending messages keeps too. -/
structure Speaking (K : Crates) (Q : Wire → Wire → Prop) : Prop extends Acking Q where
  sendApp : ∀ type body, Comp.Keeps (OnWire Q) (Connection.sendApp K type body)

/-- One that any frame keeps. -/
structure Across (Q : Wire → Wire → Prop) : Prop extends Acking Q where
  writeFramed : ∀ ctrl payload, Comp.Keeps (OnWire Q) (Connection.writeFramed ctrl payload)

namespace Acking

variable {Q : Wire → Wire → Prop} (r : Acking Q) {K : Crates} {γ δ α β : Type}

theorem runOwned {x : Io δ α} (hx : Comp.Keeps (OnWire Q) x) (d : δ) : Comp.Keeps (OnWire Q) (Io.runOwned x d : Io γ (α × δ)) := by
  intro h
  have kept := hx ⟨d, h.wire⟩
  rcases ran : x.run ⟨d, h.wire⟩ with ⟨_ | _ | _ | _, h'⟩ <;> rw [ran] at kept <;> simp only [Io.runOwned, ran] <;> exact kept

include r

theorem refl' (h : Host γ) : OnWire Q h h := r.refl h.wire

theorem trans' (a b c : Host γ) (h1 : OnWire Q a b) (h2 : OnWire Q b c) : OnWire Q a c := r.trans _ _ _ h1 h2

theorem bind {x : Io γ α} {f : α → Io γ β} (hx : Comp.Keeps (OnWire Q) x) (hf : ∀ a, Comp.Keeps (OnWire Q) (f a)) :
    Comp.Keeps (OnWire Q) (x >>= f) := .bind r.trans' hx hf

theorem pure (a : α) : Comp.Keeps (OnWire Q) (Pure.pure a : Io γ α) := .pure r.refl' a

theorem fail (e : TrezorError) : Comp.Keeps (OnWire Q) (Comp.fail e : Io γ α) := .fail r.refl' e

theorem ofExcept (x : Except TrezorError α) : Comp.Keeps (OnWire Q) (Comp.ofExcept x : Io γ α) := .ofExcept r.refl' x

theorem own : Comp.Keeps (OnWire Q) (Io.own : Io γ γ) := r.refl'

theorem modifyOwn (f : γ → γ) : Comp.Keeps (OnWire Q) (Io.modifyOwn f) := fun h => r.refl h.wire

theorem note {e : Event} (stays : e.leaves = false) : Comp.Keeps (OnWire Q) (Io.note e : Io γ Unit) := fun h => r.log h.wire e stays

theorem loop {body : β → Io γ (β ⊕ α)} (turn : ∀ b, Comp.Keeps (OnWire Q) (body b)) (b : β) :
    Comp.Keeps (OnWire Q) (Io.loop body b) := .loop r.refl' r.trans' turn b

theorem readChunk : Comp.Keeps (OnWire Q) (Io.readChunk : Io γ Bytes) := by
  intro h
  rcases inbox : h.wire.inbox with _ | ⟨_ | _, rest⟩
  · simp only [Io.readChunk, inbox]
    exact r.refl h.wire
  all_goals
    simp only [Io.readChunk, inbox]
    exact r.read _ _ _ inbox

theorem inSlot {x : Io δ α} (hx : Comp.Keeps (OnWire Q) x) : Comp.Keeps (OnWire Q) (Io.inSlot x) := by
  intro h
  rcases slot : h.own with _ | d
  · simp only [Io.inSlot, slot]
    exact r.refl h.wire
  · simp only [Io.inSlot, slot]
    exact hx ⟨d, h.wire⟩

theorem crypto : AcrossCrypto (OnWire Q : Host γ → Host γ → Prop) where
  refl := r.refl'
  trans := r.trans'
  note e crypto := r.note (by cases e <;> first | rfl | cases crypto)

/-! ## The connection -/

theorem absorbChunk (reasm : Framing.Reassembler) (ctrl : UInt8) (chunk : Bytes) :
    Comp.Keeps (OnWire Q) (Connection.absorbChunk reasm ctrl chunk) := by
  cases chunk with
  | nil => exact r.pure _
  | cons first rest =>
    refine r.bind (.runLocal r.refl' _ _) fun done => ?_
    obtain ⟨done | payload, reasm⟩ := done
    · exact r.pure _
    · refine r.bind (r.note rfl) fun _ => ?_
      generalize (if first &&& CONTINUATION_BIT = 0 then first else ctrl) = named
      split
      · exact r.fail _
      · exact r.pure _

theorem readFramedTurn (b : Framing.Reassembler × UInt8) : Comp.Keeps (OnWire Q) (Connection.readFramedTurn b) :=
  r.bind r.readChunk fun chunk => r.absorbChunk b.1 b.2 chunk

theorem readFramed : Comp.Keeps (OnWire Q) Connection.readFramed := r.loop r.readFramedTurn _

theorem awaitFrame {step : UInt8 → Bytes → Io Connection (Unit ⊕ α)} (each : ∀ ctrl payload, Comp.Keeps (OnWire Q) (step ctrl payload)) :
    Comp.Keeps (OnWire Q) (Connection.awaitFrame step) :=
  r.loop (fun _ => r.bind r.readFramed fun f => each f.1 f.2) ()

theorem sendDataStep (ctrl : UInt8) (payload : Bytes) : Comp.Keeps (OnWire Q) (Connection.sendDataStep ctrl payload) := by
  refine r.bind r.own fun c => ?_
  split
  · split
    · exact r.bind (r.modifyOwn _) fun _ => r.pure _
    · exact r.pure _
  · refine r.bind (r.modifyOwn _) fun _ => r.bind (r.note rfl) fun _ => r.bind (r.ack _) fun _ => ?_
    split
    · exact r.bind (r.modifyOwn _) fun _ => r.pure _
    · exact r.pure _

theorem recvDataStep (ctrl : UInt8) (payload : Bytes) : Comp.Keeps (OnWire Q) (Connection.recvDataStep ctrl payload) := by
  rw [Connection.recvDataStep]
  split
  · exact r.pure _
  · refine r.bind (r.ack _) fun _ => r.bind r.own fun c => ?_
    split
    · exact r.bind (r.modifyOwn _) fun _ => r.pure _
    · exact r.pure _

theorem recvData : Comp.Keeps (OnWire Q) Connection.recvData := by
  refine r.bind r.own fun c => ?_
  split
  · exact r.bind (r.modifyOwn _) fun _ => r.bind (r.note rfl) fun _ => r.pure _
  · exact r.bind (r.awaitFrame r.recvDataStep) fun frame => r.bind (r.note rfl) fun _ => r.pure _

theorem onSession {x : Io Session α} (hx : Comp.Keeps (OnWire Q) x) : Comp.Keeps (OnWire Q) (Connection.onSession x) := by
  intro h
  rcases session : h.own.session with _ | s
  · simp only [Connection.onSession, session]
    exact r.refl h.wire
  · simp only [Connection.onSession, session]
    exact hx ⟨s, h.wire⟩

theorem openApp (ct : Bytes) : Comp.Keeps (OnWire Q) (Connection.openApp K ct) :=
  r.bind r.own fun _ => r.onSession (r.bind r.own fun _ => r.bind (r.bind r.own fun _ => r.bind (r.crypto.aeadOpen _ _ _ _) fun _ =>
    r.bind (r.modifyOwn _) fun _ => r.pure _) fun _ => r.bind (r.ofExcept _) fun _ => r.bind (r.note rfl) fun _ => r.pure _)

theorem recvApp : Comp.Keeps (OnWire Q) (Connection.recvApp K) :=
  r.bind r.recvData fun frame => r.bind (r.openApp frame.2) fun _ => r.pure _

theorem awaitAllocation (nonce : Octets 8) : ∀ reads, Comp.Keeps (OnWire Q) (Connection.awaitAllocation K nonce reads)
  | 0 => r.fail _
  | reads + 1 => by
    refine r.bind r.readFramed fun frame => ?_
    split
    split
    · split
      · exact r.bind (r.modifyOwn _) fun _ => r.pure _
      · exact awaitAllocation nonce reads
    · exact awaitAllocation nonce reads

end Acking

namespace Speaking

variable {Q : Wire → Wire → Prop} {K : Crates} (r : Speaking K Q) {α : Type}

include r

theorem transceiveTurn (u : Unit) : Comp.Keeps (OnWire Q) (Connection.transceiveTurn K u) := by
  refine r.bind r.recvApp fun reply => ?_
  split
  split
  · exact r.bind (r.sendApp _ _) fun _ => r.pure _
  · split
    · exact r.fail _
    · exact r.pure _

theorem transceive (type : UInt16) (body : Bytes) : Comp.Keeps (OnWire Q) (Connection.transceive K type body) :=
  r.bind (r.sendApp _ _) fun _ => r.bind (r.loop r.transceiveTurn ()) fun _ => r.bind r.own fun _ =>
    r.bind (r.note rfl) fun _ => r.pure _

theorem ask (q : Request) : Comp.Keeps (OnWire Q) (Chat.ask K q) := by
  rw [Chat.ask]
  split
  · exact r.bind (r.modifyOwn _) fun _ => r.transceive _ _
  · exact r.transceive _ _

theorem chat (chat : Chat α) : Comp.Keeps (OnWire Q) (chat.on K) := Script.run_keeps r.refl' r.trans' r.ask chat

end Speaking

namespace Across

variable {Q : Wire → Wire → Prop}

/-- Recording, reading and writing make up the rest. -/
theorem of (refl : ∀ w, Q w w) (trans : ∀ a b c, Q a b → Q b c → Q a c) (log : ∀ w e, (∀ conn m, e ≠ .appOut conn m) → Q w (w.log e))
    (read : ∀ w r rest, w.inbox = r :: rest → Q w { w with inbox := rest })
    (write : ∀ w packet, Q w { w.log (.wrote packet) with written := w.written + 1 }) : Across Q := by
  have trans' : ∀ a b c : Host Connection, OnWire Q a b → OnWire Q b c → OnWire Q a c := fun _ _ _ => trans _ _ _
  have chunk : ∀ packet, Comp.Keeps (OnWire Q) (Io.writeChunk packet : Io Connection Unit) := by
    intro packet h
    simp only [Io.writeChunk]
    split <;> exact write h.wire packet
  have written := Connection.writePackets_keeps (fun h => refl h.wire) trans' chunk
  have announced : ∀ (frame : Frame) conn m, Event.frameOut frame ≠ .appOut conn m := by
    intro frame conn m same
    cases same
  have framed : ∀ ctrl payload, Comp.Keeps (OnWire Q) (Connection.writeFramed ctrl payload) := fun ctrl payload =>
    .bind trans' (fun h => refl h.wire) fun _ => .bind trans' (.ofExcept (fun h => refl h.wire) _) fun packets =>
      .bind trans' (fun h => log h.wire _ (announced _)) fun _ => written packets
  have stays : ∀ e : Event, e.leaves = false → ∀ conn m, e ≠ .appOut conn m := by
    rintro e quiet conn m rfl
    cases quiet
  exact ⟨⟨refl, trans, fun w e quiet => log w e (stays e quiet), read, fun seq => framed _ _⟩, framed⟩

variable (r : Across Q)

include r

theorem sendData (base : UInt8) (payload : Bytes) : Comp.Keeps (OnWire Q) (Connection.sendData base payload) :=
  r.bind r.own fun _ => r.bind (r.note rfl) fun _ => r.bind (r.writeFramed _ _) fun _ =>
    r.bind (r.awaitFrame r.sendDataStep) fun _ => r.note rfl

/-- Then messages make no difference but for the record of them. -/
theorem speaking {K : Crates} (said : ∀ w conn m, Q w (w.log (.appOut conn m))) : Speaking K Q where
  toAcking := r.toAcking
  sendApp _ _ := r.bind r.own fun _ => r.bind (r.onSession (r.bind (fun h => said h.wire _ _) fun _ => r.bind r.own fun _ =>
    r.bind (r.crypto.aeadSeal _ _ _ _) fun _ => r.bind (r.modifyOwn _) fun _ => r.pure _)) fun _ => r.sendData _ _

end Across

/-! ## Two such relations -/

/-- What is left to read on one wire is a suffix of what there was on another. -/
def LeftOf (w w' : Wire) : Prop := w'.inbox <:+ w.inbox

/-- Chunks go off the front of the inbox and none come back. -/
theorem consuming : Across LeftOf :=
  .of (fun _ => List.suffix_refl _) (fun _ _ _ h1 h2 => h2.trans h1) (fun _ _ _ => List.suffix_refl _)
    (fun _ chunk _ inbox => by
      rw [LeftOf, inbox]
      exact List.suffix_cons chunk _)
    fun _ _ => List.suffix_refl _

theorem consuming_speaking {K : Crates} : Speaking K LeftOf := consuming.speaking fun _ _ _ => List.suffix_refl _

/-- The RNG of one wire is where that of another was. -/
def RandomAlike (w w' : Wire) : Prop := w'.entropy = w.entropy ∧ w'.drawn = w.drawn

/-- The bytes that the platform RNG hands out next. -/
def drawnNext (n : Nat) (w : Wire) : Octets n := List.Vector.ofFn fun i => w.entropy (w.drawn + i)

theorem drawnNext_alike {n : Nat} {w w' : Wire} (same : RandomAlike w w') : drawnNext n w' = drawnNext n w := by
  rw [drawnNext, drawnNext, same.1, same.2]

/-- A wire once some bytes are drawn. -/
def Wire.spend (n : Nat) (w : Wire) : Wire := { w with drawn := w.drawn + n }

theorem Wire.spend_spend (m n : Nat) (w : Wire) : (w.spend m).spend n = w.spend (m + n) := by
  rw [spend, spend, spend, Nat.add_assoc]

theorem RandomAlike.spend {w w' : Wire} (same : RandomAlike w w') (n : Nat) : RandomAlike (w.spend n) (w'.spend n) :=
  ⟨same.1, congrArg (· + n) same.2⟩

/-- Only a call that draws moves the RNG. -/
theorem undrawn : Across RandomAlike :=
  .of (fun _ => ⟨rfl, rfl⟩) (fun _ _ _ h1 h2 => ⟨h2.1.trans h1.1, h2.2.trans h1.2⟩) (fun _ _ _ => ⟨rfl, rfl⟩)
    (fun _ _ _ _ => ⟨rfl, rfl⟩) fun _ _ => ⟨rfl, rfl⟩

theorem undrawn_speaking {K : Crates} : Speaking K RandomAlike := undrawn.speaking fun _ _ _ => ⟨rfl, rfl⟩

end TrezorCore
