import TrezorCore.Lib.Bytes
import TrezorCore.Lib.Comp
import TrezorCore.Error

/-!
# The transport seam

`TrezorTransport` has two operations, `write_chunk` and `read_chunk`, and everything the
host does not control comes in through them. A `Wire` fixes that outside world for a run:
the replies to every read and write, and the bytes the platform RNG hands out. Nothing is
assumed of them, so a statement about all wires is a statement about every device, every
transport and every adversary. A read with no reply left and a write whose reply is
`never` are await points at which the future is dropped.

The wire also carries the run's history. `Event`s are ghost state: the code never reads
them. They name what the run did at the places the properties speak about, which are the
packets and frames, the alternating-bit exchanges, the AEAD calls and the application
messages.
-/

namespace TrezorCore

/-- A frame as the framing layer hands it to the link. -/
structure Frame where
  cid : UInt16
  ctrl : UInt8
  payload : Bytes
  deriving Repr, DecidableEq

/-- One application message on a connection: its session id, type and protobuf body. -/
structure AppMessage where
  sessionId : UInt8
  type : UInt16
  body : Bytes
  deriving Repr, DecidableEq

/-- What a run did, in order. -/
inductive Event where
  /-- `write_chunk` was called. -/
  | wrote (packet : Bytes)
  /-- `write_framed` starts writing a frame. -/
  | frameOut (frame : Frame)
  /-- `read_framed` reassembled a frame. -/
  | frameIn (ctrl : UInt8) (payload : Bytes)
  /-- `send_data` begins, with or without a stashed frame. -/
  | sendBegins (stashed : Bool)
  /-- `send_data` takes a data frame for the ACK; the frame is new to the host or not. -/
  | implicitAck (fresh : Bool)
  /-- `send_data` returned `Ok`. -/
  | sent (ctrl : UInt8) (payload : Bytes)
  /-- `recv_data` returned `Ok`. -/
  | delivered (ctrl : UInt8) (payload : Bytes)
  /-- The two outputs of an HKDF step. -/
  | derived (chainingKey key : Octets 32)
  /-- A call of `aead::seal` with its result. -/
  | sealed (key : Octets 32) (iv : Octets 12) (aad plaintext ciphertext : Bytes)
  /-- A call of `aead::open` with its result. -/
  | opened (key : Octets 32) (iv : Octets 12) (aad ciphertext : Bytes) (plaintext : Option Bytes)
  /-- An application message is sealed for sending on a connection. -/
  | appOut (conn : Nat) (message : AppMessage)
  /-- An application message was opened on a connection, under a receive nonce. -/
  | appIn (conn : Nat) (nonce : UInt64) (message : AppMessage)
  /-- `transceive` returned `Ok` with this message type and body. -/
  | exchanged (conn : Nat) (type : UInt16) (body : Bytes)
  deriving DecidableEq

/-- The transport's answer to one `write_chunk`. -/
inductive WriteReply where
  | done
  | failed (e : TrezorTransportError)
  | never
  deriving Repr, DecidableEq

/-- The world outside the host during a run. -/
structure Wire where
  /-- The replies to the reads to come. -/
  inbox : List (Except TrezorTransportError Bytes)
  /-- The reply to the `n`-th write. -/
  onWrite : Nat → WriteReply
  /-- How many writes there were. -/
  written : Nat
  /-- The platform RNG, and how much of it is used. -/
  entropy : Nat → UInt8
  drawn : Nat
  /-- How many `Connection`s were created; the next one's ghost identity. -/
  connections : Nat
  trace : List Event

/-- The state of a call: what it owns, and the wire. -/
structure Host (γ : Type) where
  own : γ
  wire : Wire

abbrev Io (γ α : Type) := Comp (Host γ) TrezorError α

/-- A wire on which nothing arrives, with these replies to writes. -/
def Wire.replying (onWrite : Nat → WriteReply) : Wire := ⟨[], onWrite, 0, fun _ => 0, 0, 0, []⟩

/-- A wire on which nothing arrives and every write goes out. -/
def Wire.quiet : Wire := Wire.replying fun _ => .done

def Wire.log (w : Wire) (e : Event) : Wire := { w with trace := w.trace ++ [e] }

@[simp] theorem Wire.log_trace (w : Wire) (e : Event) : (w.log e).trace = w.trace ++ [e] := rfl

namespace Io

variable {γ δ α β : Type}

def own : Io γ γ := ⟨fun h => (.ok h.own, h)⟩

def modifyOwn (f : γ → γ) : Io γ Unit := ⟨fun h => (.ok (), { h with own := f h.own })⟩

/-- Record an event. -/
def note (e : Event) : Io γ Unit := ⟨fun h => (.ok (), { h with wire := h.wire.log e })⟩

/-- `TrezorTransport::read_chunk`. -/
def readChunk : Io γ Bytes := ⟨fun h =>
  match h.wire.inbox with
  | [] => (.dropped, h)
  | .ok chunk :: rest => (.ok chunk, { h with wire := { h.wire with inbox := rest } })
  | .error e :: rest => (.err (.ofTransport e), { h with wire := { h.wire with inbox := rest } })⟩

/-- `TrezorTransport::write_chunk`. The call is on record whatever the reply is; only `done` says that
the packet was written. -/
def writeChunk (packet : Bytes) : Io γ Unit := ⟨fun h =>
  let wire := { h.wire.log (.wrote packet) with written := h.wire.written + 1 }
  match h.wire.onWrite h.wire.written with
  | .done => (.ok (), { h with wire })
  | .failed e => (.err (.ofTransport e), { h with wire })
  | .never => (.dropped, { h with wire })⟩

/-- `getrandom` into an `n`-byte buffer. -/
def getrandom (n : Nat) : Io γ (Octets n) := ⟨fun h =>
  (.ok (List.Vector.ofFn fun i => h.wire.entropy (h.wire.drawn + i)),
    { h with wire := { h.wire with drawn := h.wire.drawn + n } })⟩

/-- A source `loop` whose every turn reads from the transport. -/
def loop (body : β → Io γ (β ⊕ α)) (b : β) : Io γ α :=
  Comp.loop (fun h => h.wire.inbox.length) body b

/-- Run a call on a local value of its own. Only the wire is shared with the caller. -/
def runOwned (x : Io δ α) (d : δ) : Io γ (α × δ) := ⟨fun h =>
  match x.run ⟨d, h.wire⟩ with
  | (.ok a, h') => (.ok (a, h'.own), ⟨h.own, h'.wire⟩)
  | (.err e, h') => (.err e, ⟨h.own, h'.wire⟩)
  | (.panicked, h') => (.panicked, ⟨h.own, h'.wire⟩)
  | (.dropped, h') => (.dropped, ⟨h.own, h'.wire⟩)⟩

/-- Run a call on the value a slot holds, through a mutable borrow. -/
def inSlot (x : Io δ α) : Io (Option δ) α := ⟨fun h =>
  match h.own with
  | none => (.panicked, h)
  | some d =>
    let r := x.run ⟨d, h.wire⟩
    (r.1, ⟨some r.2.own, r.2.wire⟩)⟩

/-- Run a call and return the events it recorded along with its value. -/
def recorded (x : Io γ α) : Io γ (α × List Event) := ⟨fun h =>
  match x.run h with
  | (.ok a, h') => (.ok (a, h'.wire.trace.drop h.wire.trace.length), h')
  | (.err e, h') => (.err e, h')
  | (.panicked, h') => (.panicked, h')
  | (.dropped, h') => (.dropped, h')⟩

@[simp] theorem run_own (h : Host γ) : (own : Io γ γ).run h = (.ok h.own, h) := rfl

@[simp] theorem run_modifyOwn (f : γ → γ) (h : Host γ) :
    (modifyOwn f).run h = (.ok (), { h with own := f h.own }) := rfl

@[simp] theorem run_note (e : Event) (h : Host γ) :
    (note e).run h = (.ok (), { h with wire := h.wire.log e }) := rfl

@[simp] theorem run_own_bind (f : γ → Io γ β) (h : Host γ) : (own >>= f).run h = (f h.own).run h := rfl

@[simp] theorem run_modifyOwn_bind (g : γ → γ) (f : Unit → Io γ β) (h : Host γ) :
    (modifyOwn g >>= f).run h = (f ()).run { h with own := g h.own } := rfl

@[simp] theorem run_note_bind (e : Event) (f : Unit → Io γ β) (h : Host γ) :
    (note e >>= f).run h = (f ()).run { h with wire := h.wire.log e } := rfl

@[simp] theorem run_getrandom_bind (n : Nat) (f : Octets n → Io γ β) (h : Host γ) :
    (getrandom n >>= f).run h = (f (List.Vector.ofFn fun i => h.wire.entropy (h.wire.drawn + i))).run
      { h with wire := { h.wire with drawn := h.wire.drawn + n } } := rfl

/-- The rule for a call on a local value: only the wire comes and goes. -/
theorem runOwned_triple {x : Io δ α} {d : δ} {P : Host γ → Prop} {P' : Host δ → Prop} {Q' : α → Host δ → Prop}
    {B' : Host δ → Prop} {Q : α × δ → Host γ → Prop} {B : Host γ → Prop} (call : Comp.Triple P' x Q' B')
    (pre : ∀ h, P h → P' ⟨d, h.wire⟩) (post : ∀ h a h', P h → Q' a h' → Q (a, h'.own) ⟨h.own, h'.wire⟩)
    (early : ∀ h h', P h → B' h' → B ⟨h.own, h'.wire⟩) : Comp.Triple P (runOwned x d) Q B := by
  intro h hP
  have ends := call ⟨d, h.wire⟩ (pre h hP)
  rcases hx : x.run ⟨d, h.wire⟩ with ⟨a | _ | _ | _, h'⟩ <;> rw [hx] at ends <;> simp only [runOwned, hx]
  · exact post h a h' hP ends
  all_goals exact early h h' hP ends

end Io

/-- Record several events. -/
def Wire.logAll (w : Wire) (es : List Event) : Wire := { w with trace := w.trace ++ es }

@[simp] theorem Wire.logAll_nil (w : Wire) : w.logAll [] = w := by simp [Wire.logAll]

theorem Wire.log_eq (w : Wire) (e : Event) : w.log e = w.logAll [e] := rfl

@[simp] theorem Wire.logAll_logAll (w : Wire) (a b : List Event) : (w.logAll a).logAll b = w.logAll (a ++ b) := by
  simp [Wire.logAll]

end TrezorCore
