import TrezorCore.Thp.Chat
import TrezorCore.Thp.Pairing

/-!
# Whose errors

The host finds fault by itself with what it reads and what it is given, and then its error is one
of the protocol or of the pairing. The other errors report what the transport or the device did.
-/

namespace TrezorCore

/-- An error that the host raises by itself. -/
def TrezorError.isOwn : TrezorError → Bool
  | .thp _ | .pairing _ => true
  | _ => false

/-- A check that raises no errors but the host's own. -/
def Checks {α : Type} (x : Except TrezorError α) : Prop := ∀ e, x = .error e → e.isOwn = true

namespace Checks

variable {α β : Type} {x : Except TrezorError α} {f : α → Except TrezorError β}

theorem ok (a : α) : Checks (.ok a) := nofun

theorem thp (reason : String) : Checks (.error (.thp reason) : Except TrezorError α) := by
  rintro _ ⟨⟩
  rfl

theorem pairing (reason : String) : Checks (.error (.pairing reason) : Except TrezorError α) := by
  rintro _ ⟨⟩
  rfl

theorem bind (hx : Checks x) (hf : ∀ a, x = .ok a → Checks (f a)) : Checks (x >>= f) := by
  cases x with
  | ok a => exact hf a rfl
  | error e =>
    rintro _ ⟨⟩
    exact hx e rfl

theorem map (f : α → β) (hx : Checks x) : Checks (f <$> x) := by
  cases x with
  | ok a => exact ok (f a)
  | error e =>
    rintro _ ⟨⟩
    exact hx e rfl

theorem mapM {γ : Type} {f : γ → Except TrezorError β} (each : ∀ c, Checks (f c)) : ∀ l : List γ, Checks (l.mapM f)
  | [] => ok []
  | c :: l => by
    rw [List.mapM_cons]
    exact bind (each c) fun _ _ => bind (mapM each l) fun _ _ => ok _

theorem foldlM {γ : Type} {f : α → γ → Except TrezorError α} (each : ∀ a c, Checks (f a c)) : ∀ (l : List γ) (a : α), Checks (l.foldlM f a)
  | [], a => ok a
  | c :: l, a => by
    rw [List.foldlM_cons]
    exact bind (each a c) fun a' _ => foldlM each l a'

end Checks

/-! ## The checks of the protocol -/

theorem segment_checks (packetSize : Nat) (cid : UInt16) (ctrl : UInt8) (payload : Bytes) :
    Checks (Framing.segment packetSize cid ctrl payload) := by
  rw [Framing.segment]
  split
  · exact .thp _
  · dsimp only
    split
    · exact .thp _
    · exact .ok _

theorem decodeAppMessage_checks (bytes : Bytes) : Checks (decodeAppMessage bytes) := by
  rw [decodeAppMessage]
  split
  · exact .thp _
  · exact .ok _

namespace Pairing

theorem as32_checks (v : Bytes) : Checks (as32 v) := by
  rw [as32]
  split
  · exact .ok _
  · exact .thp _

theorem expectType_checks (actual expected : UInt16) (what : String) : Checks (expectType actual expected what) := by
  rw [expectType]
  split
  · exact .ok _
  · exact .thp _

theorem decode_checks {M : Type} (codec : Codec M) (what : String) (body : Bytes) : Checks (decode codec what body) := by
  rw [decode]
  split
  · exact .ok _
  · exact .thp _

theorem parseCode_checks (code : String) : Checks (parseCode code) := by
  rw [parseCode]
  split
  · exact .ok _
  · exact .pairing _

end Pairing

/-! ## The reassembler -/

namespace Framing.Reassembler

/-- A step of the reassembler that raises no errors but the host's own. -/
def Raises {α : Type} (x : Comp Reassembler TrezorError α) : Prop := ∀ r e r', x.run r = (.err e, r') → e.isOwn = true

namespace Raises

variable {α β : Type} {x : Comp Reassembler TrezorError α} {f : α → Comp Reassembler TrezorError β}

theorem pure (a : α) : Raises (Pure.pure a) := nofun

theorem fail (reason : String) : Raises (.fail (.thp reason) : Comp Reassembler TrezorError α) := by
  rintro r e r' ⟨⟩
  rfl

theorem bind (hx : Raises x) (hf : ∀ a, Raises (f a)) : Raises (x >>= f) := by
  intro r e r' ran
  rw [Comp.run_bind] at ran
  rcases first : x.run r with ⟨a | e' | _ | _, r1⟩ <;> rw [first] at ran
  · exact hf a r1 e r' ran
  · cases ran
    exact hx r e _ first
  all_goals cases ran

theorem slice (bytes : Bytes) (lo hi : Nat) : Raises (slice bytes lo hi) := by
  rw [Reassembler.slice]
  split
  · exact pure _
  · exact nofun

theorem checkedSub (a b : Nat) : Raises (checkedSub a b) := by
  rw [Reassembler.checkedSub]
  split
  · exact pure _
  · exact nofun

theorem get : Raises (.get : Comp Reassembler TrezorError Reassembler) := nofun

theorem modify (g : Reassembler → Reassembler) : Raises (.modify g : Comp Reassembler TrezorError Unit) := nofun

theorem complete : Raises complete := by
  refine bind get fun r => ?_
  split
  · refine bind (modify _) fun _ => bind (bind get fun r => bind (checkedSub _ _) fun _ => bind (slice _ _ _) fun _ =>
      bind (slice _ _ _) fun _ => ?_) fun _ => pure _
    split
    · exact fail _
    · exact pure _
  · exact pure _

theorem pushPacket (packet : Bytes) : Raises (pushPacket packet) := by
  cases packet with
  | nil => exact fail _
  | cons ctrl rest =>
    rw [Reassembler.pushPacket]
    split
    · refine bind get fun r => ?_
      split
      · refine bind ?_ fun _ => complete
        rw [pushContinuation]
        split
        · exact fail _
        · exact bind get fun _ => bind (checkedSub _ _) fun _ => bind (checkedSub _ _) fun _ => bind (slice _ _ _) fun _ => modify _
      · exact pure _
    · refine bind ?_ fun _ => complete
      rw [pushInitiation]
      split
      · exact fail _
      · refine bind (slice _ _ _) fun _ => bind (slice _ _ _) fun length => ?_
        dsimp only
        split
        · exact fail _
        · exact bind (checkedSub _ _) fun _ => bind (slice _ _ _) fun _ => modify _

end Raises

end Framing.Reassembler

/-! ## What the transport reports, and the device -/

/-- Reads that returned chunks, and writes that went out. -/
structure Passed (w w' : Wire) : Prop where
  read : ∃ chunks : List Bytes, w.inbox = chunks.map .ok ++ w'.inbox
  written : w.written ≤ w'.written
  onWrite : w'.onWrite = w.onWrite
  done : ∀ n, w.written ≤ n → n < w'.written → w.onWrite n = .done

/-- The same, but for a write that hangs in the end. -/
structure Stalled (w w' : Wire) : Prop where
  read : ∃ chunks : List Bytes, w.inbox = chunks.map .ok ++ w'.inbox
  done : ∀ n e, w.written ≤ n → n < w'.written → w.onWrite n ≠ .failed e

/-- Everything went through until the last operation, which failed. -/
inductive Broke (w : Wire) (e : TrezorTransportError) (w' : Wire) : Prop
  | read {w1 : Wire} : Passed w w1 → w1.inbox = .error e :: w'.inbox → w'.written = w1.written → Broke w e w'
  | write {w1 : Wire} : Passed w w1 → w1.onWrite w1.written = .failed e → w'.written = w1.written + 1 → w'.inbox = w1.inbox → Broke w e w'

/-- What an error reports. -/
inductive Explained (K : Crates) (w : Wire) : TrezorError → Wire → Prop
  /-- The transport failed. -/
  | broke {e : TrezorTransportError} {w' : Wire} : Broke w e w' → Explained K w (.ofTransport e) w'
  /-- The device's link layer reported an error. -/
  | reported {w' : Wire} {es : List Event} {payload : Bytes} : Passed w w' →
      w'.trace = es ++ [.frameIn Framing.Control.TRANSPORT_ERROR payload] → Explained K w (decodeTransportError payload) w'
  /-- The device answered with a `Failure`. -/
  | refused {w' : Wire} {es : List Event} {id : Nat} {nonce : UInt64} {m : AppMessage} : Passed w w' →
      w'.trace = es ++ [.appIn id nonce m] → m.type = MSG_FAILURE → Explained K w (decodeFailure K m.body) w'
  /-- The host found fault itself. -/
  | own {e : TrezorError} {w' : Wire} : Passed w w' → e.isOwn = true → Explained K w e w'

end TrezorCore
