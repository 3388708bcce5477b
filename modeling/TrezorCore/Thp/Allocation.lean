import TrezorCore.Thp.FrameLoop

/-!
# Channel allocation

`allocate` takes the first frame that answers its request among the first eight that
`read_framed` returns, skips the others, and stops at the first call that fails. The device
properties are the rest of that frame byte for byte, since they enter the handshake hash.
-/

namespace TrezorCore.Connection

open Framing Channel

variable (K : Crates)

/-- What the next `n` calls of `read_framed` return, up to the first that fails. -/
def framesRead : Nat → Host Connection → List (UInt8 × Bytes)
  | 0, _ => []
  | n + 1, h =>
    match (readFramed.run h).1 with
    | .ok frame => frame :: framesRead n (readFramed.run h).2
    | _ => []

/-- The host after `n` calls. -/
def afterReads : Nat → Host Connection → Host Connection
  | 0, h => h
  | n + 1, h => afterReads n (readFramed.run h).2

/-- A frame that answers the request with this nonce. -/
structure Grants (nonce : Octets 8) (frame : UInt8 × Bytes) (a : ChannelAllocation) : Prop where
  ctrl : frame.1 = Control.CHANNEL_ALLOCATION_RESPONSE
  length : 10 ≤ frame.2.length
  nonce : frame.2.take 8 = nonce.1
  cid : a.cid = UInt16.ofNat (Bytes.beNat ((frame.2.drop 8).take 2))
  raw : a.devicePropertiesRaw = frame.2.drop 10
  decodes : K.deviceProperties.decode (frame.2.drop 10) = .ok a.deviceProperties

/-- The nonce that `allocate` draws. -/
def drawnNonce (h : Host Connection) : Octets 8 := List.Vector.ofFn fun i => h.wire.entropy (h.wire.drawn + i)

/-- The host when `allocate` has drawn its nonce and gone back to the broadcast channel. -/
def requesting (h : Host Connection) : Host Connection :=
  { own := { h.own with cid := BROADCAST_CID }, wire := { h.wire with drawn := h.wire.drawn + 8 } }

/-- The connection on its new channel. -/
def onChannel (cid : UInt16) (h : Host Connection) : Host Connection :=
  { h with own := { h.own with cid, sendSeq := 0, recvSeq := 0, pendingData := none } }

variable {K} {nonce : Octets 8} {frame : UInt8 × Bytes} {a : ChannelAllocation}

theorem parseAllocationResponse_ok {payload : Bytes} :
    parseAllocationResponse K nonce payload = .ok a ↔
      Grants K nonce (Control.CHANNEL_ALLOCATION_RESPONSE, payload) a := by
  unfold parseAllocationResponse
  constructor
  · intro parses
    split at parses
    · cases parses
    · next long =>
      split at parses
      · cases parses
      · next same =>
        simp only at parses
        split at parses
        · next properties decodes =>
          cases parses
          exact ⟨rfl, Nat.not_lt.1 long, not_not.1 same, rfl, rfl, decodes⟩
        · cases parses
  · rintro ⟨-, length, same, cid, raw, decodes⟩
    obtain ⟨c, r, properties⟩ := a
    simp only at cid raw decodes
    have long : ¬ payload.length < ALLOCATION_NONCE_LEN + 2 := Nat.not_lt.2 length
    have equal : ¬ payload.take ALLOCATION_NONCE_LEN ≠ nonce.1 := not_not.2 same
    rw [if_neg long, if_neg equal]
    simp only [show payload.drop (ALLOCATION_NONCE_LEN + 2) = payload.drop 10 from rfl, decodes, cid, raw]
    rfl

theorem Grants.unique {b : ChannelAllocation} (ha : Grants K nonce frame a) (hb : Grants K nonce frame b) : a = b := by
  obtain ⟨ctrl, payload⟩ := frame
  obtain rfl := ha.ctrl
  exact Except.ok.inj ((parseAllocationResponse_ok.2 ha).symm.trans (parseAllocationResponse_ok.2 hb))

/-- One turn: the frame answers, and the connection moves to its channel, or it is skipped. -/
theorem awaitAllocation_frame (nonce : Octets 8) (n : Nat) {h h' : Host Connection} (read : readFramed.run h = (.ok frame, h')) :
    (∃ a, Grants K nonce frame a ∧ (awaitAllocation K nonce (n + 1)).run h = (.ok a, onChannel a.cid h')) ∨
      ((∀ a, ¬ Grants K nonce frame a) ∧ (awaitAllocation K nonce (n + 1)).run h = (awaitAllocation K nonce n).run h') := by
  obtain ⟨ctrl, payload⟩ := frame
  rw [awaitAllocation, Comp.bind_ok read]
  by_cases response : ctrl = Control.CHANNEL_ALLOCATION_RESPONSE
  · subst response
    simp only [if_true]
    cases parses : parseAllocationResponse K nonce payload with
    | ok a => exact .inl ⟨a, parseAllocationResponse_ok.1 parses, rfl⟩
    | error e =>
      right
      refine ⟨fun a answers => ?_, rfl⟩
      rw [parseAllocationResponse_ok.2 answers] at parses
      cases parses
  · simp only [if_neg response]
    exact .inr ⟨fun a answers => response answers.ctrl, trivial⟩

/-- A failed call of `read_framed` ends the wait. -/
theorem awaitAllocation_failed {n : Nat} {h : Host Connection} (failed : ∀ frame, (readFramed.run h).1 ≠ .ok frame) (a : ChannelAllocation)
    (h' : Host Connection) : (awaitAllocation K nonce (n + 1)).run h ≠ (.ok a, h') := by
  intro run
  rw [awaitAllocation] at run
  obtain ⟨frame, h'', read, -⟩ := Comp.bind_eq_ok run
  exact failed frame (by rw [read])

/-- The first frame that answers, and where the wait ends. -/
def FirstAnswer (K : Crates) (nonce : Octets 8) (n : Nat) (h : Host Connection) (a : ChannelAllocation) (h' : Host Connection) : Prop :=
  ∃ i frame, (framesRead n h)[i]? = some frame ∧ Grants K nonce frame a ∧
    (∀ j < i, ∀ other, (framesRead n h)[j]? = some other → ∀ b, ¬ Grants K nonce other b) ∧
    h' = onChannel a.cid (afterReads (i + 1) h)

theorem awaitAllocation_ok_iff (n : Nat) (h : Host Connection) (a : ChannelAllocation) (h' : Host Connection) :
    (awaitAllocation K nonce n).run h = (.ok a, h') ↔ FirstAnswer K nonce n h a h' := by
  induction n generalizing h with
  | zero =>
    constructor
    · intro run
      cases run
    · rintro ⟨i, frame, found, -⟩
      cases found
  | succ n ih =>
    rcases read : readFramed.run h with ⟨frame | e | _ | _, next⟩
    · have frames : framesRead (n + 1) h = frame :: framesRead n next := by
        rw [framesRead, read]
      have reads : ∀ k, afterReads (k + 1) h = afterReads k next := by
        intro k
        rw [afterReads, read]
      unfold FirstAnswer
      rw [frames]
      simp only [reads]
      obtain ⟨b, answers, run⟩ | ⟨skipped, run⟩ := awaitAllocation_frame (K := K) nonce n read
      · rw [run]
        constructor
        · intro same
          cases same
          exact ⟨0, frame, rfl, answers, by simp, rfl⟩
        · rintro ⟨i, other, found, good, first, rfl⟩
          cases i with
          | zero =>
            cases found
            rw [answers.unique good]
            rfl
          | succ i => exact absurd answers (first 0 (Nat.succ_pos i) frame rfl b)
      · rw [run, ih]
        constructor
        · rintro ⟨i, other, found, good, first, rfl⟩
          refine ⟨i + 1, other, found, good, ?_, rfl⟩
          intro j lt earlier hj
          cases j with
          | zero =>
            cases hj
            exact skipped
          | succ j => exact first j (by omega) earlier hj
        · rintro ⟨i, other, found, good, first, rfl⟩
          cases i with
          | zero =>
            cases found
            exact absurd good (skipped a)
          | succ i => exact ⟨i, other, found, good, fun j lt earlier hj => first (j + 1) (by omega) earlier hj, rfl⟩
    all_goals
      have frames : framesRead (n + 1) h = [] := by
        rw [framesRead, read]
      constructor
      · intro run
        exact absurd run (awaitAllocation_failed (by rw [read]; simp) a h')
      · rintro ⟨i, frame, found, -⟩
        rw [frames] at found
        cases found

/-! ## The whole call -/

theorem afterReads_own (n : Nat) (h : Host Connection) : (afterReads n h).own = h.own := by
  induction n generalizing h with
  | zero => rfl
  | succ n ih => rw [afterReads, ih, readFramed_own h]

theorem allocate_run (h : Host Connection) :
    (allocate K).run h =
      (writeFramed Control.CHANNEL_ALLOCATION_REQUEST (drawnNonce h).1 >>= fun _ =>
        awaitAllocation K (drawnNonce h) MAX_ALLOC_READS).run (requesting h) := rfl

/-- A wait that returns an error leaves the connection's fields alone. -/
theorem awaitAllocation_err {n : Nat} {h h' : Host Connection} {e : TrezorError}
    (run : (awaitAllocation K nonce n).run h = (.err e, h')) : h'.own = h.own := by
  induction n generalizing h with
  | zero =>
    cases run
    rfl
  | succ n ih =>
    have same : (readFramed.run h).2.own = h.own := readFramed_own h
    rcases read : readFramed.run h with ⟨frame | e' | _ | _, next⟩
    · rw [read] at same
      obtain ⟨b, -, ends⟩ | ⟨-, ends⟩ := awaitAllocation_frame (K := K) nonce n read
      · rw [ends] at run
        cases run
      · rw [ends] at run
        rw [ih run]
        exact same
    · rw [awaitAllocation, Comp.bind_err read] at run
      rw [read] at same
      cases run
      exact same
    all_goals
      rw [awaitAllocation, Comp.run_bind, read] at run
      cases run

/-- **The right response.** When the request has been written, `allocate` returns exactly the first
frame that answers it, among the first eight and before any call of `read_framed` that fails; it
has read the frames up to it and no others, and the connection starts anew on the channel of that
frame. When it returns an error, only the channel id has changed. -/
theorem allocate_takes_first_answer (K : Crates) (h : Host Connection) :
    (∀ h1, (writeFramed Control.CHANNEL_ALLOCATION_REQUEST (drawnNonce h).1).run (requesting h) = (.ok (), h1) →
      ∀ a h', (allocate K).run h = (.ok a, h') ↔
        ∃ i frame, (framesRead 8 h1)[i]? = some frame ∧ Grants K (drawnNonce h) frame a ∧
          (∀ j < i, ∀ other, (framesRead 8 h1)[j]? = some other → ∀ b, ¬ Grants K (drawnNonce h) other b) ∧
          h'.wire = (afterReads (i + 1) h1).wire ∧
          h'.own = { h.own with cid := a.cid, sendSeq := 0, recvSeq := 0, pendingData := none }) ∧
    ∀ e h', (allocate K).run h = (.err e, h') → h'.own = { h.own with cid := BROADCAST_CID } := by
  constructor
  · intro h1 written a h'
    have own : h1.own = (requesting h).own := by
      have same := writeFramed_own Control.CHANNEL_ALLOCATION_REQUEST (drawnNonce h).1 (requesting h)
      rwa [written] at same
    rw [allocate_run, Comp.bind_ok written, awaitAllocation_ok_iff]
    unfold FirstAnswer
    have ends : ∀ i, h' = onChannel a.cid (afterReads (i + 1) h1) ↔ h'.wire = (afterReads (i + 1) h1).wire ∧
        h'.own = { h.own with cid := a.cid, sendSeq := 0, recvSeq := 0, pendingData := none } := by
      intro i
      have same := afterReads_own (i + 1) h1
      rw [own] at same
      unfold onChannel
      rw [same]
      obtain ⟨own', wire'⟩ := h'
      simp only [Host.mk.injEq]
      exact and_comm
    simp only [ends]
    rfl
  · intro e h' run
    have same := writeFramed_own Control.CHANNEL_ALLOCATION_REQUEST (drawnNonce h).1 (requesting h)
    rw [allocate_run] at run
    rcases written : (writeFramed Control.CHANNEL_ALLOCATION_REQUEST (drawnNonce h).1).run (requesting h) with ⟨_ | e' | _ | _, h1⟩
    · rw [written] at same
      rw [Comp.bind_ok written] at run
      rw [awaitAllocation_err run]
      exact same
    · rw [written] at same
      rw [Comp.bind_err written] at run
      cases run
      exact same
    all_goals
      rw [Comp.run_bind, written] at run
      cases run

/-- The crates of a small instance, with properties that are a protocol version. -/
def sampleCrates : Crates :=
  { Crates.toy with
    deviceProperties := ⟨fun _ => [], fun
      | [0x18, major, 0x20, minor] => .ok { protocolVersionMajor := major.toUInt32, protocolVersionMinor := minor.toUInt32 }
      | _ => .error "missing version"⟩ }

/-- A stale data frame, a response to another host, an undecodable one and the response, for a nonce of zeros. -/
def sampleFrames : List Frame :=
  [⟨0x1234, 0x04, [1, 2, 3]⟩,
   ⟨BROADCAST_CID, Control.CHANNEL_ALLOCATION_RESPONSE, List.replicate 8 9 ++ [0x56, 0x78] ++ [0x18, 2, 0x20, 0]⟩,
   ⟨BROADCAST_CID, Control.CHANNEL_ALLOCATION_RESPONSE, List.replicate 8 0 ++ [0x56, 0x78] ++ [0xff]⟩,
   ⟨BROADCAST_CID, Control.CHANNEL_ALLOCATION_RESPONSE, List.replicate 8 0 ++ [0x12, 0x35] ++ [0x18, 2, 0x20, 0]⟩]

def sampleStart : Host Connection :=
  ⟨Connection.initial 0 64, Wire.quiet.withInbox (arriving (sampleFrames.flatMap (packets 64)))⟩

/-- The fourth frame is taken. -/
theorem allocate_takes_first_answer_sample :
    ∃ (a : ChannelAllocation) (i : Nat) (frame : UInt8 × Bytes), a.cid = 0x1235 ∧ (framesRead 8 ((writeFramed Control.CHANNEL_ALLOCATION_REQUEST
        (drawnNonce sampleStart).1).run (requesting sampleStart)).2)[i]? = some frame ∧
      Grants sampleCrates (drawnNonce sampleStart) frame a := by
  have written : (writeFramed Control.CHANNEL_ALLOCATION_REQUEST (drawnNonce sampleStart).1).run (requesting sampleStart) =
      (.ok (), ((writeFramed Control.CHANNEL_ALLOCATION_REQUEST (drawnNonce sampleStart).1).run (requesting sampleStart)).2) :=
    Comp.run_of_outcome (by decide +kernel)
  have cid : ((allocate sampleCrates).run sampleStart).1.value?.map (·.cid) = some 0x1235 := by decide +kernel
  rcases run : (allocate sampleCrates).run sampleStart with ⟨a | _ | _ | _, h'⟩ <;> rw [run] at cid
  · obtain ⟨i, frame, found, answers, -⟩ :=
      ((allocate_takes_first_answer sampleCrates sampleStart).1 _ written a h').1 run
    exact ⟨a, i, frame, Option.some.inj cid, found, answers⟩
  all_goals cases cid

end TrezorCore.Connection
