import TrezorCore.Thp.Framing

/-!
# A device behind a lossy link

The other half of the Alternating Bit Protocol, written from the protocol's rules: a device
that sends a list of payloads and accepts the host's messages, and two FIFO links that may
lose frames. `Reaches t s` says that this system can be in state `s` while the host's
history is `t`: the frames the host wrote and read are those of `t`, and between them the
device and the links moved as they liked.

Frames in flight carry two ghost marks that nobody reads: which message a frame carries or
acknowledges, and how many host messages the device had accepted when it sent the frame.
The invariants are about these marks. `Receiving` is the half that makes the host's
deliveries right; `Sending` is the half that makes an acknowledgement mean what it says.
-/

namespace TrezorCore.Link

open Framing

/-- The alternating bit of the `n`-th message. -/
def bit (n : Nat) : UInt8 := UInt8.ofNat (n % 2)

/-- A frame in flight, with its ghost marks. -/
structure Letter where
  ctrl : UInt8
  payload : Bytes
  index : Nat
  stamp : Nat

def Letter.isAck (l : Letter) : Bool := Control.isAck l.ctrl

/-- The device and both links. -/
structure System where
  /-- Host to device. -/
  up : List Letter := []
  /-- Device to host. -/
  down : List Letter := []
  /-- The payload the device is sending. -/
  current : Nat := 0
  /-- The host's data frames the device has accepted. -/
  accepted : List (UInt8 × Bytes) := []
  /-- The bit of the data frame the device has yet to ACK. -/
  owed : Option UInt8 := none
  /-- Ghost: the data frames the host has sent, and how many payloads it has read. -/
  hostSent : List (UInt8 × Bytes) := []
  read : Nat := 0

/-- A base control byte of a data message. -/
def IsData (base : UInt8) : Prop := Control.isAck (Control.withSeq base 0) = false

instance (base : UInt8) : Decidable (IsData base) := inferInstanceAs (Decidable (_ = false))

/-- The device's payloads as the frames that carry them. -/
def dataFrames (payloads : List (UInt8 × Bytes)) : List (UInt8 × Bytes) :=
  payloads.mapIdx fun k p => (Control.withSeq p.1 (bit k), p.2)

/-- The host puts a frame on its link. -/
def System.hostSends (s : System) (ctrl : UInt8) (payload : Bytes) : System :=
  if Control.isAck ctrl then { s with up := s.up ++ [⟨ctrl, payload, s.read - 1, 0⟩] }
  else { s with up := s.up ++ [⟨ctrl, payload, s.hostSent.length, 0⟩], hostSent := s.hostSent ++ [(ctrl, payload)] }

/-- The host reads the next frame of the other link. -/
inductive HostReads : System → UInt8 → Bytes → System → Prop where
  | ack {s : System} {l : Letter} {rest : List Letter} (next : s.down = l :: rest) (ack : l.isAck = true) :
      HostReads s l.ctrl l.payload { s with down := rest }
  | data {s : System} {l : Letter} {rest : List Letter} (next : s.down = l :: rest) (data : l.isAck = false) :
      HostReads s l.ctrl l.payload { s with down := rest, read := l.index + 1 }

/-- The device takes a frame off the host's link. -/
def System.deviceReads (s : System) (l : Letter) (rest : List Letter) : System :=
  if l.isAck then
    -- only the ACK of the current payload moves the device on
    if Control.ackSeqOf l.ctrl = bit s.current then { s with up := rest, current := s.current + 1 }
    else { s with up := rest }
  else if Control.seqOf l.ctrl = bit s.accepted.length then
    { s with up := rest, owed := some (Control.seqOf l.ctrl), accepted := s.accepted ++ [(l.ctrl, l.payload)] }
  else { s with up := rest, owed := some (Control.seqOf l.ctrl) }

/-- What happens without the host. `gate k n` is what the device asks of the number `n` of
messages it has accepted before it sends its payload `k`. -/
inductive Moves (payloads : List (UInt8 × Bytes)) (gate : Nat → Nat → Prop) : System → System → Prop where
  | loseUp {s : System} {a b : List Letter} {l : Letter} (lost : s.up = a ++ l :: b) :
      Moves payloads gate s { s with up := a ++ b }
  | loseDown {s : System} {a b : List Letter} {l : Letter} (lost : s.down = a ++ l :: b) :
      Moves payloads gate s { s with down := a ++ b }
  | deviceReads {s : System} {l : Letter} {rest : List Letter} (next : s.up = l :: rest) :
      Moves payloads gate s (s.deviceReads l rest)
  | deviceAcks {s : System} {b : UInt8} (owed : s.owed = some b) :
      Moves payloads gate s
        { s with down := s.down ++ [⟨Control.ackFor b, [], 0, s.accepted.length⟩], owed := none }
  | deviceSends {s : System} {p : UInt8 × Bytes} (current : payloads[s.current]? = some p)
      (ready : gate s.current s.accepted.length) :
      Moves payloads gate s
        { s with down := s.down ++ [⟨Control.withSeq p.1 (bit s.current), p.2, s.current, s.accepted.length⟩] }

/-- The events the links see. -/
def isFrame : Event → Bool
  | .frameOut _ | .frameIn _ _ => true
  | _ => false

/-- The system can be in a state while the host's history is this. -/
inductive Reaches (payloads : List (UInt8 × Bytes)) (gate : Nat → Nat → Prop) : List Event → System → Prop where
  | start : Reaches payloads gate [] {}
  | moves {t : List Event} {s s' : System} : Reaches payloads gate t s → Moves payloads gate s s' →
      Reaches payloads gate t s'
  | out {t : List Event} {s : System} (f : Frame) : Reaches payloads gate t s →
      Reaches payloads gate (t ++ [.frameOut f]) (s.hostSends f.ctrl f.payload)
  | read {t : List Event} {s s' : System} {ctrl : UInt8} {payload : Bytes} : Reaches payloads gate t s →
      HostReads s ctrl payload s' → Reaches payloads gate (t ++ [.frameIn ctrl payload]) s'
  | unseen {t : List Event} {s : System} {e : Event} : Reaches payloads gate t s → isFrame e = false →
      Reaches payloads gate (t ++ [e]) s

/-! ## Bits -/

theorem bit_cases (n : Nat) : (bit n = 0 ∧ n % 2 = 0) ∨ (bit n = 1 ∧ n % 2 = 1) := by
  rcases Nat.mod_two_eq_zero_or_one n with h | h <;> simp [bit, h]

theorem bit_succ (n : Nat) : bit (n + 1) = bit n ^^^ 1 := by
  rcases bit_cases n with ⟨hb, hn⟩ | ⟨hb, hn⟩ <;> rcases bit_cases (n + 1) with ⟨hb', hn'⟩ | ⟨hb', hn'⟩ <;>
    first | omega | (rw [hb, hb']; rfl)

/-- Neighbours have different bits. -/
theorem eq_of_bit_eq {m n : Nat} (h : bit m = bit n) (h1 : m ≤ n + 1) (h2 : n ≤ m + 1) : m = n := by
  rcases bit_cases m with ⟨hm, em⟩ | ⟨hm, em⟩ <;> rcases bit_cases n with ⟨hn, en⟩ | ⟨hn, en⟩
  · omega
  · exact absurd (hm.symm.trans (h.trans hn)) (by decide)
  · exact absurd (hm.symm.trans (h.trans hn)) (by decide)
  · omega

theorem seqOf_withSeq (base : UInt8) (n : Nat) : Control.seqOf (Control.withSeq base (bit n)) = bit n := by
  rcases bit_cases n with ⟨h, -⟩ | ⟨h, -⟩ <;> rw [h] <;> revert base <;> apply Bytes.forall_octet <;> decide +kernel

theorem isAck_withSeq {base : UInt8} (data : IsData base) (n : Nat) :
    Control.isAck (Control.withSeq base (bit n)) = false := by
  rcases bit_cases n with ⟨h, -⟩ | ⟨h, -⟩ <;> rw [h]
  · exact data
  · clear data h
    revert base
    apply Bytes.forall_octet
    decide +kernel

theorem ackSeqOf_ackFor (n : Nat) : Control.ackSeqOf (Control.ackFor (bit n)) = bit n := by
  rcases bit_cases n with ⟨h, -⟩ | ⟨h, -⟩ <;> rw [h] <;> decide

theorem isAck_ackFor (b : UInt8) : Control.isAck (Control.ackFor b) = true := by
  rw [Control.ackFor]
  split <;> decide

theorem dataFrames_getElem? {payloads : List (UInt8 × Bytes)} {k : Nat} {p : UInt8 × Bytes} (h : payloads[k]? = some p) :
    (dataFrames payloads)[k]? = some (Control.withSeq p.1 (bit k), p.2) := by
  simp [dataFrames, List.getElem?_mapIdx, h]

/-- A data frame of the device shows its bit. -/
theorem seqOf_dataFrame {payloads : List (UInt8 × Bytes)} {k : Nat} {f : UInt8 × Bytes}
    (h : (dataFrames payloads)[k]? = some f) : Control.seqOf f.1 = bit k := by
  simp only [dataFrames, List.getElem?_mapIdx, Option.map_eq_some_iff] at h
  obtain ⟨p, -, rfl⟩ := h
  exact seqOf_withSeq p.1 k

/-! ## Deliveries to the host -/

/-- The device is at most one payload behind the host, and what is in flight is about the
last two payloads, in order. -/
structure Receiving (payloads : List (UInt8 × Bytes)) (s : System) : Prop where
  lower : s.current ≤ s.read
  upper : s.read ≤ s.current + 1
  data : ∀ l ∈ s.down, l.isAck = false → l.index ≤ s.current ∧ s.read ≤ l.index + 1 ∧
    (dataFrames payloads)[l.index]? = some (l.ctrl, l.payload)
  dataSorted : s.down.Pairwise fun a b => a.isAck = false → b.isAck = false → a.index ≤ b.index
  acks : ∀ l ∈ s.up, l.isAck = true → l.index + 1 ≤ s.read ∧ s.current ≤ l.index + 1 ∧
    Control.ackSeqOf l.ctrl = bit l.index
  acksSorted : s.up.Pairwise fun a b => a.isAck = true → b.isAck = true → a.index ≤ b.index

namespace Receiving

variable {payloads : List (UInt8 × Bytes)} {gate : Nat → Nat → Prop} {s s' : System}

theorem start : Receiving payloads {} := by
  refine ⟨Nat.le_refl _, Nat.zero_le _, ?_, .nil, ?_, .nil⟩ <;> intro l hl <;> exact absurd hl List.not_mem_nil

/-- Fewer frames in flight. -/
theorem lose (r : Receiving payloads s) {up down : List Letter} (hu : up.Sublist s.up) (hd : down.Sublist s.down) :
    Receiving payloads { s with up, down } :=
  ⟨r.lower, r.upper, fun l hl => r.data l (hd.mem hl), r.dataSorted.sublist hd, fun l hl => r.acks l (hu.mem hl),
    r.acksSorted.sublist hu⟩

theorem deviceReads (r : Receiving payloads s) {l : Letter} {rest : List Letter} (next : s.up = l :: rest) :
    Receiving payloads (s.deviceReads l rest) := by
  have fewer : rest.Sublist s.up := next ▸ List.sublist_cons_self l rest
  have lost := r.lose fewer (List.Sublist.refl s.down)
  have sorted := r.acksSorted
  rw [next, List.pairwise_cons] at sorted
  rw [System.deviceReads]
  by_cases ack : l.isAck = true
  · rw [if_pos ack]
    obtain ⟨acked, late, hbit⟩ := r.acks l (next ▸ List.mem_cons_self) ack
    by_cases current : Control.ackSeqOf l.ctrl = bit s.current
    · rw [if_pos current]
      -- the ACK is of the current payload, so the host has read it
      have same : l.index = s.current :=
        eq_of_bit_eq (hbit.symm.trans current) (by have := r.upper; omega) (by omega)
      refine ⟨by simp only; omega, by have := r.upper; simp only; omega, fun l' hl' data => ?_, r.dataSorted, fun l' hl' ack' => ?_,
        sorted.2⟩
      · obtain ⟨h1, h2, h3⟩ := r.data l' hl' data
        exact ⟨by simp only; omega, h2, h3⟩
      · obtain ⟨h1, -, h3⟩ := r.acks l' (next ▸ List.mem_cons_of_mem l hl') ack'
        have := sorted.1 l' hl' ack ack'
        exact ⟨h1, by simp only; omega, h3⟩
    · rw [if_neg current]
      exact lost
  · rw [if_neg ack]
    split
    · exact ⟨lost.lower, lost.upper, lost.data, lost.dataSorted, lost.acks, lost.acksSorted⟩
    · exact ⟨lost.lower, lost.upper, lost.data, lost.dataSorted, lost.acks, lost.acksSorted⟩

/-- One more frame from the device. -/
theorem snocDown (r : Receiving payloads s) (l : Letter) (owed : Option UInt8)
    (data : l.isAck = false → l.index = s.current ∧ (dataFrames payloads)[l.index]? = some (l.ctrl, l.payload)) :
    Receiving payloads { s with down := s.down ++ [l], owed } := by
  refine ⟨r.lower, r.upper, fun l' hl' d' => ?_, ?_, r.acks, r.acksSorted⟩
  · rcases List.mem_append.1 hl' with old | new
    · exact r.data l' old d'
    · obtain rfl := List.mem_singleton.1 new
      obtain ⟨index, frame⟩ := data d'
      exact ⟨by simp only; omega, by have := r.upper; simp only; omega, frame⟩
  · refine List.pairwise_append.2 ⟨r.dataSorted, List.pairwise_singleton _ _, fun a ha b hb da db => ?_⟩
    obtain rfl := List.mem_singleton.1 hb
    have := (r.data a ha da).1
    have := (data db).1
    omega

theorem moves (r : Receiving payloads s) (m : Moves payloads gate s s') :
    Receiving payloads s' := by
  cases m with
  | loseUp lost =>
    refine r.lose ?_ (List.Sublist.refl _)
    rw [lost]
    exact (List.sublist_cons_self _ _).append_left _
  | loseDown lost =>
    refine r.lose (List.Sublist.refl _) ?_
    rw [lost]
    exact (List.sublist_cons_self _ _).append_left _
  | deviceReads next => exact r.deviceReads next
  | deviceAcks owed =>
    refine r.snocDown _ none fun data => ?_
    rw [Letter.isAck, isAck_ackFor] at data
    exact absurd data nofun
  | deviceSends current ready => exact r.snocDown _ s.owed fun _ => ⟨rfl, dataFrames_getElem? current⟩

/-- A data frame that the host reads is the last one it knows or the next one. -/
theorem reads (r : Receiving payloads s) {ctrl : UInt8} {payload : Bytes} (h : HostReads s ctrl payload s') :
    Receiving payloads s' ∧
      ((Control.isAck ctrl = true ∧ s'.read = s.read) ∨
       (Control.isAck ctrl = false ∧ s.read ≤ s'.read ∧ s'.read ≤ s.read + 1 ∧ 1 ≤ s'.read ∧
        (dataFrames payloads)[s'.read - 1]? = some (ctrl, payload))) := by
  cases h with
  | @ack l rest next ack =>
    have fewer : rest.Sublist s.down := next ▸ List.sublist_cons_self l rest
    exact ⟨r.lose (List.Sublist.refl s.up) fewer, .inl ⟨ack, rfl⟩⟩
  | @data l rest next data =>
    have fewer : rest.Sublist s.down := next ▸ List.sublist_cons_self l rest
    have lost := r.lose (List.Sublist.refl s.up) fewer
    have sorted := r.dataSorted
    rw [next, List.pairwise_cons] at sorted
    obtain ⟨h1, h2, h3⟩ := r.data l (next ▸ List.mem_cons_self) data
    have lower := r.lower
    have upper := r.upper
    refine ⟨⟨?_, ?_, fun l' hl' d' => ?_, lost.dataSorted, fun l' hl' a' => ?_, lost.acksSorted⟩, .inr ⟨data, ?_⟩⟩
    · simp only; omega
    · simp only; omega
    · obtain ⟨i1, -, i3⟩ := lost.data l' hl' d'
      have := sorted.1 l' hl' data d'
      exact ⟨i1, by simp only; omega, i3⟩
    · obtain ⟨i1, i2, i3⟩ := lost.acks l' hl' a'
      exact ⟨by simp only at i1 ⊢; omega, i2, i3⟩
    · exact ⟨h2, by simp only; omega, by simp only; omega, h3⟩

/-- The host acknowledges the payload it read last. -/
theorem sendsAck (r : Receiving payloads s) (some : 1 ≤ s.read) {b : UInt8} (hb : b = bit (s.read - 1)) :
    Receiving payloads (s.hostSends (Control.ackFor b) []) := by
  rw [System.hostSends, if_pos (isAck_ackFor b)]
  refine ⟨r.lower, r.upper, r.data, r.dataSorted, fun l hl a => ?_, ?_⟩
  · rcases List.mem_append.1 hl with old | new
    · exact r.acks l old a
    · obtain rfl := List.mem_singleton.1 new
      exact ⟨by simp only; omega, by have := r.lower; simp only; omega, by rw [hb]; exact ackSeqOf_ackFor _⟩
  · refine List.pairwise_append.2 ⟨r.acksSorted, List.pairwise_singleton _ _, fun a ha b hb da db => ?_⟩
    obtain rfl := List.mem_singleton.1 hb
    have := (r.acks a ha da).1
    simp only
    omega

theorem sendsData (r : Receiving payloads s) {ctrl : UInt8} (data : Control.isAck ctrl = false) (payload : Bytes) :
    Receiving payloads (s.hostSends ctrl payload) := by
  rw [System.hostSends, data, if_neg Bool.false_ne_true]
  refine ⟨r.lower, r.upper, r.data, r.dataSorted, fun l hl a => ?_, ?_⟩
  · rcases List.mem_append.1 hl with old | new
    · exact r.acks l old a
    · obtain rfl := List.mem_singleton.1 new
      rw [Letter.isAck, data] at a
      exact absurd a nofun
  · refine List.pairwise_append.2 ⟨r.acksSorted, List.pairwise_singleton _ _, fun a ha b hb da db => ?_⟩
    obtain rfl := List.mem_singleton.1 hb
    rw [Letter.isAck, data] at db
    exact absurd db nofun

end Receiving

/-! ## Messages to the device -/

/-- The device asks for a request before each reply. -/
def Answers (gate : Nat → Nat → Prop) : Prop := ∀ k n, gate k n → k < n

/-- The device has accepted all of the host's messages, or all but the last when `w` is 1 and
the host waits for that one's ACK. Every ACK in flight is of the last message accepted when
it was sent, and what is in flight was sent after the last message but one. -/
structure Sending (w : Nat) (s : System) : Prop where
  accepted : s.accepted = s.hostSent.take s.accepted.length
  lower : s.accepted.length ≤ s.hostSent.length
  upper : s.hostSent.length ≤ s.accepted.length + w
  stamps : ∀ l ∈ s.down, l.stamp ≤ s.accepted.length ∧ s.hostSent.length ≤ l.stamp + w
  stampsSorted : s.down.Pairwise fun a b => a.stamp ≤ b.stamp
  acks : ∀ l ∈ s.down, l.isAck = true → 1 ≤ l.stamp ∧ Control.ackSeqOf l.ctrl = bit (l.stamp - 1)
  data : ∀ l ∈ s.down, l.isAck = false → l.index + 1 ≤ l.stamp
  owed : ∀ b, s.owed = some b → 1 ≤ s.accepted.length ∧ b = bit (s.accepted.length - 1)
  request : ∀ l ∈ s.up, l.isAck = false → s.accepted.length + 1 = s.hostSent.length ∧
    Control.seqOf l.ctrl = bit s.accepted.length ∧ s.hostSent[s.accepted.length]? = some (l.ctrl, l.payload)
  once : s.up.Pairwise fun a b => a.isAck = true ∨ b.isAck = true

namespace Sending

variable {payloads : List (UInt8 × Bytes)} {gate : Nat → Nat → Prop} {s s' : System} {w : Nat}

theorem start : Sending 0 {} := by
  refine ⟨rfl, Nat.le_refl _, Nat.le_refl _, ?_, .nil, ?_, ?_, nofun, ?_, .nil⟩ <;> intro l hl <;>
    exact absurd hl List.not_mem_nil

theorem lose (h : Sending w s) {up down : List Letter} (hu : up.Sublist s.up) (hd : down.Sublist s.down) :
    Sending w { s with up, down } :=
  ⟨h.accepted, h.lower, h.upper, fun l hl => h.stamps l (hd.mem hl), h.stampsSorted.sublist hd,
    fun l hl => h.acks l (hd.mem hl), fun l hl => h.data l (hd.mem hl), h.owed, fun l hl => h.request l (hu.mem hl),
    h.once.sublist hu⟩

/-- One more frame from the device. -/
theorem snocDown (h : Sending w s) (l : Letter) {owed : Option UInt8} (stamp : l.stamp = s.accepted.length)
    (ack : l.isAck = true → 1 ≤ l.stamp ∧ Control.ackSeqOf l.ctrl = bit (l.stamp - 1))
    (data : l.isAck = false → l.index + 1 ≤ l.stamp) (still : ∀ b, owed = some b → s.owed = some b) :
    Sending w { s with down := s.down ++ [l], owed } := by
  have all : ∀ {P : Letter → Prop}, (∀ l' ∈ s.down, P l') → P l → ∀ l' ∈ s.down ++ [l], P l' := by
    intro P old new l' hl'
    rcases List.mem_append.1 hl' with h | h
    · exact old l' h
    · exact List.mem_singleton.1 h ▸ new
  refine ⟨h.accepted, h.lower, h.upper, all h.stamps ⟨?_, ?_⟩, ?_, all h.acks ack, all h.data data,
    fun b hb => h.owed b (still b hb), h.request, h.once⟩
  · exact Nat.le_of_eq stamp
  · have := h.upper
    simp only
    omega
  · refine List.pairwise_append.2 ⟨h.stampsSorted, List.pairwise_singleton _ _, fun a ha b hb => ?_⟩
    obtain rfl := List.mem_singleton.1 hb
    have := (h.stamps a ha).1
    omega

theorem deviceReads (h : Sending w s) {l : Letter} {rest : List Letter} (next : s.up = l :: rest) :
    Sending w (s.deviceReads l rest) := by
  have fewer : rest.Sublist s.up := next ▸ List.sublist_cons_self l rest
  have lost := h.lose fewer (List.Sublist.refl s.down)
  rw [System.deviceReads]
  by_cases ack : l.isAck = true
  · rw [if_pos ack]
    split
    · exact ⟨lost.accepted, lost.lower, lost.upper, lost.stamps, lost.stampsSorted, lost.acks, lost.data, lost.owed,
        lost.request, lost.once⟩
    · exact lost
  · rw [if_neg ack]
    -- a data frame is the request the host waits on, and the only one there
    obtain ⟨count, seq, frame⟩ := h.request l (next ▸ List.mem_cons_self) (Bool.eq_false_iff.2 ack)
    have only := h.once
    rw [next, List.pairwise_cons] at only
    rw [if_pos seq]
    have len : (s.accepted ++ [(l.ctrl, l.payload)]).length = s.accepted.length + 1 := by simp
    refine ⟨?_, ?_, ?_, fun l' hl' => ?_, lost.stampsSorted, lost.acks, lost.data, fun b hb => ?_, fun l' hl' d' => ?_,
      lost.once⟩
    · rw [len, List.take_add_one, ← h.accepted, frame]
      rfl
    · rw [len]; simp only; omega
    · rw [len]; simp only; omega
    · have := h.stamps l' hl'
      rw [len]
      exact ⟨by omega, this.2⟩
    · rw [len]
      refine ⟨by omega, ?_⟩
      rw [Nat.add_sub_cancel, ← seq]
      exact (Option.some.inj hb).symm
    · rcases only.1 l' hl' with a | a
      · exact absurd a ack
      · rw [a] at d'
        exact absurd d' nofun

theorem moves (valid : ∀ p ∈ payloads, IsData p.1) (answers : Answers gate) (h : Sending w s)
    (m : Moves payloads gate s s') : Sending w s' := by
  cases m with
  | loseUp lost =>
    refine h.lose ?_ (List.Sublist.refl _)
    rw [lost]
    exact (List.sublist_cons_self _ _).append_left _
  | loseDown lost =>
    refine h.lose (List.Sublist.refl _) ?_
    rw [lost]
    exact (List.sublist_cons_self _ _).append_left _
  | deviceReads next => exact h.deviceReads next
  | @deviceAcks b owed =>
    obtain ⟨some, rfl⟩ := h.owed _ owed
    refine h.snocDown _ rfl (fun _ => ⟨some, ackSeqOf_ackFor _⟩) (fun d => ?_) nofun
    rw [Letter.isAck, isAck_ackFor] at d
    exact absurd d nofun
  | @deviceSends p current ready =>
    refine h.snocDown _ rfl (fun a => ?_) (fun _ => answers _ _ ready) fun _ hb => hb
    have data := isAck_withSeq (valid p (List.mem_of_getElem? current)) s.current
    rw [Letter.isAck, data] at a
    exact absurd a nofun

/-- The host sends its next message. -/
theorem sendsData (h : Sending 0 s) {ctrl : UInt8} (data : Control.isAck ctrl = false)
    (seq : Control.seqOf ctrl = bit s.hostSent.length) (payload : Bytes) : Sending 1 (s.hostSends ctrl payload) := by
  have all : s.accepted.length = s.hostSent.length := by
    have := h.lower
    have := h.upper
    omega
  have len : (s.hostSent ++ [(ctrl, payload)]).length = s.hostSent.length + 1 := by simp
  have quiet : ∀ l ∈ s.up, l.isAck = true := by
    intro l hl
    by_contra d
    have := (h.request l hl (Bool.eq_false_iff.2 d)).1
    omega
  rw [System.hostSends, data, if_neg Bool.false_ne_true]
  refine ⟨?_, ?_, ?_, fun l hl => ?_, h.stampsSorted, h.acks, h.data, h.owed, fun l hl d => ?_, ?_⟩
  · have cut : (s.hostSent ++ [(ctrl, payload)]).take s.accepted.length = s.hostSent.take s.accepted.length :=
      List.take_append_of_le_length (by omega)
    exact h.accepted.trans cut.symm
  · rw [len]; simp only; omega
  · rw [len]; simp only; omega
  · have := h.stamps l hl
    rw [len]
    exact ⟨this.1, by omega⟩
  · rcases List.mem_append.1 hl with old | new
    · rw [quiet l old] at d
      exact absurd d nofun
    · obtain rfl := List.mem_singleton.1 new
      refine ⟨by simp only [len]; omega, by simp only; rw [all]; exact seq, ?_⟩
      simp only
      rw [all, List.getElem?_concat_length]
  · refine List.pairwise_append.2 ⟨h.once, List.pairwise_singleton _ _, fun a ha _ _ => .inl (quiet a ha)⟩

theorem sendsAck (h : Sending w s) (b : UInt8) : Sending w (s.hostSends (Control.ackFor b) []) := by
  rw [System.hostSends, if_pos (isAck_ackFor b)]
  refine ⟨h.accepted, h.lower, h.upper, h.stamps, h.stampsSorted, h.acks, h.data, h.owed, fun l hl d => ?_, ?_⟩
  · rcases List.mem_append.1 hl with old | new
    · exact h.request l old d
    · obtain rfl := List.mem_singleton.1 new
      rw [Letter.isAck, isAck_ackFor] at d
      exact absurd d nofun
  · refine List.pairwise_append.2 ⟨h.once, List.pairwise_singleton _ _, fun a ha b' hb' => .inr ?_⟩
    rw [List.mem_singleton.1 hb']
    exact isAck_ackFor b

/-- A frame sent after the device had accepted everything settles the wait. -/
theorem settle (h : Sending w s) {l : Letter} {rest : List Letter} {read : Nat} (next : s.down = l :: rest)
    (stamp : s.hostSent.length ≤ l.stamp) : Sending 0 { s with down := rest, read } := by
  have fewer : rest.Sublist s.down := next ▸ List.sublist_cons_self l rest
  have lost := h.lose (List.Sublist.refl s.up) fewer
  have sorted := h.stampsSorted
  rw [next, List.pairwise_cons] at sorted
  have upTo := (h.stamps l (next ▸ List.mem_cons_self)).1
  refine ⟨lost.accepted, lost.lower, by simp only; omega, fun l' hl' => ⟨(lost.stamps l' hl').1, ?_⟩, lost.stampsSorted,
    lost.acks, lost.data, lost.owed, lost.request, lost.once⟩
  have := sorted.1 l' hl'
  simp only
  omega

/-- Reading a frame changes nothing for the device; the ACK of the last message, and a reply
to it, settle the wait. -/
theorem reads (h : Sending w s) (one : w ≤ 1) {ctrl : UInt8} {payload : Bytes} (r : HostReads s ctrl payload s') :
    Sending w s' ∧
      (Control.isAck ctrl = true → 1 ≤ s.hostSent.length → Control.ackSeqOf ctrl = bit (s.hostSent.length - 1) →
        Sending 0 s') ∧
      (Control.isAck ctrl = false → s'.read = s.hostSent.length → Sending 0 s') := by
  cases r with
  | @ack l rest next ack =>
    have fewer : rest.Sublist s.down := next ▸ List.sublist_cons_self l rest
    refine ⟨h.lose (List.Sublist.refl s.up) fewer, fun _ some seq => h.settle next ?_, fun d => ?_⟩
    · obtain ⟨pos, hbit⟩ := h.acks l (next ▸ List.mem_cons_self) ack
      obtain ⟨upTo, recent⟩ := h.stamps l (next ▸ List.mem_cons_self)
      have := h.lower
      have same := eq_of_bit_eq (hbit.symm.trans seq) (by omega) (by omega)
      omega
    · rw [← Letter.isAck, ack] at d
      exact absurd d nofun
  | @data l rest next data =>
    have fewer : rest.Sublist s.down := next ▸ List.sublist_cons_self l rest
    have lost := h.lose (List.Sublist.refl s.up) fewer
    refine ⟨⟨lost.accepted, lost.lower, lost.upper, lost.stamps, lost.stampsSorted, lost.acks, lost.data, lost.owed,
      lost.request, lost.once⟩, fun a => ?_, fun _ reply => h.settle next ?_⟩
    · rw [← Letter.isAck, data] at a
      exact absurd a nofun
    · have := h.data l (next ▸ List.mem_cons_self) data
      simp only at reply
      omega

end Sending

/-! ## Schedules

A schedule says what the device and the links do before each frame of a history, so that a
state of a concrete run can be computed. -/

inductive Act where
  | loseUp (i : Nat)
  | loseDown (i : Nat)
  | deviceReads
  | deviceAcks
  | deviceSends

section Replay

variable (payloads : List (UInt8 × Bytes)) (gate : Nat → Nat → Prop) [∀ k n, Decidable (gate k n)]

def System.act (s : System) : Act → Option System
  | .loseUp i => if i < s.up.length then some { s with up := s.up.take i ++ s.up.drop (i + 1) } else none
  | .loseDown i => if i < s.down.length then some { s with down := s.down.take i ++ s.down.drop (i + 1) } else none
  | .deviceReads =>
    match s.up with
    | [] => none
    | l :: rest => some (s.deviceReads l rest)
  | .deviceAcks =>
    match s.owed with
    | none => none
    | some b => some { s with down := s.down ++ [⟨Control.ackFor b, [], 0, s.accepted.length⟩], owed := none }
  | .deviceSends =>
    match payloads[s.current]? with
    | none => none
    | some p =>
      if gate s.current s.accepted.length then
        some { s with down := s.down ++ [⟨Control.withSeq p.1 (bit s.current), p.2, s.current, s.accepted.length⟩] }
      else none

/-- The host reads the next frame, if it is this one. -/
def System.hostReads (s : System) (ctrl : UInt8) (payload : Bytes) : Option System :=
  match s.down with
  | [] => none
  | l :: rest =>
    if l.ctrl = ctrl ∧ l.payload = payload then
      some (if l.isAck then { s with down := rest } else { s with down := rest, read := l.index + 1 })
    else none

def System.sees (s : System) : Event → Option System
  | .frameOut f => some (s.hostSends f.ctrl f.payload)
  | .frameIn ctrl payload => s.hostReads ctrl payload
  | _ => some s

def replay (s : System) : List (List Act) → List Event → Option System
  | _, [] => some s
  | schedule, e :: es =>
    if isFrame e then do
      let s ← schedule.headD [] |>.foldlM (System.act payloads gate) s
      let s ← s.sees e
      replay s schedule.tail es
    else replay s schedule es

end Replay

section ReplaySound

variable {payloads : List (UInt8 × Bytes)} {gate : Nat → Nat → Prop} {s s' : System}

theorem hostReads_sound {ctrl : UInt8} {payload : Bytes} (h : s.hostReads ctrl payload = some s') :
    HostReads s ctrl payload s' := by
  rw [System.hostReads] at h
  split at h
  · exact absurd h nofun
  · next l rest next =>
    simp only [Option.ite_none_right_eq_some, Option.some.injEq] at h
    obtain ⟨⟨rfl, rfl⟩, rfl⟩ := h
    by_cases ack : l.isAck = true
    · rw [if_pos ack]
      exact .ack next ack
    · rw [if_neg ack]
      exact .data next (Bool.eq_false_iff.2 ack)

theorem Reaches.sees {t : List Event} {e : Event} (before : Reaches payloads gate t s) (h : s.sees e = some s') :
    Reaches payloads gate (t ++ [e]) s' := by
  by_cases frame : isFrame e = true
  · cases e with
    | frameOut f => exact Option.some.inj h ▸ .out f before
    | frameIn ctrl payload => exact .read before (hostReads_sound h)
    | _ => exact absurd frame Bool.false_ne_true
  · have same : s = s' := by
      cases e <;> first | exact Option.some.inj h | exact absurd rfl frame
    exact same ▸ .unseen before (Bool.eq_false_iff.2 frame)

variable [∀ k n, Decidable (gate k n)]

theorem act_moves {a : Act} (h : s.act payloads gate a = some s') : Moves payloads gate s s' := by
  have cut : ∀ {ls : List Letter} {i : Nat} (lt : i < ls.length), ls = ls.take i ++ ls[i] :: ls.drop (i + 1) :=
    fun lt => by simp
  cases a with
  | loseUp i =>
    simp only [System.act, Option.ite_none_right_eq_some, Option.some.injEq] at h
    obtain ⟨lt, rfl⟩ := h
    exact .loseUp (cut lt)
  | loseDown i =>
    simp only [System.act, Option.ite_none_right_eq_some, Option.some.injEq] at h
    obtain ⟨lt, rfl⟩ := h
    exact .loseDown (cut lt)
  | deviceReads =>
    simp only [System.act] at h
    split at h
    · exact absurd h nofun
    · next next => exact Option.some.inj h ▸ .deviceReads next
  | deviceAcks =>
    simp only [System.act] at h
    split at h
    · exact absurd h nofun
    · next owed => exact Option.some.inj h ▸ .deviceAcks owed
  | deviceSends =>
    simp only [System.act] at h
    split at h
    · exact absurd h nofun
    · next current =>
      simp only [Option.ite_none_right_eq_some, Option.some.injEq] at h
      obtain ⟨ready, rfl⟩ := h
      exact .deviceSends current ready

theorem Reaches.acts {t : List Event} (acts : List Act) (before : Reaches payloads gate t s)
    (h : acts.foldlM (System.act payloads gate) s = some s') : Reaches payloads gate t s' := by
  induction acts generalizing s with
  | nil => exact Option.some.inj h ▸ before
  | cons a acts ih =>
    obtain ⟨s1, first, rest⟩ := Option.bind_eq_some_iff.1 h
    exact ih (before.moves (act_moves first)) rest

/-- A state that a schedule computes can be reached. -/
theorem Reaches.replay {t : List Event} (es : List Event) (schedule : List (List Act)) (before : Reaches payloads gate t s)
    (h : Link.replay payloads gate s schedule es = some s') : Reaches payloads gate (t ++ es) s' := by
  induction es generalizing t s schedule with
  | nil =>
    rw [List.append_nil]
    exact Option.some.inj h ▸ before
  | cons e es ih =>
    rw [Link.replay] at h
    rw [List.append_cons]
    by_cases frame : isFrame e = true
    · rw [if_pos frame] at h
      obtain ⟨s1, acts, rest⟩ := Option.bind_eq_some_iff.1 h
      obtain ⟨s2, sees, rest⟩ := Option.bind_eq_some_iff.1 rest
      exact ih schedule.tail ((before.acts _ acts).sees sees) rest
    · rw [if_neg frame] at h
      exact ih schedule (before.unseen (Bool.eq_false_iff.2 frame)) h

end ReplaySound

end TrezorCore.Link
