import Mathlib.Data.List.Forall2
import TrezorCore.Thp.Conversation
import TrezorCore.Thp.Sync

/-!
# What a connection accepts

An application message counts only if the session opens it under the receive nonce of that moment,
and every opening moves the nonce on. So the messages that a connection has accepted were opened
under nonces that go up from one, each once, whatever came in.
-/

namespace TrezorCore

variable {K : Crates} {key : Octets 32} {n id : ℕ} {got : List (UInt64 × AppMessage)}

/-- The messages accepted on a connection, with their receive nonces. -/
def accepted (id : ℕ) (t : List Event) : List (UInt64 × AppMessage) := t.filterMap fun
  | .appIn conn nonce m => if conn = id then some (nonce, m) else none
  | _ => none

@[simp] theorem accepted_append (id : ℕ) (a b : List Event) : accepted id (a ++ b) = accepted id a ++ accepted id b :=
  List.filterMap_append

theorem accepted_mute {es : List Event} (mute : appEvents es = []) : accepted id es = [] := by
  refine List.filterMap_eq_nil_iff.2 fun e mem => ?_
  have silent := List.filter_eq_nil_iff.1 mute e mem
  cases e <;> first | rfl | exact absurd rfl silent

/-- Opening number `i`, counted from zero, gave this message. -/
structure OpenedAs (K : Crates) (key : Octets 32) (got : UInt64 × AppMessage) (i : ℕ) : Prop where
  nonce : got.1 = UInt64.ofNat (i + 1)
  opens : ∃ ct pt, K.aesGcmDecrypt key (ivFromNonce got.1) [] ct = some pt ∧ decodeAppMessage pt = .ok got.2

/-- Some of the first `n` openings gave these messages, in this order. -/
def InOrder (K : Crates) (key : Octets 32) (n : ℕ) (got : List (UInt64 × AppMessage)) : Prop :=
  List.SublistForall₂ (OpenedAs K key) got (List.range n)

namespace InOrder

theorem skip (ordered : InOrder K key n got) : InOrder K key (n + 1) got := by
  obtain ⟨l, each, sub⟩ := List.sublistForall₂_iff.1 ordered
  rw [InOrder, List.range_succ]
  exact List.sublistForall₂_iff.2 ⟨l, each, sub.trans (List.sublist_append_left _ _)⟩

theorem snoc {last : UInt64 × AppMessage} (ordered : InOrder K key n got) (opened : OpenedAs K key last n) :
    InOrder K key (n + 1) (got ++ [last]) := by
  obtain ⟨l, each, sub⟩ := List.sublistForall₂_iff.1 ordered
  rw [InOrder, List.range_succ]
  exact List.sublistForall₂_iff.2 ⟨l ++ [n], List.rel_append each (.cons opened .nil), sub.append (List.Sublist.refl _)⟩

/-- **In order and once.** If each message is the one that was sealed under its nonce, they are a
sublist of all that was sealed. -/
theorem sublist (ordered : InOrder K key n got) (short : n < 2 ^ 64) {ms : List AppMessage} (few : ms.length < 2 ^ 64)
    (genuine : ∀ r ∈ got, ∃ i, r.1 = UInt64.ofNat (i + 1) ∧ ms[i]? = some r.2) : (got.map Prod.snd).Sublist ms := by
  obtain ⟨l, each, sub⟩ := List.sublistForall₂_iff.1 ordered
  have same : got.map Prod.snd = l.filterMap (ms[·]?) := by
    have below : ∀ i ∈ l, i < n := fun i mem => List.mem_range.1 (sub.subset mem)
    clear ordered sub
    induction each with
    | nil => rfl
    | @cons r i got l opened each ih =>
      obtain ⟨j, nonce, sealed⟩ := genuine r (List.mem_cons_self ..)
      have hi : i < n := below i (List.mem_cons_self ..)
      have hj : j < ms.length := (List.getElem?_eq_some_iff.1 sealed).1
      have eq : i + 1 = j + 1 := ofNat_inj_of_lt (by omega) (by omega) (opened.nonce.symm.trans nonce)
      rw [List.map_cons, List.filterMap_cons, Nat.succ.inj eq, sealed,
        ih (fun r mem => genuine r (List.mem_cons_of_mem _ mem)) fun i mem => below i (List.mem_cons_of_mem _ mem)]
  have all : (List.range n).filterMap (ms[·]?) = ms.take n := by
    clear ordered short same sub
    induction n with
    | zero => rfl
    | succ n ih =>
      rw [List.range_succ, List.filterMap_append, ih, List.take_add_one]
      cases found : ms[n]? <;> simp [found]
  rw [same]
  exact (sub.filterMap _).trans (all ▸ List.take_sublist n ms)

end InOrder

/-! ## What the wire shows -/

/-- Every connection accepted its messages in order, and none before there was one. -/
structure Receipts (K : Crates) (w : Wire) : Prop where
  every : ∀ id, ∃ key n, n ≤ w.trace.length ∧ InOrder K key n (accepted id w.trace)
  unborn : ∀ id, w.connections ≤ id → accepted id w.trace = []

/-- The session of a connection has kept count of its openings. -/
def Counting (K : Crates) (c : Connection) (w : Wire) : Prop :=
  ∃ session n, c.session = some session ∧ n ≤ w.trace.length ∧ session.nonceRecv = UInt64.ofNat (n + 1) ∧
    InOrder K session.keyRecv n (accepted c.id w.trace)

/-- A connection that has accepted nothing yet. -/
def Unheard (c : Connection) (w : Wire) : Prop := accepted c.id w.trace = []

/-- The connection in a slot keeps count. -/
def Pinned (K : Crates) (slot : Option Connection) (w : Wire) : Prop := ∀ c, slot = some c → c.id < w.connections ∧ Counting K c w

/-- A connection with `P`, beside the slot. -/
structure Beside (K : Crates) (slot : Option Connection) (P : Connection → Wire → Prop) (h : Host Connection) : Prop where
  receipts : Receipts K h.wire
  pinned : Pinned K slot h.wire
  apart : ∀ c, slot = some c → c.id ≠ h.own.id
  born : h.own.id < h.wire.connections
  own : P h.own h.wire

/-- The wire goes on and nothing is accepted on any connection. -/
structure Mutely (w w' : Wire) : Prop where
  length : w.trace.length ≤ w'.trace.length
  accepted : ∀ id, accepted id w'.trace = accepted id w.trace
  connections : w'.connections = w.connections

namespace Mutely

variable {w w' : Wire} {c c' : Connection} {slot : Option Connection}

theorem of_events (es : List Event) (trace : w'.trace = w.trace ++ es) (mute : appEvents es = [])
    (connections : w'.connections = w.connections) : Mutely w w' := by
  refine ⟨?_, fun id => ?_, connections⟩
  · rw [trace, List.length_append]
    exact Nat.le_add_right _ _
  · rw [trace, accepted_append, accepted_mute mute, List.append_nil]

theorem receipts (mutely : Mutely w w') (receipts : Receipts K w) : Receipts K w' := by
  refine ⟨fun id => ?_, fun id unborn => ?_⟩
  · obtain ⟨key, n, le, ordered⟩ := receipts.every id
    exact ⟨key, n, le.trans mutely.length, mutely.accepted id ▸ ordered⟩
  · rw [mutely.accepted]
    exact receipts.unborn id (mutely.connections ▸ unborn)

theorem counting (mutely : Mutely w w') (id : c'.id = c.id)
    (session : ∀ s, c.session = some s → ∃ s', c'.session = some s' ∧ s'.keyRecv = s.keyRecv ∧ s'.nonceRecv = s.nonceRecv)
    (counting : Counting K c w) : Counting K c' w' := by
  obtain ⟨s, n, established, le, nonce, ordered⟩ := counting
  obtain ⟨s', established', sameKey, sameNonce⟩ := session s established
  refine ⟨s', n, established', le.trans mutely.length, sameNonce.trans nonce, ?_⟩
  rw [sameKey, id, mutely.accepted]
  exact ordered

theorem pinned (mutely : Mutely w w') (pinned : Pinned K slot w) : Pinned K slot w' := by
  intro c here
  obtain ⟨born, counting⟩ := pinned c here
  exact ⟨mutely.connections ▸ born, mutely.counting rfl (fun s same => ⟨s, same, rfl, rfl⟩) counting⟩

end Mutely

/-- The wire goes on and a connection accepts one message. -/
structure Hears (conn : ℕ) (last : UInt64 × AppMessage) (w w' : Wire) : Prop where
  length : w.trace.length < w'.trace.length
  mine : accepted conn w'.trace = accepted conn w.trace ++ [last]
  others : ∀ id, id ≠ conn → accepted id w'.trace = accepted id w.trace
  connections : w'.connections = w.connections

theorem Hears.of_opened {w w' : Wire} {e : Event} {conn : ℕ} {nonce : UInt64} {m : AppMessage} (other : e.isApp = false)
    (trace : w'.trace = w.trace ++ [e, .appIn conn nonce m]) (connections : w'.connections = w.connections) :
    Hears conn (nonce, m) w w' := by
  have first : ∀ id, accepted id [e, .appIn conn nonce m] = if conn = id then [(nonce, m)] else [] := by
    intro id
    have mute : accepted id [e] = [] := accepted_mute (by simp [appEvents, other])
    rw [← List.singleton_append, accepted_append, mute, List.nil_append]
    by_cases same : conn = id <;> simp [accepted, same]
  refine ⟨?_, ?_, fun id ne => ?_, connections⟩
  · rw [trace, List.length_append]
    exact Nat.lt_add_of_pos_right (Nat.zero_lt_succ _)
  · rw [trace, accepted_append, first, if_pos rfl]
  · rw [trace, accepted_append, first, if_neg (Ne.symm ne), List.append_nil]

/-! ## What a connection does -/

namespace Connection

variable {slot : Option Connection} {P : Connection → Wire → Prop} {h h' : Host Connection} {α : Type}

theorem LinkOnly.mutely (l : LinkOnly h h') : Mutely h.wire h'.wire := by
  obtain ⟨es, trace, link⟩ := l.events
  exact .of_events es trace (appEvents_link link) l.connections

theorem Silent.mutely (s : Silent h h') : Mutely h.wire h'.wire := by
  obtain ⟨es, trace, mute⟩ := s.events
  exact .of_events es trace mute s.connections

end Connection

namespace Beside

open Connection

variable {slot : Option Connection} {P Q : Connection → Wire → Prop} {h h' : Host Connection} {α : Type}

theorem mutely (beside : Beside K slot P h) (mutely : Mutely h.wire h'.wire) (id : h'.own.id = h.own.id)
    (own : P h.own h.wire → Q h'.own h'.wire) : Beside K slot Q h' where
  receipts := mutely.receipts beside.receipts
  pinned := mutely.pinned beside.pinned
  apart c here := id ▸ beside.apart c here
  born := by
    rw [id, mutely.connections]
    exact beside.born
  own := own beside.own

/-- Nothing is accepted, and the session receives as before. -/
theorem stays (beside : Beside K slot (Counting K) h) (mutely : Mutely h.wire h'.wire) (id : h'.own.id = h.own.id)
    (session : ∀ s, h.own.session = some s → ∃ s', h'.own.session = some s' ∧ s'.keyRecv = s.keyRecv ∧ s'.nonceRecv = s.nonceRecv) :
    Beside K slot (Counting K) h' := beside.mutely mutely id (mutely.counting id session)

/-- What the link does not change. -/
theorem link (beside : Beside K slot (Counting K) h) (l : LinkOnly h h') : Beside K slot (Counting K) h' :=
  beside.stays l.mutely (congrArg Connection.id l.own : h'.own.aboveLink.id = h.own.aboveLink.id) fun s established =>
    ⟨s, l.session.trans established, rfl, rfl⟩

/-- Bringing a channel up accepts nothing. -/
theorem silent (beside : Beside K slot Unheard h) (s : Silent h h') : Beside K slot Unheard h' := by
  have id : h'.own.id = h.own.id := congrArg Speaker.id s.speaker
  refine beside.mutely s.mutely id fun unheard => ?_
  rw [Unheard, id, s.mutely.accepted]
  exact unheard

/-- One more message. -/
theorem hears (beside : Beside K slot (Counting K) h) {session : Session} (established : h.own.session = some session)
    {m : AppMessage} (hears : Hears h.own.id (session.nonceRecv, m) h.wire h'.wire) (id : h'.own.id = h.own.id)
    (advanced : h'.own.session = some { session with nonceRecv := session.nonceRecv + 1 })
    (opens : ∃ ct pt, K.aesGcmDecrypt session.keyRecv (ivFromNonce session.nonceRecv) [] ct = some pt ∧ decodeAppMessage pt = .ok m) :
    Beside K slot (Counting K) h' := by
  obtain ⟨session', n, established', le, nonce, ordered⟩ := beside.own
  obtain rfl : session' = session := Option.some.inj (established'.symm.trans established)
  have longer : n + 1 ≤ h'.wire.trace.length := (Nat.succ_le_succ le).trans hears.length
  have mine : InOrder K session'.keyRecv (n + 1) (accepted h.own.id h'.wire.trace) := by
    rw [hears.mine]
    exact ordered.snoc ⟨nonce, opens⟩
  refine ⟨⟨fun id => ?_, fun id unborn => ?_⟩, fun c here => ?_, fun c here => id ▸ beside.apart c here, ?_, ?_⟩
  · by_cases same : id = h.own.id
    · exact ⟨_, n + 1, longer, same ▸ mine⟩
    · obtain ⟨key, k, le, ordered⟩ := beside.receipts.every id
      exact ⟨key, k, le.trans hears.length.le, hears.others id same ▸ ordered⟩
  · rw [hears.connections] at unborn
    rw [hears.others id (Nat.ne_of_gt (beside.born.trans_le unborn))]
    exact beside.receipts.unborn id unborn
  · obtain ⟨born, s, k, pinned, le, nonce, ordered⟩ := beside.pinned c here
    refine ⟨hears.connections ▸ born, s, k, pinned, le.trans hears.length.le, nonce, ?_⟩
    rw [hears.others c.id (beside.apart c here)]
    exact ordered
  · rw [id, hears.connections]
    exact beside.born
  · refine ⟨_, n + 1, advanced, longer, ?_, ?_⟩
    · show session'.nonceRecv + 1 = _
      rw [nonce]
      exact (UInt64.ofNat_add (n + 1) 1).symm
    · rw [id]
      exact mine

/-- An opening whose plaintext is no message. -/
theorem skips (beside : Beside K slot (Counting K) h) {session : Session} (established : h.own.session = some session)
    (mutely : Mutely h.wire h'.wire) (longer : h.wire.trace.length < h'.wire.trace.length) (id : h'.own.id = h.own.id)
    (advanced : h'.own.session = some { session with nonceRecv := session.nonceRecv + 1 }) : Beside K slot (Counting K) h' := by
  refine beside.mutely mutely id ?_
  rintro ⟨session', n, established', le, nonce, ordered⟩
  obtain rfl : session' = session := Option.some.inj (established'.symm.trans established)
  refine ⟨_, n + 1, advanced, (Nat.succ_le_succ le).trans longer, ?_, ?_⟩
  · show session'.nonceRecv + 1 = _
    rw [nonce]
    exact (UInt64.ofNat_add (n + 1) 1).symm
  · rw [id, mutely.accepted]
    exact ordered.skip

end Beside

/-! ## The calls on a connection -/

namespace Connection

variable {slot : Option Connection} {α : Type}

/-- The connection goes on counting, beside the slot. -/
def Receives (K : Crates) (slot : Option Connection) (h h' : Host Connection) : Prop :=
  Beside K slot (Counting K) h → Beside K slot (Counting K) h'

namespace Receives

theorem refl (h : Host Connection) : Receives K slot h h := fun beside => beside

theorem trans (a b c : Host Connection) (h1 : Receives K slot a b) (h2 : Receives K slot b c) : Receives K slot a c :=
  fun beside => h2 (h1 beside)

theorem link {x : Io Connection α} (l : Comp.Keeps LinkOnly x) : Comp.Keeps (Receives K slot) x :=
  l.mono fun _ _ only beside => beside.link only

theorem modifyOwn {f : Connection → Connection} (id : ∀ c, (f c).id = c.id) (session : ∀ c, (f c).session = c.session) :
    Comp.Keeps (Receives K slot) (Io.modifyOwn f) := by
  intro h beside
  have mutely : Mutely h.wire h.wire := .of_events [] (List.append_nil _).symm rfl rfl
  exact beside.stays mutely (id h.own) fun s established => ⟨s, (session h.own).trans established, rfl, rfl⟩

theorem sendApp (type : UInt16) (body : Bytes) : Comp.Keeps (Receives K slot) (sendApp K type body) := by
  intro h beside
  rcases established : h.own.session with _ | session
  · rw [sendApp_none established]
    exact beside
  · rw [sendApp_run established]
    have mutely : Mutely h.wire (afterSeal K h session ⟨h.own.activeSessionId, type, body⟩).wire := by
      refine ⟨?_, fun id => ?_, rfl⟩
      · simp [afterSeal]
      · simp [afterSeal, accepted]
    refine link (LinkOnly.sendData _ _) _ (beside.stays mutely rfl fun s same => ?_)
    obtain rfl := Option.some.inj (established.symm.trans same)
    exact ⟨_, rfl, rfl, rfl⟩

/-- **Opening** a ciphertext counts. -/
theorem openApp (ct : Bytes) : Comp.Keeps (Receives K slot) (openApp K ct) := by
  intro h beside
  rcases established : h.own.session with _ | session
  · rw [openApp_none established]
    exact beside
  · rw [openApp_run established]
    rcases opens : K.aesGcmDecrypt session.keyRecv (ivFromNonce session.nonceRecv) [] ct with _ | pt
    · show Beside K slot (Counting K) (afterOpen h session ct none)
      refine beside.stays (.of_events [_] rfl rfl rfl) rfl fun s same => ?_
      obtain rfl := Option.some.inj (established.symm.trans same)
      exact ⟨_, rfl, rfl, rfl⟩
    · rcases decoded : decodeAppMessage pt with e | m
      · simp only [decoded]
        refine beside.skips established (.of_events [.opened session.keyRecv (ivFromNonce session.nonceRecv) [] ct (some pt)] rfl rfl rfl)
          ?_ rfl rfl
        simp [afterOpen]
      · simp only [decoded]
        refine beside.hears established (.of_opened (e := .opened session.keyRecv (ivFromNonce session.nonceRecv) [] ct (some pt)) rfl ?_ rfl) rfl rfl
          ⟨ct, pt, opens, decoded⟩
        exact List.append_assoc ..

theorem recvApp : Comp.Keeps (Receives K slot) (recvApp K) :=
  .bind trans (link LinkOnly.recvData) fun frame => .bind trans (openApp frame.2) fun _ => .pure refl _

theorem transceiveTurn (u : Unit) : Comp.Keeps (Receives K slot) (transceiveTurn K u) := by
  refine .bind trans recvApp fun reply => ?_
  split
  split
  · exact .bind trans (sendApp _ _) fun _ => .pure refl _
  · split
    · exact .fail refl _
    · exact .pure refl _

theorem note {e : Event} (other : ∀ conn nonce m, e ≠ .appIn conn nonce m) : Comp.Keeps (Receives K slot) (Io.note e) := by
  intro h beside
  have mutely : Mutely h.wire (h.wire.log e) := by
    refine ⟨?_, fun id => ?_, rfl⟩
    · simp
    · rw [Wire.log_trace, accepted_append]
      cases e <;> first | exact List.append_nil _ | exact absurd rfl (other _ _ _)
  exact beside.stays mutely rfl fun s same => ⟨s, same, rfl, rfl⟩

theorem transceive (type : UInt16) (body : Bytes) : Comp.Keeps (Receives K slot) (transceive K type body) :=
  .bind trans (sendApp _ _) fun _ => .bind trans (.loop refl trans transceiveTurn ()) fun _ => .bind trans refl fun _ =>
    .bind trans (note nofun) fun _ => .pure refl _

theorem ask (q : Request) : Comp.Keeps (Receives K slot) (Chat.ask K q) := by
  rw [Chat.ask]
  cases q.sessionId with
  | some sessionId => exact .bind trans (modifyOwn (fun _ => rfl) fun _ => rfl) fun _ => transceive _ _
  | none => exact transceive _ _

theorem chat (chat : Chat α) : Comp.Keeps (Receives K slot) (chat.on K) := Script.run_keeps refl trans ask chat

theorem endRequest : Comp.Keeps (Receives K slot) (Pairing.endRequest K) :=
  .bind trans (transceive _ _) fun _ => .ofExcept refl _

theorem createSeededSession (passphrase : Option String) (onDevice : Bool) :
    Comp.Keeps (Receives K slot) (createSeededSession K passphrase onDevice) := by
  refine .bind trans (modifyOwn (fun _ => rfl) fun _ => rfl) fun _ => .bind trans (transceive _ _) fun _ => ?_
  split
  split
  · exact .fail refl _
  · exact modifyOwn (fun _ => rfl) fun _ => rfl

end Receives

end Connection

end TrezorCore
