import TrezorCore.Client.Outgoing
import TrezorCore.Client.Parts
import TrezorCore.Lib.Continuing

/-!
# One call at a time

However the calls of a client interleave, what they do is what they would do one after another,
in the order in which they got the link: each starts with the slot that the one before it left,
reads on where that one stopped, and writes what its own run, alone, writes.
-/

namespace TrezorCore.Client

/-! ## Wires with more answers -/

/-- The same call in a world that has more answers to give. -/
inductive Ahead {γ : Type} : Host γ → Host γ → Prop
  | more {d : γ} {w : Wire} (more : List (Except TrezorTransportError Bytes)) (onWrite : Nat → WriteReply) :
      (∀ n, w.onWrite n ≠ .never → onWrite n = w.onWrite n) →
      Ahead ⟨d, w⟩ ⟨d, { w with inbox := w.inbox ++ more, onWrite }⟩

/-- Nothing that was done is undone. -/
def Onward {γ : Type} (h h' : Host γ) : Prop := h.wire.trace <+: h'.wire.trace

theorem lasting {γ : Type} : Comp.Lasting (@Ahead γ) Onward where
  refl _ := List.prefix_refl _
  trans _ _ _ h1 h2 := h1.trans h2
  sub := by
    rintro _ _ ⟨-, -, -⟩
    exact List.prefix_refl _

theorem readChunk_extends {γ : Type} : Comp.Extends (@Ahead γ) Onward Io.readChunk Io.readChunk := by
  have keeps : Comp.Keeps Onward (Io.readChunk : Io γ Bytes) := by
    intro h
    rcases inbox : h.wire.inbox with _ | ⟨_ | _, rest⟩ <;> simp only [Io.readChunk, inbox] <;> exact List.prefix_refl _
  refine ⟨?_, keeps⟩
  rintro _ _ ⟨more, onWrite, replies⟩
  rename_i d w
  rcases inbox : w.inbox with _ | ⟨e | chunk, rest⟩
  · have waits : (Io.readChunk : Io γ Bytes).run ⟨d, w⟩ = (.dropped, ⟨d, w⟩) := by simp only [Io.readChunk, inbox]
    exact .of_dropped waits (keeps ⟨d, { w with inbox := [] ++ more, onWrite }⟩)
  · simp only [Io.readChunk, inbox, List.cons_append]
    exact .same (.more (w := { w with inbox := rest }) more onWrite replies)
  · simp only [Io.readChunk, inbox, List.cons_append]
    exact .same (.more (w := { w with inbox := rest }) more onWrite replies)

theorem writeChunk_extends {γ : Type} (packet : Bytes) :
    Comp.Extends (@Ahead γ) Onward (Io.writeChunk packet) (Io.writeChunk packet) := by
  have traced : ∀ h : Host γ, ((Io.writeChunk packet).run h).2.wire.trace = h.wire.trace ++ [.wrote packet] := by
    intro h
    rcases reply : h.wire.onWrite h.wire.written with _ | e | _ <;> simp only [Io.writeChunk, reply] <;> rfl
  refine ⟨?_, fun h => ⟨_, (traced h).symm⟩⟩
  rintro _ _ ⟨more, onWrite, replies⟩
  rename_i d w
  rcases reply : w.onWrite w.written with _ | e | _
  · have same := replies w.written (by rw [reply]; exact WriteReply.noConfusion)
    simp only [Io.writeChunk, same, reply]
    exact .same (.more (w := { w.log (.wrote packet) with written := w.written + 1 }) more onWrite replies)
  · have same := replies w.written (by rw [reply]; exact WriteReply.noConfusion)
    simp only [Io.writeChunk, same, reply]
    exact .same (.more (w := { w.log (.wrote packet) with written := w.written + 1 }) more onWrite replies)
  · have waits : (Io.writeChunk packet : Io γ Unit).run ⟨d, w⟩ =
        (.dropped, ⟨d, { w.log (.wrote packet) with written := w.written + 1 }⟩) := by
      simp only [Io.writeChunk, reply]
    refine .of_dropped waits ?_
    rw [Onward, traced]
    exact List.prefix_refl _

theorem inside_extends {γ δ α β : Type} {x : Io δ α} {y : Io γ β} (i : Inside x y) (hx : Comp.Extends Ahead Onward x x) :
    Comp.Extends Ahead Onward y y := by
  refine ⟨?_, fun h => ?_⟩
  · rintro _ _ ⟨more, onWrite, replies⟩
    rename_i own w
    rcases look : i.look own with _ | d
    · rw [i.missing ⟨own, w⟩ look, i.missing ⟨own, { w with inbox := w.inbox ++ more, onWrite }⟩ look]
      exact .same (.more more onWrite replies)
    · have ends := hx.outlasts _ _ (.more (d := d) more onWrite replies)
      rw [i.found ⟨own, w⟩ d look, i.found ⟨own, { w with inbox := w.inbox ++ more, onWrite }⟩ d look]
      rcases ran : x.run ⟨d, w⟩ with ⟨o, h⟩
      rcases ran' : x.run ⟨d, { w with inbox := w.inbox ++ more, onWrite }⟩ with ⟨o', h'⟩
      rw [ran, ran'] at ends
      cases ends with
      | same rel => cases rel with | more more onWrite replies => exact .same (.more more onWrite replies)
      | longer further =>
        dsimp only
        rw [i.dropped]
        exact .longer further
  · rcases look : i.look h.own with _ | d
    · rw [i.missing h look]
      exact List.prefix_refl _
    · rw [i.found h d look]
      exact hx.keeps ⟨d, h.wire⟩

/-- **More answers extend a run**, and change nothing of what it did. -/
theorem extending : Composed fun γ _ x => Comp.Extends (@Ahead γ) Onward x x where
  pure a := .pure lasting a
  fail e := .fail lasting e
  drop := .drop lasting
  bind hx hf := .bind lasting hx hf
  own := ⟨by
    rintro _ _ ⟨more, onWrite, replies⟩
    exact .same (.more more onWrite replies), fun _ => List.prefix_refl _⟩
  modifyOwn f := ⟨by
    rintro _ _ ⟨more, onWrite, replies⟩
    exact .same (.more more onWrite replies), fun _ => List.prefix_refl _⟩
  note {_ e} _ := ⟨by
    rintro _ _ ⟨more, onWrite, replies⟩
    exact .same (.more (w := Wire.log _ e) more onWrite replies), fun _ => List.prefix_append _ _⟩
  readChunk := readChunk_extends
  writeChunk packet := writeChunk_extends packet
  getrandom n := ⟨by
    rintro _ _ ⟨more, onWrite, replies⟩
    rename_i d w
    exact .same (.more (w := { w with drawn := w.drawn + n }) more onWrite replies), fun _ => List.prefix_refl _⟩
  create packetSize := ⟨by
    rintro _ _ ⟨more, onWrite, replies⟩
    rename_i d w
    exact .same (.more (w := { w with connections := w.connections + 1 }) more onWrite replies), fun _ => List.prefix_refl _⟩
  runLocal x t := .runLocal lasting x t
  inside i hx := inside_extends i hx
  loop b turn := .loop lasting (by
    rintro _ _ ⟨more, onWrite, replies⟩
    rw [List.length_append]
    exact Nat.le_add_right _ _) turn b

/-! ## Wires without -/

/-- No write from the `N`-th on is answered, and none of them has been tried. -/
def Silenced {γ : Type} (N : Nat) (h : Host γ) : Prop := (∀ n, N ≤ n → h.wire.onWrite n = .never) ∧ h.wire.written ≤ N

/-- **A call stops at the first write that is not answered.** -/
theorem stopping (N : Nat) : Composed fun γ _ x =>
    Comp.Triple (@Silenced γ N) x (fun _ => Silenced N) fun h => h.wire.written ≤ N + 1 := by
  have early : ∀ {γ : Type} (h : Host γ), Silenced N h → h.wire.written ≤ N + 1 := fun h silent => Nat.le_succ_of_le silent.2
  exact {
    pure a := .pure a fun _ silent => silent
    fail e := .fail e early
    drop := early
    bind first later := .bind first later
    own := fun _ silent => silent
    modifyOwn f := fun _ silent => silent
    note _ := fun _ silent => silent
    readChunk := by
      rintro γ h silent
      rcases inbox : h.wire.inbox with _ | ⟨_ | _, rest⟩ <;> simp only [Io.readChunk, inbox]
      · exact early h silent
      · exact early h silent
      · exact silent
    writeChunk packet := by
      rintro h ⟨silent, few⟩
      rcases Nat.lt_or_eq_of_le few with before | last
      · rcases reply : h.wire.onWrite h.wire.written with _ | _ | _ <;> simp only [Io.writeChunk, reply]
        · exact ⟨silent, before⟩
        · exact Nat.le_succ_of_le before
        · exact Nat.le_succ_of_le before
      · simp only [Io.writeChunk, silent _ (Nat.le_of_eq last.symm)]
        exact Nat.le_of_eq (congrArg (· + 1) last)
    getrandom n := fun _ silent => silent
    create packetSize := fun _ silent => silent
    runLocal x t := by
      intro h silent
      rcases ran : x.run t with ⟨_ | _ | _ | _, _⟩ <;> simp only [Comp.runLocal, ran]
      · exact silent
      all_goals exact early h silent
    inside i hx := by
      rename_i γ δ α β x y
      intro h silent
      rcases look : i.look h.own with _ | d
      · rw [i.missing h look]
        rcases i.stuck h.own with _ | _ | _ | _
        · exact silent
        all_goals exact early h silent
      · have ends := hx ⟨d, h.wire⟩ silent
        rw [i.found h d look]
        rcases ran : x.run ⟨d, h.wire⟩ with ⟨o, h'⟩
        rw [ran] at ends
        have few : h'.wire.written ≤ N + 1 := by
          cases o with
          | ok a => exact early h' ends
          | err | panicked | dropped => exact ends
        rcases done : i.finish h.own o h'.own with ⟨_ | _ | _ | _, own⟩
        · obtain ⟨a, rfl⟩ := i.value h.own o h'.own _ (by rw [done])
          exact ends
        all_goals exact few
    loop b turn := .loop (fun _ => early) (fun b => (turn b).conseq (fun _ h => h) (fun r _ h => by cases r <;> exact h) fun _ h => h)
      b }

/-! ## What a call writes -/

/-- The packets that were written, in order. -/
def wrotes (es : List Event) : List Bytes := es.filterMap Event.packet?

theorem wrotes_append (es es' : List Event) : wrotes (es ++ es') = wrotes es ++ wrotes es' := List.filterMap_append

/-- The writes that are recorded are as many as there were. -/
def Tallied {γ : Type} (h : Host γ) : Prop := (wrotes h.wire.trace).length = h.wire.written

theorem tallying : Composed fun γ _ x => Comp.Keeps (fun h h' : Host γ => Tallied h → Tallied h') x where
  pure a := fun _ => id
  fail e := fun _ => id
  drop := fun _ => id
  bind first later := .bind (fun _ _ _ h1 h2 => h2 ∘ h1) first later
  own := fun _ => id
  modifyOwn f := fun _ => id
  note {_ e} other := by
    intro h counted
    have silent : wrotes [e] = [] := List.filterMap_cons_none other
    rw [Tallied, Io.run_note, Wire.log_trace, wrotes_append, silent, List.append_nil]
    exact counted
  readChunk := by
    rintro γ h counted
    rcases inbox : h.wire.inbox with _ | ⟨_ | _, rest⟩ <;> simp only [Io.readChunk, inbox] <;> exact counted
  writeChunk packet := by
    rintro h counted
    have more : (wrotes (h.wire.log (.wrote packet)).trace).length = h.wire.written + 1 := by
      rw [Wire.log_trace, wrotes_append, List.length_append, counted]
      rfl
    rcases reply : h.wire.onWrite h.wire.written with _ | _ | _ <;> simp only [Io.writeChunk, reply] <;> exact more
  getrandom n := fun _ => id
  create packetSize := fun _ => id
  runLocal x t := .runLocal (fun _ => id) x t
  inside i hx := by
    intro h
    rcases look : i.look h.own with _ | d
    · rw [i.missing h look]
      exact id
    · rw [i.found h d look]
      exact hx ⟨d, h.wire⟩
  loop b turn := .loop (R := fun h h' => Tallied h → Tallied h') (fun _ => id) (fun _ _ _ h1 h2 => h2 ∘ h1) turn b

namespace Task

variable {K : Crates} {t t' : Task} {packet : Bytes}

variable (K) in
/-- The packets that a call in progress has written, with the one that it waits for. -/
def writes (t : Task) : List Bytes := wrotes (t.replay K []).2.wire.trace

theorem writes_length (t : Task) : (t.writes K).length = (t.replay K []).2.wire.written :=
  tallying.method t.method ⟨t.slot, t.wire []⟩ rfl

theorem writes_le (t : Task) : (t.writes K).length ≤ t.replies.length + 1 := by
  have silent : Silenced t.replies.length (⟨t.slot, t.wire []⟩ : Host Slot) := by
    refine ⟨fun n beyond => ?_, Nat.zero_le _⟩
    simp only [wire, List.getElem?_eq_none beyond]
  have ends := (stopping t.replies.length).method (K := K) t.method ⟨t.slot, t.wire []⟩ silent
  rw [writes_length, replay]
  split at ends
  · next ran =>
    rw [ran]
    exact Nat.le_succ_of_le ends.2
  · next ran =>
    rw [ran]
    exact ends

/-- The packet that a call waits to write is its next. -/
theorem awaits_next (waits : t.awaits K = some (.write packet)) :
    ∃ before, t.writes K = before ++ [packet] ∧ before.length = t.replies.length := by
  have most := t.writes_le (K := K)
  have count := t.writes_length (K := K)
  rw [awaits] at waits
  rcases ran : t.replay K [] with ⟨_ | _ | _ | _, h⟩ <;> rw [ran] at waits count <;> simp only at waits count
  case dropped =>
    by_cases due : t.replies.length < h.wire.written
    · simp only [due, if_true, Option.some.injEq, Await.write.injEq] at waits
      have count' : (t.writes K).length = t.replies.length + 1 := by omega
      have found : (t.writes K).getLast? = h.wire.trace.reverse.findSome? Event.packet? := by
        rw [writes, ran, wrotes, ← List.head?_reverse, ← List.filterMap_reverse, List.head?_filterMap]
      have last : (t.writes K).getLast? = some packet := by
        rcases named : h.wire.trace.reverse.findSome? Event.packet? with _ | packet'
        · rw [named, List.getLast?_eq_none_iff] at found
          rw [found] at count'
          cases count'
        · have same : lastWrite h.wire.trace = packet' := congrArg (·.getD []) named
          rw [found, named, ← waits, same]
      obtain ⟨before, parts⟩ := List.getLast?_eq_some_iff.1 last
      refine ⟨before, parts, ?_⟩
      rw [parts, List.length_append, List.length_singleton] at count'
      exact Nat.succ.inj count'
    · simp only [due, if_false] at waits
      split at waits <;> cases waits
  all_goals cases waits

/-- With more answers, a call writes at least what it has written. -/
theorem writes_prefix (method : t'.method = t.method) (slot : t'.slot = t.slot) (entropy : t'.entropy = t.entropy)
    (replies : t.replies <+: t'.replies) (chunks : t.chunks <+: t'.chunks) : t.writes K <+: t'.writes K := by
  obtain ⟨more, chunks⟩ := chunks
  obtain ⟨others, replies⟩ := replies
  have ahead : Ahead (⟨t.slot, t.wire []⟩ : Host Slot) ⟨t'.slot, t'.wire []⟩ := by
    have same : t'.wire [] = { t.wire [] with inbox := (t.wire []).inbox ++ more, onWrite := (t'.wire []).onWrite } := by
      simp only [wire, entropy, ← chunks, List.append_nil]
    rw [slot, same]
    refine .more more _ fun n answered => ?_
    simp only [wire, ← replies] at answered ⊢
    rcases reply : t.replies[n]? with _ | r
    · rw [reply] at answered
      exact absurd rfl answered
    · rw [List.getElem?_append_left (List.getElem?_eq_some_iff.1 reply).1, reply]
  have ends := (extending.method t.method (K := K)).outlasts _ _ ahead
  have further : Onward (t.replay K []).2 (t'.replay K []).2 := by
    rw [replay, replay, method]
    rcases ran : (t.method.run K).run ⟨t.slot, t.wire []⟩ with ⟨o, h⟩
    rcases ran' : (t.method.run K).run ⟨t'.slot, t'.wire []⟩ with ⟨o', h'⟩
    rw [ran, ran'] at ends
    cases ends with
    | same rel => exact lasting.sub _ _ rel
    | longer further => exact further
  obtain ⟨rest, parts⟩ := further
  exact ⟨wrotes rest, by rw [writes, writes, ← parts, wrotes_append]⟩

end Task

/-! ## One after another -/

namespace LinkOp

def written? : LinkOp → Option Bytes
  | wrote packet => some packet
  | read _ => none

def taken? : LinkOp → Option (Except TrezorTransportError Bytes)
  | wrote _ => none
  | read arrival => some arrival.chunk

end LinkOp

/-- Packets that the transport has brought, or its failures. -/
abbrev Arrivals := List (Except TrezorTransportError Bytes)

/-- Calls one after another, the slot they leave, and what they did on the link and read there. Each that
locks the slot finds what the one before it left, and it writes and reads what its own run does. -/
inductive InTurn (K : Crates) : List (Nat × Task) → Slot → List (Nat × LinkOp) → Arrivals → Prop
  | start : InTurn K [] none [] []
  | call {calls : List (Nat × Task)} {slot : Slot} {log : List (Nat × LinkOp)} {reads : Arrivals} {i : Nat} {t : Task}
      {ops : List LinkOp} : InTurn K calls slot log reads → t.slot = (if t.method.locks then slot else none) →
      ops.filterMap LinkOp.written? = (t.writes K).take t.replies.length → ops.filterMap LinkOp.taken? = t.chunks →
      InTurn K (calls ++ [(i, t)]) (if t.method.locks then (t.replay K []).2.own else slot) (log ++ ops.map (i, ·))
        (reads ++ t.chunks)

/-- A call that starts to use the link, and its random bytes. -/
def Act.enters : Act → Option (Method × (Nat → UInt8))
  | enter m entropy => if m.usesLink then some (m, entropy) else none
  | _ => none

/-- The answer to a write of the call `i`. -/
def Act.replyTo (i : Nat) : Act → Option (Except TrezorTransportError Unit)
  | write j reply => if j = i then some reply else none
  | _ => none

def Act.arrives : Act → Option (Except TrezorTransportError Bytes)
  | arrive a => some a.chunk
  | _ => none

/-- The calls are those that the acts start, in their order, each with its random bytes and the answers
they give to its writes, and they have read the first of what arrives. -/
structure Listed (w : World) (acts : List Act) (calls : List (Nat × Task)) (reads : Arrivals) : Prop where
  entered : calls.map (fun c => (c.2.method, c.2.entropy)) = acts.filterMap Act.enters
  ordered : (calls.map Prod.fst).Pairwise (· < ·)
  started : ∀ c ∈ calls, c.1 < w.started
  replied : ∀ c ∈ calls, c.2.replies = acts.filterMap (Act.replyTo c.1)
  unasked : ∀ i, w.started ≤ i → acts.filterMap (Act.replyTo i) = []
  arrived : acts.filterMap Act.arrives = reads ++ w.incoming.map Arrival.chunk

namespace Listed

variable {w w' : World} {acts : List Act} {a : Act} {calls : List (Nat × Task)} {reads : Arrivals}

theorem start : Listed {} [] [] [] where
  entered := rfl
  ordered := .nil
  started _ mem := absurd mem List.not_mem_nil
  replied _ mem := absurd mem List.not_mem_nil
  unasked _ _ := rfl
  arrived := rfl

theorem filterMap_snoc {β : Type} (f : Act → Option β) (acts : List Act) (a : Act) :
    (acts ++ [a]).filterMap f = acts.filterMap f ++ (f a).toList := by
  rw [List.filterMap_append, List.filterMap_cons]
  cases f a <;> rfl

/-- An act that neither starts a call on the link nor answers a write. -/
theorem skip (listed : Listed w acts calls reads) (enters : a.enters = none) (replies : ∀ i, a.replyTo i = none)
    (started : w.started ≤ w'.started) (incoming : w'.incoming.map Arrival.chunk = w.incoming.map Arrival.chunk ++ a.arrives.toList) :
    Listed w' (acts ++ [a]) calls reads where
  entered := by rw [filterMap_snoc, enters, Option.toList_none, List.append_nil, listed.entered]
  ordered := listed.ordered
  started c mem := Nat.lt_of_lt_of_le (listed.started c mem) started
  replied c mem := by rw [filterMap_snoc, replies, Option.toList_none, List.append_nil, listed.replied c mem]
  unasked i le := by rw [filterMap_snoc, replies, Option.toList_none, List.append_nil, listed.unasked i (started.trans le)]
  arrived := by rw [filterMap_snoc, listed.arrived, incoming, List.append_assoc]

/-- A call starts to use the link. -/
theorem enter (listed : Listed w acts calls reads) {m : Method} (uses : m.usesLink = true) (slot : Slot) (entropy : Nat → UInt8)
    (started : w'.started = w.started + 1) (incoming : w'.incoming = w.incoming) :
    Listed w' (acts ++ [.enter m entropy]) (calls ++ [(w.started, ⟨m, slot, entropy, [], []⟩)]) reads where
  entered := by
    rw [filterMap_snoc, List.map_append, listed.entered, Act.enters, if_pos uses]
    rfl
  ordered := by
    rw [List.map_append, List.pairwise_append]
    refine ⟨listed.ordered, List.pairwise_singleton _ _, fun i mem j new => ?_⟩
    obtain ⟨c, old, rfl⟩ := List.mem_map.1 mem
    rw [List.mem_singleton.1 new]
    exact listed.started c old
  started c mem := by
    rw [started]
    rcases List.mem_append.1 mem with old | new
    · exact Nat.lt_succ_of_lt (listed.started c old)
    · rw [List.mem_singleton.1 new]
      exact Nat.lt_succ_self _
  replied c mem := by
    rw [filterMap_snoc, show (Act.enter m entropy).replyTo c.1 = none from rfl, Option.toList_none, List.append_nil]
    rcases List.mem_append.1 mem with old | new
    · exact listed.replied c old
    · rw [List.mem_singleton.1 new]
      exact (listed.unasked _ (Nat.le_refl _)).symm
  unasked i le := by
    rw [filterMap_snoc, show (Act.enter m entropy).replyTo i = none from rfl, Option.toList_none, List.append_nil]
    exact listed.unasked i (by omega)
  arrived := by
    rw [filterMap_snoc, show (Act.enter m entropy).arrives = none from rfl, Option.toList_none, List.append_nil, incoming]
    exact listed.arrived

/-- The last call, which uses the link, has had an answer. -/
theorem answered {i : Nat} {t t' : Task} {reads' : Arrivals} (listed : Listed w acts (calls ++ [(i, t)]) reads)
    (method : t'.method = t.method) (entropy : t'.entropy = t.entropy) (replies : t'.replies = t.replies ++ (a.replyTo i).toList)
    (enters : a.enters = none) (others : ∀ j, j ≠ i → a.replyTo j = none) (arrives : a.arrives = none)
    (started : w'.started = w.started)
    (left : reads' ++ w'.incoming.map Arrival.chunk = reads ++ w.incoming.map Arrival.chunk) :
    Listed w' (acts ++ [a]) (calls ++ [(i, t')]) reads' := by
  obtain ⟨entered, ordered, older, replied, unasked, arrived⟩ := listed
  rw [List.map_append] at entered ordered
  have last : (i, t) ∈ calls ++ [(i, t)] := List.mem_append_right _ List.mem_cons_self
  have before : ∀ c ∈ calls, c.1 ≠ i := fun c mem =>
    Nat.ne_of_lt ((List.pairwise_append.1 ordered).2.2 _ (List.mem_map_of_mem mem) _ List.mem_cons_self)
  refine ⟨?_, ?_, fun c mem => ?_, fun c mem => ?_, fun j le => ?_, ?_⟩
  · rw [filterMap_snoc, enters, Option.toList_none, List.append_nil, ← entered, List.map_append]
    simp only [List.map_cons, List.map_nil, method, entropy]
  · rw [List.map_append]
    exact ordered
  · rw [started]
    rcases List.mem_append.1 mem with old | new
    · exact older c (List.mem_append_left _ old)
    · rw [List.mem_singleton.1 new]
      exact older (i, t) last
  · rw [filterMap_snoc]
    rcases List.mem_append.1 mem with old | new
    · rw [others c.1 (before c old), Option.toList_none, List.append_nil]
      exact replied c (List.mem_append_left _ old)
    · rw [List.mem_singleton.1 new, ← replied (i, t) last]
      exact replies
  · rw [started] at le
    rw [filterMap_snoc, others j (Nat.ne_of_gt (Nat.lt_of_lt_of_le (older (i, t) last) le)), Option.toList_none, List.append_nil]
    exact unasked j le
  · rw [filterMap_snoc, arrives, Option.toList_none, List.append_nil, arrived, left]

end Listed

/-- The call that uses the link now. -/
structure OnLink (K : Crates) (w : World) (i : Nat) (t : Task) (ops : List LinkOp) : Prop where
  running : w.tasks i = some t
  uses : t.method.usesLink = true
  holds : w.holder = if t.method.locks then some i else none
  found : t.slot = if t.method.locks then w.slot else none
  wrote : ops.filterMap LinkOp.written? = (t.writes K).take t.replies.length
  read : ops.filterMap LinkOp.taken? = t.chunks
  tried : t.replies.length ≤ (t.writes K).length

/-- Between steps, nobody uses the link, or one call does. -/
inductive LinkInTurn (K : Crates) (w : World) (acts : List Act) : Prop
  | idle {calls : List (Nat × Task)} {reads : Arrivals} : InTurn K calls w.slot w.log reads →
      (∀ j u, w.tasks j = some u → u.method.usesLink = false) → w.holder = none → Listed w acts calls reads → LinkInTurn K w acts
  | busy {calls : List (Nat × Task)} {log : List (Nat × LinkOp)} {reads : Arrivals} {i : Nat} {t : Task} {ops : List LinkOp} :
      InTurn K calls w.slot log reads → OnLink K w i t ops → w.log = log ++ ops.map (i, ·) →
      Listed w acts (calls ++ [(i, t)]) (reads ++ t.chunks) → LinkInTurn K w acts

namespace LinkInTurn

variable {K : Crates} {w w' : World} {acts : List Act}

theorem start : LinkInTurn K {} [] := by
  refine .idle InTurn.start (fun j u now => ?_) rfl .start
  cases now

/-- A call starts to use a link that nobody uses. -/
theorem starts {calls : List (Nat × Task)} {reads : Arrivals} (turns : InTurn K calls w.slot w.log reads)
    (listed : Listed w acts calls reads) {m : Method} (uses : m.usesLink = true) {slot : Slot} (entropy : Nat → UInt8)
    (found : slot = if m.locks then w.slot else none) {holder : Option Nat}
    (holds : holder = if m.locks then some w.started else none) :
    LinkInTurn K { w.setTask w.started (some ⟨m, slot, entropy, [], []⟩) with holder, started := w.started + 1 }
      (acts ++ [.enter m entropy]) := by
  have going : OnLink K { w.setTask w.started (some ⟨m, slot, entropy, [], []⟩) with holder, started := w.started + 1 } w.started
      ⟨m, slot, entropy, [], []⟩ [] :=
    ⟨if_pos rfl, uses, holds, found, rfl, rfl, Nat.zero_le _⟩
  refine .busy turns going (List.append_nil _).symm ?_
  rw [List.append_nil]
  exact listed.enter uses slot entropy rfl rfl

theorem enter (standing : LinkInTurn K w acts) (orderly : Orderly w) {m : Method} {entropy : Nat → UInt8} {slot : Slot}
    {holder : Option Nat} (admitted : Admitted w (.enter m entropy)) (free : m.locks = true → w.holder = none)
    (found : slot = if m.locks then w.slot else none) (holds : holder = if m.locks then some w.started else w.holder) :
    LinkInTurn K { w.setTask w.started (some ⟨m, slot, entropy, [], []⟩) with holder, started := w.started + 1 }
      (acts ++ [.enter m entropy]) := by
  by_cases uses : m.usesLink = true
  · cases standing with
    | idle turns alone unlocked listed =>
      rw [unlocked] at holds
      exact starts turns listed uses entropy found holds
    | @busy _ _ _ i t _ _ going _ _ =>
      -- one of the two would have to do without the lock, and then the other is not admitted
      have bare : m.bare = true ∨ t.method.bare = true := by
        by_cases locks : m.locks = true
        · have unlocked := orderly.unlocked (free locks) i t going.running
          exact .inr (by simpa [Method.usesLink, unlocked] using going.uses)
        · exact .inl (by simpa [Method.usesLink, locks] using uses)
      have idle := admitted uses (bare.imp_right fun bare => ⟨i, t, going.running, bare⟩) i t going.running
      rw [going.uses] at idle
      cases idle
  · have locks : ¬ m.locks = true := fun locks => uses (by rw [Method.usesLink, locks]; rfl)
    have silent : (Act.enter m entropy).enters = none := if_neg uses
    rw [if_neg locks] at holds
    subst holds
    cases standing with
    | idle turns alone unlocked listed =>
      refine .idle turns (fun j u now => ?_) unlocked (listed.skip silent (fun _ => rfl) (Nat.le_succ _) (List.append_nil _).symm)
      rcases World.setTask_running now with ⟨-, new⟩ | ⟨-, old⟩
      · cases new
        simpa using uses
      · exact alone j u old
    | @busy _ _ _ i t _ turns going log listed =>
      refine .busy turns ⟨?_, going.uses, going.holds, going.found, going.wrote, going.read, going.tried⟩ log
        (listed.skip silent (fun _ => rfl) (Nat.le_succ _) (List.append_nil _).symm)
      have other : i ≠ w.started := Nat.ne_of_lt (orderly.started i t going.running)
      change (w.setTask w.started _).tasks i = some t
      rw [World.setTask_tasks, if_neg other]
      exact going.running

/-- A call that has an operation to do on the link is the one that uses it. -/
theorem operates (standing : LinkInTurn K w acts) (orderly : Orderly w) {i : Nat} {t : Task} (running : w.tasks i = some t)
    (waits : t.awaits K ≠ none) : ∃ calls log reads ops, InTurn K calls w.slot log reads ∧ OnLink K w i t ops ∧
      w.log = log ++ ops.map (i, ·) ∧ Listed w acts (calls ++ [(i, t)]) (reads ++ t.chunks) := by
  have uses := Task.usesLink_of_awaits waits
  cases standing with
  | idle turns alone free listed =>
    rw [alone i t running] at uses
    cases uses
  | @busy _ _ _ j u _ turns going log listed =>
    obtain rfl : j = i := orderly.single j u i t going.running going.uses running uses
    obtain rfl : u = t := Option.some.inj (going.running.symm.trans running)
    exact ⟨_, _, _, _, turns, going, log, listed⟩

/-- It has done another operation. -/
theorem operated {calls : List (Nat × Task)} {log : List (Nat × LinkOp)} {reads : Arrivals} {incoming : List Arrival} {i : Nat}
    {t : Task} {ops : List LinkOp} {a : Act} (turns : InTurn K calls w.slot log reads) (going : OnLink K w i t ops)
    (logged : w.log = log ++ ops.map (i, ·)) (op : LinkOp) (t' : Task) (method : t'.method = t.method)
    (slot : t'.slot = t.slot) (wrote : (ops ++ [op]).filterMap LinkOp.written? = (t'.writes K).take t'.replies.length)
    (read : (ops ++ [op]).filterMap LinkOp.taken? = t'.chunks) (tried : t'.replies.length ≤ (t'.writes K).length)
    (listed : Listed { w.setTask i (some t') with incoming, log := w.log ++ [(i, op)] } (acts ++ [a]) (calls ++ [(i, t')])
      (reads ++ t'.chunks)) :
    LinkInTurn K { w.setTask i (some t') with incoming, log := w.log ++ [(i, op)] } (acts ++ [a]) := by
  have going' : OnLink K { w.setTask i (some t') with incoming, log := w.log ++ [(i, op)] } i t' (ops ++ [op]) := by
    refine ⟨if_pos rfl, ?_, ?_, ?_, wrote, read, tried⟩
    · rw [method]
      exact going.uses
    · rw [method]
      exact going.holds
    · rw [method, slot]
      exact going.found
  refine .busy turns going' ?_ listed
  change w.log ++ [(i, op)] = _
  rw [logged, List.map_append, List.append_assoc]
  rfl

theorem write (standing : LinkInTurn K w acts) (orderly : Orderly w) {i : Nat} {t : Task} {packet : Bytes}
    (reply : Except TrezorTransportError Unit) (running : w.tasks i = some t) (waits : t.awaits K = some (.write packet)) :
    LinkInTurn K { w.setTask i (some { t with replies := t.replies ++ [reply] }) with log := w.log ++ [(i, .wrote packet)] }
      (acts ++ [.write i reply]) := by
  obtain ⟨calls, log, reads, ops, turns, going, logged, listed⟩ := standing.operates orderly running (by simp [waits])
  obtain ⟨before, next, count⟩ := Task.awaits_next waits
  obtain ⟨rest, more⟩ : t.writes K <+: ({ t with replies := t.replies ++ [reply] } : Task).writes K :=
    Task.writes_prefix rfl rfl rfl (List.prefix_append _ _) (List.prefix_refl _)
  rw [next] at more
  have counted : (t.replies ++ [reply]).length = (before ++ [packet]).length := by
    rw [List.length_append, List.length_append, count]
    rfl
  refine operated turns going logged (.wrote packet) { t with replies := t.replies ++ [reply] } rfl rfl ?_ ?_ ?_ ?_
  · rw [List.filterMap_append, going.wrote, next, ← count, List.take_left, ← more, counted, List.take_left]
    rfl
  · rw [List.filterMap_append, going.read]
    exact List.append_nil _
  · rw [← more, counted]
    exact (List.prefix_append _ _).length_le
  · exact listed.answered (a := .write i reply) rfl rfl (by rw [Act.replyTo, if_pos rfl]; rfl) rfl
      (fun j other => if_neg other.symm) rfl rfl rfl

theorem read (standing : LinkInTurn K w acts) (orderly : Orderly w) {i : Nat} {t : Task} {a : Arrival} {rest : List Arrival}
    (running : w.tasks i = some t) (arrived : w.incoming = a :: rest) (waits : t.awaits K = some .read) :
    LinkInTurn K { w.setTask i (some { t with chunks := t.chunks ++ [a.chunk] }) with
      incoming := rest, log := w.log ++ [(i, .read a)] } (acts ++ [.read i]) := by
  obtain ⟨calls, log, reads, ops, turns, going, logged, listed⟩ := standing.operates orderly running (by simp [waits])
  obtain ⟨others, more⟩ : t.writes K <+: ({ t with chunks := t.chunks ++ [a.chunk] } : Task).writes K :=
    Task.writes_prefix rfl rfl rfl (List.prefix_refl _) (List.prefix_append _ _)
  refine operated turns going logged (.read a) { t with chunks := t.chunks ++ [a.chunk] } rfl rfl ?_ ?_ ?_ ?_
  · rw [List.filterMap_append, going.wrote, ← more, List.take_append_of_le_length going.tried]
    exact List.append_nil _
  · rw [List.filterMap_append, going.read]
    rfl
  · rw [← more, List.length_append]
    exact Nat.le_add_right_of_le going.tried
  · refine listed.answered (a := .read i) rfl rfl (List.append_nil _).symm rfl (fun _ _ => rfl) rfl rfl ?_
    rw [arrived, List.map_cons, ← List.append_assoc, List.append_assoc]
    rfl

/-- The call that uses the link ends, and its slot is what it leaves if it had the lock. -/
theorem leave (standing : LinkInTurn K w acts) (orderly : Orderly w) {i : Nat} {t : Task} {slot : Slot} {holder : Option Nat}
    (running : w.tasks i = some t) (left : slot = if w.holder = some i then (t.replay K []).2.own else w.slot)
    (released : holder = if w.holder = some i then none else w.holder) :
    LinkInTurn K { w.setTask i none with holder, slot } (acts ++ [.leave i]) := by
  have ended : ∀ {calls : List (Nat × Task)} {reads : Arrivals}, Listed w acts calls reads →
      Listed { w.setTask i none with holder, slot } (acts ++ [.leave i]) calls reads := fun listed =>
    listed.skip rfl (fun _ => rfl) (Nat.le_refl _) (List.append_nil _).symm
  cases standing with
  | idle turns alone free listed =>
    rw [free, if_neg (Option.some_ne_none i).symm] at left released
    subst left
    exact .idle turns (fun j u now => alone j u (World.setTask_others now).2) released (ended listed)
  | @busy _ _ _ j u _ turns going log listed =>
    by_cases mine : j = i
    · subst mine
      obtain rfl : u = t := Option.some.inj (going.running.symm.trans running)
      have alone : ∀ k v, (w.setTask j none).tasks k = some v → v.method.usesLink = false := by
        intro k v now
        obtain ⟨other, was⟩ := World.setTask_others now
        by_contra busy
        exact other (orderly.single k v j u was (by simpa using busy) going.running going.uses)
      have turns := turns.call (i := j) going.found going.wrote going.read
      rw [← log] at turns
      by_cases locks : u.method.locks = true
      · rw [going.holds, if_pos locks, if_pos rfl] at left released
        rw [if_pos locks, ← left] at turns
        exact .idle turns alone released (ended listed)
      · rw [going.holds, if_neg locks, if_neg (Option.some_ne_none j).symm] at left released
        rw [if_neg locks, ← left] at turns
        exact .idle turns alone released (ended listed)
    · have other : w.holder ≠ some i := by
        rw [going.holds]
        split
        · exact fun same => mine (Option.some.inj same)
        · exact (Option.some_ne_none i).symm
      rw [if_neg other] at left released
      subst left released
      refine .busy turns ⟨?_, going.uses, going.holds, going.found, going.wrote, going.read, going.tried⟩ log (ended listed)
      change (w.setTask i none).tasks j = some u
      rw [World.setTask_tasks, if_neg mine]
      exact going.running

/-- **One step** keeps the calls one after another. -/
theorem step (standing : LinkInTurn K w acts) (orderly : Orderly w) {a : Act} (admitted : Admitted w a)
    (step : w.step K a = some w') : LinkInTurn K w' (acts ++ [a]) := by
  cases World.stepped step with
  | enterLocked locks free => exact standing.enter orderly admitted (fun _ => free) (if_pos locks).symm (if_pos locks).symm
  | @enterFree m _ free =>
    have unlocked : ¬ m.locks = true := fun locks => by
      rw [free] at locks
      cases locks
    exact standing.enter orderly admitted (fun locks => absurd locks unlocked) (if_neg unlocked).symm (if_neg unlocked).symm
  | write running waits => exact standing.write orderly _ running waits
  | read running arrived waits => exact standing.read orderly running arrived waits
  | @arrive b =>
    have more : ∀ {calls : List (Nat × Task)} {reads : Arrivals}, Listed w acts calls reads →
        Listed { w with incoming := w.incoming ++ [b] } (acts ++ [.arrive b]) calls reads := fun listed =>
      listed.skip rfl (fun _ => rfl) (Nat.le_refl _) (List.map_append ..)
    cases standing with
    | idle turns alone free listed => exact .idle turns alone free (more listed)
    | busy turns going log listed =>
      exact .busy turns ⟨going.running, going.uses, going.holds, going.found, going.wrote, going.read, going.tried⟩ log (more listed)
  | leaveLocked running holds => exact standing.leave orderly running (if_pos holds).symm (if_pos holds).symm
  | leaveFree running others => exact standing.leave orderly running (if_neg others).symm (if_neg others).symm

/-- **Every run** does. -/
theorem run {w : World} (admitted : AdmittedRun K {} acts) (run : World.run K {} acts = some w) : LinkInTurn K w acts := by
  have kept : ∀ (past : List Act) (w : World) (a : Act) (w' : World), Orderly w ∧ LinkInTurn K w past → Admitted w a →
      w.step K a = some w' → Orderly w' ∧ LinkInTurn K w' (past ++ [a]) :=
    fun _ _ _ _ now admitted step => ⟨now.1.step admitted step, now.2.step now.1 admitted step⟩
  exact (admitted.run kept [] ⟨Orderly.start, start⟩ run).2

end LinkInTurn

/-- **Interleaved calls are calls in turn.** In every interleaving in which `thp_probe` and
`establish_paired_session` run beside no other call, the calls that use the link do what they would
do one after another, in the order they were started: on the link, with what arrives, and to the slot. -/
theorem serializable (K : Crates) (acts : List Act) (w : World) (admitted : AdmittedRun K {} acts)
    (run : World.run K {} acts = some w) :
    ∃ calls slot reads, InTurn K calls slot w.log reads ∧ Listed w acts calls reads ∧
      ((∀ i t, w.tasks i = some t → t.method.usesLink = false) → slot = w.slot) := by
  cases LinkInTurn.run admitted run with
  | idle turns _ _ listed => exact ⟨_, _, _, turns, listed, fun _ => rfl⟩
  | @busy _ _ _ i t _ turns going log listed =>
    have left := turns.call (i := i) going.found going.wrote going.read
    rw [← log] at left
    refine ⟨_, _, _, left, listed, fun alone => ?_⟩
    have idle := alone i t going.running
    rw [going.uses] at idle
    cases idle

/-- The two calls in turn: the second starts with the connection that the first has pinned. -/
theorem serializable_sample : ∃ w, World.run Crates.wallets {} callsInTurn = some w ∧
    w.users = List.replicate 17 0 ++ List.replicate 3 1 ∧ w.slot.isSome = true ∧
    ∃ calls slot reads, InTurn Crates.wallets calls slot w.log reads ∧ Listed w callsInTurn calls reads ∧
      ((∀ i t, w.tasks i = some t → t.method.usesLink = false) → slot = w.slot) := by
  obtain ⟨_, w, -, -, -, run, users, slot, -⟩ := callsInTurn_run
  exact ⟨w, run, users, slot, serializable Crates.wallets callsInTurn w callsInTurn_admitted run⟩

end TrezorCore.Client
