import TrezorCore.Client.Interleaving
import TrezorCore.Lib.Turns

/-!
# Exclusive use of the link

While calls run side by side, one at a time uses the link, from its first operation to its last,
and what it reads is not meant for another. The locked operations keep to that among
themselves; `thp_probe` and `establish_paired_session` have to run beside no other call, and no
answer may be late.
-/

namespace TrezorCore.Client

variable (K : Crates)

/-- The calls of the transport operations, in order. -/
def World.users (w : World) : List Nat := w.log.map Prod.fst

/-- No call's transport operations are separated by another's, and no call has read a packet that the
device sent in answer to another. -/
structure ExclusiveLink (w : World) : Prop where
  unbroken : Turns.Exclusive w.users
  answered : ∀ i a, (i, .read a) ∈ w.log → a.MeantFor i

/-- A call that uses the link starts beside no other, if one of the two does it without the lock. -/
def Admitted (w : World) : Act → Prop
  | .enter m _ => m.usesLink = true → (m.bare = true ∨ ∃ i t, w.tasks i = some t ∧ t.method.bare = true) →
      ∀ i t, w.tasks i = some t → t.method.usesLink = false
  | _ => True

/-- So do all in a run. -/
abbrev AdmittedRun (w : World) (acts : List Act) : Prop := w.Throughout K Admitted acts

/-- No answer is late: none to another call waits on the link when a call starts to use it, and none
arrives as long as it does. -/
def Timely (w : World) : Act → Prop
  | .enter m _ => m.usesLink = true → ∀ a ∈ w.incoming, a.MeantFor w.started
  | .arrive a => ∀ i t, w.tasks i = some t → t.method.usesLink = true → a.MeantFor i
  | _ => True

/-- A run in which every call that uses the link is admitted and no answer is late. -/
abbrev TimelyRun (w : World) (acts : List Act) : Prop := w.Throughout K (fun w a => Admitted w a ∧ Timely w a) acts

/-- The calls in progress that use the link are one at most, and it is that one's turn. -/
structure Orderly (w : World) : Prop where
  locked : ∀ i t, w.tasks i = some t → t.method.locks = true → w.holder = some i
  single : ∀ i t j u, w.tasks i = some t → t.method.usesLink = true → w.tasks j = some u → u.method.usesLink = true → i = j
  started : ∀ i t, w.tasks i = some t → i < w.started
  logged : ∀ i ∈ w.users, i < w.started
  turn : ∀ i t, w.tasks i = some t → t.method.usesLink = true → Turns.Turn i w.users
  exclusive : Turns.Exclusive w.users

/-- What waits for the call that uses the link is meant for it, and what was read was. -/
structure Addressed (w : World) : Prop where
  waiting : ∀ i t, w.tasks i = some t → t.method.usesLink = true → ∀ a ∈ w.incoming, a.MeantFor i
  taken : ∀ i a, (i, .read a) ∈ w.log → a.MeantFor i

section Proofs

variable {K} {w w' : World} {i : Nat} {t : Task}

/-- A transport operation of a call in progress. -/
theorem Orderly.operate (orderly : Orderly w) (running : w.tasks i = some t) (busy : t.awaits K ≠ none) (op : LinkOp)
    (t' : Task) (same : t'.method = t.method) (incoming : List Arrival) :
    Orderly { w.setTask i (some t') with incoming, log := w.log ++ [(i, op)] } := by
  have uses := Task.usesLink_of_awaits busy
  have before : ∀ j u, (w.setTask i (some t')).tasks j = some u → ∃ v, w.tasks j = some v ∧ v.method = u.method :=
    fun j u => World.setTask_before running t' same
  have users : ({ w.setTask i (some t') with incoming, log := w.log ++ [(i, op)] } : World).users = w.users ++ [i] := by
    simp [World.users]
  refine ⟨fun j u now locks => ?_, fun j u k v now uses nowToo usesToo => ?_, fun j u now => ?_, fun j used => ?_,
    fun j u now uses' => ?_, ?_⟩
  · obtain ⟨v, was, method⟩ := before j u now
    exact orderly.locked j v was (method ▸ locks)
  · obtain ⟨u', was, method⟩ := before j u now
    obtain ⟨v', wasToo, methodToo⟩ := before k v nowToo
    exact orderly.single j u' k v' was (method ▸ uses) wasToo (methodToo ▸ usesToo)
  · obtain ⟨v, was, -⟩ := before j u now
    exact orderly.started j v was
  · rw [users] at used
    rcases List.mem_append.1 used with old | new
    · exact orderly.logged j old
    · rw [List.mem_singleton.1 new]
      exact orderly.started i t running
  · obtain ⟨v, was, method⟩ := before j u now
    have me : j = i := orderly.single j v i t was (method ▸ uses') running uses
    rw [users, me]
    exact (orderly.turn i t running uses).append
  · rw [users]
    exact orderly.exclusive.append (orderly.turn i t running uses)

/-- A call that starts, alone on the link if it uses it. -/
theorem Orderly.joined (orderly : Orderly w) {holder : Option Nat}
    (alone : t.method.usesLink = true → ∀ j u, w.tasks j = some u → u.method.usesLink = false)
    (keeps : ∀ j u, w.tasks j = some u → u.method.locks = true → holder = some j)
    (holds : t.method.locks = true → holder = some w.started) :
    Orderly { w.setTask w.started (some t) with holder, started := w.started + 1 } := by
  have cases_of : ∀ j u, (w.setTask w.started (some t)).tasks j = some u → j = w.started ∧ u = t ∨ w.tasks j = some u :=
    fun j u now => (World.setTask_running now).imp (fun new => ⟨new.1, (Option.some.inj new.2).symm⟩) And.right
  refine ⟨fun j u now locks => ?_, fun j u k v now uses nowToo usesToo => ?_, fun j u now => ?_,
    fun j used => Nat.lt_succ_of_lt (orderly.logged j used), fun j u now uses => ?_, orderly.exclusive⟩
  · rcases cases_of j u now with ⟨rfl, rfl⟩ | old
    · exact holds locks
    · exact keeps j u old locks
  · rcases cases_of j u now with ⟨rfl, rfl⟩ | old <;> rcases cases_of k v nowToo with ⟨rfl, rfl⟩ | oldToo
    · rfl
    · rw [alone uses k v oldToo] at usesToo
      cases usesToo
    · rw [alone usesToo j u old] at uses
      cases uses
    · exact orderly.single j u k v old uses oldToo usesToo
  · rcases cases_of j u now with ⟨rfl, rfl⟩ | old
    · exact Nat.lt_succ_self _
    · exact Nat.lt_succ_of_lt (orderly.started j u old)
  · rcases cases_of j u now with ⟨rfl, rfl⟩ | old
    · exact .of_not_mem fun used => lt_irrefl _ (orderly.logged _ used)
    · exact orderly.turn j u old uses

/-- A call that locks the slot beside none that does. -/
theorem Orderly.unlocked (orderly : Orderly w) (free : w.holder = none) (j : Nat) (u : Task) (running : w.tasks j = some u) :
    u.method.locks = false := by
  by_contra locked
  have := orderly.locked j u running (by simpa using locked)
  rw [free] at this
  cases this

/-- A call that ends. -/
theorem Orderly.left (orderly : Orderly w) {holder : Option Nat} (slot : Slot)
    (keeps : ∀ j, j ≠ i → w.holder = some j → holder = some j) : Orderly { w.setTask i none with holder, slot } := by
  have before : ∀ j u, (w.setTask i none).tasks j = some u → j ≠ i ∧ w.tasks j = some u := fun _ _ => World.setTask_others
  refine ⟨fun j u now locks => ?_, fun j u k v now uses nowToo usesToo => ?_, fun j u now => ?_, orderly.logged,
    fun j u now uses => ?_, orderly.exclusive⟩
  · obtain ⟨other, was⟩ := before j u now
    exact keeps j other (orderly.locked j u was locks)
  · exact orderly.single j u k v (before j u now).2 uses (before k v nowToo).2 usesToo
  · exact orderly.started j u (before j u now).2
  · exact orderly.turn j u (before j u now).2 uses

/-- **One step** keeps the calls in order. -/
theorem Orderly.step (orderly : Orderly w) {a : Act} (admitted : Admitted w a) (step : w.step K a = some w') : Orderly w' := by
  cases World.stepped step with
  | @enterLocked m entropy locks free =>
    refine orderly.joined (fun uses j u running => ?_) (fun j u running locked => ?_) fun _ => rfl
    · -- nobody holds the lock, so a call beside this one would have to do without
      by_contra busy
      have bare : u.method.bare = true := by simpa [Method.usesLink, orderly.unlocked free j u running] using busy
      exact busy (admitted uses (.inr ⟨j, u, running, bare⟩) j u running)
    · rw [orderly.unlocked free j u running] at locked
      cases locked
  | @enterFree m entropy free =>
    refine orderly.joined (fun uses => ?_) orderly.locked fun locked => ?_
    · have bare : m.bare = true := by simpa [Method.usesLink, free] using uses
      exact admitted uses (.inl bare)
    · rw [show m.locks = true from locked] at free
      cases free
  | @write i t packet reply running waits =>
    exact orderly.operate (K := K) running (by simp [waits]) (.wrote packet) { t with replies := t.replies ++ [reply] } rfl
      w.incoming
  | @read i t a rest running arrived waits =>
    exact orderly.operate (K := K) running (by simp [waits]) (.read a) { t with chunks := t.chunks ++ [a.chunk] } rfl rest
  | arrive => exact ⟨orderly.locked, orderly.single, orderly.started, orderly.logged, orderly.turn, orderly.exclusive⟩
  | leaveLocked running holds =>
    refine orderly.left _ fun j other held => ?_
    rw [holds] at held
    exact absurd (Option.some.inj held).symm other
  | leaveFree running others => exact orderly.left w.slot fun _ _ held => held

theorem Orderly.start : Orderly {} where
  locked _ _ none := by cases none
  single _ _ _ _ none := by cases none
  started _ _ none := by cases none
  logged _ none := by cases none
  turn _ _ none := by cases none
  exclusive := Turns.Exclusive.nil

/-- **Every run** does. -/
theorem Orderly.run (orderly : Orderly w) {acts : List Act} (admitted : AdmittedRun K w acts)
    (run : w.run K acts = some w') : Orderly w' := by
  have kept : ∀ (past : List Act) (w : World) (a : Act) (w' : World), Orderly w → Admitted w a → w.step K a = some w' → Orderly w' :=
    fun _ _ _ _ orderly admitted step => orderly.step admitted step
  exact admitted.run kept [] orderly run

/-! ### Answers to other calls -/

/-- A call that starts, with no answer to another call before it. -/
theorem Addressed.joined (addressed : Addressed w) {holder : Option Nat}
    (clear : t.method.usesLink = true → ∀ a ∈ w.incoming, a.MeantFor w.started) :
    Addressed { w.setTask w.started (some t) with holder, started := w.started + 1 } := by
  refine ⟨fun j u now uses => ?_, addressed.taken⟩
  rcases World.setTask_running now with ⟨rfl, new⟩ | ⟨-, old⟩
  · cases new
    exact clear uses
  · exact addressed.waiting j u old uses

/-- A transport operation of a call in progress. -/
theorem Addressed.operate (addressed : Addressed w) (running : w.tasks i = some t) (busy : t.awaits K ≠ none) {op : LinkOp}
    (t' : Task) (same : t'.method = t.method) {incoming : List Arrival} (left : ∀ a ∈ incoming, a ∈ w.incoming)
    (waited : ∀ a, op = .read a → a ∈ w.incoming) :
    Addressed { w.setTask i (some t') with incoming, log := w.log ++ [(i, op)] } := by
  have uses := Task.usesLink_of_awaits busy
  constructor
  · intro j u now uses' a mem
    obtain ⟨v, was, method⟩ := World.setTask_before running t' same now
    exact addressed.waiting j v was (method ▸ uses') a (left a mem)
  · intro j a mem
    rcases List.mem_append.1 mem with old | new
    · exact addressed.taken j a old
    · cases List.mem_singleton.1 new
      exact addressed.waiting i t running uses a (waited a rfl)

/-- **One step** delivers nothing to another call. -/
theorem Addressed.step (addressed : Addressed w) {a : Act} (timely : Timely w a) (step : w.step K a = some w') : Addressed w' := by
  cases World.stepped step with
  | enterLocked | enterFree => exact addressed.joined timely
  | @write i t packet reply running waits =>
    exact addressed.operate (K := K) running (by simp [waits]) { t with replies := t.replies ++ [reply] } rfl
      (fun _ mem => mem) nofun
  | @read i t b rest running arrived waits =>
    refine addressed.operate (K := K) running (by simp [waits]) { t with chunks := t.chunks ++ [b.chunk] } rfl
      (fun c mem => ?_) fun c same => ?_
    · rw [arrived]
      exact List.mem_cons_of_mem b mem
    · cases same
      rw [arrived]
      exact List.mem_cons_self
  | arrive =>
    refine ⟨fun i t running uses c mem => ?_, addressed.taken⟩
    rcases List.mem_append.1 mem with old | new
    · exact addressed.waiting i t running uses c old
    · rw [List.mem_singleton.1 new]
      exact timely i t running uses
  | leaveLocked | leaveFree =>
    exact ⟨fun j u now => addressed.waiting j u (World.setTask_others now).2, addressed.taken⟩

theorem Addressed.start : Addressed {} where
  waiting _ _ none := by cases none
  taken _ _ none := by cases none

/-! ### Pinned operations only -/

/-- With no call that does without the lock, every interleaving is admitted. -/
theorem admitted_of_locked {acts : List Act} (none : ∀ i t, w.tasks i = some t → t.method.bare = false)
    (locked : ∀ m entropy, .enter m entropy ∈ acts → m.bare = false) : AdmittedRun K w acts := by
  induction acts generalizing w with
  | nil => trivial
  | cons a acts ih =>
    refine ⟨?_, fun w' step => ih (fun j u running => ?_) fun m entropy member => locked m entropy (.tail _ member)⟩
    · cases a with
      | enter m entropy =>
        rintro - (bare | ⟨i, t, running, bare⟩)
        · rw [locked m entropy (.head _)] at bare
          cases bare
        · rw [none i t running] at bare
          cases bare
      | _ => trivial
    · rcases World.step_tasks step running with ⟨v, was, method⟩ | ⟨-, entropy, rfl⟩
      · rw [← method]
        exact none j v was
      · exact locked _ entropy (.head _)

/-- What arrives answers the call `i`, and no other starts. -/
def Act.Alone (i : Nat) : Act → Prop
  | .enter _ _ => False
  | .arrive a => a.MeantFor i
  | _ => True

/-- No answer is late for the only call on the link. -/
theorem timely_alone {acts : List Act} (only : ∀ j u, w.tasks j = some u → u.method.usesLink = true → j = i)
    (alone : ∀ a ∈ acts, a.Alone i) : w.Throughout K Timely acts := by
  induction acts generalizing w with
  | nil => trivial
  | cons a acts ih =>
    have first := alone a List.mem_cons_self
    refine ⟨?_, fun w' step => ih (fun j u running uses => ?_) fun b mem => alone b (List.mem_cons_of_mem a mem)⟩
    · cases a with
      | enter m entropy => exact first.elim
      | arrive b =>
        intro j u running uses
        rw [only j u running uses]
        exact first
      | _ => trivial
    · rcases World.step_tasks step running with ⟨v, was, method⟩ | ⟨-, entropy, rfl⟩
      · exact only j v was (method ▸ uses)
      · exact first.elim

/-- Nor for a call that has the link to itself, with nothing waiting there when it starts. -/
theorem timely_call {acts : List Act} (idle : ∀ j u, w.tasks j = some u → u.method.usesLink = false) (clear : w.incoming = [])
    (m : Method) (entropy : Nat → UInt8) (alone : ∀ a ∈ acts, a.Alone w.started) :
    w.Throughout K Timely (.enter m entropy :: acts) := by
  refine ⟨fun _ a mem => ?_, fun w' step => timely_alone (fun j u running uses => ?_) alone⟩
  · rw [clear] at mem
    cases mem
  · rcases World.step_tasks step running with ⟨v, was, method⟩ | ⟨mine, -⟩
    · rw [← method, idle j v was] at uses
      cases uses
    · exact mine

end Proofs

/-- **Exclusive use of the link.** In every interleaving in which `thp_probe` and
`establish_paired_session` run beside no other call and no answer is late, no call's transport
operations are separated by another's, and no call reads an answer to another. -/
theorem exclusive_link (K : Crates) (acts : List Act) (w : World) (timely : TimelyRun K {} acts)
    (run : World.run K {} acts = some w) : ExclusiveLink w := by
  have kept : ∀ (past : List Act) (w : World) (a : Act) (w' : World), Orderly w ∧ Addressed w → Admitted w a ∧ Timely w a →
      w.step K a = some w' → Orderly w' ∧ Addressed w' :=
    fun _ _ _ _ now meets step => ⟨now.1.step meets.1 step, now.2.step meets.2 step⟩
  have ends := timely.run kept [] ⟨Orderly.start, Addressed.start⟩ run
  exact ⟨ends.1.exclusive, ends.2.taken⟩

/-! ### Two calls in turn -/

/-- A call writes a message, reads the answer and acknowledges it. -/
def exchange (i : Nat) (answer : Except TrezorTransportError Bytes) : List Act :=
  [.write i (.ok ()), .arrive ⟨answer, some i⟩, .read i, .write i (.ok ())]

/-- The device's packets up to its first address, when its messages stand for its ACKs. -/
def firstAnswers : List (Except TrezorTransportError Bytes) :=
  packetsOf ((handshakeFrames ++ ((openingAnswers ++ [addressAnswer "0xA"]).mapIdx answerFrames).flatten).filter fun f =>
    !Framing.Control.isAck f.ctrl)

/-- The device's answer to the channel request of a call. -/
def allocationResponse : Except TrezorTransportError Bytes := firstAnswers.headD (.ok [])

/-- A call for an address: a channel, the handshake, the session and the address. -/
def callForA : List Act :=
  .enter (.pinned (addressCall 0)) (fun _ => 3) :: .write 0 (.ok ()) :: .arrive ⟨allocationResponse, some 0⟩ :: .read 0 ::
    (firstAnswers.drop 1).flatMap (exchange 0)

/-- A call for another: it finds the connection that the first has pinned. -/
def callForB : List Act :=
  .enter (.pinned (addressCall 1)) (fun _ => 4) ::
    exchange 1 ((packetsOf ((answerFrames 3 (addressAnswer "0xB")).drop 1)).headD (.ok []))

def callsInTurn : List Act := callForA ++ .leave 0 :: callForB

theorem callsInTurn_run : ∃ w w', World.run Crates.wallets {} callForA = some w ∧ w.incoming = [] ∧ w.started = 1 ∧
    World.run Crates.wallets {} callsInTurn = some w' ∧ w'.users = List.replicate 17 0 ++ List.replicate 3 1 ∧
      w'.slot.isSome = true ∧ ∃ packet, (1, .wrote packet) ∈ w'.log := by
  have runs : (World.run Crates.wallets {} callForA).map (fun w => (w.incoming.isEmpty, w.started,
      (w.run Crates.wallets (.leave 0 :: callForB)).map fun w => (w.users, w.slot.isSome, w.log.any fun
        | (1, .wrote _) => true
        | _ => false))) = some (true, 1, some (List.replicate 17 0 ++ List.replicate 3 1, true, true)) := by
    decide +kernel
  obtain ⟨w, first, facts⟩ := Option.map_eq_some_iff.1 runs
  simp only [Prod.mk.injEq, List.isEmpty_iff] at facts
  obtain ⟨w', second, facts'⟩ := Option.map_eq_some_iff.1 facts.2.2
  simp only [Prod.mk.injEq] at facts'
  refine ⟨w, w', first, facts.1, facts.2.1, ?_, facts'.1, facts'.2.1, ?_⟩
  · rw [callsInTurn, World.run_append, first]
    exact second
  · obtain ⟨⟨i, op⟩, logged, wrote⟩ := List.any_eq_true.1 facts'.2.2
    split at wrote
    · next packet same =>
      cases same
      exact ⟨packet, logged⟩
    · cases wrote

theorem exchange_alone {i : Nat} {answer : Except TrezorTransportError Bytes} {a : Act} (mem : a ∈ exchange i answer) : a.Alone i := by
  simp only [exchange, List.mem_cons, List.not_mem_nil, or_false] at mem
  rcases mem with rfl | rfl | rfl | rfl
  · trivial
  · exact fun j same => (Option.some.inj same).symm
  · trivial
  · trivial

/-- Once it has started, the first call is alone. -/
theorem callForA_alone : ∀ a ∈ callForA.tail, a.Alone 0 := by
  intro a mem
  simp only [callForA, List.tail_cons, List.mem_cons, List.mem_flatMap] at mem
  rcases mem with rfl | rfl | rfl | ⟨chunk, -, mem⟩
  · trivial
  · exact fun j same => (Option.some.inj same).symm
  · trivial
  · exact exchange_alone mem

/-- Both take the lock. -/
theorem callsInTurn_locked {m : Method} {entropy : Nat → UInt8} (member : .enter m entropy ∈ callsInTurn) : m.bare = false := by
  rcases List.mem_append.1 member with first | second
  · rcases List.mem_cons.1 first with start | later
    · cases start
      rfl
    · exact (callForA_alone _ later).elim
  · rcases List.mem_cons.1 second with leave | second
    · cases leave
    · rcases List.mem_cons.1 second with start | later
      · cases start
        rfl
      · exact (exchange_alone later).elim

theorem callsInTurn_admitted : AdmittedRun Crates.wallets {} callsInTurn :=
  admitted_of_locked (fun _ _ none => by cases none) fun _ _ => callsInTurn_locked

theorem exclusive_link_sample :
    ∃ w, World.run Crates.wallets {} callsInTurn = some w ∧ w.users = List.replicate 17 0 ++ List.replicate 3 1 ∧
      w.slot.isSome = true ∧ ExclusiveLink w := by
  obtain ⟨w, w', first, clear, started, run, users, slot, -⟩ := callsInTurn_run
  have orderly : Orderly w :=
    Orderly.start.run (admitted_of_locked (fun _ _ none => by cases none) fun _ _ mem =>
      callsInTurn_locked (List.mem_append_left _ mem)) first
  have timely : World.Throughout Crates.wallets Timely {} callsInTurn := by
    refine .append (timely_call (fun _ _ none => by cases none) rfl _ _ callForA_alone) fun v reached => ⟨trivial, fun next left => ?_⟩
    obtain rfl : w = v := Option.some.inj (first.symm.trans reached)
    -- the first call was the only one
    have idle : ∀ j u, (w.setTask 0 none).tasks j = some u → u.method.usesLink = false := by
      intro j u now
      obtain ⟨other, was⟩ := World.setTask_others now
      have := orderly.started j u was
      omega
    have second : ∀ v : World, v.tasks = (w.setTask 0 none).tasks → v.incoming = w.incoming → v.started = w.started →
        v.Throughout Crates.wallets Timely callForB := fun v tasks incoming count =>
      timely_call (tasks ▸ idle) (incoming.trans clear) _ _ fun a mem => (count.trans started) ▸ exchange_alone mem
    cases World.stepped left with
    | leaveLocked | leaveFree => exact second _ rfl rfl rfl
  exact ⟨w', run, users, slot, exclusive_link Crates.wallets callsInTurn w' (callsInTurn_admitted.and timely) run⟩

/-! ### A probe beside a call, and a late answer -/

/-- A call for an address has asked for a channel when a probe starts and reads the answer. -/
def probeBeside : List Act :=
  [.enter (.pinned (addressCall 0)) fun _ => 3, .write 0 (.ok ()), .enter .thpProbe fun _ => 4, .write 1 (.ok ()),
    .arrive ⟨allocationResponse, some 0⟩, .read 1, .arrive ⟨allocationResponse, some 1⟩, .read 0]

/-- A call for an address is dropped after it has asked for a channel, and the next call reads the answer. -/
def lateAnswer : List Act :=
  [.enter (.pinned (addressCall 0)) fun _ => 3, .write 0 (.ok ()), .leave 0, .enter (.pinned (addressCall 1)) fun _ => 4,
    .write 1 (.ok ()), .arrive ⟨allocationResponse, some 0⟩, .read 1]

/-- The second call has read an answer to the first. -/
def World.tookAnswer (w : World) : Bool := w.log.any fun
  | (1, .read a) => a.answers = some 0
  | _ => false

theorem World.not_exclusive {w : World} (took : w.tookAnswer = true) : ¬ ExclusiveLink w := by
  intro exclusive
  obtain ⟨⟨i, op⟩, logged, other⟩ := List.any_eq_true.1 took
  split at other
  · next a same =>
    cases same
    exact absurd (exclusive.answered 1 a logged 0 (of_decide_eq_true other)) (by decide)
  · cases other

/-- The probe and the call take turns packet by packet; and a call alone on the link reads what was
sent to the one before it. -/
theorem probe_takes_packet :
    (∃ w, World.run Crates.wallets {} probeBeside = some w ∧ w.users = [0, 1, 1, 0] ∧ w.tookAnswer = true ∧ ¬ ExclusiveLink w) ∧
      ∃ w, World.run Crates.wallets {} lateAnswer = some w ∧ w.users = [0, 1, 1] ∧ w.tookAnswer = true ∧ ¬ ExclusiveLink w := by
  have beside : (World.run Crates.wallets {} probeBeside).map (fun w => (w.users, w.tookAnswer)) = some ([0, 1, 1, 0], true) := by
    decide +kernel
  have late : (World.run Crates.wallets {} lateAnswer).map (fun w => (w.users, w.tookAnswer)) = some ([0, 1, 1], true) := by
    decide +kernel
  have facts : ∀ {acts : List Act} {users : List Nat},
      (World.run Crates.wallets {} acts).map (fun w => (w.users, w.tookAnswer)) = some (users, true) →
        ∃ w, World.run Crates.wallets {} acts = some w ∧ w.users = users ∧ w.tookAnswer = true ∧ ¬ ExclusiveLink w := by
    intro acts users runs
    obtain ⟨w, run, same⟩ := Option.map_eq_some_iff.1 runs
    obtain ⟨used, took⟩ := Prod.mk.inj same
    exact ⟨w, run, used, took, World.not_exclusive took⟩
  exact ⟨facts beside, facts late⟩

end TrezorCore.Client
