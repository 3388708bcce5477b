import TrezorCore.Client.Visits

/-!
# Calls side by side

Several calls on one client run side by side, and at every await point another may go on.
A suspended future is known by the answers it has had: running its program again on these
answers, with none after them, leads to the operation it is waiting for. That gives every
call its steps without a second definition of its program. The fifteen pinned operations
hold the lock of the slot across all their I/O; `thp_probe` and `establish_paired_session`
use the same link and take no lock.
-/

namespace TrezorCore.Client

open Connection

variable (K : Crates)

/-- The public methods. -/
inductive Method where
  | pinned (call : Call)
  | thpProbe
  | establishPairedSession (hostStaticPriv : Bytes) (hostName appName : String) (storedCredential : Option Bytes)
      (codeProvider : Option String)
  /-- `identify`, `pair`, `sign_message` and `get_tron_pubkey`. -/
  | notImplemented (feature : String)

namespace Method

def run : Method → Io Slot Unit
  | .pinned call => call.run K >>= fun _ => pure ()
  | .thpProbe => Client.thpProbe K >>= fun _ => pure ()
  | .establishPairedSession hostStaticPriv hostName appName storedCredential codeProvider =>
    Client.establishPairedSession K hostStaticPriv hostName appName storedCredential codeProvider >>= fun _ => pure ()
  | .notImplemented feature => .fail (.notImplemented feature)

/-- The method locks the slot before it does any I/O. A path that does not parse is refused
before that. -/
def locks : Method → Bool
  | .pinned call => call.op.addressN.toBool
  | _ => false

/-- The method does its I/O without the lock. -/
def bare : Method → Bool
  | .thpProbe | .establishPairedSession _ _ _ _ _ => true
  | _ => false

def usesLink (m : Method) : Bool := m.locks || m.bare

end Method

/-! ## Suspended calls -/

/-- A call in progress: the slot and the random bytes it started with, and the answers to its
writes and reads so far. -/
structure Task where
  method : Method
  slot : Slot
  entropy : Nat → UInt8
  replies : List (Except TrezorTransportError Unit)
  chunks : List (Except TrezorTransportError Bytes)

/-- What a suspended call waits for. -/
inductive Await where
  | write (packet : Bytes)
  | read

namespace Task

/-- The world that gives the answers so far, some more reads and then nothing. -/
def wire (t : Task) (more : List (Except TrezorTransportError Bytes)) : Wire where
  inbox := t.chunks ++ more
  onWrite n := match t.replies[n]? with
    | some (.ok _) => .done
    | some (.error e) => .failed e
    | none => .never
  written := 0
  entropy := t.entropy
  drawn := 0
  connections := 0
  trace := []

/-- Run the call again, up to where it is. -/
def replay (t : Task) (more : List (Except TrezorTransportError Bytes)) : Outcome TrezorError Unit × Host Slot :=
  (t.method.run K).run ⟨t.slot, t.wire more⟩

/-- The packet written last. -/
def lastWrite (es : List Event) : Bytes :=
  (es.reverse.findSome? fun
    | .wrote packet => some packet
    | _ => none).getD []

/-- The operation a suspended call waits for, if any: a write that has had no answer, or a read,
which is one that would take one more chunk. -/
def awaits (t : Task) : Option Await :=
  match t.replay K [] with
  | (.dropped, h) =>
    if t.replies.length < h.wire.written then some (.write (lastWrite h.wire.trace))
    else if (t.replay K [.error (.io "")]).2.wire.inbox.isEmpty then some .read
    else none
  | _ => none

end Task

/-! ## The client -/

/-- What the transport brings, a packet or its failure, and the call that the device sent it in answer
to, if any. No call sees that. -/
structure Arrival where
  chunk : Except TrezorTransportError Bytes
  answers : Option Nat := none

/-- It answers no other call. -/
def Arrival.MeantFor (a : Arrival) (i : Nat) : Prop := ∀ j, a.answers = some j → j = i

/-- A transport operation, with what was written or read. -/
inductive LinkOp where
  | wrote (packet : Bytes)
  | read (arrival : Arrival)

structure World where
  slot : Slot := none
  /-- The call that holds the lock of the slot. -/
  holder : Option Nat := none
  /-- The calls in progress. -/
  tasks : Nat → Option Task := fun _ => none
  /-- How many calls have started. -/
  started : Nat := 0
  /-- What has arrived and is not read yet. -/
  incoming : List Arrival := []
  /-- The transport operations so far, with the call that performed each. -/
  log : List (Nat × LinkOp) := []

/-- What can happen next. -/
inductive Act where
  /-- A call starts, and has its lock if it takes one. -/
  | enter (m : Method) (entropy : Nat → UInt8)
  /-- The transport answers a write of a call. -/
  | write (i : Nat) (reply : Except TrezorTransportError Unit)
  /-- A call reads the next packet. -/
  | read (i : Nat)
  | arrive (arrival : Arrival)
  /-- A call has returned, or its future is dropped. -/
  | leave (i : Nat)

namespace World

def setTask (w : World) (i : Nat) (t : Option Task) : World :=
  { w with tasks := fun j => if j = i then t else w.tasks j }

def step (w : World) : Act → Option World
  | .enter m entropy =>
    if m.locks then
      match w.holder with
      | some _ => none
      | none =>
        some { w.setTask w.started (some ⟨m, w.slot, entropy, [], []⟩) with
          holder := some w.started, started := w.started + 1 }
    else some { w.setTask w.started (some ⟨m, none, entropy, [], []⟩) with started := w.started + 1 }
  | .write i reply =>
    match w.tasks i with
    | none => none
    | some t =>
      match t.awaits K with
      | some (.write packet) =>
        some { w.setTask i (some { t with replies := t.replies ++ [reply] }) with log := w.log ++ [(i, .wrote packet)] }
      | _ => none
  | .read i =>
    match w.tasks i, w.incoming with
    | some t, arrival :: rest =>
      match t.awaits K with
      | some .read =>
        some { w.setTask i (some { t with chunks := t.chunks ++ [arrival.chunk] }) with
          incoming := rest, log := w.log ++ [(i, .read arrival)] }
      | _ => none
    | _, _ => none
  | .arrive arrival => some { w with incoming := w.incoming ++ [arrival] }
  | .leave i =>
    match w.tasks i with
    | none => none
    | some t =>
      if w.holder = some i then some { w.setTask i none with holder := none, slot := (t.replay K []).2.own }
      else some (w.setTask i none)

def run (w : World) : List Act → Option World
  | [] => some w
  | a :: acts => (w.step K a).bind fun w => w.run acts

/-- Each act of a run meets a condition. -/
def Throughout (C : World → Act → Prop) (w : World) : List Act → Prop
  | [] => True
  | a :: acts => C w a ∧ ∀ w', w.step K a = some w' → w'.Throughout C acts

/-- **The run rule**: what each act that meets the condition keeps holds after the run. -/
theorem Throughout.run {K : Crates} {C : World → Act → Prop} {Inv : List Act → World → Prop}
    (each : ∀ past w a w', Inv past w → C w a → w.step K a = some w' → Inv (past ++ [a]) w') {acts : List Act} {w w' : World} (past : List Act)
    (now : Inv past w) (meets : w.Throughout K C acts) (run : w.run K acts = some w') : Inv (past ++ acts) w' := by
  induction acts generalizing past w with
  | nil =>
    cases run
    rw [List.append_nil]
    exact now
  | cons a acts ih =>
    rw [World.run] at run
    obtain ⟨next, step, rest⟩ := Option.bind_eq_some_iff.1 run
    have later := ih _ (each past w a next now meets.1 step) (meets.2 next step) rest
    rwa [List.append_assoc, List.singleton_append] at later

theorem Throughout.and {K : Crates} {C D : World → Act → Prop} {acts : List Act} {w : World} (first : w.Throughout K C acts)
    (second : w.Throughout K D acts) : w.Throughout K (fun w a => C w a ∧ D w a) acts := by
  induction acts generalizing w with
  | nil => trivial
  | cons a acts ih => exact ⟨⟨first.1, second.1⟩, fun w' step => ih (first.2 w' step) (second.2 w' step)⟩

theorem run_append {K : Crates} {acts acts' : List Act} {w : World} :
    w.run K (acts ++ acts') = (w.run K acts).bind fun w => w.run K acts' := by
  induction acts generalizing w with
  | nil => rfl
  | cons a acts ih =>
    rw [List.cons_append, run, run]
    rcases w.step K a with _ | next
    · rfl
    · exact ih

/-- A run in two parts. -/
theorem Throughout.append {K : Crates} {C : World → Act → Prop} {acts acts' : List Act} {w : World} (first : w.Throughout K C acts)
    (second : ∀ w', w.run K acts = some w' → w'.Throughout K C acts') : w.Throughout K C (acts ++ acts') := by
  induction acts generalizing w with
  | nil => exact second w rfl
  | cons a acts ih =>
    refine ⟨first.1, fun next step => ih (first.2 next step) fun w' run => second w' ?_⟩
    rw [World.run, step]
    exact run

end World

/-! ## What a step does -/

section Steps

variable {K} {w w' : World} {i : Nat} {t : Task}

/-- A call that does not use the link waits for nothing. -/
theorem Task.awaits_none (idle : t.method.usesLink = false) : t.awaits K = none := by
  obtain ⟨method, slot, entropy, replies, chunks⟩ := t
  cases method with
  | pinned call =>
    rcases parses : call.op.addressN with e | addressN
    · have refused : (Method.pinned call).run K = .fail e := by
        rw [Method.run, Call.run_eq, parses]
        rfl
      rw [Task.awaits, Task.replay, refused]
      rfl
    · have : call.op.addressN.toBool = false := by simpa [Method.usesLink, Method.locks, Method.bare] using idle
      rw [parses] at this
      cases this
  | thpProbe => cases idle
  | establishPairedSession _ _ _ _ _ => cases idle
  | notImplemented feature => rfl

theorem World.setTask_tasks (w : World) (i j : Nat) (t : Option Task) :
    (w.setTask i t).tasks j = if j = i then t else w.tasks j := rfl

/-- A call in progress is the one that was set, or another that was in progress before. -/
theorem World.setTask_running {o : Option Task} {j : Nat} {u : Task} (now : (w.setTask i o).tasks j = some u) :
    j = i ∧ o = some u ∨ j ≠ i ∧ w.tasks j = some u := by
  rw [World.setTask_tasks] at now
  by_cases mine : j = i
  · rw [if_pos mine] at now
    exact .inl ⟨mine, now⟩
  · rw [if_neg mine] at now
    exact .inr ⟨mine, now⟩

/-- Whoever is in progress after a call has ended is another. -/
theorem World.setTask_others {j : Nat} {u : Task} (now : (w.setTask i none).tasks j = some u) : j ≠ i ∧ w.tasks j = some u :=
  (World.setTask_running now).resolve_left fun gone => nomatch gone.2

/-- After an operation, whoever is in progress was before, with the same method. -/
theorem World.setTask_before (running : w.tasks i = some t) (t' : Task) (same : t'.method = t.method) {j : Nat} {u : Task}
    (now : (w.setTask i (some t')).tasks j = some u) : ∃ v, w.tasks j = some v ∧ v.method = u.method := by
  rcases World.setTask_running now with ⟨rfl, new⟩ | ⟨-, old⟩
  · cases new
    exact ⟨t, running, same.symm⟩
  · exact ⟨u, old, rfl⟩

/-- Only a call that uses the link waits for something. -/
theorem Task.usesLink_of_awaits (busy : t.awaits K ≠ none) : t.method.usesLink = true := by
  by_contra idle
  exact busy (Task.awaits_none (by simpa using idle))

variable (K) in
/-- What can have happened in a step. -/
inductive Stepped (w : World) : Act → World → Prop
  | enterLocked {m : Method} {entropy : Nat → UInt8} : m.locks = true → w.holder = none →
      Stepped w (.enter m entropy) { w.setTask w.started (some ⟨m, w.slot, entropy, [], []⟩) with
        holder := some w.started, started := w.started + 1 }
  | enterFree {m : Method} {entropy : Nat → UInt8} : m.locks = false →
      Stepped w (.enter m entropy) { w.setTask w.started (some ⟨m, none, entropy, [], []⟩) with started := w.started + 1 }
  | write {i : Nat} {t : Task} {packet : Bytes} {reply : Except TrezorTransportError Unit} : w.tasks i = some t →
      t.awaits K = some (.write packet) →
      Stepped w (.write i reply) { w.setTask i (some { t with replies := t.replies ++ [reply] }) with
        log := w.log ++ [(i, .wrote packet)] }
  | read {i : Nat} {t : Task} {a : Arrival} {rest : List Arrival} : w.tasks i = some t → w.incoming = a :: rest →
      t.awaits K = some .read →
      Stepped w (.read i) { w.setTask i (some { t with chunks := t.chunks ++ [a.chunk] }) with
        incoming := rest, log := w.log ++ [(i, .read a)] }
  | arrive {a : Arrival} : Stepped w (.arrive a) { w with incoming := w.incoming ++ [a] }
  | leaveLocked {i : Nat} {t : Task} : w.tasks i = some t → w.holder = some i →
      Stepped w (.leave i) { w.setTask i none with holder := none, slot := (t.replay K []).2.own }
  | leaveFree {i : Nat} {t : Task} : w.tasks i = some t → w.holder ≠ some i → Stepped w (.leave i) (w.setTask i none)

theorem World.stepped {a : Act} (step : w.step K a = some w') : Stepped K w a w' := by
  cases a with
  | enter m entropy =>
    rw [World.step] at step
    by_cases locks : m.locks = true
    · rw [if_pos locks] at step
      rcases held : w.holder with _ | j <;> simp only [held] at step <;> cases step
      exact .enterLocked locks held
    · rw [if_neg locks] at step
      cases step
      exact .enterFree (by simpa using locks)
  | write i reply =>
    rw [World.step] at step
    rcases running : w.tasks i with _ | t
    · simp [running] at step
    · rcases waits : t.awaits K with _ | ⟨packet⟩ | _ <;> simp only [running, waits] at step <;> cases step
      exact .write running waits
  | read i =>
    rw [World.step] at step
    rcases running : w.tasks i with _ | t
    · simp [running] at step
    · rcases arrived : w.incoming with _ | ⟨a, rest⟩
      · simp [running, arrived] at step
      · rcases waits : t.awaits K with _ | ⟨packet⟩ | _ <;> simp only [running, arrived, waits] at step <;> cases step
        exact .read running arrived waits
  | arrive a =>
    cases step
    exact .arrive
  | leave i =>
    rw [World.step] at step
    rcases running : w.tasks i with _ | t
    · simp [running] at step
    · simp only [running] at step
      by_cases holds : w.holder = some i
      · rw [if_pos holds] at step
        cases step
        exact .leaveLocked running holds
      · rw [if_neg holds] at step
        cases step
        exact .leaveFree running holds

/-- Every call in progress after a step was there before, or it is the one that has just started. -/
theorem World.step_tasks {a : Act} {j : Nat} {u : Task} (step : w.step K a = some w') (running : w'.tasks j = some u) :
    (∃ v, w.tasks j = some v ∧ v.method = u.method) ∨ j = w.started ∧ ∃ entropy, a = .enter u.method entropy := by
  cases World.stepped step with
  | enterLocked | enterFree =>
    rcases World.setTask_running running with ⟨mine, new⟩ | ⟨-, old⟩
    · cases new
      exact .inr ⟨mine, _, rfl⟩
    · exact .inl ⟨u, old, rfl⟩
  | @write i t _ reply was =>
    exact .inl (World.setTask_before was { t with replies := t.replies ++ [reply] } rfl running)
  | @read i t a _ was =>
    exact .inl (World.setTask_before was { t with chunks := t.chunks ++ [a.chunk] } rfl running)
  | arrive => exact .inl ⟨u, running, rfl⟩
  | leaveLocked | leaveFree => exact .inl ⟨u, (World.setTask_others running).2, rfl⟩

end Steps

end TrezorCore.Client
