import TrezorCore.Client.Across
import TrezorCore.Client.Exclusion
import TrezorCore.Thp.Outgoing

/-!
# What leaves the host, in every interleaving

Each packet that a call hands to the transport is one of a frame that its own history allows:
public, or a ciphertext the call has had made for it. That holds whichever other calls run
beside it and whatever the device and the transport do.
-/

namespace TrezorCore.Client

variable {K : Crates}

theorem covering_enduring : Enduring K (Covering K) where
  toSpeaking := covering
  draw _ n covered := covered.draw n
  create _ := id
  allocate := allocate_covered
  handshake := handshake_covered

/-! ## The packet a call waits to write -/

/-- What was written is in the history. -/
def Recorded (w : Wire) : Prop := 0 < w.written → ∃ packet, Event.wrote packet ∈ w.trace

theorem recording : Enduring K fun w w' => Recorded w → Recorded w' := by
  have logged : ∀ w e, Recorded w → Recorded (w.log e) := by
    intro w e recorded some
    obtain ⟨packet, mem⟩ := recorded some
    exact ⟨packet, List.mem_append_left _ mem⟩
  refine Across.enduring (.of (fun _ => id) (fun _ _ _ h1 h2 => h2 ∘ h1) (fun w e _ => logged w e) (fun _ _ _ _ => id) fun w packet _ _ => ?_)
    (fun w _ _ => logged w _) (fun _ _ => id) fun _ => id
  exact ⟨packet, List.mem_append_right _ List.mem_cons_self⟩

/-- The RNG of a wire is the same throughout. -/
theorem random_kept : Enduring K fun w w' => w'.entropy = w.entropy :=
  Across.enduring (.of (fun _ => rfl) (fun _ _ _ h1 h2 => h2.trans h1) (fun _ _ _ => rfl) (fun _ _ _ _ => rfl) fun _ _ => rfl)
    (fun _ _ _ => rfl) (fun _ _ => rfl) fun _ => rfl

theorem Task.lastWrite_mem {es : List Event} (some : ∃ packet, Event.wrote packet ∈ es) : Event.wrote (lastWrite es) ∈ es := by
  rw [lastWrite]
  generalize found : List.findSome? _ es.reverse = last
  rcases last with _ | packet
  · obtain ⟨packet, mem⟩ := some
    exact absurd (List.findSome?_eq_none_iff.1 found _ (List.mem_reverse.2 mem)) nofun
  · obtain ⟨e, mem, eq⟩ := List.exists_of_findSome?_eq_some found
    cases e with
    | wrote packet' =>
      rw [← Option.some.inj eq]
      exact List.mem_reverse.1 mem
    | _ => cases eq

/-- What a call may write, given its history and the random bytes it has drawn so far. -/
def Task.MayWrite (K : Crates) (t : Task) (packet : Bytes) : Prop :=
  ∃ frame size packets, MayLeave K t.entropy (t.replay K []).2.wire.drawn (t.replay K []).2.wire.trace frame ∧
    Framing.segment size frame.cid frame.ctrl frame.payload = .ok packets ∧ packet ∈ packets

/-- **A suspended call** waits to write only what it may. -/
theorem Task.awaits_mayWrite {t : Task} {packet : Bytes} (waits : t.awaits K = some (.write packet)) : t.MayWrite K packet := by
  have covered : Covered K (t.replay K []).2.wire := covering_enduring.method _ ⟨t.slot, t.wire []⟩ .nil
  have recorded : Recorded (t.replay K []).2.wire := recording.method _ ⟨t.slot, t.wire []⟩ fun none => absurd none (Nat.lt_irrefl 0)
  have random : (t.replay K []).2.wire.entropy = t.entropy := random_kept.method _ ⟨t.slot, t.wire []⟩
  rw [Task.awaits] at waits
  rcases ran : t.replay K [] with ⟨_ | _ | _ | _, h⟩ <;> rw [ran] at waits covered recorded random
  case dropped =>
    by_cases due : t.replies.length < h.wire.written
    · simp only [due, if_true, Option.some.injEq, Await.write.injEq] at waits
      obtain ⟨pre, post, parts⟩ := List.append_of_mem (Task.lastWrite_mem (recorded (Nat.zero_lt_of_lt due)))
      rw [waits] at parts
      obtain ⟨frame, size, packets, may, segments, mem⟩ := Justified.packet covered parts
      refine ⟨frame, size, packets, ?_, segments, mem⟩
      rw [ran, ← random, parts]
      exact may.mono (fun _ mem => List.mem_append_left _ mem) (Nat.le_refl _)
    · simp only [due, if_false] at waits
      split at waits <;> cases waits
  all_goals cases waits

/-! ## Every run -/

/-- A write is logged when the call that waits for it gets its answer. -/
theorem World.step_wrote {w w' : World} {a : Act} {i : Nat} {packet : Bytes} (step : w.step K a = some w')
    (logged : (i, .wrote packet) ∈ w'.log) :
    (i, .wrote packet) ∈ w.log ∨ ∃ reply t, a = .write i reply ∧ w.tasks i = some t ∧ t.awaits K = some (.write packet) := by
  cases World.stepped step with
  | enterLocked | enterFree | arrive | leaveLocked | leaveFree => exact .inl logged
  | write running waits =>
    obtain before | now := List.mem_append.1 logged
    · exact .inl before
    · cases List.mem_singleton.1 now
      exact .inr ⟨_, _, rfl, running, waits⟩
  | read =>
    obtain before | now := List.mem_append.1 logged
    · exact .inl before
    · cases List.mem_singleton.1 now

/-- Whatever is logged as written was a write that a call was waiting for at some point of the run. -/
theorem World.run_wrote {w w' : World} {acts : List Act} {i : Nat} {packet : Bytes} (run : w.run K acts = some w')
    (logged : (i, .wrote packet) ∈ w'.log) :
    (i, .wrote packet) ∈ w.log ∨ ∃ before reply after m t, acts = before ++ .write i reply :: after ∧ w.run K before = some m ∧
      m.tasks i = some t ∧ t.awaits K = some (.write packet) := by
  induction acts generalizing w with
  | nil =>
    cases run
    exact .inl logged
  | cons a acts ih =>
    rw [World.run] at run
    obtain ⟨next, step, rest⟩ := Option.bind_eq_some_iff.1 run
    obtain earlier | ⟨before, reply, after, m, t, rfl, reach, running, waits⟩ := ih rest
    · obtain earlier | ⟨reply, t, rfl, running, waits⟩ := World.step_wrote step earlier
      · exact .inl earlier
      · exact .inr ⟨[], reply, acts, w, t, rfl, rfl, running, waits⟩
    · refine .inr ⟨a :: before, reply, after, m, t, rfl, ?_, running, waits⟩
      rw [World.run, step]
      exact reach

/-- **Nothing leaves in the clear.** However the calls of a client interleave, whatever the device
sends and whichever writes fail: each packet that was written is a packet of a frame that the
history of its call allowed when the call was about to write it. It belongs to a channel request,
an ACK, the public key of random bytes that the call drew, or a ciphertext sealed in that call for
its purpose. -/
theorem nothing_in_clear (K : Crates) (acts : List Act) (w : World) (run : World.run K {} acts = some w) (i : Nat)
    (packet : Bytes) (logged : (i, .wrote packet) ∈ w.log) :
    ∃ before reply after m t, acts = before ++ .write i reply :: after ∧ World.run K {} before = some m ∧
      m.tasks i = some t ∧ t.MayWrite K packet := by
  obtain none | ⟨before, reply, after, m, t, parts, reach, running, waits⟩ := World.run_wrote run logged
  · cases none
  · exact ⟨before, reply, after, m, t, parts, reach, running, Task.awaits_mayWrite waits⟩

theorem nothing_in_clear_sample :
    ∃ w packet, World.run Crates.wallets {} callsInTurn = some w ∧ (1, .wrote packet) ∈ w.log ∧
      ∃ before reply after m t, callsInTurn = before ++ .write 1 reply :: after ∧ World.run Crates.wallets {} before = some m ∧
        m.tasks 1 = some t ∧ t.MayWrite Crates.wallets packet := by
  obtain ⟨_, w, -, -, -, run, -, -, packet, logged⟩ := callsInTurn_run
  exact ⟨w, packet, run, logged, nothing_in_clear Crates.wallets callsInTurn w run 1 packet logged⟩

end TrezorCore.Client
