import TrezorCore.Client.Parts
import TrezorCore.Client.Refinement

/-!
# Recovery

A call that has failed leaves an empty slot, and on the wire a history: what was written, and how
those writes went. Nothing looks at that history again. Hosts that differ only in the replies to
the writes that are over are told apart by no call, and so a client that has failed is as good as
a new one on a transport that takes the writes from there on.
-/

namespace TrezorCore

/-- The same host, but for how the writes went that are over. -/
def Alike {γ : Type} (h k : Host γ) : Prop :=
  ∃ onWrite, k = ⟨h.own, { h.wire with onWrite }⟩ ∧ ∀ n, h.wire.written ≤ n → onWrite n = h.wire.onWrite n

theorem Alike.symm {γ : Type} {h k : Host γ} (alike : Alike h k) : Alike k h := by
  obtain ⟨onWrite, rfl, agree⟩ := alike
  exact ⟨h.wire.onWrite, rfl, fun n later => (agree n later).symm⟩

/-- No part of a call tells such hosts apart. -/
theorem alike_composed : Composed fun _ _ x => Comp.Respects Alike x where
  pure a := .pure a
  fail e := .fail e
  drop := fun _ _ alike => ⟨rfl, alike⟩
  bind := .bind
  own := by
    rintro γ h _ ⟨onWrite, rfl, agree⟩
    exact ⟨rfl, onWrite, rfl, agree⟩
  modifyOwn f := by
    rintro h _ ⟨onWrite, rfl, agree⟩
    exact ⟨rfl, onWrite, rfl, agree⟩
  note _ := by
    rintro h _ ⟨onWrite, rfl, agree⟩
    exact ⟨rfl, onWrite, rfl, agree⟩
  readChunk := by
    rintro γ ⟨own, inbox, before, written, entropy, drawn, connections, trace⟩ _ ⟨onWrite, rfl, agree⟩
    rcases inbox with _ | ⟨_ | _, rest⟩ <;> exact ⟨rfl, onWrite, rfl, agree⟩
  writeChunk packet := by
    rintro h _ ⟨onWrite, rfl, agree⟩
    have later : ∀ n, h.wire.written + 1 ≤ n → onWrite n = h.wire.onWrite n := fun n after => agree n (Nat.le_of_succ_le after)
    simp only [Io.writeChunk, agree _ (Nat.le_refl _)]
    cases h.wire.onWrite h.wire.written <;> exact ⟨rfl, onWrite, rfl, later⟩
  getrandom n := by
    rintro h _ ⟨onWrite, rfl, agree⟩
    exact ⟨rfl, onWrite, rfl, agree⟩
  create packetSize := by
    rintro h _ ⟨onWrite, rfl, agree⟩
    exact ⟨rfl, onWrite, rfl, agree⟩
  runLocal x t := .runLocal x t
  inside {γ δ α β x y} inside respects := by
    rintro h _ ⟨onWrite, rfl, agree⟩
    rcases looked : inside.look h.own with _ | d
    · rw [inside.missing h looked, inside.missing ⟨h.own, { h.wire with onWrite }⟩ looked]
      exact ⟨rfl, onWrite, rfl, agree⟩
    · obtain ⟨outcome, onWrite', ended, agree'⟩ := respects ⟨d, h.wire⟩ ⟨d, { h.wire with onWrite }⟩ ⟨onWrite, rfl, agree⟩
      rw [inside.found h d looked, inside.found ⟨h.own, { h.wire with onWrite }⟩ d looked, ended, outcome]
      exact ⟨rfl, onWrite', rfl, agree'⟩
  loop b turn := by
    refine .loop ?_ turn b
    rintro h _ ⟨onWrite, rfl, agree⟩
    rfl

namespace Client

open Connection

variable {K : Crates} {h k : Host Slot}

/-- They go on alike when the same arrives, -/
theorem facing_alike (alike : Alike h k) (inbox : Inbox) : Alike (facing inbox h) (facing inbox k) := by
  obtain ⟨onWrite, rfl, agree⟩ := alike
  exact ⟨onWrite, rfl, agree⟩

/-- the same device attends to them, -/
theorem Attends.alike {c : Call} {d : Behaviour} {inbox : Inbox} (alike : Alike h k) (attends : Attends K h c d inbox) :
    Attends K k c d inbox := by
  obtain ⟨onWrite, rfl, agree⟩ := alike
  cases attends with
  | refused bad => exact .refused bad
  | badKey other noKey => exact .badKey other noKey
  | answers own incoming => exact .answers own incoming
  | opens other hostKey welcomes => exact .opens other hostKey ⟨welcomes.decodes, welcomes.fits, welcomes.stream⟩

/-- and their runs end in the same way. -/
theorem Attended.alike {visits : List (Call × Behaviour)} {ends : List (Outcome TrezorError Value)} (alike : Alike h k)
    (attended : Attended K h visits ends) : Attended K k visits ends := by
  induction attended generalizing k with
  | done => exact .done
  | @call h c d inbox visits ends attends returned more ih =>
    obtain ⟨outcome, after⟩ := alike_composed.call (K := K) c _ _ (facing_alike alike inbox)
    rw [outcome]
    refine .call (attends.alike alike) (fun some => ?_) (ih after)
    rw [returns, ← outcome]
    exact returned some

end Client

end TrezorCore
