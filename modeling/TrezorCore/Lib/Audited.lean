import Mathlib.Logic.Basic

/-!
# Audited computations

A computation that may get stuck and notes what it does. `Runs` says that it never gets stuck and
that everything it notes is allowed; it is closed under sequencing, so a straight-line program runs
when each of its steps does.
-/

/-- A computation with a log of `ε`. -/
abbrev Audited (ε α : Type) := StateT (List ε) Option α

namespace Audited

variable {ε α β : Type} {P : ε → Prop} {Q : α → Prop} {R : β → Prop}

/-- Adds to the log. -/
def note (e : ε) : Audited ε Unit := fun log => some ((), log ++ [e])

/-- A step that writes no log. -/
def ofOption (x : Option α) : Audited ε α := fun log => x.map fun a => (a, log)

/-- The computation ends, in a value with `Q`, and notes only what `P` allows. -/
def Runs (P : ε → Prop) (x : Audited ε α) (Q : α → Prop) : Prop :=
  ∀ log, (∀ e ∈ log, P e) → ∃ a log', x.run log = some (a, log') ∧ Q a ∧ ∀ e ∈ log', P e

namespace Runs

theorem pure {a : α} (holds : Q a) : Runs P (Pure.pure a) Q := fun log allowed => ⟨a, log, rfl, holds, allowed⟩

theorem bind {x : Audited ε α} {f : α → Audited ε β} (first : Runs P x Q) (rest : ∀ a, Q a → Runs P (f a) R) :
    Runs P (x >>= f) R := by
  intro log allowed
  obtain ⟨a, log', eq, holds, allowed'⟩ := first log allowed
  obtain ⟨b, log'', eq', holds', allowed''⟩ := rest a holds log' allowed'
  refine ⟨b, log'', ?_, holds', allowed''⟩
  rw [StateT.run_bind, eq]
  exact eq'

theorem note {e : ε} (allowed : P e) : Runs P (note e) fun _ => True := by
  intro log before
  refine ⟨(), log ++ [e], rfl, trivial, fun e' mem => ?_⟩
  obtain mem | mem := List.mem_append.1 mem
  · exact before e' mem
  · rw [List.mem_singleton.1 mem]
    exact allowed

theorem ofOption {x : Option α} {a : α} (eq : x = some a) (holds : Q a) : Runs P (ofOption x) Q :=
  fun log allowed => ⟨a, log, by rw [eq]; rfl, holds, allowed⟩

/-- A whole run, from an empty log. -/
theorem from_nil {x : Audited ε α} (runs : Runs P x Q) :
    ∃ a log, x.run [] = some (a, log) ∧ Q a ∧ ∀ e ∈ log, P e := runs [] (by simp)

end Runs

end Audited
