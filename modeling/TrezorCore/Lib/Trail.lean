import Mathlib.Data.List.Basic

/-!
# Trails of a labelled transition system

The events of a run from one state to another. A trail can be cut anywhere, and what every step keeps
of the events so far and the state they lead to holds at the end.
-/

/-- The steps from one state to another, with their labels in order. -/
inductive Trail {σ ε : Type} (Step : σ → ε → σ → Prop) : σ → List ε → σ → Prop where
  | nil {s : σ} : Trail Step s [] s
  | cons {s m s' : σ} {e : ε} {es : List ε} : Step s e m → Trail Step m es s' → Trail Step s (e :: es) s'

namespace Trail

variable {σ ε : Type} {Step : σ → ε → σ → Prop} {s m s' : σ} {a b es : List ε} {e : ε}

theorem append (first : Trail Step s a m) (rest : Trail Step m b s') : Trail Step s (a ++ b) s' := by
  induction first with
  | nil => exact rest
  | cons step _ ih => exact .cons step (ih rest)

theorem snoc (trail : Trail Step s es m) (step : Step m e s') : Trail Step s (es ++ [e]) s' := trail.append (.cons step .nil)

/-- A trail passes through a state between any two parts of it. -/
theorem split (trail : Trail Step s (a ++ b) s') : ∃ m, Trail Step s a m ∧ Trail Step m b s' := by
  induction a generalizing s with
  | nil => exact ⟨s, .nil, trail⟩
  | cons e a ih =>
    cases trail with
    | cons step rest =>
      obtain ⟨m, first, rest⟩ := ih rest
      exact ⟨m, .cons step first, rest⟩

/-- The step in the middle. -/
theorem at_event (trail : Trail Step s (a ++ e :: b) s') :
    ∃ m m', Trail Step s a m ∧ Step m e m' ∧ Trail Step m' b s' := by
  obtain ⟨m, first, rest⟩ := trail.split
  cases rest with
  | cons step rest => exact ⟨m, _, first, step, rest⟩

/-- **The run lemma**: what every step keeps of the history and the state holds at the end. -/
theorem invariant {I : List ε → σ → Prop} (start : I [] s)
    (step : ∀ es m e m', I es m → Step m e m' → I (es ++ [e]) m') (trail : Trail Step s es s') : I es s' := by
  have from_here : ∀ {before es m m'}, Trail Step m es m' → I before m → I (before ++ es) m' := by
    intro before es m m' trail holds
    induction trail generalizing before with
    | nil => simpa using holds
    | @cons _ _ _ e es first _ ih =>
      have next := ih (step _ _ _ _ holds first)
      rwa [List.append_assoc] at next
  exact from_here trail start

end Trail
