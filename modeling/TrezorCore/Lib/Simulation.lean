import TrezorCore.Lib.Script

/-!
# Simulation between computations

Two computations over different states, one of them a description of the other: from
related states they end alike, a value leaves them in states that are related again, and so
does an error. Nothing is said of the states a panic or a dropped call leaves. The rules
follow the shape of the program, and `Script.run_simulates` is the one for a script: two
ways to ask that simulate each other are as good as each other in every script whose loops
ask something in every turn.
-/

namespace Comp

variable {σ τ ε α β γ : Type}

/-- Two ends that are alike: `T` after a value, `E` after an error. -/
inductive EndAlike (T : α → σ → τ → Prop) (E : σ → τ → Prop) : Outcome ε α × σ → Outcome ε α × τ → Prop
  | ok {a : α} {s : σ} {t : τ} (rel : T a s t) : EndAlike T E (.ok a, s) (.ok a, t)
  | err {e : ε} {s : σ} {t : τ} (rel : E s t) : EndAlike T E (.err e, s) (.err e, t)
  | panicked {s : σ} {t : τ} : EndAlike T E (.panicked, s) (.panicked, t)
  | dropped {s : σ} {t : τ} : EndAlike T E (.dropped, s) (.dropped, t)

namespace EndAlike

variable {T : α → σ → τ → Prop} {E : σ → τ → Prop}

theorem outcome {r : Outcome ε α × σ} {r' : Outcome ε α × τ} (h : EndAlike T E r r') : r.1 = r'.1 := by
  cases h <;> rfl

theorem mono {T' : α → σ → τ → Prop} {E' : σ → τ → Prop} {r : Outcome ε α × σ} {r' : Outcome ε α × τ}
    (h : EndAlike T E r r') (value : ∀ a s t, T a s t → T' a s t) (error : ∀ s t, E s t → E' s t) : EndAlike T' E' r r' := by
  cases h with
  | ok rel => exact .ok (value _ _ _ rel)
  | err rel => exact .err (error _ _ rel)
  | panicked => exact .panicked
  | dropped => exact .dropped

theorem bind {U : β → σ → τ → Prop} {x : Comp σ ε α} {y : Comp τ ε α} {f : α → Comp σ ε β} {g : α → Comp τ ε β} {s : σ} {t : τ}
    (first : EndAlike T E (x.run s) (y.run t)) (later : ∀ a s' t', T a s' t' → EndAlike U E ((f a).run s') ((g a).run t')) :
    EndAlike U E ((x >>= f).run s) ((y >>= g).run t) := by
  rw [run_bind, run_bind]
  rcases hx : x.run s with ⟨o, s'⟩
  rcases hy : y.run t with ⟨o', t'⟩
  rw [hx, hy] at first
  cases first with
  | ok rel => exact later _ _ _ rel
  | err rel => exact .err rel
  | panicked => exact .panicked
  | dropped => exact .dropped

/-- Cleaning up after an error, on one side. -/
theorem onErr {F : σ → τ → Prop} {x : Comp σ ε α} {s : σ} {r : Outcome ε α × τ} {f : σ → σ} (h : EndAlike T F (x.run s) r)
    (clean : ∀ s t, F s t → E (f s) t) : EndAlike T E ((x.onErr f).run s) r := by
  rcases hx : x.run s with ⟨o, s'⟩
  rw [hx] at h
  simp only [Comp.onErr, hx]
  cases h with
  | ok rel => exact .ok rel
  | err rel => exact .err (clean _ _ rel)
  | panicked => exact .panicked
  | dropped => exact .dropped

end EndAlike

/-- From states related by `S`, `x` and `y` end alike. -/
def Simulates (S : σ → τ → Prop) (x : Comp σ ε α) (y : Comp τ ε α) (T : α → σ → τ → Prop) (E : σ → τ → Prop) : Prop :=
  ∀ s t, S s t → EndAlike T E (x.run s) (y.run t)

namespace Simulates

variable {S E : σ → τ → Prop} {x : Comp σ ε α} {y : Comp τ ε α} {T : α → σ → τ → Prop}

theorem conseq {S' E' : σ → τ → Prop} {T' : α → σ → τ → Prop} (h : Simulates S x y T E) (pre : ∀ s t, S' s t → S s t)
    (value : ∀ a s t, T a s t → T' a s t) (error : ∀ s t, E s t → E' s t) : Simulates S' x y T' E' :=
  fun s t rel => (h s t (pre s t rel)).mono value error

theorem pure (a : α) (rel : ∀ s t, S s t → T a s t) : Simulates S (pure a : Comp σ ε α) (pure a) T E :=
  fun s t h => .ok (rel s t h)

theorem fail (e : ε) (rel : ∀ s t, S s t → E s t) : Simulates S (fail e : Comp σ ε α) (fail e) T E :=
  fun s t h => .err (rel s t h)

theorem bind {U : β → σ → τ → Prop} {f : α → Comp σ ε β} {g : α → Comp τ ε β} (first : Simulates S x y T E)
    (later : ∀ a, Simulates (T a) (f a) (g a) U E) : Simulates S (x >>= f) (y >>= g) U E :=
  fun s t h => (first s t h).bind fun a s' t' rel => later a s' t' rel

theorem ofExcept (r : Except ε α) (value : ∀ a, r = .ok a → ∀ s t, S s t → T a s t) (error : ∀ s t, S s t → E s t) :
    Simulates S (ofExcept r : Comp σ ε α) (ofExcept r) T E := by
  cases r with
  | ok a => exact .pure a (value a rfl)
  | error e => exact .fail e error

theorem drop : Simulates S (drop : Comp σ ε α) drop T E := fun _ _ _ => .dropped

/-- A condition on one side that its computation carries along goes with any simulation. -/
theorem frame {R : σ → σ → Prop} {F : σ → Prop} (h : Simulates S x y T E) (keeps : Keeps R x) (closed : ∀ s s', R s s' → F s → F s') :
    Simulates (fun s t => S s t ∧ F s) x y (fun a s t => T a s t ∧ F s) E := by
  rintro s t ⟨rel, framed⟩
  have ends := h s t rel
  have framed := closed _ _ (keeps s) framed
  rcases hx : x.run s with ⟨o, s'⟩
  rcases hy : y.run t with ⟨o', t'⟩
  rw [hx] at ends framed
  rw [hy] at ends
  cases ends with
  | ok rel => exact .ok ⟨rel, framed⟩
  | err rel => exact .err rel
  | panicked => exact .panicked
  | dropped => exact .dropped

/-- **The loop rule.** Each side's turns lower its own measure; an invariant relates the states
between turns. -/
theorem loop (Inv : β → σ → τ → Prop) {m : σ → Nat} {n : τ → Nat} {body : β → Comp σ ε (β ⊕ α)}
    {body' : β → Comp τ ε (β ⊕ α)}
    (lowers : ∀ b s b' s', (body b).run s = (.ok (.inl b'), s') → m s' < m s)
    (lowers' : ∀ b t b' t', (body' b).run t = (.ok (.inl b'), t') → n t' < n t)
    (turn : ∀ b, Simulates (Inv b) (body b) (body' b) (Sum.elim Inv T) E) (b : β) :
    Simulates (Inv b) (loop m body b) (loop n body' b) T E := by
  intro s t h
  -- the turns are as many on both sides, so one of the measures is enough for the induction
  induction hk : m s using Nat.strongRecOn generalizing b s t with
  | ind k ih =>
    rw [loop_eq lowers, loop_eq lowers', run_bind, run_bind]
    have ends := turn b s t h
    rcases hx : (body b).run s with ⟨o, s'⟩
    rcases hy : (body' b).run t with ⟨o', t'⟩
    rw [hx, hy] at ends
    cases ends with
    | @ok r _ _ rel =>
      cases r with
      | inl b' =>
        have fewer := lowers b s b' s' hx
        exact ih (m s') (by omega) b' s' t' rel rfl
      | inr a => exact .ok rel
    | err rel => exact .err rel
    | panicked => exact .panicked
    | dropped => exact .dropped

end Simulates

end Comp

namespace Script

variable {Q R ε σ τ α β γ : Type}

/-- **The simulation rule.** Two ways to ask that simulate each other, each of which lowers its
measure with every answer, run a paced script alike. -/
theorem run_simulates {ask : Q → Comp σ ε R} {ask' : Q → Comp τ ε R} {m : σ → Nat} {n : τ → Nat} {S E : σ → τ → Prop}
    (lowers : ∀ q s r s', (ask q).run s = (.ok r, s') → m s' < m s)
    (lowers' : ∀ q t r t', (ask' q).run t = (.ok r, t') → n t' < n t)
    (asks : ∀ q, Comp.Simulates S (ask q) (ask' q) (fun _ => S) E) (error : ∀ s t, S s t → E s t) {x : Script Q R ε α}
    (paced : Paced x) : Comp.Simulates S (x.run ask m) (x.run ask' n) (fun _ => S) E := by
  induction paced with
  | done a => exact .pure a fun _ _ h => h
  | fail e => exact .fail e error
  | @ask _ q next _ ih => exact .bind (asks q) fun r => ih r
  | @loop _ _ _ body b next _ speaks _ ihBody ihNext =>
    have turn : ∀ b, Comp.Simulates S ((body b).run ask m) ((body b).run ask' n)
        (Sum.elim (fun _ => S) fun _ => S) E := by
      intro b
      refine (ihBody b).conseq (fun _ _ h => h) (fun r _ _ h => ?_) fun _ _ h => h
      cases r <;> exact h
    exact .bind (.loop (fun _ => S) (T := fun _ => S) (run_turn_lowers lowers speaks) (run_turn_lowers lowers' speaks) turn b) fun c => ihNext c

end Script
