import TrezorCore.Lib.Script

/-!
# Runs that settle

A run settles when it returns, with a value or an error, unless it is dropped, and each way to end
tells something of the states before and after: `R` of a run that returned a value, `D` of one that
was dropped, `E` of an error. What is told of a later part is told of the whole, so settling
composes; a loop settles when its turns do and lower a measure, and a script when asking does, its
loops ask something in every turn, and its own errors can be told.
-/

namespace Comp

variable {σ τ ε α β : Type}

/-- An end that settles. -/
inductive Settled (R D : σ → σ → Prop) (E : σ → ε → σ → Prop) (s : σ) : Outcome ε α × σ → Prop
  | ok {a : α} {s' : σ} : R s s' → Settled R D E s (.ok a, s')
  | err {e : ε} {s' : σ} : E s e s' → Settled R D E s (.err e, s')
  | dropped {s' : σ} : D s s' → Settled R D E s (.dropped, s')

/-- `x` settles from every state. -/
def Settles (R D : σ → σ → Prop) (E : σ → ε → σ → Prop) (x : Comp σ ε α) : Prop := ∀ s, Settled R D E s (x.run s)

/-- What is told of a part is told of the whole. -/
structure Progress (R D : σ → σ → Prop) (E : σ → ε → σ → Prop) : Prop where
  refl : ∀ s, R s s
  trans : ∀ a b c, R a b → R b c → R a c
  stalls : ∀ a b c, R a b → D b c → D a c
  blames : ∀ a b e c, R a b → E b e c → E a e c

section

variable {R D : σ → σ → Prop} {E : σ → ε → σ → Prop} {s : σ} {r : Outcome ε α × σ}

theorem Settled.cases (h : Settled R D E s r) :
    (∃ a, r.1 = .ok a ∧ R s r.2) ∨ (∃ e, r.1 = .err e ∧ E s e r.2) ∨ r.1 = .dropped ∧ D s r.2 := by
  cases h with
  | ok steps => exact .inl ⟨_, rfl, steps⟩
  | err cause => exact .inr (.inl ⟨_, rfl, cause⟩)
  | dropped stalls => exact .inr (.inr ⟨rfl, stalls⟩)

/-- What settles behind some steps settles from in front of them. -/
theorem Settled.after (p : Progress R D E) {s' : σ} (steps : R s s') (h : Settled R D E s' r) : Settled R D E s r := by
  cases h with
  | ok more => exact .ok (p.trans _ _ _ steps more)
  | err cause => exact .err (p.blames _ _ _ _ steps cause)
  | dropped stalls => exact .dropped (p.stalls _ _ _ steps stalls)

/-- Cleaning up after an error is as well, if it does not hide the cause. -/
theorem Settled.onErr {x : Comp σ ε α} (h : Settled R D E s (x.run s)) (cleanUp : σ → σ)
    (shows : ∀ e s', E s e s' → E s e (cleanUp s')) : Settled R D E s ((x.onErr cleanUp).run s) := by
  rcases ran : x.run s with ⟨o, s'⟩
  rw [ran] at h
  simp only [Comp.onErr, ran]
  cases h with
  | ok steps => exact .ok steps
  | err cause => exact .err (shows _ _ cause)
  | dropped stalls => exact .dropped stalls

end

namespace Settles

variable {R D : σ → σ → Prop} {E : σ → ε → σ → Prop} {x : Comp σ ε α} {f : α → Comp σ ε β}

theorem fail {e : ε} (cause : ∀ s, E s e s) : Settles R D E (fail e : Comp σ ε α) := fun s => .err (cause s)

variable (p : Progress R D E)

include p

theorem pure (a : α) : Settles R D E (pure a : Comp σ ε α) := fun s => .ok (p.refl s)

theorem ofExcept {r : Except ε α} (cause : ∀ e, r = .error e → ∀ s, E s e s) : Settles R D E (ofExcept r : Comp σ ε α) := by
  cases r with
  | ok a => exact pure p a
  | error e => exact fail (cause e rfl)

/-- The rest need settle only where the first part can leave it. -/
theorem bind_of (first : Settles R D E x) (later : ∀ s a s', x.run s = (.ok a, s') → Settled R D E s' ((f a).run s')) :
    Settles R D E (x >>= f) := by
  intro s
  have first := first s
  rw [run_bind]
  rcases ran : x.run s with ⟨o, s'⟩
  rw [ran] at first
  cases first with
  | @ok a _ steps => exact (later s a s' ran).after p steps
  | err cause => exact .err cause
  | dropped stalls => exact .dropped stalls

theorem bind (first : Settles R D E x) (later : ∀ a, Settles R D E (f a)) : Settles R D E (x >>= f) :=
  bind_of p first fun _ a s' _ => later a s'

/-- **The loop rule.** The turns settle from every value that a turn can hand on, and each lowers
the measure. -/
theorem loop (Inv : β → Prop) {measure : σ → Nat} {body : β → Comp σ ε (β ⊕ α)}
    (lowers : ∀ b s b' s', (body b).run s = (.ok (.inl b'), s') → measure s' < measure s)
    (turn : ∀ b, Inv b → Settles R D E (body b)) (again : ∀ b s b' s', Inv b → (body b).run s = (.ok (.inl b'), s') → Inv b')
    (b : β) (inv : Inv b) : Settles R D E (loop measure body b) := by
  intro s
  induction hk : measure s using Nat.strongRecOn generalizing b s with
  | ind k ih =>
    have ends := turn b inv s
    rw [loop_eq lowers, run_bind]
    rcases ran : (body b).run s with ⟨o, s'⟩
    rw [ran] at ends
    cases ends with
    | @ok r _ steps =>
      cases r with
      | inl b' =>
        have fewer := lowers b s b' s' ran
        exact (ih (measure s') (by omega) b' (again b s b' s' inv ran) s' rfl).after p steps
      | inr a => exact .ok steps
    | err cause => exact .err cause
    | dropped stalls => exact .dropped stalls

end Settles

end Comp

namespace Script

variable {Q A ε σ α β γ : Type} {R D : σ → σ → Prop} {E : σ → ε → σ → Prop} {P : ε → Prop}

/-- **A paced script settles** when every question does and lowers the measure, and its own errors
have a cause anywhere. -/
theorem run_settles (p : Comp.Progress R D E) {ask : Q → Comp σ ε A} {m : σ → Nat}
    (lowers : ∀ q s r s', (ask q).run s = (.ok r, s') → m s' < m s) (asks : ∀ q, Comp.Settles R D E (ask q))
    (causes : ∀ e, P e → ∀ s, E s e s) {x : Script Q A ε α} (paced : Paced x) (fails : FailsWith P x) :
    Comp.Settles R D E (x.run ask m) := by
  induction paced with
  | done a => exact .pure p a
  | fail e =>
    cases fails with
    | fail own => exact .fail (causes e own)
  | @ask _ q next _ ih =>
    cases fails with
    | ask later => exact .bind p (asks q) fun r => ih r (later r)
  | @loop _ _ _ body b next _ speaks _ ihBody ihNext =>
    cases fails with
    | loop turns later =>
      exact .bind p (.loop p (fun _ => True) (run_turn_lowers lowers speaks) (fun b _ => ihBody b (turns b)) (fun _ _ _ _ _ _ => trivial) b
        trivial) fun c => ihNext c (later c)

end Script
