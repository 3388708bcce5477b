import Mathlib.Logic.Basic

/-!
# Interruptible computations

The semantics of an `async` call as its caller sees it. A call owns a mutable state and
ends in one of four ways: with a value, with an error, in a panic, or because its future
is dropped at an await point. The state is kept in all four cases. Whatever the call had
written before it stopped stays written, which is what makes an abandoned call differ
from one that never ran.

A source `loop` is `loop`: it unrolls its body while a measure of the state allows it.
`loop_eq` says that this bound is invisible when every turn lowers the measure, so a
model built from `loop` has exactly the source's unfolding equation and no fuel of its
own. Four kinds of statement are closed under sequencing and loops: `Keeps` (a relation
between the state before and after), `Respects` (two runs side by side), `Triple` (a
postcondition for a value and a condition for every early end) and `Halts` (a triple that
tells an error from the other early ends). `Computes` says that a run is what a plain function
of the state returns.
-/

/-- How a call ends. -/
inductive Outcome (ε α : Type) where
  | ok (a : α)
  | err (e : ε)
  | panicked
  | dropped
  deriving Repr, DecidableEq

/-- The value of a call that returned one. -/
def Outcome.value? {ε α : Type} : Outcome ε α → Option α
  | .ok a => some a
  | _ => none

/-- The end that a plain result is. -/
def Outcome.ofExcept {ε α : Type} : Except ε α → Outcome ε α
  | .ok a => .ok a
  | .error e => .err e

namespace Except

variable {ε α β : Type}

@[simp] theorem ok_bind (a : α) (f : α → Except ε β) : (Except.ok a >>= f) = f a := rfl

@[simp] theorem error_bind (e : ε) (f : α → Except ε β) : (Except.error e >>= f) = .error e := rfl

/-- A sequence of two results is a value when both are. -/
theorem bind_eq_ok {x : Except ε α} {f : α → Except ε β} {b : β} :
    (x >>= f) = .ok b ↔ ∃ a, x = .ok a ∧ f a = .ok b := by
  cases x with
  | ok a => simp
  | error e => simp

end Except

/-- A computation over a mutable state `σ`, with errors in `ε`. -/
@[ext] structure Comp (σ ε α : Type) where
  run : σ → Outcome ε α × σ

namespace Comp

variable {σ τ ε α β : Type}

instance : Monad (Comp σ ε) where
  pure a := ⟨fun s => (.ok a, s)⟩
  bind x f := ⟨fun s =>
    match x.run s with
    | (.ok a, s') => (f a).run s'
    | (.err e, s') => (.err e, s')
    | (.panicked, s') => (.panicked, s')
    | (.dropped, s') => (.dropped, s')⟩

/-- Read the state. -/
def get : Comp σ ε σ := ⟨fun s => (.ok s, s)⟩

/-- Update the state. -/
def modify (f : σ → σ) : Comp σ ε Unit := ⟨fun s => (.ok (), f s)⟩

/-- Return with an error. -/
def fail (e : ε) : Comp σ ε α := ⟨fun s => (.err e, s)⟩

/-- A failed `unwrap`, an index out of range, an arithmetic overflow. -/
def panic : Comp σ ε α := ⟨fun s => (.panicked, s)⟩

/-- The future is dropped here. -/
def drop : Comp σ ε α := ⟨fun s => (.dropped, s)⟩

/-- The `?` operator on a plain result. -/
def ofExcept : Except ε α → Comp σ ε α
  | .ok a => pure a
  | .error e => fail e

/-- `unwrap` or `expect`. -/
def unwrap : Option α → Comp σ ε α
  | some a => pure a
  | none => panic

/-- Run a computation on a local variable. The variable is gone unless the value comes back. -/
def runLocal (x : Comp τ ε α) (t : τ) : Comp σ ε (α × τ) := ⟨fun s =>
  match x.run t with
  | (.ok a, t') => (.ok (a, t'), s)
  | (.err e, _) => (.err e, s)
  | (.panicked, _) => (.panicked, s)
  | (.dropped, _) => (.dropped, s)⟩

/-- Run `x`; when it returns an error, clean up before the error goes on. -/
def onErr (x : Comp σ ε α) (cleanUp : σ → σ) : Comp σ ε α := ⟨fun s =>
  match x.run s with
  | (.err e, s') => (.err e, cleanUp s')
  | r => r⟩

/-- At most `n` turns of a loop. A turn goes on with `inl` and leaves with `inr`. -/
def iterate (body : β → Comp σ ε (β ⊕ α)) : Nat → β → Comp σ ε α
  | 0, _ => drop
  | n + 1, b => body b >>= Sum.elim (iterate body n) pure

/-- A source `loop`, unrolled as long as the measure of the state allows. -/
def loop (measure : σ → Nat) (body : β → Comp σ ε (β ⊕ α)) (b : β) : Comp σ ε α :=
  ⟨fun s => (iterate body (measure s + 1) b).run s⟩

/-! ## Sequencing -/

@[simp] theorem run_pure (a : α) (s : σ) : (pure a : Comp σ ε α).run s = (.ok a, s) := rfl

@[simp] theorem run_get (s : σ) : (get : Comp σ ε σ).run s = (.ok s, s) := rfl

@[simp] theorem run_modify (f : σ → σ) (s : σ) : (modify f : Comp σ ε Unit).run s = (.ok (), f s) := rfl

@[simp] theorem run_fail (e : ε) (s : σ) : (fail e : Comp σ ε α).run s = (.err e, s) := rfl

@[simp] theorem run_panic (s : σ) : (panic : Comp σ ε α).run s = (.panicked, s) := rfl

@[simp] theorem run_drop (s : σ) : (drop : Comp σ ε α).run s = (.dropped, s) := rfl

@[simp] theorem ofExcept_ok (a : α) : (ofExcept (.ok a) : Comp σ ε α) = pure a := rfl

@[simp] theorem ofExcept_error (e : ε) : (ofExcept (.error e) : Comp σ ε α) = fail e := rfl

@[simp] theorem unwrap_some (a : α) : (unwrap (some a) : Comp σ ε α) = pure a := rfl

@[simp] theorem unwrap_none : (unwrap none : Comp σ ε α) = panic := rfl

theorem run_bind (x : Comp σ ε α) (f : α → Comp σ ε β) (s : σ) :
    (x >>= f).run s =
      match x.run s with
      | (.ok a, s') => (f a).run s'
      | (.err e, s') => (.err e, s')
      | (.panicked, s') => (.panicked, s')
      | (.dropped, s') => (.dropped, s') := rfl

/-- A run from its outcome. -/
theorem run_of_outcome {x : Comp σ ε α} {s : σ} {r : Outcome ε α} (h : (x.run s).1 = r) : x.run s = (r, (x.run s).2) := by
  rw [← h]

@[simp] theorem pure_bind (a : α) (f : α → Comp σ ε β) : (pure a >>= f : Comp σ ε β) = f a := rfl

@[simp] theorem fail_bind (e : ε) (f : α → Comp σ ε β) : (fail e >>= f : Comp σ ε β) = fail e := rfl

@[simp] theorem panic_bind (f : α → Comp σ ε β) : (panic >>= f : Comp σ ε β) = panic := rfl

@[simp] theorem run_get_bind (f : σ → Comp σ ε β) (s : σ) : (get >>= f).run s = (f s).run s := rfl

@[simp] theorem run_modify_bind (g : σ → σ) (f : Unit → Comp σ ε β) (s : σ) :
    (modify g >>= f).run s = (f ()).run (g s) := rfl

theorem bind_assoc {δ : Type} (x : Comp σ ε α) (f : α → Comp σ ε β) (g : β → Comp σ ε δ) :
    (x >>= f) >>= g = x >>= fun a => f a >>= g := by
  ext1
  funext s
  rcases h : x.run s with ⟨_ | _ | _ | _, s'⟩ <;> simp only [run_bind, h]

theorem bind_pure (x : Comp σ ε α) : x >>= pure = x := by
  ext1
  funext s
  rw [run_bind]
  rcases x.run s with ⟨_ | _ | _ | _, s'⟩ <;> rfl

theorem ite_bind (c : Prop) [Decidable c] (x y : Comp σ ε α) (f : α → Comp σ ε β) :
    (if c then x else y) >>= f = if c then x >>= f else y >>= f := by
  split <;> rfl

theorem bind_ok {x : Comp σ ε α} {f : α → Comp σ ε β} {s s' : σ} {a : α}
    (h : x.run s = (.ok a, s')) : (x >>= f).run s = (f a).run s' := by
  rw [run_bind, h]

theorem bind_err {x : Comp σ ε α} {f : α → Comp σ ε β} {s s' : σ} {e : ε}
    (h : x.run s = (.err e, s')) : (x >>= f).run s = (.err e, s') := by
  rw [run_bind, h]

theorem runLocal_ok {x : Comp τ ε α} {t t' : τ} {a : α} (h : x.run t = (.ok a, t')) (s : σ) :
    (runLocal x t : Comp σ ε (α × τ)).run s = (.ok (a, t'), s) := by
  simp only [runLocal, h]

theorem runLocal_err {x : Comp τ ε α} {t : τ} {e : ε} (h : (x.run t).1 = .err e) (s : σ) :
    (runLocal x t : Comp σ ε (α × τ)).run s = (.err e, s) := by
  obtain ⟨t', run⟩ : ∃ t', x.run t = (.err e, t') := ⟨_, run_of_outcome h⟩
  simp only [runLocal, run]

/-- Sequencing inversion: a sequence that returns a value ran both of its parts. -/
theorem bind_eq_ok {x : Comp σ ε α} {f : α → Comp σ ε β} {s s'' : σ} {b : β}
    (h : (x >>= f).run s = (.ok b, s'')) :
    ∃ a s', x.run s = (.ok a, s') ∧ (f a).run s' = (.ok b, s'') := by
  rw [run_bind] at h
  split at h
  · next a s' hx => exact ⟨a, s', hx, h⟩
  all_goals simp at h

/-! ## The loop equation -/

section Loop

variable {measure : σ → Nat} {body : β → Comp σ ε (β ⊕ α)}

theorem iterate_succ (n : Nat) (b : β) :
    iterate body (n + 1) b = body b >>= Sum.elim (iterate body n) pure := rfl

/-- Turns beyond the measure change nothing, when every turn that goes on lowers it. -/
theorem iterate_enough (lowers : ∀ b s b' s', (body b).run s = (.ok (.inl b'), s') → measure s' < measure s) :
    ∀ m n b s, measure s < m → measure s < n → (iterate body m b).run s = (iterate body n b).run s := by
  intro m
  induction m with
  | zero => intro n b s hm; omega
  | succ m ih =>
    intro n b s hm hn
    obtain ⟨k, rfl⟩ : ∃ k, n = k + 1 := ⟨n - 1, by omega⟩
    rw [iterate_succ, iterate_succ, run_bind, run_bind]
    split
    · next r s' hb =>
      cases r with
      | inl b' =>
        have := lowers b s b' s' hb
        exact ih k b' s' (by omega) (by omega)
      | inr a => rfl
    all_goals rfl

/-- **The loop equation.** A loop runs its body and then either goes on or leaves. -/
theorem loop_eq (lowers : ∀ b s b' s', (body b).run s = (.ok (.inl b'), s') → measure s' < measure s) (b : β) :
    loop measure body b = body b >>= Sum.elim (loop measure body) pure := by
  ext1
  funext s
  simp only [loop]
  rw [iterate_succ, run_bind, run_bind]
  split
  · next r s' hb =>
    cases r with
    | inl b' =>
      have := lowers b s b' s' hb
      exact iterate_enough lowers _ (measure s' + 1) _ _ (by omega) (by omega)
    | inr a => rfl
  all_goals rfl

end Loop

/-! ## Relations between the state before and after -/

/-- However `x` ends, the states before and after are related by `R`. -/
def Keeps (R : σ → σ → Prop) (x : Comp σ ε α) : Prop := ∀ s, R s (x.run s).2

namespace Keeps

variable {R S : σ → σ → Prop} {x : Comp σ ε α} {f : α → Comp σ ε β}

theorem mono (h : Keeps R x) (sub : ∀ s s', R s s' → S s s') : Keeps S x :=
  fun s => sub _ _ (h s)

theorem pure (refl : ∀ s, R s s) (a : α) : Keeps R (pure a : Comp σ ε α) := fun s => refl s

theorem fail (refl : ∀ s, R s s) (e : ε) : Keeps R (fail e : Comp σ ε α) := fun s => refl s

theorem ofExcept (refl : ∀ s, R s s) (r : Except ε α) : Keeps R (ofExcept r : Comp σ ε α) := by
  cases r <;> exact fun s => refl s

theorem runLocal (refl : ∀ s, R s s) (y : Comp τ ε α) (t : τ) :
    Keeps R (runLocal y t : Comp σ ε (α × τ)) := by
  intro s
  simp only [Comp.runLocal]
  split <;> exact refl s

theorem bind (trans : ∀ a b c, R a b → R b c → R a c) (hx : Keeps R x) (hf : ∀ a, Keeps R (f a)) :
    Keeps R (x >>= f) := by
  intro s
  have first := hx s
  rw [run_bind]
  split
  · next a s' h => rw [h] at first; exact trans _ _ _ first (hf a s')
  · next e s' h => rw [h] at first; exact first
  · next s' h => rw [h] at first; exact first
  · next s' h => rw [h] at first; exact first

theorem iterate {body : β → Comp σ ε (β ⊕ α)} (refl : ∀ s, R s s)
    (trans : ∀ a b c, R a b → R b c → R a c) (hb : ∀ b, Keeps R (body b)) :
    ∀ n b, Keeps R (iterate body n b)
  | 0, _ => fun s => refl s
  | n + 1, b => by
    rw [iterate_succ]
    refine bind trans (hb b) fun r => ?_
    cases r with
    | inl b' => exact iterate refl trans hb n b'
    | inr a => exact pure refl a

theorem loop {measure : σ → Nat} {body : β → Comp σ ε (β ⊕ α)} (refl : ∀ s, R s s)
    (trans : ∀ a b c, R a b → R b c → R a c) (hb : ∀ b, Keeps R (body b)) (b : β) :
    Keeps R (loop measure body b) :=
  fun s => iterate refl trans hb (measure s + 1) b s

end Keeps

/-! ## Two runs side by side -/

/-- Runs from states related by `R` end alike, in states related by `R`. -/
def Respects (R : σ → σ → Prop) (x : Comp σ ε α) : Prop :=
  ∀ s t, R s t → (x.run s).1 = (x.run t).1 ∧ R (x.run s).2 (x.run t).2

namespace Respects

variable {R : σ → σ → Prop} {x : Comp σ ε α} {f : α → Comp σ ε β}

theorem pure (a : α) : Respects R (pure a : Comp σ ε α) := fun _ _ h => ⟨rfl, h⟩

theorem fail (e : ε) : Respects R (fail e : Comp σ ε α) := fun _ _ h => ⟨rfl, h⟩

theorem ofExcept (r : Except ε α) : Respects R (ofExcept r : Comp σ ε α) := by
  cases r <;> exact fun _ _ h => ⟨rfl, h⟩

theorem runLocal (y : Comp τ ε α) (t : τ) : Respects R (runLocal y t : Comp σ ε (α × τ)) := by
  intro s s' h
  simp only [Comp.runLocal]
  split <;> exact ⟨rfl, h⟩

theorem bind (hx : Respects R x) (hf : ∀ a, Respects R (f a)) : Respects R (x >>= f) := by
  intro s t h
  obtain ⟨same, rel⟩ := hx s t h
  rw [run_bind, run_bind]
  rcases hs : x.run s with ⟨o, s'⟩
  rcases ht : x.run t with ⟨o', t'⟩
  rw [hs, ht] at same rel
  subst same
  cases o with
  | ok a => exact hf a s' t' rel
  | err e => exact ⟨rfl, rel⟩
  | panicked => exact ⟨rfl, rel⟩
  | dropped => exact ⟨rfl, rel⟩

theorem iterate {body : β → Comp σ ε (β ⊕ α)} (hb : ∀ b, Respects R (body b)) :
    ∀ n b, Respects R (iterate body n b)
  | 0, _ => fun _ _ h => ⟨rfl, h⟩
  | n + 1, b => by
    rw [iterate_succ]
    refine bind (hb b) fun r => ?_
    cases r with
    | inl b' => exact iterate hb n b'
    | inr a => exact pure a

theorem loop {measure : σ → Nat} {body : β → Comp σ ε (β ⊕ α)} (same : ∀ s t, R s t → measure s = measure t)
    (hb : ∀ b, Respects R (body b)) (b : β) : Respects R (loop measure body b) := by
  intro s t h
  simp only [Comp.loop]
  rw [same s t h]
  exact iterate hb _ b s t h

end Respects

/-! ## Triples with a condition for early ends -/

/-- From a state with `P`, either a value comes back and `Q` holds, or the call ends early,
with an error, in a panic or dropped, in a state with `B`. -/
def Triple (P : σ → Prop) (x : Comp σ ε α) (Q : α → σ → Prop) (B : σ → Prop) : Prop :=
  ∀ s, P s →
    match x.run s with
    | (.ok a, s') => Q a s'
    | (_, s') => B s'

namespace Triple

variable {P P' B B' : σ → Prop} {x : Comp σ ε α} {f : α → Comp σ ε β} {Q Q' : α → σ → Prop} {T : β → σ → Prop}

theorem conseq (h : Triple P x Q B) (pre : ∀ s, P' s → P s) (post : ∀ a s, Q a s → Q' a s)
    (early : ∀ s, B s → B' s) : Triple P' x Q' B' := by
  intro s hs
  have h := h s (pre s hs)
  rcases hx : x.run s with ⟨_ | _ | _ | _, s'⟩ <;> rw [hx] at h
  · exact post _ _ h
  all_goals exact early _ h

/-- Two triples of one computation. -/
theorem and (h : Triple P x Q B) (h' : Triple P x Q' B') :
    Triple P x (fun a s => Q a s ∧ Q' a s) fun s => B s ∧ B' s := by
  intro s hs
  have h := h s hs
  have h' := h' s hs
  rcases hx : x.run s with ⟨_ | _ | _ | _, s'⟩ <;> rw [hx] at h h' <;> exact ⟨h, h'⟩

/-- A condition for every end holds at the end. -/
theorem after {C : σ → Prop} (h : Triple P x (fun _ => C) C) {s : σ} (hs : P s) : C (x.run s).2 := by
  have h := h s hs
  rcases hx : x.run s with ⟨_ | _ | _ | _, s'⟩ <;> rw [hx] at h <;> exact h

/-- A call that cannot end early returns. -/
theorem returns (h : Triple P x Q fun _ => False) {s : σ} (hs : P s) : ∃ a s', x.run s = (.ok a, s') ∧ Q a s' := by
  have h := h s hs
  rcases hx : x.run s with ⟨a | _ | _ | _, s'⟩ <;> rw [hx] at h
  · exact ⟨a, s', rfl, h⟩
  all_goals exact h.elim

/-- What does not speak of the state stays. -/
theorem constant {p : Prop} (x : Comp σ ε α) : Triple (fun _ => p) x (fun _ _ => p) fun _ => True := by
  intro s holds
  rcases x.run s with ⟨_ | _ | _ | _, s'⟩
  · exact holds
  all_goals trivial

/-- Nothing is asked, and nothing is promised. -/
theorem any (x : Comp σ ε α) : Triple (fun _ => True) x (fun _ _ => True) fun _ => True := constant x

theorem pure (a : α) (h : ∀ s, P s → Q a s) : Triple P (pure a : Comp σ ε α) Q B := h

theorem fail (e : ε) (h : ∀ s, P s → B s) : Triple P (fail e : Comp σ ε α) Q B := h

theorem panic (h : ∀ s, P s → B s) : Triple P (panic : Comp σ ε α) Q B := h

theorem ofExcept (r : Except ε α) (ok : ∀ a, r = .ok a → ∀ s, P s → Q a s) (err : ∀ s, P s → B s) :
    Triple P (ofExcept r : Comp σ ε α) Q B := by
  cases r with
  | ok a => exact ok a rfl
  | error e => exact err

theorem unwrap (r : Option α) (some : ∀ a, r = some a → ∀ s, P s → Q a s) (none : ∀ s, P s → B s) :
    Triple P (unwrap r : Comp σ ε α) Q B := by
  cases r with
  | some a => exact some a rfl
  | none => exact none

/-- A property that a relation carries along, whatever the outcome. -/
theorem of_keeps {R : σ → σ → Prop} (h : Keeps R x) (post : ∀ s s', R s s' → P s → ∀ a, Q a s')
    (early : ∀ s s', R s s' → P s → B s') : Triple P x Q B := by
  intro s hs
  have h := h s
  rcases hx : x.run s with ⟨_ | _ | _ | _, s'⟩ <;> rw [hx] at h
  · exact post _ _ h hs _
  all_goals exact early _ _ h hs

/-- A condition that a relation carries along goes with any triple. -/
theorem frame {R : σ → σ → Prop} {F : σ → Prop} (h : Triple P x Q B) (keeps : Keeps R x)
    (closed : ∀ s s', R s s' → F s → F s') :
    Triple (fun s => P s ∧ F s) x (fun a s => Q a s ∧ F s) fun s => B s ∧ F s := by
  rintro s ⟨hP, hF⟩
  have h := h s hP
  have framed := closed _ _ (keeps s) hF
  rcases hx : x.run s with ⟨_ | _ | _ | _, s'⟩ <;> rw [hx] at h framed <;> exact ⟨h, framed⟩

theorem bind (first : Triple P x Q B) (later : ∀ a, Triple (Q a) (f a) T B) : Triple P (x >>= f) T B := by
  intro s hs
  have first := first s hs
  rw [run_bind]
  rcases hx : x.run s with ⟨a | _ | _ | _, s'⟩ <;> rw [hx] at first
  · exact later a s' first
  all_goals exact first

/-- A result that is checked before the rest runs. -/
theorem ofExcept_bind {r : Except ε α} (ok : ∀ a, r = .ok a → Triple P (f a) T B) (err : ∀ s, P s → B s) :
    Triple P ((Comp.ofExcept r : Comp σ ε α) >>= f) T B := by
  cases r with
  | ok a => exact ok a rfl
  | error e => exact err

theorem iterate {Inv : β → σ → Prop} {body : β → Comp σ ε (β ⊕ α)} (stop : ∀ b s, Inv b s → B s)
    (turn : ∀ b, Triple (Inv b) (body b) (Sum.elim Inv Q) B) : ∀ n b, Triple (Inv b) (iterate body n b) Q B
  | 0, b => stop b
  | n + 1, b => by
    rw [iterate_succ]
    refine bind (turn b) fun r => ?_
    cases r with
    | inl b' => exact iterate stop turn n b'
    | inr a => exact pure a fun _ h => h

/-- **The loop rule**: an invariant of the turns, with conditions for leaving and for early ends. -/
theorem loop {Inv : β → σ → Prop} {measure : σ → Nat} {body : β → Comp σ ε (β ⊕ α)} (stop : ∀ b s, Inv b s → B s)
    (turn : ∀ b, Triple (Inv b) (body b) (Sum.elim Inv Q) B) (b : β) : Triple (Inv b) (loop measure body b) Q B :=
  fun s hs => iterate stop turn (measure s + 1) b s hs

end Triple

/-! ## Triples that tell an error from the other early ends -/

/-- From a state with `P`: `Q` after a value, `E` after an error, `B` after a panic or when the
call is dropped. -/
def Halts (P : σ → Prop) (x : Comp σ ε α) (Q : α → σ → Prop) (E B : σ → Prop) : Prop :=
  ∀ s, P s →
    match x.run s with
    | (.ok a, s') => Q a s'
    | (.err _, s') => E s'
    | (_, s') => B s'

namespace Halts

variable {P P' E B : σ → Prop} {x : Comp σ ε α} {f : α → Comp σ ε β} {Q Q' : α → σ → Prop} {T : β → σ → Prop}

theorem of_triple (h : Triple P x Q B) (error : ∀ s, B s → E s) : Halts P x Q E B := by
  intro s hs
  have h := h s hs
  rcases hx : x.run s with ⟨_ | _ | _ | _, s'⟩ <;> rw [hx] at h
  · exact h
  · exact error _ h
  all_goals exact h

theorem pure (a : α) (h : ∀ s, P s → Q a s) : Halts P (pure a : Comp σ ε α) Q E B := h

theorem fail (e : ε) (h : ∀ s, P s → E s) : Halts P (fail e : Comp σ ε α) Q E B := h

theorem bind (first : Halts P x Q E B) (later : ∀ a, Halts (Q a) (f a) T E B) : Halts P (x >>= f) T E B := by
  intro s hs
  have first := first s hs
  rw [run_bind]
  rcases hx : x.run s with ⟨a | _ | _ | _, s'⟩ <;> rw [hx] at first
  · exact later a s' first
  all_goals exact first

theorem ofExcept_bind {r : Except ε α} (ok : ∀ a, r = .ok a → Halts P (f a) T E B) (err : ∀ e, r = .error e → ∀ s, P s → E s) :
    Halts P ((Comp.ofExcept r : Comp σ ε α) >>= f) T E B := by
  cases r with
  | ok a => exact ok a rfl
  | error e => exact err e rfl

theorem iterate {Inv : β → σ → Prop} {body : β → Comp σ ε (β ⊕ α)} (stop : ∀ b s, Inv b s → B s)
    (turn : ∀ b, Halts (Inv b) (body b) (Sum.elim Inv Q) E B) : ∀ n b, Halts (Inv b) (iterate body n b) Q E B
  | 0, b => stop b
  | n + 1, b => by
    rw [iterate_succ]
    refine bind (turn b) fun r => ?_
    cases r with
    | inl b' => exact iterate stop turn n b'
    | inr a => exact pure a fun _ h => h

/-- The loop rule. -/
theorem loop {Inv : β → σ → Prop} {measure : σ → Nat} {body : β → Comp σ ε (β ⊕ α)} (stop : ∀ b s, Inv b s → B s)
    (turn : ∀ b, Halts (Inv b) (body b) (Sum.elim Inv Q) E B) (b : β) : Halts (Inv b) (loop measure body b) Q E B :=
  fun s hs => iterate stop turn (measure s + 1) b s hs

end Halts

/-! ## Two computations that agree where an invariant holds -/

/-- The same outcome and the same state, from every state with `P`. -/
def Agree (P : σ → Prop) (x y : Comp σ ε α) : Prop := ∀ s, P s → x.run s = y.run s

namespace Agree

variable {P : σ → Prop} {x y : Comp σ ε α}

theorem refl (x : Comp σ ε α) : Agree P x x := fun _ _ => rfl

theorem bind {Q : σ → Prop} {f g : α → Comp σ ε β} (first : Agree P x y)
    (keeps : Triple P y (fun _ => Q) fun _ => True) (later : ∀ a, Agree Q (f a) (g a)) : Agree P (x >>= f) (y >>= g) := by
  intro s hs
  have kept := keeps s hs
  rw [run_bind, run_bind, first s hs]
  rcases hy : y.run s with ⟨a | _ | _ | _, s'⟩ <;> rw [hy] at kept
  exact later a s' kept

theorem iterate {body body' : β → Comp σ ε (β ⊕ α)} (turn : ∀ b, Agree P (body b) (body' b))
    (keeps : ∀ b, Triple P (body' b) (fun _ => P) fun _ => True) : ∀ n b, Agree P (iterate body n b) (iterate body' n b)
  | 0, _ => refl _
  | n + 1, b => by
    rw [iterate_succ, iterate_succ]
    refine bind (turn b) (keeps b) fun r => ?_
    cases r with
    | inl b' => exact iterate turn keeps n b'
    | inr a => exact refl _

theorem loop {measure : σ → Nat} {body body' : β → Comp σ ε (β ⊕ α)} (turn : ∀ b, Agree P (body b) (body' b))
    (keeps : ∀ b, Triple P (body' b) (fun _ => P) fun _ => True) (b : β) :
    Agree P (loop measure body b) (loop measure body' b) :=
  fun s hs => iterate turn keeps (measure s + 1) b s hs

end Agree

/-! ## A plain function that a computation computes -/

/-- From `s`, a run does what a plain result says: it returns the value in the new state, or the error. -/
inductive Computes (x : Comp σ ε α) (s : σ) : Except ε (α × σ) → Prop
  | ok {a : α} {s' : σ} (run : x.run s = (.ok a, s')) : Computes x s (.ok (a, s'))
  | error {e : ε} (run : (x.run s).1 = .err e) : Computes x s (.error e)

namespace Computes

variable {x : Comp σ ε α} {f : α → Comp σ ε β} {s : σ}

theorem step {a : α} {s' : σ} {r : Except ε (β × σ)} (first : x.run s = (.ok a, s')) (rest : Computes (f a) s' r) :
    Computes (x >>= f) s r := by
  cases rest with
  | ok run => exact ok ((bind_ok first).trans run)
  | error run =>
    apply error
    rw [bind_ok first, run]

theorem stop {e : ε} (first : (x.run s).1 = .err e) : Computes (x >>= f) s (.error e) := by
  apply error
  rw [bind_err (run_of_outcome first)]

end Computes

end Comp
