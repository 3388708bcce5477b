import TrezorCore.Lib.Script

/-!
# Runs with more to go on

A run that was dropped may get further from a state that offers more. Of two runs, the second
from such a state, either both end in the same way, or the first is dropped and the second has
done all that the first did. Computations made of parts with this property have it, and a script
has it when asking has.
-/

namespace Comp

variable {σ ε α β : Type}

/-- Two ends: the same one in states related by `R`, or a drop that the second run was spared, which is
then further on by `D`. -/
inductive Outlasts (R D : σ → σ → Prop) : Outcome ε α × σ → Outcome ε α × σ → Prop
  | same {o : Outcome ε α} {s t : σ} : R s t → Outlasts R D (o, s) (o, t)
  | longer {o : Outcome ε α} {s t : σ} : D s t → Outlasts R D (.dropped, s) (o, t)

theorem Outlasts.of_dropped {R D : σ → σ → Prop} {x y : Comp σ ε α} {s s' t : σ} (ran : x.run s = (.dropped, s'))
    (further : D s' (y.run t).2) : Outlasts R D (x.run s) (y.run t) := by
  rw [ran]
  exact .longer further

/-- `y` does what `x` does, and may go on where `x` is dropped. -/
structure Extends (R D : σ → σ → Prop) (x y : Comp σ ε α) : Prop where
  outlasts : ∀ s t, R s t → Outlasts R D (x.run s) (y.run t)
  keeps : Keeps D y

/-- What the rules need of the two relations. -/
structure Lasting (R D : σ → σ → Prop) : Prop where
  refl : ∀ s, D s s
  trans : ∀ a b c, D a b → D b c → D a c
  sub : ∀ s t, R s t → D s t

namespace Extends

variable {R D : σ → σ → Prop} (l : Lasting R D)

include l

theorem pure (a : α) : Extends R D (pure a : Comp σ ε α) (pure a) := ⟨fun _ _ rel => .same rel, .pure l.refl a⟩

theorem fail (e : ε) : Extends R D (fail e : Comp σ ε α) (fail e) := ⟨fun _ _ rel => .same rel, .fail l.refl e⟩

theorem drop : Extends R D (drop : Comp σ ε α) drop := ⟨fun _ _ rel => .same rel, l.refl⟩

theorem runLocal {τ : Type} (x : Comp τ ε α) (t : τ) : Extends R D (runLocal x t : Comp σ ε (α × τ)) (runLocal x t) := by
  refine ⟨fun s s' rel => ?_, .runLocal l.refl x t⟩
  rcases ran : x.run t with ⟨_ | _ | _ | _, _⟩ <;> simp only [Comp.runLocal, ran] <;> exact .same rel

theorem bind {x y : Comp σ ε α} {f g : α → Comp σ ε β} (first : Extends R D x y) (later : ∀ a, Extends R D (f a) (g a)) :
    Extends R D (x >>= f) (y >>= g) := by
  refine ⟨fun s t rel => ?_, .bind l.trans first.keeps fun a => (later a).keeps⟩
  have ends := first.outlasts s t rel
  rw [run_bind, run_bind]
  rcases ranX : x.run s with ⟨o, s'⟩
  rcases ranY : y.run t with ⟨o', t'⟩
  rw [ranX, ranY] at ends
  cases ends with
  | same rel =>
    cases o with
    | ok a => exact (later a).outlasts s' t' rel
    | err | panicked | dropped => exact .same rel
  | longer further =>
    cases o' with
    | ok a => exact .longer (l.trans _ _ _ further ((later a).keeps t'))
    | err | panicked | dropped => exact .longer further

/-- A loop that is stopped for want of turns goes on with more of them. -/
theorem iterate {body : β → Comp σ ε (β ⊕ α)} (turn : ∀ b, Extends R D (body b) (body b)) :
    ∀ (n m : Nat) (b : β), n ≤ m → Extends R D (iterate body n b) (iterate body m b)
  | 0, m, b, _ => by
    have keeps : Keeps D (Comp.iterate body m b) := .iterate l.refl l.trans (fun b => (turn b).keeps) m b
    exact ⟨fun s t rel => .longer (l.trans _ _ _ (l.sub s t rel) (keeps t)), keeps⟩
  | n + 1, m + 1, b, more => by
    refine bind l (turn b) fun r => ?_
    cases r with
    | inl b' => exact iterate turn n m b' (Nat.le_of_succ_le_succ more)
    | inr a => exact pure l a

theorem loop {measure : σ → Nat} {body : β → Comp σ ε (β ⊕ α)} (offers : ∀ s t, R s t → measure s ≤ measure t)
    (turn : ∀ b, Extends R D (body b) (body b)) (b : β) : Extends R D (loop measure body b) (loop measure body b) :=
  ⟨fun s t rel => (iterate l turn _ _ b (Nat.succ_le_succ (offers s t rel))).outlasts s t rel,
    .loop l.refl l.trans (fun b => (turn b).keeps) b⟩

end Extends

end Comp
