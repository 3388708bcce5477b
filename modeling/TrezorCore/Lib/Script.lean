import TrezorCore.Lib.Comp

/-!
# Scripts

A script is a program whose only effect is to ask questions and to read the answers: a
client of a request/response protocol with the protocol taken out. `Script.run` runs it on
a state through an `ask`, and a source `loop` is bounded by a measure of that state as in
`Comp.loop`. `Plays` is the script's own meaning: these questions with these answers lead
to this value. `run_triple` connects the two, with an invariant over the transcript; it is
proved once, over the script's syntax, so a client is correct as soon as its `ask` is.
`run_against` says of every run, however it ends, that it is the script against a list of answers.
-/

/-- A program that asks questions `Q`, is answered with `R` and fails with `ε`. -/
inductive Script (Q R ε : Type) : Type → Type 1 where
  | done {α : Type} (a : α) : Script Q R ε α
  | fail {α : Type} (e : ε) : Script Q R ε α
  | ask {α : Type} (q : Q) (next : R → Script Q R ε α) : Script Q R ε α
  /-- Turns go on with `inl` and leave with `inr`. -/
  | loop {α β γ : Type} (body : β → Script Q R ε (β ⊕ γ)) (b : β) (next : γ → Script Q R ε α) : Script Q R ε α

namespace Script

variable {Q R ε σ α β γ : Type}

def bind {α β : Type} : Script Q R ε α → (α → Script Q R ε β) → Script Q R ε β
  | .done a, f => f a
  | .fail e, _ => .fail e
  | .ask q next, f => .ask q fun r => (next r).bind f
  | .loop body b next, f => .loop body b fun c => (next c).bind f

instance : Monad (Script Q R ε) where
  pure := .done
  bind := .bind

/-- Ask and return the answer. -/
def question (q : Q) : Script Q R ε R := .ask q .done

/-- The `?` operator. -/
def ofExcept : Except ε α → Script Q R ε α
  | .ok a => .done a
  | .error e => .fail e

/-- A source `loop`. -/
def forever (body : β → Script Q R ε (β ⊕ α)) (b : β) : Script Q R ε α := .loop body b .done

/-- Run a script on a state. -/
def run (ask : Q → Comp σ ε R) (measure : σ → Nat) {α : Type} : Script Q R ε α → Comp σ ε α
  | .done a => pure a
  | .fail e => .fail e
  | .ask q next => ask q >>= fun r => (next r).run ask measure
  | .loop body b next => Comp.loop measure (fun b => (body b).run ask measure) b >>= fun c => (next c).run ask measure

/-- The transcript of a script that returns: its questions, their answers, its value. -/
inductive Plays : {α : Type} → Script Q R ε α → List (Q × R) → α → Prop where
  | done {α : Type} (a : α) : Plays (.done a) [] a
  | ask {α : Type} {q : Q} {next : R → Script Q R ε α} {r : R} {rest : List (Q × R)} {a : α} :
      Plays (next r) rest a → Plays (.ask q next) ((q, r) :: rest) a
  | leave {α β γ : Type} {body : β → Script Q R ε (β ⊕ γ)} {b : β} {next : γ → Script Q R ε α} {c : γ}
      {turn rest : List (Q × R)} {a : α} :
      Plays (body b) turn (.inr c) → Plays (next c) rest a → Plays (.loop body b next) (turn ++ rest) a
  | again {α β γ : Type} {body : β → Script Q R ε (β ⊕ γ)} {b b' : β} {next : γ → Script Q R ε α}
      {turn rest : List (Q × R)} {a : α} :
      Plays (body b) turn (.inl b') → Plays (.loop body b' next) rest a → Plays (.loop body b next) (turn ++ rest) a

/-- The turns of a loop up to its exit. -/
theorem Plays.turns {body : β → Script Q R ε (β ⊕ γ)} {b : β} {next : γ → Script Q R ε α} {c : γ}
    {turns rest : List (Q × R)} {a : α} (h : Plays (.loop body b .done) turns c) (later : Plays (next c) rest a) :
    Plays (.loop body b next) (turns ++ rest) a := by
  generalize hs : (Script.loop body b .done : Script Q R ε γ) = s at h
  induction h generalizing b with
  | done a => cases hs
  | ask _ _ => cases hs
  | leave turn exit _ _ =>
    cases hs
    cases exit
    rw [List.append_nil]
    exact .leave turn later
  | again turn _ _ ih =>
    cases hs
    rw [List.append_assoc]
    exact .again turn (ih later rfl)

/-! ## What a script can ask -/

/-- Every question the script can ask, whatever the answers, is one of `P`. -/
inductive Asks (P : Q → Prop) : {α : Type} → Script Q R ε α → Prop where
  | done {α : Type} (a : α) : Asks P (.done a)
  | fail {α : Type} (e : ε) : Asks P (.fail e : Script Q R ε α)
  | ask {α : Type} {q : Q} {next : R → Script Q R ε α} : P q → (∀ r, Asks P (next r)) → Asks P (.ask q next)
  | loop {α β γ : Type} {body : β → Script Q R ε (β ⊕ γ)} {b : β} {next : γ → Script Q R ε α} :
      (∀ b, Asks P (body b)) → (∀ c, Asks P (next c)) → Asks P (.loop body b next)

namespace Asks

variable {P : Q → Prop}

theorem mono {P' : Q → Prop} {x : Script Q R ε α} (hx : Asks P x) (sub : ∀ q, P q → P' q) : Asks P' x := by
  induction hx with
  | done a => exact .done a
  | fail e => exact .fail e
  | ask h _ ih => exact .ask (sub _ h) ih
  | loop _ _ ihBody ihNext => exact .loop ihBody ihNext

theorem bind {x : Script Q R ε α} {f : α → Script Q R ε β} (hx : Asks P x) (hf : ∀ a, Asks P (f a)) : Asks P (x >>= f) := by
  show Asks P (x.bind f)
  induction hx with
  | done a => exact hf a
  | fail e => exact .fail e
  | ask h _ ih => exact .ask h fun r => ih r hf
  | loop h _ _ ih => exact .loop h fun c => ih c hf

theorem ofExcept (r : Except ε α) : Asks P (Script.ofExcept r : Script Q R ε α) := by
  cases r with
  | ok a => exact .done a
  | error e => exact .fail e

theorem ofExcept_bind {r : Except ε α} {f : α → Script Q R ε β} (later : ∀ a, r = .ok a → Asks P (f a)) :
    Asks P (Script.ofExcept r >>= f) := by
  cases r with
  | ok a => exact later a rfl
  | error e => exact .fail e

/-- So are the questions of a transcript. -/
theorem of_plays {x : Script Q R ε α} {tr : List (Q × R)} {a : α} (asks : Asks P x) (plays : Plays x tr a) :
    ∀ p ∈ tr, P p.1 := by
  induction plays with
  | done a => exact fun _ h => absurd h List.not_mem_nil
  | ask _ ih =>
    cases asks with
    | ask first later =>
      intro p hp
      rcases List.mem_cons.1 hp with rfl | hp
      · exact first
      · exact ih (later _) p hp
  | leave _ _ ihTurn ihRest =>
    cases asks with
    | loop turn later =>
      intro p hp
      rcases List.mem_append.1 hp with hp | hp
      · exact ihTurn (turn _) p hp
      · exact ihRest (later _) p hp
  | again _ _ ihTurn ihRest =>
    cases asks with
    | loop turn later =>
      intro p hp
      rcases List.mem_append.1 hp with hp | hp
      · exact ihTurn (turn _) p hp
      · exact ihRest (.loop turn later) p hp

end Asks

/-- The first question the script asks, if it asks any, is one of `P`. -/
inductive Begins (P : Q → Prop) : {α : Type} → Script Q R ε α → Prop where
  | done {α : Type} (a : α) : Begins P (.done a)
  | fail {α : Type} (e : ε) : Begins P (.fail e : Script Q R ε α)
  | ask {α : Type} {q : Q} {next : R → Script Q R ε α} : P q → Begins P (.ask q next)

namespace Begins

variable {P : Q → Prop}

theorem bind {x : Script Q R ε α} {f : α → Script Q R ε β} (hx : Begins P x) (hf : ∀ a, Begins P (f a)) : Begins P (x >>= f) := by
  cases hx with
  | done a => exact hf a
  | fail e => exact .fail e
  | ask first => exact .ask first

theorem ofExcept_bind {r : Except ε α} {f : α → Script Q R ε β} (later : ∀ a, Begins P (f a)) :
    Begins P (Script.ofExcept r >>= f) := by
  cases r with
  | ok a => exact later a
  | error e => exact .fail e

end Begins

/-! ## Runs -/

/-- Running a sequence of scripts is running one after the other. -/
theorem run_bind (ask : Q → Comp σ ε R) (measure : σ → Nat) (x : Script Q R ε α) (f : α → Script Q R ε β) :
    (x >>= f).run ask measure = x.run ask measure >>= fun a => (f a).run ask measure := by
  show (x.bind f).run ask measure = _
  induction x with
  | done a => rfl
  | fail e => rfl
  | ask q next ih =>
    simp only [Script.bind, run, Comp.bind_assoc]
    exact congrArg _ (funext fun r => ih r f)
  | loop body b next _ ih =>
    simp only [Script.bind, run, Comp.bind_assoc]
    exact congrArg _ (funext fun c => ih c f)

theorem run_question (ask : Q → Comp σ ε R) (measure : σ → Nat) (q : Q) (f : R → Script Q R ε α) :
    (question q >>= f).run ask measure = ask q >>= fun r => (f r).run ask measure := rfl

theorem run_ofExcept (ask : Q → Comp σ ε R) (measure : σ → Nat) (r : Except ε α) :
    (ofExcept r).run ask measure = Comp.ofExcept r := by
  cases r <;> rfl

section Run

variable {ask : Q → Comp σ ε R} {measure : σ → Nat} {P : List (Q × R) → σ → Prop} {B : σ → Prop}

/-- The loop case of `run_triple`. -/
theorem loop_triple {body : β → Script Q R ε (β ⊕ γ)} (stop : ∀ tr s, P tr s → B s)
    (turn : ∀ b tr, Comp.Triple (P tr) ((body b).run ask measure) (fun r s => ∃ more, Plays (body b) more r ∧ P (tr ++ more) s) B)
    (b : β) (tr : List (Q × R)) :
    Comp.Triple (P tr) (Comp.loop measure (fun b => (body b).run ask measure) b)
      (fun c s => ∃ more, Plays (.loop body b .done) more c ∧ P (tr ++ more) s) B := by
  -- the invariant: some turns have been played, and what the rest plays, the whole plays
  have turns : ∀ b', Comp.Triple
      (fun s => ∃ more, (∀ rest c, Plays (.loop body b' .done) rest c → Plays (.loop body b .done) (more ++ rest) c) ∧
        P (tr ++ more) s)
      ((body b').run ask measure)
      (Sum.elim
        (fun b' s => ∃ more, (∀ rest c, Plays (.loop body b' .done) rest c → Plays (.loop body b .done) (more ++ rest) c) ∧
          P (tr ++ more) s)
        fun c s => ∃ more, Plays (.loop body b .done) more c ∧ P (tr ++ more) s) B := by
    rintro b' s ⟨more, reach, holds⟩
    have ends := turn b' (tr ++ more) s holds
    rcases hx : ((body b').run ask measure).run s with ⟨r | _ | _ | _, s'⟩ <;> rw [hx] at ends
    · obtain ⟨last, plays, holds'⟩ := ends
      rw [List.append_assoc] at holds'
      cases r with
      | inl b'' =>
        refine ⟨more ++ last, fun rest c later => ?_, holds'⟩
        rw [List.append_assoc]
        exact reach _ c (.again plays later)
      | inr c =>
        refine ⟨more ++ last, ?_, holds'⟩
        have exit := reach _ c (.leave plays (.done c))
        rwa [List.append_nil] at exit
    all_goals exact ends
  refine Comp.Triple.conseq (Comp.Triple.loop (fun b' s ⟨more, _, holds⟩ => stop (tr ++ more) s holds) turns b)
    (fun s holds => ⟨[], fun rest c plays => plays, ?_⟩) (fun _ _ h => h) fun _ h => h
  rwa [List.append_nil]

/-- **The run rule**: an invariant over the transcript that every question keeps holds at the
end, with the transcript that the script's meaning gives to its value. -/
theorem run_triple (stop : ∀ tr s, P tr s → B s)
    (asks : ∀ tr q, Comp.Triple (P tr) (ask q) (fun r => P (tr ++ [(q, r)])) B) (x : Script Q R ε α) (tr : List (Q × R)) :
    Comp.Triple (P tr) (x.run ask measure) (fun a s => ∃ more, Plays x more a ∧ P (tr ++ more) s) B := by
  induction x generalizing tr with
  | done a => exact .pure a fun s holds => ⟨[], .done a, by rwa [List.append_nil]⟩
  | fail e => exact .fail e (stop tr)
  | ask q next ih =>
    refine .bind (asks tr q) fun r => (ih r _).conseq (fun _ h => h) ?_ fun _ h => h
    rintro a s ⟨more, plays, holds⟩
    exact ⟨(q, r) :: more, .ask plays, by rwa [List.append_cons]⟩
  | loop body b next ihBody ihNext =>
    refine .bind (loop_triple stop ihBody b tr) fun c => ?_
    rintro s ⟨more, turns, holds⟩
    refine ((ihNext c (tr ++ more)).conseq (fun _ h => h) ?_ fun _ h => h) s holds
    rintro a s ⟨rest, later, holds⟩
    exact ⟨more ++ rest, turns.turns later, by rwa [← List.append_assoc]⟩

/-- A relation that every question keeps is kept by the script. -/
theorem run_keeps {S : σ → σ → Prop} (refl : ∀ s, S s s) (trans : ∀ a b c, S a b → S b c → S a c)
    (asks : ∀ q, Comp.Keeps S (ask q)) (x : Script Q R ε α) : Comp.Keeps S (x.run ask measure) := by
  induction x with
  | done a => exact .pure refl a
  | fail e => exact .fail refl e
  | ask q next ih => exact .bind trans (asks q) ih
  | loop body b next ihBody ihNext => exact .bind trans (.loop refl trans ihBody b) ihNext

/-- The questions it asks are enough. -/
theorem Asks.run_keeps {S : σ → σ → Prop} {P : Q → Prop} {x : Script Q R ε α} (asks : Asks P x) (refl : ∀ s, S s s)
    (trans : ∀ a b c, S a b → S b c → S a c) (kept : ∀ q, P q → Comp.Keeps S (ask q)) : Comp.Keeps S (x.run ask measure) := by
  induction asks with
  | done a => exact .pure refl a
  | fail e => exact .fail refl e
  | ask asked _ ih => exact .bind trans (kept _ asked) ih
  | loop _ _ ihBody ihNext => exact .bind trans (.loop refl trans ihBody _) ihNext

/-- An invariant of the questions it asks is one of the script, -/
theorem Asks.run_invariant {I B : σ → Prop} {P : Q → Prop} {x : Script Q R ε α} (asks : Asks P x) (stop : ∀ s, I s → B s)
    (kept : ∀ q, P q → Comp.Triple I (ask q) (fun _ => I) B) : Comp.Triple I (x.run ask measure) (fun _ => I) B := by
  induction asks with
  | done a => exact .pure a fun _ holds => holds
  | fail e => exact .fail e stop
  | ask asked _ ih => exact .bind (kept _ asked) ih
  | loop _ _ ihBody ihNext =>
    refine .bind (Comp.Triple.loop (fun _ => stop) (fun b => (ihBody b).conseq (fun _ h => h) ?_ fun _ h => h) _) ihNext
    rintro (_ | _) _ holds <;> exact holds

/-- and the first question may be the one that establishes it. -/
theorem Begins.run_invariant {I J B : σ → Prop} {P P' : Q → Prop} {x : Script Q R ε α} (begins : Begins P' x) (asks : Asks P x)
    (stop : ∀ s, I s → B s) (weaker : ∀ s, J s → I s) (first : ∀ q, P q → P' q → Comp.Triple I (ask q) (fun _ => J) B)
    (kept : ∀ q, P q → Comp.Triple J (ask q) (fun _ => J) B) : Comp.Triple I (x.run ask measure) (fun _ => I) B := by
  cases begins with
  | done a => exact .pure a fun _ holds => holds
  | fail e => exact .fail e stop
  | ask opens =>
    cases asks with
    | ask asked later =>
      refine .bind (first _ asked opens) fun r => ?_
      exact ((later r).run_invariant (fun s holds => stop s (weaker s holds)) kept).conseq (fun _ h => h) (fun _ => weaker) fun _ h => h

/-- An invariant of the questions is one of the script. -/
theorem run_invariant {I : σ → Prop} (asks : ∀ q, Comp.Triple I (ask q) (fun _ => I) fun _ => True) (x : Script Q R ε α) :
    Comp.Triple I (x.run ask measure) (fun _ => I) fun _ => True :=
  (run_triple (P := fun _ => I) (fun _ _ _ => trivial) (fun _ q => asks q) x []).conseq (fun _ h => h)
    (fun _ _ ⟨_, _, h⟩ => h) fun _ h => h

/-- Another way to ask that agrees under the invariant is as good. -/
theorem run_agree {I : σ → Prop} {ask' : Q → Comp σ ε R} (agree : ∀ q, Comp.Agree I (ask' q) (ask q))
    (asks : ∀ q, Comp.Triple I (ask q) (fun _ => I) fun _ => True) (x : Script Q R ε α) :
    Comp.Agree I (x.run ask' measure) (x.run ask measure) := by
  induction x with
  | done a => exact .refl _
  | fail e => exact .refl _
  | ask q next ih => exact .bind (agree q) (asks q) ih
  | loop body b next ihBody ihNext =>
    have turn : ∀ b, Comp.Triple I ((body b).run ask measure) (Sum.elim (fun _ => I) fun _ => I) fun _ => True := by
      intro b
      apply (run_invariant asks (body b)).conseq (fun _ h => h) _ fun _ h => h
      intro r _ h
      cases r <;> exact h
    have turns : Comp.Triple I (Comp.loop measure (fun b => (body b).run ask measure) b) (fun _ => I) fun _ => True :=
      .loop (fun _ _ _ => trivial) turn b
    exact .bind (.loop ihBody (fun b => run_invariant asks (body b)) b) turns ihNext

/-- Two states that answer alike and stay alike cannot be told apart by a script. -/
theorem run_respects {S : σ → σ → Prop} (same : ∀ s t, S s t → measure s = measure t)
    (asks : ∀ q, Comp.Respects S (ask q)) (x : Script Q R ε α) : Comp.Respects S (x.run ask measure) := by
  induction x with
  | done a => exact .pure a
  | fail e => exact .fail e
  | ask q next ih => exact .bind (asks q) ih
  | loop body b next ihBody ihNext => exact .bind (.loop same ihBody b) ihNext

end Run

/-- A script that returns has lowered a measure once for each question. -/
theorem run_lowers {ask : Q → Comp σ ε R} {m : σ → Nat} (lowers : ∀ q s r s', (ask q).run s = (.ok r, s') → m s' < m s)
    {x : Script Q R ε α} {a : α} {s s' : σ} (returns : (x.run ask m).run s = (.ok a, s')) :
    ∃ tr, Plays x tr a ∧ m s' + tr.length ≤ m s := by
  have asks : ∀ (tr : List (Q × R)) (q : Q), Comp.Triple (fun k => m k + tr.length ≤ m s) (ask q)
      (fun r k => m k + (tr ++ [(q, r)]).length ≤ m s) fun _ => True := by
    intro tr q k left
    rcases asked : (ask q).run k with ⟨r | _ | _ | _, k'⟩
    · have fewer := lowers q k r k' asked
      simp only [List.length_append, List.length_singleton]
      omega
    all_goals trivial
  have triple : Comp.Triple (fun k => m k + 0 ≤ m s) (x.run ask m) (fun a k => ∃ tr, Plays x tr a ∧ m k + tr.length ≤ m s)
      fun _ => True := run_triple (P := fun tr k => m k + tr.length ≤ m s) (fun _ _ _ => trivial) asks x []
  have ended := triple s (Nat.le_refl _)
  rw [returns] at ended
  exact ended

/-- So a turn of a loop that goes on has lowered it, when such turns ask something. -/
theorem run_turn_lowers {ask : Q → Comp σ ε R} {m : σ → Nat} (lowers : ∀ q s r s', (ask q).run s = (.ok r, s') → m s' < m s)
    {body : β → Script Q R ε (β ⊕ γ)} (speaks : ∀ b tr b', Plays (body b) tr (.inl b') → tr ≠ []) (b : β) (s : σ) (b' : β) (s' : σ)
    (goesOn : ((body b).run ask m).run s = (.ok (.inl b'), s')) : m s' < m s := by
  obtain ⟨tr, plays, left⟩ := run_lowers lowers goesOn
  have some := List.length_pos_iff.2 (speaks b tr b' plays)
  omega

/-! ## A script against a list of answers -/

/-- Answer from a list, and write the question down. When no answer is left the script waits. -/
def answering (q : Q) : Comp (List R × List Q) ε R :=
  ⟨fun
    | ([], asked) => (.dropped, [], asked ++ [q])
    | (r :: answers, asked) => (.ok r, answers, asked ++ [q])⟩

/-- How a script ends on these answers, and what it has asked by then. -/
def against (x : Script Q R ε α) (answers : List R) : Outcome ε α × List Q :=
  let ended := (x.run answering fun s => s.1.length).run (answers, [])
  (ended.1, ended.2.2)

/-- What has been asked before changes nothing. -/
theorem run_answering (x : Script Q R ε α) (answers : List R) (asked : List Q) :
    let ended := (x.run answering fun s => s.1.length).run (answers, asked)
    (ended.1, ended.2.2) = ((x.against answers).1, asked ++ (x.against answers).2) := by
  have asks : ∀ q, Comp.Respects (fun s t : List R × List Q => s.1 = t.1 ∧ s.2 = asked ++ t.2) (answering q : Comp _ ε R) := by
    rintro q ⟨answers, before⟩ ⟨answers', before'⟩ ⟨alike, longer⟩
    obtain rfl : answers = answers' := alike
    obtain rfl : before = asked ++ before' := longer
    cases answers with
    | nil => exact ⟨rfl, rfl, List.append_assoc _ _ _⟩
    | cons r answers => exact ⟨rfl, rfl, List.append_assoc _ _ _⟩
  have same : ∀ s t : List R × List Q, s.1 = t.1 ∧ s.2 = asked ++ t.2 → s.1.length = t.1.length := fun s t alike => by
    rw [alike.1]
  obtain ⟨outcome, -, later⟩ := run_respects same asks x (answers, asked) (answers, []) ⟨rfl, (List.append_nil _).symm⟩
  exact Prod.ext outcome later

theorem against_ask (q : Q) (next : R → Script Q R ε α) (r : R) (answers : List R) :
    (Script.ask q next).against (r :: answers) = (((next r).against answers).1, q :: ((next r).against answers).2) :=
  run_answering (next r) answers [q]

theorem against_ofExcept (r : Except ε α) (f : α → Script Q R ε β) (answers : List R)
    (silent : ∀ a, r = .ok a → ((f a).against answers).2 = []) : ((Script.ofExcept r >>= f).against answers).2 = [] := by
  cases r with
  | ok a => exact silent a rfl
  | error e => rfl

/-- A turn of a loop that goes on has asked something. -/
inductive Paced : {α : Type} → Script Q R ε α → Prop where
  | done {α : Type} (a : α) : Paced (.done a)
  | fail {α : Type} (e : ε) : Paced (.fail e : Script Q R ε α)
  | ask {α : Type} {q : Q} {next : R → Script Q R ε α} : (∀ r, Paced (next r)) → Paced (.ask q next)
  | loop {α β γ : Type} {body : β → Script Q R ε (β ⊕ γ)} {b : β} {next : γ → Script Q R ε α} : (∀ b, Paced (body b)) →
      (∀ b tr b', Plays (body b) tr (.inl b') → tr ≠ []) → (∀ c, Paced (next c)) → Paced (.loop body b next)

namespace Paced

theorem bind {x : Script Q R ε α} {f : α → Script Q R ε β} (hx : Paced x) (hf : ∀ a, Paced (f a)) : Paced (x >>= f) := by
  show Paced (x.bind f)
  induction hx with
  | done a => exact hf a
  | fail e => exact .fail e
  | ask _ ih => exact .ask fun r => ih r hf
  | loop turns speaks _ _ ih => exact .loop turns speaks fun c => ih c hf

theorem ofExcept (r : Except ε α) : Paced (Script.ofExcept r : Script Q R ε α) := by
  cases r with
  | ok a => exact .done a
  | error e => exact .fail e

/-- One question, and a program that reads the answer. -/
theorem question {q : Q} {f : R → Script Q R ε α} (later : ∀ r, Paced (f r)) : Paced (Script.question q >>= f) :=
  .bind (.ask fun r => .done r) later

end Paced

/-- Every error that the script raises by itself is one of `P`. -/
inductive FailsWith (P : ε → Prop) : {α : Type} → Script Q R ε α → Prop where
  | done {α : Type} (a : α) : FailsWith P (.done a)
  | fail {α : Type} {e : ε} : P e → FailsWith P (.fail e : Script Q R ε α)
  | ask {α : Type} {q : Q} {next : R → Script Q R ε α} : (∀ r, FailsWith P (next r)) → FailsWith P (.ask q next)
  | loop {α β γ : Type} {body : β → Script Q R ε (β ⊕ γ)} {b : β} {next : γ → Script Q R ε α} : (∀ b, FailsWith P (body b)) →
      (∀ c, FailsWith P (next c)) → FailsWith P (.loop body b next)

namespace FailsWith

variable {P : ε → Prop}

theorem bind {x : Script Q R ε α} {f : α → Script Q R ε β} (hx : FailsWith P x) (hf : ∀ a, FailsWith P (f a)) : FailsWith P (x >>= f) := by
  show FailsWith P (x.bind f)
  induction hx with
  | done a => exact hf a
  | fail own => exact .fail own
  | ask _ ih => exact .ask fun r => ih r hf
  | loop turns _ _ ih => exact .loop turns fun c => ih c hf

theorem ofExcept {r : Except ε α} (own : ∀ e, r = .error e → P e) : FailsWith P (Script.ofExcept r : Script Q R ε α) := by
  cases r with
  | ok a => exact .done a
  | error e => exact .fail (own e rfl)

/-- One question, and a program that reads the answer. -/
theorem question {q : Q} {f : R → Script Q R ε α} (later : ∀ r, FailsWith P (f r)) : FailsWith P (Script.question q >>= f) :=
  .bind (.ask fun r => .done r) later

end FailsWith

/-- A script that returns has taken the answers of its transcript. -/
theorem plays_of_answering {x : Script Q R ε α} {m : List R × List Q → Nat} {answers : List R} {asked : List Q} {a : α}
    {s : List R × List Q} (returns : (x.run answering m).run (answers, asked) = (.ok a, s)) :
    ∃ tr, Plays x tr a ∧ answers = tr.map (·.2) ++ s.1 := by
  have asks : ∀ (tr : List (Q × R)) (q : Q),
      Comp.Triple (fun s : List R × List Q => answers = tr.map (·.2) ++ s.1) (answering q : Comp _ ε R)
        (fun r s => answers = (tr ++ [(q, r)]).map (·.2) ++ s.1) fun _ => True := by
    rintro tr q ⟨_ | ⟨r, rest⟩, asked⟩ left
    · trivial
    · show answers = _
      rw [left, List.map_append, List.append_assoc]
      rfl
  have triple : Comp.Triple (fun s => answers = s.1) (x.run answering m)
      (fun a s => ∃ tr, Plays x tr a ∧ answers = tr.map (·.2) ++ s.1) fun _ => True :=
    run_triple (fun _ _ _ => trivial) asks x []
  have ended := triple (answers, asked) rfl
  rw [returns] at ended
  exact ended

/-- So a turn that goes on leaves fewer answers. -/
theorem turn_lowers {body : β → Script Q R ε (β ⊕ γ)} (asks : ∀ b tr b', Plays (body b) tr (.inl b') → tr ≠ []) (b : β)
    (s : List R × List Q) (b' : β) (s' : List R × List Q)
    (turn : ((body b).run answering fun s => s.1.length).run s = (.ok (.inl b'), s')) : s'.1.length < s.1.length := by
  obtain ⟨tr, plays, left⟩ := plays_of_answering turn
  have some := List.length_pos_iff.2 (asks b tr b' plays)
  rw [left, List.length_append, List.length_map]
  omega

/-- A transcript is what the script does against its answers. -/
theorem Plays.answered {x : Script Q R ε α} {tr : List (Q × R)} {a : α} (plays : Plays x tr a) (paced : Paced x)
    (rest : List R) (asked : List Q) :
    (x.run answering fun s => s.1.length).run (tr.map (·.2) ++ rest, asked) = (.ok a, rest, asked ++ tr.map (·.1)) := by
  induction plays generalizing rest asked with
  | done a => simp [run]
  | @ask _ q next r tr a _ ih =>
    cases paced with
    | ask later =>
      have first : (answering q : Comp _ ε R).run (((q, r) :: tr).map (·.2) ++ rest, asked) =
          (.ok r, tr.map (·.2) ++ rest, asked ++ [q]) := rfl
      rw [run, Comp.bind_ok first, ih (later r), List.append_assoc]
      rfl
  | leave _ _ ihTurn ihRest =>
    cases paced with
    | loop turns asks later =>
      rw [run, Comp.loop_eq (turn_lowers asks), Comp.bind_assoc, List.map_append, List.append_assoc,
        Comp.bind_ok (ihTurn (turns _) _ _), Sum.elim_inr, Comp.pure_bind, ihRest (later _), List.map_append,
        List.append_assoc]
  | again _ _ ihTurn ihRest =>
    cases paced with
    | loop turns asks later =>
      rw [run, Comp.loop_eq (turn_lowers asks), Comp.bind_assoc, List.map_append, List.append_assoc,
        Comp.bind_ok (ihTurn (turns _) _ _), Sum.elim_inl]
      have go := ihRest (.loop turns asks later) rest
      rw [run] at go
      rw [go, List.map_append, List.append_assoc]

theorem Plays.against {x : Script Q R ε α} {tr : List (Q × R)} {a : α} (plays : Plays x tr a) (paced : Paced x) :
    x.against (tr.map (·.2)) = (.ok a, tr.map (·.1)) := by
  have answered := plays.answered paced [] []
  rw [List.append_nil] at answered
  rw [Script.against, answered]
  rfl

/-! ## Every end of a run -/

/-- How a script stops without a value after some questions: with an error of its own, or at a
question that gets no answer. -/
inductive Stops : {α : Type} → Script Q R ε α → List (Q × R) → ε ⊕ Q → Prop where
  | fail {α : Type} (e : ε) : Stops (.fail e : Script Q R ε α) [] (.inl e)
  | unanswered {α : Type} (q : Q) (next : R → Script Q R ε α) : Stops (.ask q next) [] (.inr q)
  | ask {α : Type} {q : Q} {next : R → Script Q R ε α} {r : R} {rest : List (Q × R)} {stop : ε ⊕ Q} :
      Stops (next r) rest stop → Stops (.ask q next) ((q, r) :: rest) stop
  | turn {α β γ : Type} {body : β → Script Q R ε (β ⊕ γ)} {b : β} {next : γ → Script Q R ε α} {turn : List (Q × R)}
      {stop : ε ⊕ Q} : Stops (body b) turn stop → Stops (.loop body b next) turn stop
  | leave {α β γ : Type} {body : β → Script Q R ε (β ⊕ γ)} {b : β} {next : γ → Script Q R ε α} {c : γ}
      {turn rest : List (Q × R)} {stop : ε ⊕ Q} :
      Plays (body b) turn (.inr c) → Stops (next c) rest stop → Stops (.loop body b next) (turn ++ rest) stop
  | again {α β γ : Type} {body : β → Script Q R ε (β ⊕ γ)} {b b' : β} {next : γ → Script Q R ε α}
      {turn rest : List (Q × R)} {stop : ε ⊕ Q} :
      Plays (body b) turn (.inl b') → Stops (.loop body b' next) rest stop → Stops (.loop body b next) (turn ++ rest) stop

/-- An early end that is passed on. -/
inductive Broken : Outcome ε β × σ → Outcome ε α × σ → Prop where
  | err (e : ε) (s : σ) : Broken (.err e, s) (.err e, s)
  | panicked (s : σ) : Broken (.panicked, s) (.panicked, s)
  | dropped (s : σ) : Broken (.dropped, s) (.dropped, s)

theorem Broken.no_value {r : Outcome ε β × σ} {a : α} {s : σ} : ¬ Broken r (.ok a, s) := nofun

theorem Broken.trans {r : Outcome ε β × σ} {r' : Outcome ε γ × σ} {r'' : Outcome ε α × σ} (first : Broken r r')
    (second : Broken r' r'') : Broken r r'' := by
  cases first <;> cases second <;> constructor

/-- How a run of a script ends: with a value, with an error of its own, or at a question that
ends the run. -/
inductive Ends (ask : Q → Comp σ ε R) (x : Script Q R ε α) : Outcome ε α × σ → Prop where
  | returns {tr : List (Q × R)} {a : α} (s : σ) : Plays x tr a → Ends ask x (.ok a, s)
  | fails {tr : List (Q × R)} {e : ε} (s : σ) : Stops x tr (.inl e) → Ends ask x (.err e, s)
  | breaks {tr : List (Q × R)} {q : Q} {k : σ} {r : Outcome ε α × σ} :
      Stops x tr (.inr q) → Broken ((ask q).run k) r → Ends ask x r

namespace Ends

variable {ask : Q → Comp σ ε R} {m : σ → Nat}

theorem asked {q : Q} {next : R → Script Q R ε α} {r : R} {o : Outcome ε α × σ} (ends : Ends ask (next r) o) :
    Ends ask (.ask q next) o := by
  cases ends with
  | returns s plays => exact .returns s plays.ask
  | fails s stops => exact .fails s stops.ask
  | breaks stops broken => exact .breaks stops.ask broken

/-- Behind a turn that goes on. -/
theorem again {body : β → Script Q R ε (β ⊕ γ)} {b b' : β} {next : γ → Script Q R ε α} {turn : List (Q × R)}
    {o : Outcome ε α × σ} (played : Plays (body b) turn (.inl b')) (ends : Ends ask (.loop body b' next) o) :
    Ends ask (.loop body b next) o := by
  cases ends with
  | returns s plays => exact .returns s (.again played plays)
  | fails s stops => exact .fails s (.again played stops)
  | breaks stops broken => exact .breaks (.again played stops) broken

/-- Behind the last turn. -/
theorem leave {body : β → Script Q R ε (β ⊕ γ)} {b : β} {next : γ → Script Q R ε α} {c : γ} {turn : List (Q × R)}
    {o : Outcome ε α × σ} (played : Plays (body b) turn (.inr c)) (ends : Ends ask (next c) o) :
    Ends ask (.loop body b next) o := by
  cases ends with
  | returns s plays => exact .returns s (.leave played plays)
  | fails s stops => exact .fails s (.leave played stops)
  | breaks stops broken => exact .breaks (.leave played stops) broken

/-- In the middle of a turn. -/
theorem turn {body : β → Script Q R ε (β ⊕ γ)} {b : β} {next : γ → Script Q R ε α} {o : Outcome ε (β ⊕ γ)} {s : σ}
    {o' : Outcome ε α} (ends : Ends ask (body b) (o, s)) (early : Broken (o, s) (o', s)) : Ends ask (.loop body b next) (o', s) := by
  cases ends with
  | returns s plays => cases early
  | fails s stops =>
    cases early
    exact .fails s stops.turn
  | breaks stops broken => exact .breaks stops.turn (broken.trans early)

end Ends

/-- **Every end of a run** is one of these. -/
theorem run_ends {ask : Q → Comp σ ε R} {m : σ → Nat} (lowers : ∀ q s r s', (ask q).run s = (.ok r, s') → m s' < m s)
    {x : Script Q R ε α} (paced : Paced x) (s : σ) : Ends ask x ((x.run ask m).run s) := by
  induction paced generalizing s with
  | done a => exact .returns s (.done a)
  | fail e => exact .fails s (.fail e)
  | @ask _ q next _ ih =>
    rcases answer : (ask q).run s with ⟨r | e | _ | _, s'⟩
    · rw [run, Comp.bind_ok answer]
      exact (ih r s').asked
    all_goals
      refine .breaks (k := s) (.unanswered q next) ?_
      rw [run, Comp.run_bind, answer]
      constructor
  | @loop _ _ _ body b next _ speaks _ ihBody ihNext =>
    have turns : ∀ n b s, m s = n → Ends ask (.loop body b next) (((Script.loop body b next).run ask m).run s) := by
      intro n
      induction n using Nat.strongRecOn with
      | ind n ih =>
        intro b s left
        have turn := ihBody b s
        rw [run, Comp.loop_eq (run_turn_lowers lowers speaks), Comp.bind_assoc]
        rcases ran : ((body b).run ask m).run s with ⟨(b' | c) | e | _ | _, s'⟩ <;> rw [ran] at turn
        · obtain ⟨tr, plays, -⟩ := run_lowers lowers ran
          have fewer : m s' < n := left ▸ run_turn_lowers lowers speaks b s b' s' ran
          rw [Comp.bind_ok ran, Sum.elim_inl]
          exact .again plays (ih (m s') fewer b' s' rfl)
        · obtain ⟨tr, plays, -⟩ := run_lowers lowers ran
          rw [Comp.bind_ok ran, Sum.elim_inr, Comp.pure_bind]
          exact .leave plays (ihNext c s')
        all_goals
          rw [Comp.run_bind, ran]
          exact turn.turn (by constructor)
    exact turns (m s) b s rfl

/-- A script that stops has taken the answers so far, and asked the question it stopped at. -/
theorem Stops.answered {x : Script Q R ε α} {tr : List (Q × R)} {stop : ε ⊕ Q} (stops : Stops x tr stop) (paced : Paced x)
    (asked : List Q) :
    (x.run answering fun s => s.1.length).run (tr.map (·.2), asked) =
      (stop.elim .err fun _ => .dropped, [], asked ++ tr.map (·.1) ++ stop.elim (fun _ => []) ([·])) := by
  induction stops generalizing asked with
  | fail e => simp [run]
  | unanswered q next => simp [run, answering, Comp.run_bind]
  | @ask _ q next r tr stop _ ih =>
    cases paced with
    | ask later =>
      have first : (answering q : Comp _ ε R).run (((q, r) :: tr).map (·.2), asked) = (.ok r, tr.map (·.2), asked ++ [q]) := rfl
      rw [run, Comp.bind_ok first, ih (later r)]
      simp
  | @turn _ _ _ _ _ _ _ stop _ ih =>
    cases paced with
    | loop turns asks later =>
      rw [run, Comp.loop_eq (turn_lowers asks), Comp.bind_assoc, Comp.run_bind, ih (turns _)]
      cases stop <;> rfl
  | leave played _ ih =>
    cases paced with
    | loop turns asks later =>
      rw [run, Comp.loop_eq (turn_lowers asks), Comp.bind_assoc, List.map_append, Comp.bind_ok (played.answered (turns _) _ _),
        Sum.elim_inr, Comp.pure_bind, ih (later _)]
      simp
  | again played _ ih =>
    cases paced with
    | loop turns asks later =>
      have go := ih (.loop turns asks later)
      simp only [run] at go
      rw [run, Comp.loop_eq (turn_lowers asks), Comp.bind_assoc, List.map_append, Comp.bind_ok (played.answered (turns _) _ _),
        Sum.elim_inl, go]
      simp

theorem Stops.against {x : Script Q R ε α} {tr : List (Q × R)} {stop : ε ⊕ Q} (stops : Stops x tr stop) (paced : Paced x) :
    x.against (tr.map (·.2)) = (stop.elim .err fun _ => .dropped, tr.map (·.1) ++ stop.elim (fun _ => []) ([·])) := by
  rw [Script.against, stops.answered paced []]
  rfl

/-- **A run is the script against the answers it got**, up to a question that ended it. -/
theorem run_against {ask : Q → Comp σ ε R} {m : σ → Nat} (lowers : ∀ q s r s', (ask q).run s = (.ok r, s') → m s' < m s)
    {x : Script Q R ε α} (paced : Paced x) (s : σ) :
    ∃ tr : List (Q × R), x.against (tr.map (·.2)) = (((x.run ask m).run s).1, tr.map (·.1)) ∨
      ∃ q k, x.against (tr.map (·.2)) = (.dropped, tr.map (·.1) ++ [q]) ∧ Broken ((ask q).run k) ((x.run ask m).run s) := by
  have ends := run_ends lowers paced s
  generalize (x.run ask m).run s = r at ends
  cases ends with
  | returns s plays => exact ⟨_, .inl (plays.against paced)⟩
  | fails s stops => exact ⟨_, .inl ((stops.against paced).trans (by simp))⟩
  | breaks stops broken => exact ⟨_, .inr ⟨_, _, stops.against paced, broken⟩⟩

end Script
