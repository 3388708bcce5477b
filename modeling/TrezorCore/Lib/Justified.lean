import Mathlib.Data.List.Basic

/-!
# Logs in which every entry is justified

An entry may ask for something that the entries before it have to show. A log that grows only by
entries that get what they ask for is justified throughout, and stays so in all its parts.
-/

variable {ε : Type}

/-- Every entry of a log is good after those before it. -/
def Justified (Good : List ε → ε → Prop) (log : List ε) : Prop := ∀ pre e post, log = pre ++ e :: post → Good pre e

namespace Justified

variable {Good : List ε → ε → Prop} {log before after : List ε} {e : ε}

theorem nil : Justified Good [] := fun _ _ _ parts => absurd parts (by simp)

/-- **The step**: one more good entry. -/
theorem snoc (justified : Justified Good log) (good : Good log e) : Justified Good (log ++ [e]) := by
  intro pre e' post parts
  rcases List.eq_nil_or_concat post with rfl | ⟨post, last, rfl⟩
  · obtain ⟨rfl, rfl⟩ := List.append_singleton_inj.1 parts
    exact good
  · have parts' : log ++ [e] = (pre ++ e' :: post) ++ [last] := by simpa using parts
    exact justified pre e' post (List.append_singleton_inj.1 parts').1

/-- What was justified before is so still. -/
theorem left (justified : Justified Good (before ++ after)) : Justified Good before :=
  fun pre e post parts => justified pre e (post ++ after) (by simp [parts])

/-- What was good enough is good enough when less is asked for. -/
theorem mono {Good' : List ε → ε → Prop} (justified : Justified Good log) (less : ∀ t e, Good t e → Good' t e) : Justified Good' log :=
  fun pre e post parts => less pre e (justified pre e post parts)

end Justified
