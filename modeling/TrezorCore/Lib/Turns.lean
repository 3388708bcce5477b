import Mathlib.Data.List.Basic

/-!
# Taking turns

A shared resource is used by several parties, and the list of its users, in order, is a
history. The history is exclusive when nobody's uses are separated by another's. It stays
so as long as whoever uses the resource next has the turn: all its earlier uses, if any,
are the last ones of the history.
-/

namespace Turns

variable {ι : Type} {users : List ι} {i j : ι}

/-- Between two uses of one party there is none of another. -/
def Exclusive (users : List ι) : Prop :=
  ∀ (p q r : Nat) (i : ι), p < q → q < r → users[p]? = some i → users[r]? = some i → users[q]? = some i

/-- The uses of `i` so far are the last ones. -/
def Turn (i : ι) (users : List ι) : Prop :=
  ∃ k : Nat, (∀ p, p < k → users[p]? ≠ some i) ∧ ∀ p, k ≤ p → p < users.length → users[p]? = some i

theorem Exclusive.nil : Exclusive ([] : List ι) := by
  intro p q r i _ _ first
  simp at first

/-- Somebody new has the turn. -/
theorem Turn.of_not_mem (new : i ∉ users) : Turn i users := by
  refine ⟨users.length, fun p _ used => new (List.mem_of_getElem? used), fun p le lt => ?_⟩
  omega

theorem Turn.append (turn : Turn i users) : Turn i (users ++ [i]) := by
  obtain ⟨k, before, after⟩ := turn
  by_cases long : k ≤ users.length
  · refine ⟨k, fun p lt => ?_, fun p le lt => ?_⟩
    · rw [List.getElem?_append_left (by omega)]
      exact before p lt
    · rw [List.length_append, List.length_singleton] at lt
      by_cases old : p < users.length
      · rw [List.getElem?_append_left old]
        exact after p le old
      · rw [show p = users.length by omega]
        simp
  · -- there was no use at all
    refine ⟨users.length, fun p lt => ?_, fun p le lt => ?_⟩
    · rw [List.getElem?_append_left lt]
      exact before p (by omega)
    · rw [List.length_append, List.length_singleton] at lt
      rw [show p = users.length by omega]
      simp

/-- **A use in turn** keeps the history exclusive. -/
theorem Exclusive.append (exclusive : Exclusive users) (turn : Turn i users) : Exclusive (users ++ [i]) := by
  intro p q r j pq qr first last
  have bound : r < users.length + 1 := by
    have := (List.getElem?_eq_some_iff.1 last).1
    simpa using this
  have old : ∀ n, n < users.length → (users ++ [i])[n]? = users[n]? := fun n lt => List.getElem?_append_left lt
  rw [old p (by omega)] at first
  rw [old q (by omega)]
  by_cases inside : r < users.length
  · rw [old r inside] at last
    exact exclusive p q r j pq qr first last
  · -- the last use is the new one, and the turn covers everything since the first
    have same : i = j := by
      rw [show r = users.length by omega] at last
      simpa using last
    subst same
    obtain ⟨k, before, after⟩ := turn
    have start : k ≤ p := by
      by_contra early
      exact before p (by omega) first
    exact after q (by omega) (by omega)

end Turns
