import Mathlib.Data.List.Basic

/-!
# Ordered maps

A `BTreeMap` as the list of its entries in key order. `btreeInsert` is `BTreeMap::insert`:
one pass that replaces the entry of an equal key. What a lookup finds after an insertion does
not depend on the list being in order; that no key stands in it twice does.
-/

namespace OrderedMap

variable {κ ν : Type}

/-- `BTreeMap::insert`. -/
def btreeInsert (less : κ → κ → Bool) (k : κ) (v : ν) : List (κ × ν) → List (κ × ν)
  | [] => [(k, v)]
  | (k', v') :: rest =>
    if less k k' then (k, v) :: (k', v') :: rest
    else if less k' k then (k', v') :: btreeInsert less k v rest
    else (k', v) :: rest

/-- The value of the first key with a property. -/
def valueAt (P : κ → Bool) (m : List (κ × ν)) : Option ν := (m.find? fun e => P e.1).map (·.2)

/-- A strict total order, as a comparison. -/
structure Comparison (less : κ → κ → Bool) : Prop where
  irrefl : ∀ a, less a a = false
  trans : ∀ a b c, less a b = true → less b c = true → less a c = true
  tri : ∀ a b, less a b = false → less b a = false → a = b

/-- The entries are in key order. -/
def Sorted (less : κ → κ → Bool) (m : List (κ × ν)) : Prop := m.Pairwise fun a b => less a.1 b.1 = true

variable {less : κ → κ → Bool} {k : κ} {v : ν} {m : List (κ × ν)}

@[simp] theorem valueAt_nil (P : κ → Bool) : valueAt P ([] : List (κ × ν)) = none := rfl

theorem valueAt_cons (P : κ → Bool) (e : κ × ν) (m : List (κ × ν)) :
    valueAt P (e :: m) = if P e.1 then some e.2 else valueAt P m := by
  unfold valueAt
  rw [List.find?_cons]
  cases P e.1 <;> rfl

theorem valueAt_append (P : κ → Bool) (m n : List (κ × ν)) : valueAt P (m ++ n) = (valueAt P m).or (valueAt P n) := by
  induction m with
  | nil => rfl
  | cons e m ih =>
    rw [List.cons_append, valueAt_cons, valueAt_cons, ih]
    cases P e.1 <;> rfl

theorem valueAt_some {P : κ → Bool} (h : valueAt P m = some v) : ∃ k, P k = true ∧ (k, v) ∈ m := by
  obtain ⟨e, found, rfl⟩ := Option.map_eq_some_iff.1 h
  have here := @List.find?_some _ (fun e => P e.1) e m found
  exact ⟨e.1, here, List.mem_of_find?_eq_some found⟩

/-- A property of one key finds the new value exactly when it is the inserted key's. -/
theorem valueAt_btreeInsert (order : Comparison less) {P : κ → Bool} (one : ∀ a b, P a = true → P b = true → a = b) :
    valueAt P (btreeInsert less k v m) = if P k then some v else valueAt P m := by
  induction m with
  | nil => rw [btreeInsert, valueAt_cons]
  | cons e m ih =>
    obtain ⟨k', v'⟩ := e
    rw [btreeInsert]
    split
    · rw [valueAt_cons]
    · split
      · next after =>
        rw [valueAt_cons, ih, valueAt_cons]
        by_cases here : P k' = true
        · have other : P k ≠ true := by
            intro there
            rw [one k' k here there, order.irrefl] at after
            cases after
          rw [if_pos here, if_neg other, if_pos here]
        · rw [if_neg here, if_neg here]
      · next before after =>
        have same : k = k' := order.tri k k' (Bool.eq_false_iff.2 before) (Bool.eq_false_iff.2 after)
        subst same
        rw [valueAt_cons, valueAt_cons]
        cases P k <;> rfl

theorem mem_btreeInsert {e : κ × ν} (h : e ∈ btreeInsert less k v m) : e.1 = k ∨ e.1 ∈ m.map (·.1) := by
  induction m with
  | nil =>
    rw [btreeInsert, List.mem_singleton] at h
    exact .inl (congrArg (·.1) h)
  | cons first m ih =>
    obtain ⟨k', v'⟩ := first
    rw [btreeInsert] at h
    split at h
    · rcases List.mem_cons.1 h with rfl | h
      · exact .inl rfl
      · exact .inr (List.mem_map_of_mem h)
    · split at h
      · rcases List.mem_cons.1 h with rfl | h
        · exact .inr List.mem_cons_self
        · exact (ih h).imp_right (List.mem_cons_of_mem _)
      · rcases List.mem_cons.1 h with rfl | h
        · exact .inr List.mem_cons_self
        · exact .inr (List.mem_cons_of_mem _ (List.mem_map_of_mem h))

theorem Sorted.btreeInsert (order : Comparison less) (sorted : Sorted less m) : Sorted less (btreeInsert less k v m) := by
  induction m with
  | nil => exact List.pairwise_singleton _ _
  | cons first m ih =>
    obtain ⟨k', v'⟩ := first
    obtain ⟨least, rest⟩ := List.pairwise_cons.1 sorted
    rw [OrderedMap.btreeInsert]
    split
    · next before =>
      refine List.pairwise_cons.2 ⟨fun e h => ?_, sorted⟩
      rcases List.mem_cons.1 h with rfl | h
      · exact before
      · exact order.trans _ _ _ before (least e h)
    · split
      · next after =>
        refine List.pairwise_cons.2 ⟨fun e h => ?_, ih rest⟩
        rcases mem_btreeInsert h with same | old
        · rw [same]
          exact after
        · obtain ⟨e', member, same⟩ := List.mem_map.1 old
          rw [← same]
          exact least e' member
      · exact List.pairwise_cons.2 ⟨least, rest⟩

/-- No key stands twice. -/
theorem Sorted.nodup (order : Comparison less) (sorted : Sorted less m) : (m.map (·.1)).Nodup := by
  rw [List.Nodup, List.pairwise_map]
  refine sorted.imp fun {a b} before same => ?_
  rw [same, order.irrefl] at before
  cases before

/-- Without a key that stands twice, a lookup finds an entry exactly when it is there. -/
theorem mem_iff_valueAt (nodup : (m.map (·.1)).Nodup) {P : κ → Bool} (one : ∀ a b, P a = true → P b = true → a = b)
    (here : P k = true) : (k, v) ∈ m ↔ valueAt P m = some v := by
  induction m with
  | nil => simp
  | cons e m ih =>
    obtain ⟨k', v'⟩ := e
    obtain ⟨fresh, rest⟩ := List.nodup_cons.1 nodup
    have later := ih rest
    rw [valueAt_cons, List.mem_cons, later]
    by_cases there : P k' = true
    · have same : k = k' := one k k' here there
      subst same
      rw [if_pos here, Prod.mk.injEq, Option.some.injEq, ← later]
      constructor
      · rintro (⟨-, rfl⟩ | member)
        · rfl
        · exact absurd (List.mem_map_of_mem member) fresh
      · rintro rfl
        exact .inl ⟨rfl, rfl⟩
    · rw [if_neg there]
      constructor
      · rintro (same | found)
        · cases same
          exact absurd here there
        · exact found
      · exact .inr

end OrderedMap
