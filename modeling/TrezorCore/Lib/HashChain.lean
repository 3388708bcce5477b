import Mathlib.Data.Set.Function
import TrezorCore.Lib.Bytes

/-!
# Hash chains

A transcript hash absorbs one field after another: each digest is the hash of the digest
before it and the next field. A digest has a fixed length, so the pair is read back without
a separator, and a hash that is injective on the inputs of two chains binds the start and
every field of them.
-/

namespace HashChain

variable {n : Nat} (H : Bytes → Octets n)

/-- Absorb the fields in order. -/
def chain (start : Octets n) : List Bytes → Octets n
  | [] => start
  | field :: fields => chain (H (start.1 ++ field)) fields

/-- What is hashed on the way. -/
def inputs (start : Octets n) : List Bytes → List Bytes
  | [] => []
  | field :: fields => (start.1 ++ field) :: inputs (H (start.1 ++ field)) fields

variable {H}

/-- A digest in front of a field is read back. -/
theorem append_field_inj {d d' : Octets n} {field field' : Bytes} (h : d.1 ++ field = d'.1 ++ field') :
    d = d' ∧ field = field' := by
  have same : d.1.length = d'.1.length := d.2.trans d'.2.symm
  obtain ⟨digest, rest⟩ := List.append_inj h same
  exact ⟨Subtype.ext digest, rest⟩

/-- **Binding**: equal digests come from equal starts and equal fields. -/
theorem chain_inj {fields fields' : List Bytes} {start start' : Octets n}
    (injective : Set.InjOn H {x | x ∈ inputs H start fields ++ inputs H start' fields'})
    (count : fields.length = fields'.length) (h : chain H start fields = chain H start' fields') :
    start = start' ∧ fields = fields' := by
  induction fields generalizing fields' start start' with
  | nil =>
    obtain rfl : fields' = [] := List.length_eq_zero_iff.1 count.symm
    exact ⟨h, rfl⟩
  | cons field fields ih =>
    obtain ⟨field', fields', rfl⟩ : ∃ x xs, fields' = x :: xs := List.exists_cons_of_length_eq_add_one count.symm
    have later : Set.InjOn H
        {x | x ∈ inputs H (H (start.1 ++ field)) fields ++ inputs H (H (start'.1 ++ field')) fields'} := by
      refine injective.mono fun x hx => ?_
      simp only [Set.mem_ofPred_eq, inputs, List.mem_append, List.mem_cons] at hx ⊢
      tauto
    obtain ⟨digest, rest⟩ := ih later (Nat.succ.inj count) h
    have first : start.1 ++ field = start'.1 ++ field' :=
      injective (by simp [inputs]) (by simp [inputs]) digest
    obtain ⟨same, head⟩ := append_field_inj first
    exact ⟨same, by rw [head, rest]⟩

end HashChain
