import Mathlib.Algebra.Ring.Nat
import Mathlib.Data.Vector.Defs
import Mathlib.Data.List.Basic
import Mathlib.Data.List.Induction

/-!
# Byte strings

Byte strings are lists of octets; a fixed-size array is a list that carries its length.
Integers on the wire are big-endian: `toBe k n` is the `k`-byte encoding of `n` and
`beNat` reads it back. The encoding is injective below `256 ^ k`, which is what a header
field, a counter in an initialisation vector and a checksum trailer all rest on.
-/

abbrev Bytes := List UInt8

/-- `[u8; n]`. -/
abbrev Octets (n : Nat) := List.Vector UInt8 n

namespace Bytes

/-- A property of every octet is checked on its 256 values. -/
theorem forall_octet {P : UInt8 → Prop} (h : ∀ n : Fin 256, P (UInt8.ofFin n)) (b : UInt8) : P b := by
  have := h b.toFin
  rwa [UInt8.ofFin_toFin] at this

/-- The `k`-byte big-endian encoding of `n`, higher bits cut off. -/
def toBe : Nat → Nat → Bytes
  | 0, _ => []
  | k + 1, n => toBe k (n / 256) ++ [UInt8.ofNat n]

/-- The big-endian reading of a byte string. -/
def beNat (bs : Bytes) : Nat := bs.foldl (fun n b => n * 256 + b.toNat) 0

/-- `<[u8; n]>::try_from`. -/
def asOctets (n : Nat) (bs : Bytes) : Option (Octets n) :=
  if h : bs.length = n then some ⟨bs, h⟩ else none

/-- `Vec::resize(n, 0)`. -/
def resize (n : Nat) (bs : Bytes) : Bytes := bs.take n ++ List.replicate (n - bs.length) 0

@[simp] theorem length_toBe (k n : Nat) : (toBe k n).length = k := by
  induction k generalizing n with
  | zero => rfl
  | succ k ih => simp [toBe, ih]

@[simp] theorem beNat_nil : beNat [] = 0 := rfl

theorem beNat_snoc (bs : Bytes) (b : UInt8) : beNat (bs ++ [b]) = beNat bs * 256 + b.toNat := by
  simp [beNat, List.foldl_append]

theorem beNat_toBe (k n : Nat) : beNat (toBe k n) = n % 256 ^ k := by
  induction k generalizing n with
  | zero => simp [toBe, Nat.mod_one]
  | succ k ih =>
    have digit : (UInt8.ofNat n).toNat = n % 256 := by rw [UInt8.toNat_ofNat']
    rw [toBe, beNat_snoc, ih, digit, Nat.pow_succ', Nat.mod_mul]
    omega

theorem beNat_lt (bs : Bytes) : beNat bs < 256 ^ bs.length := by
  induction bs using List.reverseRecOn with
  | nil => simp
  | append_singleton bs b ih =>
    have hb : b.toNat < 256 := b.toNat_lt
    rw [beNat_snoc, List.length_append, List.length_singleton, Nat.pow_succ]
    omega

/-- A byte string is the encoding of its reading. -/
theorem toBe_beNat (bs : Bytes) : toBe bs.length (beNat bs) = bs := by
  induction bs using List.reverseRecOn with
  | nil => rfl
  | append_singleton bs b ih =>
    have hb : b.toNat < 256 := b.toNat_lt
    rw [List.length_append, List.length_singleton, toBe, beNat_snoc,
      show (beNat bs * 256 + b.toNat) / 256 = beNat bs by omega, ih]
    congr 2
    apply UInt8.toNat_inj.mp
    rw [UInt8.toNat_ofNat']
    omega

/-- The encoding is injective on the numbers that fit. -/
theorem toBe_inj {k m n : Nat} (hm : m < 256 ^ k) (hn : n < 256 ^ k) (h : toBe k m = toBe k n) :
    m = n := by
  have := congrArg beNat h
  rwa [beNat_toBe, beNat_toBe, Nat.mod_eq_of_lt hm, Nat.mod_eq_of_lt hn] at this

/-! ## Little-endian -/

/-- The little-endian reading of a byte string. -/
def leNat : Bytes → Nat
  | [] => 0
  | b :: bs => b.toNat + 256 * leNat bs

theorem beNat_reverse (bs : Bytes) : beNat bs.reverse = leNat bs := by
  induction bs with
  | nil => rfl
  | cons b bs ih =>
    rw [List.reverse_cons, beNat_snoc, ih, leNat]
    omega

theorem leNat_append (as bs : Bytes) : leNat (as ++ bs) = leNat as + 256 ^ as.length * leNat bs := by
  induction as with
  | nil => simp [leNat]
  | cons a as ih =>
    rw [List.cons_append, leNat, ih, leNat, List.length_cons, Nat.pow_succ', Nat.mul_add, ← Nat.mul_assoc]
    omega

theorem leNat_lt (bs : Bytes) : leNat bs < 256 ^ bs.length := by
  rw [← beNat_reverse]
  have h := beNat_lt bs.reverse
  rwa [List.length_reverse] at h

/-- The bytes in front are the remainder, those behind are the quotient. -/
theorem leNat_take_drop (bs : Bytes) {n : Nat} (h : n ≤ bs.length) :
    leNat (bs.take n) = leNat bs % 256 ^ n ∧ leNat (bs.drop n) = leNat bs / 256 ^ n := by
  have whole := leNat_append (bs.take n) (bs.drop n)
  have low := leNat_lt (bs.take n)
  rw [List.length_take, Nat.min_eq_left h] at whole low
  rw [List.take_append_drop] at whole
  rw [whole, Nat.add_mul_mod_self_left, Nat.mod_eq_of_lt low, Nat.add_mul_div_left _ _ (Nat.pow_pos (by decide)),
    Nat.div_eq_of_lt low, Nat.zero_add]
  exact ⟨rfl, rfl⟩

/-- Strings of one length are their readings. -/
theorem leNat_inj {as bs : Bytes} (length : as.length = bs.length) (h : leNat as = leNat bs) : as = bs := by
  rw [← beNat_reverse, ← beNat_reverse] at h
  have same : as.reverse = bs.reverse := by
    rw [← toBe_beNat as.reverse, ← toBe_beNat bs.reverse, h, List.length_reverse, List.length_reverse, length]
  exact List.reverse_injective same

theorem asOctets_of_length {n : Nat} {bs : Bytes} (h : bs.length = n) :
    asOctets n bs = some ⟨bs, h⟩ := dif_pos h

@[simp] theorem asOctets_val {n : Nat} (v : Octets n) : asOctets n v.1 = some v :=
  asOctets_of_length v.2

theorem length_resize (n : Nat) (bs : Bytes) : (resize n bs).length = n := by
  simp [resize]; omega

/-- Padding only adds bytes behind the ones that are there. -/
theorem resize_eq {n : Nat} {bs : Bytes} (h : bs.length ≤ n) :
    resize n bs = bs ++ List.replicate (n - bs.length) 0 := by
  rw [resize, List.take_of_length_le h]

/-- Cutting the padding off again leaves the bytes that were there. -/
theorem take_padded (n : Nat) (bs : Bytes) :
    (bs.take n ++ List.replicate (n - bs.length) 0).take bs.length = bs.take n := by
  rcases Nat.le_total n bs.length with h | h
  · rw [Nat.sub_eq_zero_of_le h, List.replicate_zero, List.append_nil, List.take_take,
      Nat.min_eq_right h]
  · rw [List.take_of_length_le h, List.take_left]

end Bytes
