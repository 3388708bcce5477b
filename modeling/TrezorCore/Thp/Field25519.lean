import TrezorCore.Lib.Lucas
import TrezorCore.Thp.Elligator2
import Mathlib.Tactic.LinearCombination
import Mathlib.Tactic.NormNum.Prime
import Mathlib.Tactic.Ring

/-!
# The field GF(2^255 - 19)

What the limbs of `thp/elligator2.rs` stand for. A value is the number its limbs spell in radix
2^51, taken modulo the prime. `Fe.Rep n a x` says that `a` stands for `x` with limbs below `n`,
and each operation has one rule for it: from the bounds of the operands, the field operation and
the bound of the result. No limb wraps under these bounds, so 64-bit and 128-bit arithmetic is
arithmetic of numbers.
-/

namespace TrezorCore.Elligator2

/-! ## The prime

The certificate goes down through the large prime factors of `p - 1`; the names give the
number of bits. -/

theorem prime32 : Nat.Prime 2773320623 := by
  apply Lucas.prime_of_passes 5 [2, 2437, 569003]
  · simp only [List.forall_mem_cons, List.not_mem_nil, false_imp_iff, implies_true, and_true]
    norm_num
  · decide +kernel

theorem prime37 : Nat.Prime 72106336199 := by
  apply Lucas.prime_of_passes 7 [2, 13, 2773320623]
  · simp only [List.forall_mem_cons, List.not_mem_nil, false_imp_iff, implies_true, and_true, prime32]
    norm_num
  · decide +kernel

theorem prime51 : Nat.Prime 1919519569386763 := by
  apply Lucas.prime_of_passes 2 [2, 3, 7, 19, 47, 47, 127, 8574133]
  · simp only [List.forall_mem_cons, List.not_mem_nil, false_imp_iff, implies_true, and_true]
    norm_num
  · decide +kernel

theorem prime55 : Nat.Prime 31757755568855353 := by
  apply Lucas.prime_of_passes 10 [2, 2, 2, 3, 31, 107, 223, 4153, 430751]
  · simp only [List.forall_mem_cons, List.not_mem_nil, false_imp_iff, implies_true, and_true]
    norm_num
  · decide +kernel

theorem prime116 : Nat.Prime 75445702479781427272750846543864801 := by
  apply Lucas.prime_of_passes 7 [2, 2, 2, 2, 2, 3, 3, 5, 5, 75707, 72106336199, 1919519569386763]
  · simp only [List.forall_mem_cons, List.not_mem_nil, false_imp_iff, implies_true, and_true, prime37, prime51]
    norm_num
  · decide +kernel

theorem prime236 : Nat.Prime 74058212732561358302231226437062788676166966415465897661863160754340907 := by
  apply Lucas.prime_of_passes 2 [2, 3, 353, 57467, 132049, 1923133, 31757755568855353, 75445702479781427272750846543864801]
  · simp only [List.forall_mem_cons, List.not_mem_nil, false_imp_iff, implies_true, and_true, prime55, prime116]
    norm_num
  · decide +kernel

theorem prime255 : Nat.Prime 57896044618658097711785492504343953926634992332820282019728792003956564819949 := by
  apply Lucas.prime_of_passes 2 [2, 2, 3, 65147, 74058212732561358302231226437062788676166966415465897661863160754340907]
  · simp only [List.forall_mem_cons, List.not_mem_nil, false_imp_iff, implies_true, and_true, prime236]
    norm_num
  · decide +kernel

/-- The order of the field. -/
def p : ℕ := 2 ^ 255 - 19

theorem p_prime : p.Prime := by
  have literal : p = 57896044618658097711785492504343953926634992332820282019728792003956564819949 := by decide
  rw [literal]
  exact prime255

instance : Fact p.Prime := ⟨p_prime⟩

/-! ## Words -/

theorem toNat_mask (x : UInt64) : (x &&& LOW_51_BIT_MASK).toNat = x.toNat % 2 ^ 51 := by
  rw [UInt64.toNat_and, show LOW_51_BIT_MASK.toNat = 2 ^ 51 - 1 by decide, Nat.and_two_pow_sub_one_eq_mod]

theorem toNat_carry (x : UInt64) : (x >>> 51).toNat = x.toNat / 2 ^ 51 := by
  rw [UInt64.toNat_shiftRight, Nat.shiftRight_eq_div_pow]
  rfl

theorem carry_lt (x : UInt64) : x.toNat / 2 ^ 51 < 2 ^ 13 := by
  have := x.toNat_lt
  omega

theorem toNat_add {x y : UInt64} (fits : x.toNat + y.toNat < 2 ^ 64) : (x + y).toNat = x.toNat + y.toNat := by
  rw [UInt64.toNat_add, Nat.mod_eq_of_lt fits]

theorem toNat_mul {x y : UInt64} (fits : x.toNat * y.toNat < 2 ^ 64) : (x * y).toNat = x.toNat * y.toNat := by
  rw [UInt64.toNat_mul, Nat.mod_eq_of_lt fits]

namespace Fe

/-- The number that the limbs spell. -/
def nat (a : Fe) : ℕ :=
  a.l0.toNat + 2 ^ 51 * a.l1.toNat + 2 ^ 102 * a.l2.toNat + 2 ^ 153 * a.l3.toNat + 2 ^ 204 * a.l4.toNat

/-- The field element that the limbs stand for. -/
def val (a : Fe) : ZMod p := (a.nat : ZMod p)

/-- All limbs are below a bound. -/
structure Below (n : ℕ) (a : Fe) : Prop where
  l0 : a.l0.toNat < n
  l1 : a.l1.toNat < n
  l2 : a.l2.toNat < n
  l3 : a.l3.toNat < n
  l4 : a.l4.toNat < n

theorem Below.mono {m n : ℕ} {a : Fe} (below : Below m a) (le : m ≤ n) : Below n a :=
  ⟨below.l0.trans_le le, below.l1.trans_le le, below.l2.trans_le le, below.l3.trans_le le, below.l4.trans_le le⟩

/-- `a` stands for `x`, with limbs below `n`. -/
structure Rep (n : ℕ) (a : Fe) (x : ZMod p) : Prop where
  below : Below n a
  val : a.val = x

theorem Rep.mono {m n : ℕ} {a : Fe} {x : ZMod p} (rep : Rep m a x) (le : m ≤ n) : Rep n a x :=
  ⟨rep.below.mono le, rep.val⟩

/-- Numbers that differ by a multiple of the prime stand for the same element. -/
theorem val_eq_of_nat {a b : Fe} {k : ℕ} (h : a.nat + k * p = b.nat) : a.val = b.val := by
  have cast := congrArg (fun n : ℕ => (n : ZMod p)) h
  simp only [Nat.cast_add, Nat.cast_mul, ZMod.natCast_self, mul_zero, add_zero] at cast
  exact cast

end Fe

/-! ## Reduction -/

/-- The limbs of a weak reduction. -/
theorem reduce_limbs (a : Fe) :
    (reduce a).l0.toNat = a.l0.toNat % 2 ^ 51 + a.l4.toNat / 2 ^ 51 * 19 ∧
    (reduce a).l1.toNat = a.l1.toNat % 2 ^ 51 + a.l0.toNat / 2 ^ 51 ∧
    (reduce a).l2.toNat = a.l2.toNat % 2 ^ 51 + a.l1.toNat / 2 ^ 51 ∧
    (reduce a).l3.toNat = a.l3.toNat % 2 ^ 51 + a.l2.toNat / 2 ^ 51 ∧
    (reduce a).l4.toNat = a.l4.toNat % 2 ^ 51 + a.l3.toNat / 2 ^ 51 := by
  have times : (a.l4 >>> 51 * 19).toNat = a.l4.toNat / 2 ^ 51 * 19 := by
    have := carry_lt a.l4
    rw [toNat_mul, toNat_carry]
    · rfl
    · rw [toNat_carry]
      show _ * 19 < _
      omega
  have sum : ∀ x y : UInt64, ((x &&& LOW_51_BIT_MASK) + y >>> 51).toNat = x.toNat % 2 ^ 51 + y.toNat / 2 ^ 51 := by
    intro x y
    have := carry_lt y
    rw [toNat_add, toNat_mask, toNat_carry]
    rw [toNat_mask, toNat_carry]
    omega
  refine ⟨?_, sum _ _, sum _ _, sum _ _, sum _ _⟩
  have := carry_lt a.l4
  unfold reduce
  rw [toNat_add, toNat_mask, times]
  rw [toNat_mask, times]
  omega

theorem nat_reduce (a : Fe) : (reduce a).nat + a.l4.toNat / 2 ^ 51 * p = a.nat := by
  obtain ⟨h0, h1, h2, h3, h4⟩ := reduce_limbs a
  unfold Fe.nat p
  rw [h0, h1, h2, h3, h4]
  omega

theorem reduce_below (a : Fe) : (reduce a).Below (2 ^ 51 + 2 ^ 18) := by
  obtain ⟨h0, h1, h2, h3, h4⟩ := reduce_limbs a
  have c0 := carry_lt a.l0
  have c1 := carry_lt a.l1
  have c2 := carry_lt a.l2
  have c3 := carry_lt a.l3
  have c4 := carry_lt a.l4
  constructor <;> omega

theorem val_reduce (a : Fe) : (reduce a).val = a.val := Fe.val_eq_of_nat (nat_reduce a)

/-! ## Sums and differences -/

namespace Fe

variable {a b : Fe} {x y : ZMod p} {m n : ℕ}

theorem Rep.add (ha : Rep m a x) (hb : Rep n b y) (fits : m + n ≤ 2 ^ 64) : Rep (m + n) (a.add b) (x + y) := by
  have sum : ∀ {u v : UInt64}, u.toNat < m → v.toNat < n → (u + v).toNat = u.toNat + v.toNat := by
    intro u v hu hv
    apply toNat_add
    omega
  obtain ⟨⟨a0, a1, a2, a3, a4⟩, rfl⟩ := ha
  obtain ⟨⟨b0, b1, b2, b3, b4⟩, rfl⟩ := hb
  constructor
  · constructor <;> simp only [Fe.add]
    · rw [sum a0 b0]; omega
    · rw [sum a1 b1]; omega
    · rw [sum a2 b2]; omega
    · rw [sum a3 b3]; omega
    · rw [sum a4 b4]; omega
  · have nat : (a.add b).nat = a.nat + b.nat := by
      unfold Fe.nat Fe.add
      simp only
      rw [sum a0 b0, sum a1 b1, sum a2 b2, sum a3 b3, sum a4 b4]
      ring
    unfold Fe.val
    rw [nat, Nat.cast_add]

theorem Rep.sub (ha : Rep (2 ^ 54) a x) (hb : Rep (2 ^ 52) b y) : Rep (2 ^ 52) (a.sub b) (x - y) := by
  obtain ⟨⟨a0, a1, a2, a3, a4⟩, rfl⟩ := ha
  obtain ⟨⟨b0, b1, b2, b3, b4⟩, rfl⟩ := hb
  have difference : ∀ {u v k : UInt64}, u.toNat < 2 ^ 54 → v.toNat < 2 ^ 52 → 2 ^ 52 ≤ k.toNat → k.toNat < 2 ^ 63 →
      (u + k - v).toNat = u.toNat + k.toNat - v.toNat := by
    intro u v k hu hv low high
    have sum : (u + k).toNat = u.toNat + k.toNat := toNat_add (by omega)
    rw [UInt64.toNat_sub_of_le, sum]
    rw [UInt64.le_iff_toNat_le, sum]
    omega
  refine ⟨(reduce_below _).mono (by decide), ?_⟩
  unfold Fe.sub
  rw [val_reduce]
  -- sixteen times the prime stands above every limb
  have nat : Fe.nat ⟨(a.l0 + 36028797018963664) - b.l0, (a.l1 + 36028797018963952) - b.l1, (a.l2 + 36028797018963952) - b.l2,
      (a.l3 + 36028797018963952) - b.l3, (a.l4 + 36028797018963952) - b.l4⟩ + b.nat = a.nat + 16 * p := by
    unfold Fe.nat p
    simp only
    rw [difference a0 b0 (by decide) (by decide), difference a1 b1 (by decide) (by decide),
      difference a2 b2 (by decide) (by decide), difference a3 b3 (by decide) (by decide),
      difference a4 b4 (by decide) (by decide)]
    simp only [UInt64.reduceToNat]
    omega
  have cast := congrArg (fun n : ℕ => (n : ZMod p)) nat
  simp only [Nat.cast_add, Nat.cast_mul, ZMod.natCast_self, mul_zero, add_zero] at cast
  unfold Fe.val
  rw [← cast]
  ring

theorem Rep.zero : Rep 1 zero 0 := ⟨by constructor <;> decide, by simp [Fe.val, Fe.nat, Fe.zero]⟩

theorem Rep.one : Rep 2 one 1 := ⟨by constructor <;> decide, by simp [Fe.val, Fe.nat, Fe.one]⟩

theorem Rep.fromU64 (k : UInt64) : Rep (k.toNat + 1) (fromU64 k) k.toNat := by
  constructor
  · constructor <;> simp [Fe.fromU64]
  · simp [Fe.val, Fe.nat, Fe.fromU64]

theorem Rep.neg (hb : Rep (2 ^ 52) b y) : Rep (2 ^ 52) b.neg (-y) := by
  have difference := (Rep.zero.mono (by decide)).sub hb
  rwa [zero_sub] at difference

end Fe

/-! ## Products -/

theorem toNat_m (x y : UInt64) : (m x y).toNat = x.toNat * y.toNat := by
  have hx := x.toNat_lt
  have hy := y.toNat_lt
  have product : x.toNat * y.toNat < 2 ^ 128 := by
    calc x.toNat * y.toNat < 2 ^ 64 * 2 ^ 64 := Nat.mul_lt_mul'' hx hy
      _ = 2 ^ 128 := by norm_num
  unfold m
  rw [BitVec.toNat_mul, BitVec.toNat_setWidth, BitVec.toNat_setWidth, UInt64.toNat_toBitVec, UInt64.toNat_toBitVec,
    Nat.mod_eq_of_lt (by omega : x.toNat < 2 ^ 128), Nat.mod_eq_of_lt (by omega : y.toNat < 2 ^ 128), Nat.mod_eq_of_lt product]

theorem toNat_low_mask (c : U128) : (low c &&& LOW_51_BIT_MASK).toNat = c.toNat % 2 ^ 51 := by
  rw [toNat_mask]
  unfold low
  rw [UInt64.toNat_ofBitVec, BitVec.toNat_setWidth]
  omega

theorem toNat_shift (c : U128) : (c >>> 51).toNat = c.toNat / 2 ^ 51 := by
  rw [BitVec.toNat_ushiftRight, Nat.shiftRight_eq_div_pow]

/-- The column with the carry of the one before. -/
theorem toNat_column {c d : U128} (hc : c.toNat < 2 ^ 116) (hd : d.toNat < 2 ^ 116) :
    (c + (d >>> 51)).toNat = c.toNat + d.toNat / 2 ^ 51 := by
  rw [BitVec.toNat_add, toNat_shift]
  omega

/-- The columns, each with the carry of the one before; the last carry comes back times 19. -/
theorem columns_carry {c0 c1 c2 c3 c4 : U128} (h0 : c0.toNat < 2 ^ 115) (h1 : c1.toNat < 2 ^ 115) (h2 : c2.toNat < 2 ^ 115)
    (h3 : c3.toNat < 2 ^ 115) (h4 : c4.toNat ≤ 5 * 2 ^ 108) :
    ∃ e1 e2 e3 e4 : U128, (e1 = c1 + c0 >>> 51 ∧ e1.toNat = c1.toNat + c0.toNat / 2 ^ 51) ∧
      (e2 = c2 + e1 >>> 51 ∧ e2.toNat = c2.toNat + e1.toNat / 2 ^ 51) ∧
      (e3 = c3 + e2 >>> 51 ∧ e3.toNat = c3.toNat + e2.toNat / 2 ^ 51) ∧
      (e4 = c4 + e3 >>> 51 ∧ e4.toNat = c4.toNat + e3.toNat / 2 ^ 51) ∧ e4.toNat / 2 ^ 51 < 3 * 2 ^ 58 ∧
      (low (e4 >>> 51)).toNat = e4.toNat / 2 ^ 51 ∧ (low (e4 >>> 51) * 19).toNat = e4.toNat / 2 ^ 51 * 19 := by
  obtain ⟨e1, he1⟩ : ∃ e, e = c1 + c0 >>> 51 := ⟨_, rfl⟩
  have n1 : e1.toNat = c1.toNat + c0.toNat / 2 ^ 51 := he1 ▸ toNat_column (by omega) (by omega)
  obtain ⟨e2, he2⟩ : ∃ e, e = c2 + e1 >>> 51 := ⟨_, rfl⟩
  have n2 : e2.toNat = c2.toNat + e1.toNat / 2 ^ 51 := he2 ▸ toNat_column (by omega) (by omega)
  obtain ⟨e3, he3⟩ : ∃ e, e = c3 + e2 >>> 51 := ⟨_, rfl⟩
  have n3 : e3.toNat = c3.toNat + e2.toNat / 2 ^ 51 := he3 ▸ toNat_column (by omega) (by omega)
  obtain ⟨e4, he4⟩ : ∃ e, e = c4 + e3 >>> 51 := ⟨_, rfl⟩
  have n4 : e4.toNat = c4.toNat + e3.toNat / 2 ^ 51 := he4 ▸ toNat_column (by omega) (by omega)
  have small : e4.toNat / 2 ^ 51 < 3 * 2 ^ 58 := by omega
  have carry : (low (e4 >>> 51)).toNat = e4.toNat / 2 ^ 51 := by
    unfold low
    rw [UInt64.toNat_ofBitVec, BitVec.toNat_setWidth, toNat_shift]
    omega
  have times : (low (e4 >>> 51) * 19).toNat = e4.toNat / 2 ^ 51 * 19 := by
    rw [toNat_mul, carry]
    · rfl
    · rw [carry]
      show _ * 19 < _
      omega
  exact ⟨e1, e2, e3, e4, ⟨he1, n1⟩, ⟨he2, n2⟩, ⟨he3, n3⟩, ⟨he4, n4⟩, small, carry, times⟩

/-- The carries keep the value, and every limb is below `2^52` again. -/
theorem mulCarry_spec {c0 c1 c2 c3 c4 : U128} (h0 : c0.toNat < 2 ^ 115) (h1 : c1.toNat < 2 ^ 115) (h2 : c2.toNat < 2 ^ 115)
    (h3 : c3.toNat < 2 ^ 115) (h4 : c4.toNat ≤ 5 * 2 ^ 108) :
    (∃ k, (Fe.mulCarry c0 c1 c2 c3 c4).nat + k * p =
      c0.toNat + 2 ^ 51 * c1.toNat + 2 ^ 102 * c2.toNat + 2 ^ 153 * c3.toNat + 2 ^ 204 * c4.toNat) ∧
    (Fe.mulCarry c0 c1 c2 c3 c4).Below (2 ^ 52) := by
  obtain ⟨e1, e2, e3, e4, ⟨he1, n1⟩, ⟨he2, n2⟩, ⟨he3, n3⟩, ⟨he4, n4⟩, small, -, times⟩ := columns_carry h0 h1 h2 h3 h4
  obtain ⟨out0, hout⟩ : ∃ o, o = (low c0 &&& LOW_51_BIT_MASK) + low (e4 >>> 51) * 19 := ⟨_, rfl⟩
  have n0 : out0.toNat = c0.toNat % 2 ^ 51 + e4.toNat / 2 ^ 51 * 19 := by
    rw [hout, toNat_add, toNat_low_mask, times]
    rw [toNat_low_mask, times]
    omega
  have l1 : ((low e1 &&& LOW_51_BIT_MASK) + out0 >>> 51).toNat = e1.toNat % 2 ^ 51 + out0.toNat / 2 ^ 51 := by
    have := carry_lt out0
    rw [toNat_add, toNat_low_mask, toNat_carry]
    rw [toNat_low_mask, toNat_carry]
    omega
  have limbs : Fe.mulCarry c0 c1 c2 c3 c4 = ⟨out0 &&& LOW_51_BIT_MASK, (low e1 &&& LOW_51_BIT_MASK) + out0 >>> 51,
      low e2 &&& LOW_51_BIT_MASK, low e3 &&& LOW_51_BIT_MASK, low e4 &&& LOW_51_BIT_MASK⟩ := by
    rw [hout, he4, he3, he2, he1]
    rfl
  rw [limbs]
  constructor
  · refine ⟨e4.toNat / 2 ^ 51, ?_⟩
    unfold Fe.nat p
    simp only
    rw [l1, toNat_mask, toNat_low_mask, toNat_low_mask, toNat_low_mask]
    omega
  · have := carry_lt out0
    constructor <;> simp only
    · rw [toNat_mask]; omega
    · rw [l1]; omega
    · rw [toNat_low_mask]; omega
    · rw [toNat_low_mask]; omega
    · rw [toNat_low_mask]; omega

theorem product_lt {x y : UInt64} (hx : x.toNat < 2 ^ 54) (hy : y.toNat < 2 ^ 54) : x.toNat * y.toNat < 2 ^ 108 := by
  calc x.toNat * y.toNat < 2 ^ 54 * 2 ^ 54 := Nat.mul_lt_mul'' hx hy
    _ = 2 ^ 108 := by norm_num

theorem product_wide {x y : UInt64} (hx : x.toNat < 2 ^ 54) (hy : y.toNat < 2 ^ 54) : x.toNat * y.toNat < 19 * 2 ^ 108 :=
  (product_lt hx hy).trans (by norm_num)

theorem times19_fits {y : UInt64} (hy : y.toNat < 2 ^ 54) : y.toNat * (19 : UInt64).toNat < 2 ^ 64 := by
  show _ * 19 < _
  omega

theorem toNat_times19 {y : UInt64} (hy : y.toNat < 2 ^ 54) : (y * 19).toNat = y.toNat * 19 := toNat_mul (times19_fits hy)

theorem product19_lt {x y : UInt64} (hx : x.toNat < 2 ^ 54) (hy : y.toNat < 2 ^ 54) :
    x.toNat * (y * 19).toNat < 19 * 2 ^ 108 := by
  have := product_lt hx hy
  rw [toNat_times19 hy, ← Nat.mul_assoc]
  omega

/-- A column is the number it spells. -/
theorem toNat_column5 {bound : ℕ} (small : bound ≤ 2 ^ 113) {x0 y0 x1 y1 x2 y2 x3 y3 x4 y4 : UInt64}
    (h0 : x0.toNat * y0.toNat < bound) (h1 : x1.toNat * y1.toNat < bound) (h2 : x2.toNat * y2.toNat < bound)
    (h3 : x3.toNat * y3.toNat < bound) (h4 : x4.toNat * y4.toNat < bound) :
    (m x0 y0 + m x1 y1 + m x2 y2 + m x3 y3 + m x4 y4).toNat =
      x0.toNat * y0.toNat + x1.toNat * y1.toNat + x2.toNat * y2.toNat + x3.toNat * y3.toNat + x4.toNat * y4.toNat ∧
    (m x0 y0 + m x1 y1 + m x2 y2 + m x3 y3 + m x4 y4).toNat ≤ 5 * bound := by
  rw [← toNat_m] at h0 h1 h2 h3 h4
  have sum : (m x0 y0 + m x1 y1 + m x2 y2 + m x3 y3 + m x4 y4).toNat =
      (m x0 y0).toNat + (m x1 y1).toNat + (m x2 y2).toNat + (m x3 y3).toNat + (m x4 y4).toNat := by
    simp only [BitVec.toNat_add]
    omega
  constructor
  · simp only [sum, toNat_m]
  · rw [sum]
    omega

theorem two_pow_255 : (2 : ZMod p) ^ 255 = 19 := by
  have split : 2 ^ 255 = 19 + p := by decide
  calc (2 : ZMod p) ^ 255 = ((2 ^ 255 : ℕ) : ZMod p) := (Nat.cast_pow 2 255).symm
    _ = ((19 + p : ℕ) : ZMod p) := congrArg _ split
    _ = 19 := by rw [Nat.cast_add, ZMod.natCast_self, add_zero, Nat.cast_ofNat]

namespace Fe

variable {a b : Fe} {x y : ZMod p}

theorem val_eq (a : Fe) : a.val =
    a.l0.toNat + 2 ^ 51 * a.l1.toNat + 2 ^ 102 * a.l2.toNat + 2 ^ 153 * a.l3.toNat + 2 ^ 204 * a.l4.toNat := by
  unfold Fe.val Fe.nat
  push_cast
  rfl

theorem Rep.mul (ha : Rep (2 ^ 54) a x) (hb : Rep (2 ^ 54) b y) : Rep (2 ^ 52) (a.mul b) (x * y) := by
  obtain ⟨⟨a0, a1, a2, a3, a4⟩, rfl⟩ := ha
  obtain ⟨⟨b0, b1, b2, b3, b4⟩, rfl⟩ := hb
  -- the five columns, with the products that go round times 19
  obtain ⟨c0, l0⟩ := toNat_column5 (by norm_num) (product_wide a0 b0) (product19_lt a4 b1) (product19_lt a3 b2)
    (product19_lt a2 b3) (product19_lt a1 b4)
  obtain ⟨c1, l1⟩ := toNat_column5 (by norm_num) (product_wide a1 b0) (product_wide a0 b1) (product19_lt a4 b2)
    (product19_lt a3 b3) (product19_lt a2 b4)
  obtain ⟨c2, l2⟩ := toNat_column5 (by norm_num) (product_wide a2 b0) (product_wide a1 b1) (product_wide a0 b2)
    (product19_lt a4 b3) (product19_lt a3 b4)
  obtain ⟨c3, l3⟩ := toNat_column5 (by norm_num) (product_wide a3 b0) (product_wide a2 b1) (product_wide a1 b2)
    (product_wide a0 b3) (product19_lt a4 b4)
  obtain ⟨c4, l4⟩ := toNat_column5 (by norm_num) (product_lt a4 b0) (product_lt a3 b1) (product_lt a2 b2) (product_lt a1 b3)
    (product_lt a0 b4)
  obtain ⟨⟨k, nat⟩, below⟩ := mulCarry_spec (l0.trans_lt (by norm_num)) (l1.trans_lt (by norm_num)) (l2.trans_lt (by norm_num))
    (l3.trans_lt (by norm_num)) l4
  refine ⟨below, ?_⟩
  rw [c0, c1, c2, c3, c4] at nat
  simp only [toNat_times19 b1, toNat_times19 b2, toNat_times19 b3, toNat_times19 b4] at nat
  have cast := congrArg (fun n : ℕ => (n : ZMod p)) nat
  push_cast at cast
  rw [ZMod.natCast_self] at cast
  show ((Fe.mulCarry _ _ _ _ _).nat : ZMod p) = a.val * b.val
  rw [val_eq a, val_eq b]
  -- the products from the fifth column on carry a factor of `2 ^ 255`
  linear_combination cast - (a.l1.toNat * b.l4.toNat + a.l2.toNat * b.l3.toNat + a.l3.toNat * b.l2.toNat + a.l4.toNat * b.l1.toNat +
    2 ^ 51 * (a.l2.toNat * b.l4.toNat + a.l3.toNat * b.l3.toNat + a.l4.toNat * b.l2.toNat) +
    2 ^ 102 * (a.l3.toNat * b.l4.toNat + a.l4.toNat * b.l3.toNat) + 2 ^ 153 * (a.l4.toNat * b.l4.toNat)) * two_pow_255

end Fe

/-- **The limbs compute in the field.** Products need limbs below `2^54`, what is subtracted limbs
below `2^52`, and a weak reduction needs nothing. -/
theorem limbs_are_field_operations (a b : Fe) :
    (a.Below (2 ^ 54) → b.Below (2 ^ 54) → (a.mul b).val = a.val * b.val ∧ (a.mul b).Below (2 ^ 52)) ∧
    (a.Below (2 ^ 54) → b.Below (2 ^ 52) → (a.sub b).val = a.val - b.val) ∧
    (b.Below (2 ^ 52) → b.neg.val = -b.val) ∧
    ∀ limbs, (reduce limbs).val = limbs.val := by
  refine ⟨?_, ?_, ?_, val_reduce⟩
  · intro ha hb
    have product := Fe.Rep.mul ⟨ha, rfl⟩ ⟨hb, rfl⟩
    exact ⟨product.val, product.below⟩
  · intro ha hb
    exact (Fe.Rep.sub ⟨ha, rfl⟩ ⟨hb, rfl⟩).val
  · intro hb
    exact (Fe.Rep.neg ⟨hb, rfl⟩).val

theorem limbs_are_field_operations_sqrtM1 :
    (Fe.sqrtM1.mul Fe.sqrtM1).val = Fe.sqrtM1.val * Fe.sqrtM1.val ∧ (Fe.sqrtM1.mul Fe.sqrtM1).Below (2 ^ 52) ∧
      (Fe.sqrtM1.sub Fe.sqrtM1).val = Fe.sqrtM1.val - Fe.sqrtM1.val ∧ Fe.sqrtM1.neg.val = -Fe.sqrtM1.val := by
  have below : Fe.sqrtM1.Below (2 ^ 52) := by constructor <;> decide
  have wide : Fe.sqrtM1.Below (2 ^ 54) := below.mono (by decide)
  obtain ⟨product, difference, negative, -⟩ := limbs_are_field_operations Fe.sqrtM1 Fe.sqrtM1
  exact ⟨(product wide wide).1, (product wide wide).2, difference wide below, negative below⟩

/-! ## Reading bytes -/

theorem toNat_load8 (bytes : Octets 32) {i : ℕ} (inside : i + 8 ≤ 32) :
    (Fe.load8 bytes i).toNat = Bytes.leNat bytes.1 / 256 ^ i % 2 ^ 64 := by
  have length : bytes.1.length = 32 := bytes.2
  unfold Fe.load8
  rw [UInt64.toNat_ofNat', Bytes.beNat_reverse, (Bytes.leNat_take_drop _ (by rw [List.length_drop]; omega)).1,
    (Bytes.leNat_take_drop _ (by omega)).2]
  show _ % 2 ^ 64 % 2 ^ 64 = _
  rw [Nat.mod_mod]

/-- The 51 bits that a shifted load of eight bytes keeps. -/
theorem toNat_window (bytes : Octets 32) (i : ℕ) (s : UInt64) (k : ℕ) (inside : i + 8 ≤ 32) (near : s.toNat ≤ 13)
    (aligned : 8 * i + s.toNat = k) :
    ((Fe.load8 bytes i >>> s) &&& LOW_51_BIT_MASK).toNat = Bytes.leNat bytes.1 / 2 ^ k % 2 ^ 51 := by
  have whole : 256 ^ i * 2 ^ s.toNat = 2 ^ k := by
    rw [← aligned, pow_add, pow_mul]
    norm_num
  have window : (2 : ℕ) ^ 64 = 2 ^ s.toNat * 2 ^ (64 - s.toNat) := by
    rw [← pow_add]
    congr 1
    omega
  have cut : (2 : ℕ) ^ 51 ∣ 2 ^ (64 - s.toNat) := pow_dvd_pow 2 (by omega)
  rw [toNat_mask, UInt64.toNat_shiftRight, toNat_load8 bytes inside, Nat.mod_eq_of_lt (by omega : s.toNat < 64),
    Nat.shiftRight_eq_div_pow, window, Nat.mod_mul_right_div_self, Nat.mod_mod_of_dvd _ cut, Nat.div_div_eq_div_mul, whole]

namespace Fe

theorem nat_fromBytes (bytes : Octets 32) : (fromBytes bytes).nat = Bytes.leNat bytes.1 % 2 ^ 255 := by
  have l0 : (fromBytes bytes).l0.toNat = Bytes.leNat bytes.1 % 2 ^ 51 := by
    unfold fromBytes
    rw [toNat_mask, toNat_load8 bytes (by omega), pow_zero, Nat.div_one]
    omega
  have l1 : (fromBytes bytes).l1.toNat = Bytes.leNat bytes.1 / 2 ^ 51 % 2 ^ 51 :=
    toNat_window bytes 6 3 51 (by decide) (by decide) (by decide)
  have l2 : (fromBytes bytes).l2.toNat = Bytes.leNat bytes.1 / 2 ^ 102 % 2 ^ 51 :=
    toNat_window bytes 12 6 102 (by decide) (by decide) (by decide)
  have l3 : (fromBytes bytes).l3.toNat = Bytes.leNat bytes.1 / 2 ^ 153 % 2 ^ 51 :=
    toNat_window bytes 19 1 153 (by decide) (by decide) (by decide)
  have l4 : (fromBytes bytes).l4.toNat = Bytes.leNat bytes.1 / 2 ^ 204 % 2 ^ 51 :=
    toNat_window bytes 24 12 204 (by decide) (by decide) (by decide)
  unfold nat
  rw [l0, l1, l2, l3, l4]
  omega

/-- The input of the map: its top bit is dropped. -/
theorem Rep.fromBytes (bytes : Octets 32) : Rep (2 ^ 51) (fromBytes bytes) (Bytes.leNat bytes.1 % 2 ^ 255 : ℕ) := by
  constructor
  · constructor <;> (unfold Fe.fromBytes; simp only; rw [toNat_mask]; omega)
  · unfold Fe.val
    rw [nat_fromBytes]

end Fe

/-! ## The canonical form -/

/-- Something added at the bottom, and the carries on the way up. -/
def Fe.ripple (r : Fe) (c : UInt64) : Fe :=
  let l0 := r.l0 + c
  let l1 := r.l1 + (l0 >>> 51)
  let l2 := r.l2 + (l1 >>> 51)
  let l3 := r.l3 + (l2 >>> 51)
  let l4 := r.l4 + (l3 >>> 51)
  ⟨l0, l1, l2, l3, l4⟩

/-- The limbs without their carries. -/
def Fe.masked (r : Fe) : Fe :=
  ⟨r.l0 &&& LOW_51_BIT_MASK, r.l1 &&& LOW_51_BIT_MASK, r.l2 &&& LOW_51_BIT_MASK, r.l3 &&& LOW_51_BIT_MASK,
    r.l4 &&& LOW_51_BIT_MASK⟩

theorem Fe.canonical_eq (a : Fe) :
    a.canonical = ((reduce a).ripple ((19 : UInt64) * (((reduce a).ripple 19).l4 >>> 51))).masked := by
  unfold Fe.canonical
  generalize reduce a = r
  rfl

theorem Fe.masked_below (r : Fe) : r.masked.Below (2 ^ 51) := by
  constructor <;> (unfold Fe.masked; simp only; rw [toNat_mask]; omega)

/-- What is left below the top carry is the sum modulo `2^255`. -/
theorem Fe.ripple_spec {r : Fe} {c : UInt64} (below : r.Below (2 ^ 52)) (small : c.toNat < 2 ^ 14) :
    (r.ripple c).masked.nat + 2 ^ 255 * ((r.ripple c).l4 >>> 51).toNat = r.nat + c.toNat := by
  obtain ⟨r0, r1, r2, r3, r4⟩ := below
  have carryIn : ∀ {x c : UInt64}, x.toNat < 2 ^ 52 → c.toNat < 2 ^ 14 →
      (x + c).toNat = x.toNat + c.toNat ∧ ((x + c) >>> 51).toNat < 2 ^ 14 := by
    intro x c hx hc
    have sum : (x + c).toNat = x.toNat + c.toNat := toNat_add (by omega)
    rw [toNat_carry, sum]
    exact ⟨rfl, by omega⟩
  unfold Fe.ripple Fe.masked Fe.nat
  simp only [toNat_mask]
  obtain ⟨s0, b0⟩ := carryIn r0 small
  generalize r.l0 + c = l0 at s0 b0 ⊢
  obtain ⟨s1, b1⟩ := carryIn r1 b0
  generalize r.l1 + l0 >>> 51 = l1 at s1 b1 ⊢
  obtain ⟨s2, b2⟩ := carryIn r2 b1
  generalize r.l2 + l1 >>> 51 = l2 at s2 b2 ⊢
  obtain ⟨s3, b3⟩ := carryIn r3 b2
  generalize r.l3 + l2 >>> 51 = l3 at s3 b3 ⊢
  obtain ⟨s4, -⟩ := carryIn r4 b3
  generalize r.l4 + l3 >>> 51 = l4 at s4 ⊢
  simp only [toNat_carry] at s1 s2 s3 s4 ⊢
  omega

/-- The number of `canonical` is the remainder modulo the prime. -/
theorem Fe.canonical_spec (a : Fe) : a.canonical.nat < p ∧ ∃ k, a.canonical.nat + k * p = (reduce a).nat := by
  have below := reduce_below a
  rw [Fe.canonical_eq]
  generalize reduce a = r at below
  have wide : r.Below (2 ^ 52) := below.mono (by decide)
  have bound : r.nat < 2 ^ 255 + 2 ^ 223 := by
    obtain ⟨r0, r1, r2, r3, r4⟩ := below
    unfold Fe.nat
    omega
  have room : ∀ f : Fe, f.masked.nat < 2 ^ 255 := by
    intro f
    obtain ⟨m0, m1, m2, m3, m4⟩ := f.masked_below
    unfold Fe.nat
    omega
  -- `q` says whether the value is the prime or more
  have high := Fe.ripple_spec (c := 19) wide (by decide)
  have low := room (r.ripple 19)
  generalize (r.ripple 19).l4 >>> 51 = q at high ⊢
  simp only [UInt64.reduceToNat] at high
  have bit : q.toNat ≤ 1 := by omega
  have times : (19 * q).toNat = 19 * q.toNat := by
    rw [toNat_mul]
    · rfl
    · show 19 * q.toNat < _
      omega
  have sum := Fe.ripple_spec (c := 19 * q) wide (by omega)
  have left := room (r.ripple (19 * q))
  rw [times] at sum
  have prime : p + 19 = 2 ^ 255 := by decide
  obtain less | more : q.toNat = 0 ∨ q.toNat = 1 := by omega
  · rw [less] at high sum
    refine ⟨by omega, 0, by omega⟩
  · rw [more] at high sum
    refine ⟨by omega, 1, by omega⟩

/-! ## Writing bytes -/

theorem toNat_byte (x : UInt64) {k : UInt64} (h : k.toNat < 64) :
    (x >>> k).toUInt8.toNat = x.toNat / 2 ^ k.toNat % 256 := by
  rw [UInt64.toNat_toUInt8, UInt64.toNat_shiftRight, Nat.mod_eq_of_lt h, Nat.shiftRight_eq_div_pow]

/-- A byte with the top bits of one limb below the low bits of the next. -/
theorem toNat_joint (x y : UInt64) {j k : UInt64} {n : ℕ} (hj : j.toNat < 64) (hk : k.toNat + n = 8)
    (top : x.toNat / 2 ^ j.toNat < 2 ^ k.toNat) :
    (x >>> j ||| y <<< k).toUInt8.toNat = x.toNat / 2 ^ j.toNat + 2 ^ k.toNat * (y.toNat % 2 ^ n) := by
  have byte : (2 : ℕ) ^ 8 = 2 ^ k.toNat * 2 ^ n := by rw [← pow_add, hk]
  have small : x.toNat / 2 ^ j.toNat % 2 ^ 8 = x.toNat / 2 ^ j.toNat := by
    apply Nat.mod_eq_of_lt
    apply top.trans_le
    exact Nat.pow_le_pow_right (by decide) (by omega)
  have low : y.toNat * 2 ^ k.toNat % 2 ^ 64 % 2 ^ 8 = 2 ^ k.toNat * (y.toNat % 2 ^ n) := by
    rw [Nat.mod_mod_of_dvd _ (by decide), byte, mul_comm, Nat.mul_mod_mul_left]
  rw [UInt64.toNat_toUInt8, UInt64.toNat_or, UInt64.toNat_shiftRight, UInt64.toNat_shiftLeft, Nat.mod_eq_of_lt hj,
    Nat.mod_eq_of_lt (by omega : k.toNat < 64), Nat.or_mod_two_pow, Nat.shiftRight_eq_div_pow, Nat.shiftLeft_eq, small, low,
    Nat.or_comm, ← Nat.two_pow_add_eq_or_of_lt top, add_comm]

theorem Fe.leNat_pack {l : Fe} (below : l.Below (2 ^ 51)) : Bytes.leNat l.pack.1 = l.nat := by
  obtain ⟨b0, b1, b2, b3, b4⟩ := below
  unfold Fe.pack
  simp only [Bytes.leNat]
  rw [toNat_joint l.l0 l.l1 (n := 5) (by decide) (by decide) (by simp only [UInt64.reduceToNat]; omega),
    toNat_joint l.l1 l.l2 (n := 2) (by decide) (by decide) (by simp only [UInt64.reduceToNat]; omega),
    toNat_joint l.l2 l.l3 (n := 7) (by decide) (by decide) (by simp only [UInt64.reduceToNat]; omega),
    toNat_joint l.l3 l.l4 (n := 4) (by decide) (by decide) (by simp only [UInt64.reduceToNat]; omega)]
  simp (disch := decide) only [toNat_byte]
  simp only [UInt64.toNat_toUInt8, UInt64.reduceToNat]
  unfold Fe.nat
  generalize l.l0.toNat = x0 at *
  generalize l.l1.toNat = x1 at *
  generalize l.l2.toNat = x2 at *
  generalize l.l3.toNat = x3 at *
  generalize l.l4.toNat = x4 at *
  have h0 : x0 % 2 ^ 8 + 2 ^ 8 * (x0 / 2 ^ 8 % 256) + 2 ^ 16 * (x0 / 2 ^ 16 % 256) + 2 ^ 24 * (x0 / 2 ^ 24 % 256) +
      2 ^ 32 * (x0 / 2 ^ 32 % 256) + 2 ^ 40 * (x0 / 2 ^ 40 % 256) + 2 ^ 48 * (x0 / 2 ^ 48) = x0 := by
    omega
  have h1 : x1 % 2 ^ 5 + 2 ^ 5 * (x1 / 2 ^ 5 % 256) + 2 ^ 13 * (x1 / 2 ^ 13 % 256) + 2 ^ 21 * (x1 / 2 ^ 21 % 256) +
      2 ^ 29 * (x1 / 2 ^ 29 % 256) + 2 ^ 37 * (x1 / 2 ^ 37 % 256) + 2 ^ 45 * (x1 / 2 ^ 45) = x1 := by
    omega
  have h2 : x2 % 2 ^ 2 + 2 ^ 2 * (x2 / 2 ^ 2 % 256) + 2 ^ 10 * (x2 / 2 ^ 10 % 256) + 2 ^ 18 * (x2 / 2 ^ 18 % 256) +
      2 ^ 26 * (x2 / 2 ^ 26 % 256) + 2 ^ 34 * (x2 / 2 ^ 34 % 256) + 2 ^ 42 * (x2 / 2 ^ 42 % 256) + 2 ^ 50 * (x2 / 2 ^ 50) = x2 := by
    omega
  have h3 : x3 % 2 ^ 7 + 2 ^ 7 * (x3 / 2 ^ 7 % 256) + 2 ^ 15 * (x3 / 2 ^ 15 % 256) + 2 ^ 23 * (x3 / 2 ^ 23 % 256) +
      2 ^ 31 * (x3 / 2 ^ 31 % 256) + 2 ^ 39 * (x3 / 2 ^ 39 % 256) + 2 ^ 47 * (x3 / 2 ^ 47) = x3 := by
    omega
  have h4 : x4 % 2 ^ 4 + 2 ^ 4 * (x4 / 2 ^ 4 % 256) + 2 ^ 12 * (x4 / 2 ^ 12 % 256) + 2 ^ 20 * (x4 / 2 ^ 20 % 256) +
      2 ^ 28 * (x4 / 2 ^ 28 % 256) + 2 ^ 36 * (x4 / 2 ^ 36 % 256) + 2 ^ 44 * (x4 / 2 ^ 44 % 256) = x4 := by
    omega
  linear_combination h0 + 2 ^ 51 * h1 + 2 ^ 102 * h2 + 2 ^ 153 * h3 + 2 ^ 204 * h4

theorem Fe.leNat_toBytes (a : Fe) : Bytes.leNat a.toBytes.1 = a.canonical.nat := by
  apply Fe.leNat_pack
  rw [Fe.canonical_eq]
  exact Fe.masked_below _

/-- The encoding is the little-endian one of the least number that stands for the element. -/
theorem Fe.leNat_toBytes_val (a : Fe) : Bytes.leNat a.toBytes.1 = a.val.val := by
  obtain ⟨small, k, sum⟩ := a.canonical_spec
  have same : a.canonical.val = a.val := by
    rw [Fe.val_eq_of_nat sum, val_reduce]
  rw [Fe.leNat_toBytes, ← same]
  unfold Fe.val
  rw [ZMod.val_natCast, Nat.mod_eq_of_lt small]

theorem Fe.toBytes_eq {a b : Fe} (same : a.val = b.val) : a.toBytes = b.toBytes := by
  apply Subtype.ext
  apply Bytes.leNat_inj
  · rw [a.toBytes.2, b.toBytes.2]
  · rw [Fe.leNat_toBytes_val, Fe.leNat_toBytes_val, same]

theorem Fe.ctEq_iff (a b : Fe) : a.ctEq b = true ↔ a.val = b.val := by
  unfold Fe.ctEq
  rw [decide_eq_true_iff]
  constructor
  · intro same
    apply ZMod.val_injective p
    rw [← Fe.leNat_toBytes_val, ← Fe.leNat_toBytes_val, same]
  · exact Fe.toBytes_eq

/-- The bytes with the top bit cleared. -/
def clearTop (bytes : Octets 32) : Octets 32 := bytes.set 31 (bytes.get 31 &&& 0x7f)

theorem val_set_last (bytes : Octets 32) (top : UInt8) : (bytes.set 31 top).1 = bytes.1.take 31 ++ [top] := by
  have length : bytes.1.length = 32 := bytes.2
  have last : bytes.1.drop 32 = [] := List.drop_of_length_le (by omega)
  rw [show (bytes.set 31 top).1 = bytes.1.set 31 top from rfl, List.set_eq_take_append_cons_drop, if_pos (by omega), last]

theorem leNat_clearTop (bytes : Octets 32) : Bytes.leNat (clearTop bytes).1 = Bytes.leNat bytes.1 % 2 ^ 255 := by
  have front : (bytes.1.take 31).length = 31 := by
    rw [List.length_take, bytes.2]
    rfl
  have low := Bytes.leNat_lt (bytes.1.take 31)
  rw [front] at low
  have spelled : ∀ top, Bytes.leNat (bytes.set 31 top).1 = Bytes.leNat (bytes.1.take 31) + 256 ^ 31 * top.toNat := by
    intro top
    rw [val_set_last, Bytes.leNat_append, front]
    rfl
  have unchanged : bytes.set 31 (bytes.get 31) = bytes := Subtype.ext (List.set_getElem_self _)
  have masked : (bytes.get 31 &&& 0x7f).toNat = (bytes.get 31).toNat % 2 ^ 7 := by
    rw [UInt8.toNat_and, show (0x7f : UInt8).toNat = 2 ^ 7 - 1 by decide, Nat.and_two_pow_sub_one_eq_mod]
  have whole := spelled (bytes.get 31)
  rw [unchanged] at whole
  rw [whole, clearTop, spelled, masked]
  omega

/-- **The encoding is canonical.** It spells the one number below the prime that stands for the
element; equality of encodings is equality of elements; and reading and writing are inverse to
each other up to the top bit and the reduction. -/
theorem encoding_is_canonical :
    (∀ (a : Fe) (n : ℕ), Bytes.leNat a.toBytes.1 = n ↔ n < p ∧ (n : ZMod p) = a.val) ∧
    (∀ a b : Fe, a.ctEq b = true ↔ a.val = b.val) ∧
    (∀ bytes : Octets 32, Bytes.leNat (Fe.fromBytes bytes).toBytes.1 = Bytes.leNat bytes.1 % 2 ^ 255 % p ∧
      ((Fe.fromBytes bytes).toBytes = clearTop bytes ↔ Bytes.leNat bytes.1 % 2 ^ 255 < p)) ∧
    ∀ a : Fe, (Fe.fromBytes a.toBytes).val = a.val := by
  have reread : ∀ bytes : Octets 32, Bytes.leNat (Fe.fromBytes bytes).toBytes.1 = Bytes.leNat bytes.1 % 2 ^ 255 % p := by
    intro bytes
    rw [Fe.leNat_toBytes_val, (Fe.Rep.fromBytes bytes).val, ZMod.val_natCast]
  refine ⟨?_, Fe.ctEq_iff, fun bytes => ⟨reread bytes, ?_⟩, ?_⟩
  · intro a n
    rw [Fe.leNat_toBytes_val]
    constructor
    · rintro rfl
      exact ⟨ZMod.val_lt _, ZMod.natCast_zmod_val _⟩
    · rintro ⟨small, same⟩
      rw [← same, ZMod.val_natCast, Nat.mod_eq_of_lt small]
  · constructor
    · intro same
      rw [← leNat_clearTop, ← same, Fe.leNat_toBytes_val]
      exact ZMod.val_lt _
    · intro small
      apply Subtype.ext
      apply Bytes.leNat_inj
      · rw [(Fe.fromBytes bytes).toBytes.2, (clearTop bytes).2]
      · rw [reread, leNat_clearTop, Nat.mod_eq_of_lt small]
  · intro a
    have room : a.val.val < 2 ^ 255 := (ZMod.val_lt a.val).trans (by decide)
    rw [(Fe.Rep.fromBytes a.toBytes).val, Fe.leNat_toBytes_val, Nat.mod_eq_of_lt room, ZMod.natCast_zmod_val]

end TrezorCore.Elligator2
