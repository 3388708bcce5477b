import TrezorCore.Lib.Audited
import TrezorCore.Thp.Field25519

/-!
# The field arithmetic with overflow checks

The functions of `thp/elligator2.rs` once more, as a debug build runs them: every `u64` and `u128`
addition, subtraction and multiplication is checked and a check that fails ends the run. Each field
operation is noted with its operands, and a value carries how many additions it is away from the
last reduction.
-/

namespace TrezorCore.Elligator2
open Fe

/-! ## Checked words -/

def addLimb (x y : UInt64) : Option UInt64 := if x.toNat + y.toNat < 2 ^ 64 then some (x + y) else none

def subLimb (x y : UInt64) : Option UInt64 := if y.toNat ≤ x.toNat then some (x - y) else none

def mulLimb (x y : UInt64) : Option UInt64 := if x.toNat * y.toNat < 2 ^ 64 then some (x * y) else none

def addWide (x y : U128) : Option U128 := if x.toNat + y.toNat < 2 ^ 128 then some (x + y) else none

def mulWide (x y : U128) : Option U128 := if x.toNat * y.toNat < 2 ^ 128 then some (x * y) else none

/-- The cast of the last carry, which must lose nothing. -/
def narrow (c : U128) : Option UInt64 := if c.toNat < 2 ^ 64 then some (low c) else none

/-! ## Checked limbs -/

def reduceLimbs (limbs : Fe) : Option Fe := do
  let back ← mulLimb (limbs.l4 >>> 51) 19
  let l0 ← addLimb (limbs.l0 &&& LOW_51_BIT_MASK) back
  let l1 ← addLimb (limbs.l1 &&& LOW_51_BIT_MASK) (limbs.l0 >>> 51)
  let l2 ← addLimb (limbs.l2 &&& LOW_51_BIT_MASK) (limbs.l1 >>> 51)
  let l3 ← addLimb (limbs.l3 &&& LOW_51_BIT_MASK) (limbs.l2 >>> 51)
  let l4 ← addLimb (limbs.l4 &&& LOW_51_BIT_MASK) (limbs.l3 >>> 51)
  pure ⟨l0, l1, l2, l3, l4⟩

def canonicalLimbs (r : Fe) : Option Fe := do
  let q ← addLimb r.l0 19
  let q ← addLimb r.l1 (q >>> 51)
  let q ← addLimb r.l2 (q >>> 51)
  let q ← addLimb r.l3 (q >>> 51)
  let q ← addLimb r.l4 (q >>> 51)
  let back ← mulLimb 19 (q >>> 51)
  let l0 ← addLimb r.l0 back
  let l1 ← addLimb r.l1 (l0 >>> 51)
  let l2 ← addLimb r.l2 (l1 >>> 51)
  let l3 ← addLimb r.l3 (l2 >>> 51)
  let l4 ← addLimb r.l4 (l3 >>> 51)
  pure ⟨l0 &&& LOW_51_BIT_MASK, l1 &&& LOW_51_BIT_MASK, l2 &&& LOW_51_BIT_MASK, l3 &&& LOW_51_BIT_MASK,
    l4 &&& LOW_51_BIT_MASK⟩

def addLimbs (a b : Fe) : Option Fe := do
  let l0 ← addLimb a.l0 b.l0
  let l1 ← addLimb a.l1 b.l1
  let l2 ← addLimb a.l2 b.l2
  let l3 ← addLimb a.l3 b.l3
  let l4 ← addLimb a.l4 b.l4
  pure ⟨l0, l1, l2, l3, l4⟩

/-- One limb of `sub`: the limb of 16p first. -/
def subOne (x k y : UInt64) : Option UInt64 := do
  let raised ← addLimb x k
  subLimb raised y

def subLimbs (a b : Fe) : Option Fe := do
  let l0 ← subOne a.l0 36028797018963664 b.l0
  let l1 ← subOne a.l1 36028797018963952 b.l1
  let l2 ← subOne a.l2 36028797018963952 b.l2
  let l3 ← subOne a.l3 36028797018963952 b.l3
  let l4 ← subOne a.l4 36028797018963952 b.l4
  pure ⟨l0, l1, l2, l3, l4⟩

/-- The product of two limbs. -/
def product (x y : UInt64) : Option U128 := mulWide (x.toBitVec.setWidth 128) (y.toBitVec.setWidth 128)

/-- A column of the product: five products of two limbs, added from the left. -/
def column (x0 y0 x1 y1 x2 y2 x3 y3 x4 y4 : UInt64) : Option U128 := do
  let s ← addWide (← product x0 y0) (← product x1 y1)
  let s ← addWide s (← product x2 y2)
  let s ← addWide s (← product x3 y3)
  addWide s (← product x4 y4)

def carryLimbs (c0 c1 c2 c3 c4 : U128) : Option Fe := do
  let c1 ← addWide c1 (c0 >>> 51)
  let c2 ← addWide c2 (c1 >>> 51)
  let c3 ← addWide c3 (c2 >>> 51)
  let c4 ← addWide c4 (c3 >>> 51)
  let carry ← narrow (c4 >>> 51)
  let back ← mulLimb carry 19
  let out0 ← addLimb (low c0 &&& LOW_51_BIT_MASK) back
  let out1 ← addLimb (low c1 &&& LOW_51_BIT_MASK) (out0 >>> 51)
  pure ⟨out0 &&& LOW_51_BIT_MASK, out1, low c2 &&& LOW_51_BIT_MASK, low c3 &&& LOW_51_BIT_MASK, low c4 &&& LOW_51_BIT_MASK⟩

def mulLimbs (a b : Fe) : Option Fe := do
  let b1_19 ← mulLimb b.l1 19
  let b2_19 ← mulLimb b.l2 19
  let b3_19 ← mulLimb b.l3 19
  let b4_19 ← mulLimb b.l4 19
  let c0 ← column a.l0 b.l0 a.l4 b1_19 a.l3 b2_19 a.l2 b3_19 a.l1 b4_19
  let c1 ← column a.l1 b.l0 a.l0 b.l1 a.l4 b2_19 a.l3 b3_19 a.l2 b4_19
  let c2 ← column a.l2 b.l0 a.l1 b.l1 a.l0 b.l2 a.l4 b3_19 a.l3 b4_19
  let c3 ← column a.l3 b.l0 a.l2 b.l1 a.l1 b.l2 a.l0 b.l3 a.l4 b4_19
  let c4 ← column a.l4 b.l0 a.l3 b.l1 a.l2 b.l2 a.l1 b.l3 a.l0 b.l4
  carryLimbs c0 c1 c2 c3 c4

/-! ## The checks hold below the bounds -/

theorem addLimb_eq {x y : UInt64} (fits : x.toNat + y.toNat < 2 ^ 64) : addLimb x y = some (x + y) := if_pos fits

theorem subLimb_eq {x y : UInt64} (fits : y.toNat ≤ x.toNat) : subLimb x y = some (x - y) := if_pos fits

theorem mulLimb_eq {x y : UInt64} (fits : x.toNat * y.toNat < 2 ^ 64) : mulLimb x y = some (x * y) := if_pos fits

theorem addWide_eq {x y : U128} (fits : x.toNat + y.toNat < 2 ^ 128) : addWide x y = some (x + y) := if_pos fits

theorem narrow_eq {c : U128} (fits : c.toNat < 2 ^ 64) : narrow c = some (low c) := if_pos fits

/-- A masked limb and a carry. -/
theorem addLimb_carry (x y : UInt64) :
    addLimb (x &&& LOW_51_BIT_MASK) (y >>> 51) = some ((x &&& LOW_51_BIT_MASK) + (y >>> 51)) := by
  apply addLimb_eq
  rw [toNat_mask, toNat_carry]
  have := carry_lt y
  omega

/-- A weak reduction never overflows. -/
theorem reduceLimbs_eq (a : Fe) : reduceLimbs a = some (reduce a) := by
  have carry := carry_lt a.l4
  have nineteen : (19 : UInt64).toNat = 19 := rfl
  have times : (a.l4 >>> 51 * 19).toNat = a.l4.toNat / 2 ^ 51 * 19 := by
    rw [toNat_mul, toNat_carry, nineteen]
    rw [toNat_carry, nineteen]
    omega
  have back : mulLimb (a.l4 >>> 51) 19 = some (a.l4 >>> 51 * 19) := by
    apply mulLimb_eq
    rw [toNat_carry, nineteen]
    omega
  have first : addLimb (a.l0 &&& LOW_51_BIT_MASK) (a.l4 >>> 51 * 19) =
      some ((a.l0 &&& LOW_51_BIT_MASK) + a.l4 >>> 51 * 19) := by
    apply addLimb_eq
    rw [toNat_mask, times]
    omega
  simp only [reduceLimbs, back, first, addLimb_carry, Option.bind_eq_bind, Option.bind_some]
  rfl

theorem addLimbs_eq {a b : Fe} {m n : ℕ} (ha : a.Below m) (hb : b.Below n) (fits : m + n ≤ 2 ^ 64) :
    addLimbs a b = some (a.add b) := by
  have sum : ∀ {x y : UInt64}, x.toNat < m → y.toNat < n → addLimb x y = some (x + y) := by
    intro x y hx hy
    apply addLimb_eq
    omega
  simp only [addLimbs, sum ha.l0 hb.l0, sum ha.l1 hb.l1, sum ha.l2 hb.l2, sum ha.l3 hb.l3, sum ha.l4 hb.l4,
    Option.bind_eq_bind, Option.bind_some]
  rfl

/-- Sixteen times the prime keeps every limb above what is subtracted. -/
theorem subLimbs_eq {a b : Fe} (ha : a.Below (2 ^ 54)) (hb : b.Below (2 ^ 52)) :
    ∃ d, subLimbs a b = some d ∧ a.sub b = reduce d := by
  have difference : ∀ {x y k : UInt64}, x.toNat < 2 ^ 54 → y.toNat < 2 ^ 52 → 2 ^ 52 ≤ k.toNat → k.toNat < 2 ^ 63 →
      subOne x k y = some (x + k - y) := by
    intro x y k hx hy low high
    have sum : (x + k).toNat = x.toNat + k.toNat := toNat_add (by omega)
    rw [subOne, addLimb_eq (by omega), Option.bind_eq_bind, Option.bind_some, subLimb_eq (by omega)]
  refine ⟨_, ?_, rfl⟩
  unfold subLimbs
  rw [difference ha.l0 hb.l0 (by decide) (by decide), difference ha.l1 hb.l1 (by decide) (by decide),
    difference ha.l2 hb.l2 (by decide) (by decide), difference ha.l3 hb.l3 (by decide) (by decide),
    difference ha.l4 hb.l4 (by decide) (by decide)]
  rfl

theorem product_eq (x y : UInt64) : product x y = some (m x y) := by
  apply if_pos
  have hx := x.toNat_lt
  have hy := y.toNat_lt
  rw [BitVec.toNat_setWidth, BitVec.toNat_setWidth, UInt64.toNat_toBitVec, UInt64.toNat_toBitVec,
    Nat.mod_eq_of_lt (by omega : x.toNat < 2 ^ 128), Nat.mod_eq_of_lt (by omega : y.toNat < 2 ^ 128)]
  calc x.toNat * y.toNat < 2 ^ 64 * 2 ^ 64 := Nat.mul_lt_mul'' hx hy
    _ = 2 ^ 128 := by norm_num

/-- Five products below a bound. -/
theorem column_eq {bound : ℕ} (small : bound ≤ 2 ^ 113) {x0 y0 x1 y1 x2 y2 x3 y3 x4 y4 : UInt64}
    (h0 : x0.toNat * y0.toNat < bound) (h1 : x1.toNat * y1.toNat < bound) (h2 : x2.toNat * y2.toNat < bound)
    (h3 : x3.toNat * y3.toNat < bound) (h4 : x4.toNat * y4.toNat < bound) :
    column x0 y0 x1 y1 x2 y2 x3 y3 x4 y4 = some (m x0 y0 + m x1 y1 + m x2 y2 + m x3 y3 + m x4 y4) ∧
      (m x0 y0 + m x1 y1 + m x2 y2 + m x3 y3 + m x4 y4).toNat ≤ 5 * bound := by
  have le := (toNat_column5 small h0 h1 h2 h3 h4).2
  rw [← toNat_m] at h0 h1 h2 h3 h4
  have n1 : (m x0 y0 + m x1 y1).toNat = (m x0 y0).toNat + (m x1 y1).toNat := by
    rw [BitVec.toNat_add]
    omega
  have n2 : (m x0 y0 + m x1 y1 + m x2 y2).toNat = (m x0 y0).toNat + (m x1 y1).toNat + (m x2 y2).toNat := by
    rw [BitVec.toNat_add, n1]
    omega
  have n3 : (m x0 y0 + m x1 y1 + m x2 y2 + m x3 y3).toNat =
      (m x0 y0).toNat + (m x1 y1).toNat + (m x2 y2).toNat + (m x3 y3).toNat := by
    rw [BitVec.toNat_add, n2]
    omega
  constructor
  · simp only [column, product_eq, Option.bind_eq_bind, Option.bind_some]
    rw [addWide_eq (by omega), Option.bind_some, addWide_eq (by omega), Option.bind_some, addWide_eq (by omega),
      Option.bind_some, addWide_eq (by omega)]
  · exact le

/-- The carries of a product. -/
theorem carryLimbs_eq {c0 c1 c2 c3 c4 : U128} (h0 : c0.toNat < 2 ^ 115) (h1 : c1.toNat < 2 ^ 115) (h2 : c2.toNat < 2 ^ 115)
    (h3 : c3.toNat < 2 ^ 115) (h4 : c4.toNat ≤ 5 * 2 ^ 108) :
    carryLimbs c0 c1 c2 c3 c4 = some (Fe.mulCarry c0 c1 c2 c3 c4) := by
  have next : ∀ {c d : U128}, c.toNat < 2 ^ 115 → d.toNat < 2 ^ 116 → addWide c (d >>> 51) = some (c + d >>> 51) := by
    intro c d hc hd
    apply addWide_eq
    rw [toNat_shift]
    omega
  obtain ⟨e1, e2, e3, e4, ⟨he1, n1⟩, ⟨he2, n2⟩, ⟨he3, n3⟩, ⟨he4, n4⟩, small, carried, times⟩ := columns_carry h0 h1 h2 h3 h4
  have run1 : addWide c1 (c0 >>> 51) = some e1 := he1 ▸ next h1 (h0.trans (by decide))
  have run2 : addWide c2 (e1 >>> 51) = some e2 := he2 ▸ next h2 (by omega)
  have run3 : addWide c3 (e2 >>> 51) = some e3 := he3 ▸ next h3 (by omega)
  have run4 : addWide c4 (e3 >>> 51) = some e4 := he4 ▸ next (by omega) (by omega)
  have carry : narrow (e4 >>> 51) = some (low (e4 >>> 51)) := by
    apply narrow_eq
    rw [toNat_shift]
    omega
  have back : mulLimb (low (e4 >>> 51)) 19 = some (low (e4 >>> 51) * 19) := by
    apply mulLimb_eq
    rw [carried]
    show _ * 19 < _
    omega
  have out0 : addLimb (low c0 &&& LOW_51_BIT_MASK) (low (e4 >>> 51) * 19) =
      some ((low c0 &&& LOW_51_BIT_MASK) + low (e4 >>> 51) * 19) := by
    apply addLimb_eq
    rw [toNat_low_mask, times]
    omega
  simp only [carryLimbs, run1, run2, run3, run4, carry, back, out0, addLimb_carry, Option.bind_eq_bind, Option.bind_some]
  rw [he4, he3, he2, he1]
  rfl

/-- A product of limbs below `2^54` never overflows. -/
theorem mulLimbs_eq {a b : Fe} (ha : a.Below (2 ^ 54)) (hb : b.Below (2 ^ 54)) : mulLimbs a b = some (a.mul b) := by
  obtain ⟨a0, a1, a2, a3, a4⟩ := ha
  obtain ⟨b0, b1, b2, b3, b4⟩ := hb
  obtain ⟨run0, n0⟩ := column_eq (by norm_num) (product_wide a0 b0) (product19_lt a4 b1) (product19_lt a3 b2)
    (product19_lt a2 b3) (product19_lt a1 b4)
  obtain ⟨run1, n1⟩ := column_eq (by norm_num) (product_wide a1 b0) (product_wide a0 b1) (product19_lt a4 b2)
    (product19_lt a3 b3) (product19_lt a2 b4)
  obtain ⟨run2, n2⟩ := column_eq (by norm_num) (product_wide a2 b0) (product_wide a1 b1) (product_wide a0 b2)
    (product19_lt a4 b3) (product19_lt a3 b4)
  obtain ⟨run3, n3⟩ := column_eq (by norm_num) (product_wide a3 b0) (product_wide a2 b1) (product_wide a1 b2)
    (product_wide a0 b3) (product19_lt a4 b4)
  obtain ⟨run4, n4⟩ := column_eq (by norm_num) (product_lt a4 b0) (product_lt a3 b1) (product_lt a2 b2) (product_lt a1 b3)
    (product_lt a0 b4)
  have carries := carryLimbs_eq (n0.trans_lt (by norm_num)) (n1.trans_lt (by norm_num)) (n2.trans_lt (by norm_num))
    (n3.trans_lt (by norm_num)) n4
  simp only [mulLimbs, mulLimb_eq (times19_fits b1), mulLimb_eq (times19_fits b2), mulLimb_eq (times19_fits b3),
    mulLimb_eq (times19_fits b4), run0, run1, run2, run3, run4, Option.bind_eq_bind, Option.bind_some]
  exact carries

/-- A weakly reduced element is packed without overflow. -/
theorem canonicalLimbs_eq (a : Fe) : canonicalLimbs (reduce a) = some a.canonical := by
  have below : (reduce a).Below (2 ^ 52) := (reduce_below a).mono (by decide)
  unfold Fe.canonical
  generalize reduce a = r at below
  have rippled : ∀ {x : UInt64}, x.toNat < 2 ^ 52 → ∀ q : UInt64, addLimb x (q >>> 51) = some (x + q >>> 51) := by
    intro x hx q
    apply addLimb_eq
    rw [toNat_carry]
    have := carry_lt q
    omega
  have nineteen : (19 : UInt64).toNat = 19 := rfl
  have first : addLimb r.l0 19 = some (r.l0 + 19) := by
    have := below.l0
    apply addLimb_eq
    rw [nineteen]
    omega
  have back : ∀ q : UInt64, mulLimb 19 (q >>> 51) = some ((19 : UInt64) * q >>> 51) ∧ ((19 : UInt64) * q >>> 51).toNat < 2 ^ 18 := by
    intro q
    have := carry_lt q
    have fits : (19 : UInt64).toNat * (q >>> 51).toNat < 2 ^ 64 := by
      rw [nineteen, toNat_carry]
      omega
    refine ⟨mulLimb_eq fits, ?_⟩
    rw [toNat_mul fits, nineteen, toNat_carry]
    omega
  have returned : ∀ q : UInt64, addLimb r.l0 ((19 : UInt64) * q >>> 51) = some (r.l0 + (19 : UInt64) * q >>> 51) := by
    intro q
    have := below.l0
    have := (back q).2
    apply addLimb_eq
    omega
  simp only [canonicalLimbs, first, rippled below.l1, rippled below.l2, rippled below.l3, rippled below.l4, (back _).1,
    returned, Option.bind_eq_bind, Option.bind_some]
  rfl

/-! ## The audited program -/

/-- A field element, and how many additions it is away from the last reduction. -/
structure Tracked where
  fe : Fe
  additions : ℕ

/-- A field operation, with its operands and its output. -/
inductive Event where
  | add (a b out : Tracked)
  | sub (a b out : Tracked)
  | mul (a b out : Tracked)
  | reduce (limbs out : Fe)

/-- The bounds of each operation, and how far additions may be chained. -/
def Event.Within : Event → Prop
  | .add _ _ out => out.additions ≤ 2
  | .sub _ b out => b.fe.Below (2 ^ 52) ∧ out.fe.Below (2 ^ 52)
  | .mul a b out => a.fe.Below (2 ^ 54) ∧ b.fe.Below (2 ^ 54) ∧ out.fe.Below (2 ^ 52)
  | .reduce _ out => out.Below (2 ^ 52)

namespace Checked
open Audited (note ofOption)

def reduce (limbs : Fe) : Audited Event Fe := do
  let out ← ofOption (reduceLimbs limbs)
  note (.reduce limbs out)
  pure out

def add (a b : Tracked) : Audited Event Tracked := do
  let sum ← ofOption (addLimbs a.fe b.fe)
  let out : Tracked := ⟨sum, max a.additions b.additions + 1⟩
  note (.add a b out)
  pure out

def sub (a b : Tracked) : Audited Event Tracked := do
  let difference ← ofOption (subLimbs a.fe b.fe)
  let reduced ← reduce difference
  let out : Tracked := ⟨reduced, 0⟩
  note (.sub a b out)
  pure out

def neg (a : Tracked) : Audited Event Tracked := sub ⟨Fe.zero, 0⟩ a

def mul (a b : Tracked) : Audited Event Tracked := do
  let carried ← ofOption (mulLimbs a.fe b.fe)
  let out : Tracked := ⟨carried, 0⟩
  note (.mul a b out)
  pure out

def square (a : Tracked) : Audited Event Tracked := mul a a

def pow2k (a : Tracked) : ℕ → Audited Event Tracked
  | 0 => pure a
  | k + 1 => do
    let r ← pow2k a k
    square r

def pow22501 (a : Tracked) : Audited Event (Tracked × Tracked) := do
  let t0 ← square a
  let t0_2 ← square t0
  let t1 ← square t0_2
  let t2 ← mul a t1
  let t3 ← mul t0 t2
  let t4 ← square t3
  let t5 ← mul t2 t4
  let t6 ← pow2k t5 5
  let t7 ← mul t6 t5
  let t8 ← pow2k t7 10
  let t9 ← mul t8 t7
  let t10 ← pow2k t9 20
  let t11 ← mul t10 t9
  let t12 ← pow2k t11 10
  let t13 ← mul t12 t7
  let t14 ← pow2k t13 50
  let t15 ← mul t14 t13
  let t16 ← pow2k t15 100
  let t17 ← mul t16 t15
  let t18 ← pow2k t17 50
  let t19 ← mul t18 t13
  pure (t19, t3)

def invert (a : Tracked) : Audited Event Tracked := do
  let (t19, t3) ← pow22501 a
  let t20 ← pow2k t19 5
  mul t20 t3

def powP58 (a : Tracked) : Audited Event Tracked := do
  let (t19, _) ← pow22501 a
  let t20 ← pow2k t19 2
  mul a t20

def toBytes (a : Tracked) : Audited Event (Octets 32) := do
  let r ← reduce a.fe
  let l ← ofOption (canonicalLimbs r)
  pure l.pack

def ctEq (a b : Tracked) : Audited Event Bool := do
  let left ← toBytes a
  let right ← toBytes b
  pure (left = right)

def cmov (a b : Tracked) (c : Bool) : Tracked := if c then b else a

def mapToCurve25519 (input : Octets 32) : Audited Event (Octets 32) := do
  let u : Tracked := ⟨Fe.fromBytes input, 0⟩
  let c3 : Tracked := ⟨Fe.sqrtM1, 0⟩
  let j : Tracked := ⟨Fe.fromU64 486662, 0⟩
  let one : Tracked := ⟨Fe.one, 0⟩
  let tv1 ← square u
  let tv1 ← add tv1 tv1
  let xd ← add tv1 one
  let x1n ← neg j
  let tv2 ← square xd
  let gxd ← mul tv2 xd
  let gx1 ← mul j tv1
  let gx1 ← mul gx1 x1n
  let gx1 ← add gx1 tv2
  let gx1 ← mul gx1 x1n
  let tv3 ← square gxd
  let tv2b ← square tv3
  let tv3 ← mul tv3 gxd
  let tv3 ← mul tv3 gx1
  let tv2b ← mul tv2b tv3
  let y11 ← powP58 tv2b
  let y11 ← mul y11 tv3
  let y12 ← mul y11 c3
  let tv2c ← square y11
  let tv2c ← mul tv2c gxd
  let e1 ← ctEq tv2c gx1
  let y1 := cmov y12 y11 e1
  let x2n ← mul x1n tv1
  let tv2d ← square y1
  let tv2d ← mul tv2d gxd
  let e3 ← ctEq tv2d gx1
  let xn := cmov x2n x1n e3
  let inverse ← invert xd
  let x ← mul xn inverse
  toBytes x

/-! ## Every step runs -/

open Audited (Runs)

/-- A tracked value stands for `v`, with a bound on its limbs and on its additions. -/
structure Carries (out : Tracked) (v : Fe) (n d : ℕ) : Prop where
  fe : out.fe = v
  below : v.Below n
  additions : out.additions ≤ d

theorem Carries.mono {out : Tracked} {v : Fe} {m n d e : ℕ} (carries : Carries out v m d) (le : m ≤ n) (le' : d ≤ e) :
    Carries out v n e := ⟨carries.fe, carries.below.mono le, carries.additions.trans le'⟩

section
variable {a b : Tracked} {v w : Fe} {m n d e : ℕ}

theorem reduce_runs (limbs : Fe) : Runs Event.Within (reduce limbs) (· = Elligator2.reduce limbs) := by
  unfold reduce
  apply Runs.bind (Runs.ofOption (reduceLimbs_eq limbs) rfl)
  rintro _ rfl
  have below : (Elligator2.reduce limbs).Below (2 ^ 52) := (reduce_below limbs).mono (by decide)
  exact Runs.bind (Runs.note below) fun _ _ => Runs.pure rfl

theorem add_runs (ha : Carries a v m d) (hb : Carries b w n e) (fits : m + n ≤ 2 ^ 64) (short : max d e + 1 ≤ 2) :
    Runs Event.Within (add a b) (Carries · (v.add w) (m + n) (max d e + 1)) := by
  obtain ⟨rfl, below, additions⟩ := ha
  obtain ⟨rfl, below', additions'⟩ := hb
  have sum : (a.fe.add b.fe).Below (m + n) := (Rep.add ⟨below, rfl⟩ ⟨below', rfl⟩ fits).below
  unfold add
  apply Runs.bind (Runs.ofOption (addLimbs_eq below below' fits) rfl)
  rintro _ rfl
  have chained : max a.additions b.additions + 1 ≤ max d e + 1 := by omega
  exact Runs.bind (Runs.note (chained.trans short)) fun _ _ => Runs.pure ⟨rfl, sum, chained⟩

theorem sub_runs (ha : Carries a v (2 ^ 54) d) (hb : Carries b w (2 ^ 52) e) :
    Runs Event.Within (sub a b) (Carries · (v.sub w) (2 ^ 52) 0) := by
  obtain ⟨rfl, below, _⟩ := ha
  obtain ⟨rfl, below', _⟩ := hb
  obtain ⟨difference, eq, sub_eq⟩ := subLimbs_eq below below'
  have reduced : (a.fe.sub b.fe).Below (2 ^ 52) := (Rep.sub ⟨below, rfl⟩ ⟨below', rfl⟩).below
  unfold sub
  apply Runs.bind (Runs.ofOption eq rfl)
  rintro _ rfl
  apply Runs.bind (reduce_runs difference)
  rintro _ rfl
  rw [← sub_eq]
  exact Runs.bind (Runs.note ⟨below', reduced⟩) fun _ _ => Runs.pure ⟨rfl, reduced, le_rfl⟩

theorem neg_runs (hb : Carries b w (2 ^ 52) e) : Runs Event.Within (neg b) (Carries · w.neg (2 ^ 52) 0) :=
  sub_runs (d := 0) ⟨rfl, Rep.zero.below.mono (by decide), le_rfl⟩ hb

theorem mul_runs (ha : Carries a v (2 ^ 54) d) (hb : Carries b w (2 ^ 54) e) :
    Runs Event.Within (mul a b) (Carries · (v.mul w) (2 ^ 52) 0) := by
  obtain ⟨rfl, below, _⟩ := ha
  obtain ⟨rfl, below', _⟩ := hb
  have out : (a.fe.mul b.fe).Below (2 ^ 52) := (Rep.mul ⟨below, rfl⟩ ⟨below', rfl⟩).below
  unfold mul
  apply Runs.bind (Runs.ofOption (mulLimbs_eq below below') rfl)
  rintro _ rfl
  exact Runs.bind (Runs.note ⟨below, below', out⟩) fun _ _ => Runs.pure ⟨rfl, out, le_rfl⟩

theorem square_runs (ha : Carries a v (2 ^ 54) d) :
    Runs Event.Within (square a) (Carries · v.square (2 ^ 52) 0) := mul_runs ha ha

/-- Any number of squarings: each takes the output of the one before. -/
theorem pow2k_runs (ha : Carries a v (2 ^ 52) 0) (k : ℕ) :
    Runs Event.Within (pow2k a k) (Carries · (v.pow2k k) (2 ^ 52) 0) := by
  induction k with
  | zero => exact Runs.pure ha
  | succ k ih => exact Runs.bind ih fun _ hr => square_runs (hr.mono (by decide) le_rfl)

theorem Carries.wide (ha : Carries a v (2 ^ 52) d) : Carries a v (2 ^ 54) d := ha.mono (by decide) le_rfl

theorem pow22501_runs (ha : Carries a v (2 ^ 54) d) : Runs Event.Within (pow22501 a) fun out =>
    Carries out.1 v.pow22501.1 (2 ^ 52) 0 ∧ Carries out.2 v.pow22501.2 (2 ^ 52) 0 := by
  unfold pow22501 Fe.pow22501
  extract_lets t0 t1 t2 t3 t4 t5 t6 t7 t8 t9 t10 t11 t12 t13 t14 t15 t16 t17 t18 t19
  refine Runs.bind (square_runs ha) fun _ (h0 : Carries _ t0 _ _) => ?_
  refine Runs.bind (square_runs h0.wide) fun _ (h0' : Carries _ t0.square _ _) => ?_
  refine Runs.bind (square_runs h0'.wide) fun _ (h1 : Carries _ t1 _ _) => ?_
  refine Runs.bind (mul_runs ha h1.wide) fun _ (h2 : Carries _ t2 _ _) => ?_
  refine Runs.bind (mul_runs h0.wide h2.wide) fun _ (h3 : Carries _ t3 _ _) => ?_
  refine Runs.bind (square_runs h3.wide) fun _ (h4 : Carries _ t4 _ _) => ?_
  refine Runs.bind (mul_runs h2.wide h4.wide) fun _ (h5 : Carries _ t5 _ _) => ?_
  refine Runs.bind (pow2k_runs h5 5) fun _ (h6 : Carries _ t6 _ _) => ?_
  refine Runs.bind (mul_runs h6.wide h5.wide) fun _ (h7 : Carries _ t7 _ _) => ?_
  refine Runs.bind (pow2k_runs h7 10) fun _ (h8 : Carries _ t8 _ _) => ?_
  refine Runs.bind (mul_runs h8.wide h7.wide) fun _ (h9 : Carries _ t9 _ _) => ?_
  refine Runs.bind (pow2k_runs h9 20) fun _ (h10 : Carries _ t10 _ _) => ?_
  refine Runs.bind (mul_runs h10.wide h9.wide) fun _ (h11 : Carries _ t11 _ _) => ?_
  refine Runs.bind (pow2k_runs h11 10) fun _ (h12 : Carries _ t12 _ _) => ?_
  refine Runs.bind (mul_runs h12.wide h7.wide) fun _ (h13 : Carries _ t13 _ _) => ?_
  refine Runs.bind (pow2k_runs h13 50) fun _ (h14 : Carries _ t14 _ _) => ?_
  refine Runs.bind (mul_runs h14.wide h13.wide) fun _ (h15 : Carries _ t15 _ _) => ?_
  refine Runs.bind (pow2k_runs h15 100) fun _ (h16 : Carries _ t16 _ _) => ?_
  refine Runs.bind (mul_runs h16.wide h15.wide) fun _ (h17 : Carries _ t17 _ _) => ?_
  refine Runs.bind (pow2k_runs h17 50) fun _ (h18 : Carries _ t18 _ _) => ?_
  refine Runs.bind (mul_runs h18.wide h13.wide) fun _ (h19 : Carries _ t19 _ _) => ?_
  exact Runs.pure ⟨h19, h3⟩

theorem invert_runs (ha : Carries a v (2 ^ 54) d) : Runs Event.Within (invert a) (Carries · v.invert (2 ^ 52) 0) := by
  unfold invert
  apply Runs.bind (pow22501_runs ha)
  rintro ⟨_, _⟩ ⟨h19, h3⟩
  exact Runs.bind (pow2k_runs h19 5) fun _ h20 => mul_runs h20.wide h3.wide

theorem powP58_runs (ha : Carries a v (2 ^ 54) d) : Runs Event.Within (powP58 a) (Carries · v.powP58 (2 ^ 52) 0) := by
  unfold powP58
  apply Runs.bind (pow22501_runs ha)
  rintro ⟨_, _⟩ ⟨h19, _⟩
  exact Runs.bind (pow2k_runs h19 2) fun _ h20 => mul_runs ha h20.wide

theorem toBytes_runs (ha : Carries a v n d) : Runs Event.Within (toBytes a) (· = v.toBytes) := by
  obtain ⟨rfl, _, _⟩ := ha
  unfold toBytes
  apply Runs.bind (reduce_runs a.fe)
  rintro _ rfl
  apply Runs.bind (Runs.ofOption (canonicalLimbs_eq a.fe) rfl)
  rintro _ rfl
  exact Runs.pure rfl

theorem ctEq_runs (ha : Carries a v m d) (hb : Carries b w n e) : Runs Event.Within (ctEq a b) (· = v.ctEq w) := by
  unfold ctEq
  apply Runs.bind (toBytes_runs ha)
  rintro _ rfl
  apply Runs.bind (toBytes_runs hb)
  rintro _ rfl
  exact Runs.pure rfl

theorem Carries.cmov (ha : Carries a v n d) (hb : Carries b w n d) (c : Bool) :
    Carries (cmov a b c) (v.cmov w c) n d := by
  cases c with
  | false => exact ha
  | true => exact hb

end

/-- The whole map, with the bound of every value on its way. -/
theorem mapToCurve25519_runs (input : Octets 32) :
    Runs Event.Within (mapToCurve25519 input) (· = Elligator2.mapToCurve25519 input) := by
  unfold mapToCurve25519 Elligator2.mapToCurve25519
  extract_lets u c3 j one u' c3' j' one' tv1 tv1' xd x1n tv2 gxd gx1 gx1' gx1'' gx1''' tv3 tv2b tv3' tv3'' tv2b' y11 y11' y12
    tv2c tv2c' e1 y1 x2n tv2d tv2d' e3 xn x
  have hu : Carries u u' (2 ^ 54) 0 := ⟨rfl, (Rep.fromBytes input).below.mono (by decide), le_rfl⟩
  have hc3 : Carries c3 c3' (2 ^ 52) 0 := ⟨rfl, by constructor <;> decide, le_rfl⟩
  have hj : Carries j j' (2 ^ 52) 0 := ⟨rfl, by constructor <;> decide, le_rfl⟩
  have hone : Carries one one' 2 0 := ⟨rfl, Rep.one.below, le_rfl⟩
  refine Runs.bind (square_runs hu) fun _ (h : Carries _ tv1 _ _) => ?_
  refine Runs.bind (add_runs h h (by decide) (by decide)) fun _ (htv1 : Carries _ tv1' (2 ^ 52 + 2 ^ 52) 1) => ?_
  refine Runs.bind (add_runs htv1 hone (by decide) (by decide)) fun _ (h : Carries _ xd (2 ^ 52 + 2 ^ 52 + 2) 2) => ?_
  have htv1 := htv1.mono (by decide : _ ≤ 2 ^ 54) le_rfl
  have hxd := h.mono (by decide : _ ≤ 2 ^ 54) le_rfl
  refine Runs.bind (neg_runs hj) fun tx1n (hx1n : Carries _ x1n _ _) => ?_
  refine Runs.bind (square_runs hxd) fun _ (htv2 : Carries _ tv2 _ _) => ?_
  refine Runs.bind (mul_runs htv2.wide hxd) fun _ (hgxd : Carries _ gxd _ _) => ?_
  refine Runs.bind (mul_runs hj.wide htv1) fun _ (h : Carries _ gx1 _ _) => ?_
  refine Runs.bind (mul_runs h.wide hx1n.wide) fun _ (h : Carries _ gx1' _ _) => ?_
  refine Runs.bind (add_runs h htv2 (by decide) (by decide)) fun _ (h : Carries _ gx1'' (2 ^ 52 + 2 ^ 52) 1) => ?_
  refine Runs.bind (mul_runs (h.mono (by decide) le_rfl) hx1n.wide) fun _ (hgx1 : Carries _ gx1''' _ _) => ?_
  refine Runs.bind (square_runs hgxd.wide) fun _ (htv3 : Carries _ tv3 _ _) => ?_
  refine Runs.bind (square_runs htv3.wide) fun _ (htv2b : Carries _ tv2b _ _) => ?_
  refine Runs.bind (mul_runs htv3.wide hgxd.wide) fun _ (h : Carries _ tv3' _ _) => ?_
  refine Runs.bind (mul_runs h.wide hgx1.wide) fun _ (htv3 : Carries _ tv3'' _ _) => ?_
  refine Runs.bind (mul_runs htv2b.wide htv3.wide) fun _ (h : Carries _ tv2b' _ _) => ?_
  refine Runs.bind (powP58_runs h.wide) fun _ (h : Carries _ y11 _ _) => ?_
  refine Runs.bind (mul_runs h.wide htv3.wide) fun ty11 (hy11 : Carries _ y11' _ _) => ?_
  refine Runs.bind (mul_runs hy11.wide hc3.wide) fun ty12 (hy12 : Carries _ y12 _ _) => ?_
  refine Runs.bind (square_runs hy11.wide) fun _ (h : Carries _ tv2c _ _) => ?_
  refine Runs.bind (mul_runs h.wide hgxd.wide) fun _ (h : Carries _ tv2c' _ _) => ?_
  refine Runs.bind (ctEq_runs h hgx1) fun e (he : e = e1) => ?_
  have hy1 : Carries (cmov ty12 ty11 e) y1 (2 ^ 52) 0 := by
    rw [he]
    exact hy12.cmov hy11 e1
  refine Runs.bind (mul_runs hx1n.wide htv1) fun tx2n (hx2n : Carries _ x2n _ _) => ?_
  refine Runs.bind (square_runs hy1.wide) fun _ (h : Carries _ tv2d _ _) => ?_
  refine Runs.bind (mul_runs h.wide hgxd.wide) fun _ (h : Carries _ tv2d' _ _) => ?_
  refine Runs.bind (ctEq_runs h hgx1) fun e (he : e = e3) => ?_
  have hxn : Carries (cmov tx2n tx1n e) xn (2 ^ 52) 0 := by
    rw [he]
    exact hx2n.cmov hx1n e3
  refine Runs.bind (invert_runs hxd) fun _ (hinverse : Carries _ xd.invert _ _) => ?_
  exact Runs.bind (mul_runs hxn.wide hinverse.wide) fun _ (h : Carries _ x _ _) => toBytes_runs h

/-- **No overflow.** For every input no check fails, the checked run gives the map's output, and
every operation keeps to its bounds. -/
theorem mapToCurve25519_never_overflows (input : Octets 32) :
    ∃ events, (mapToCurve25519 input).run [] = some (Elligator2.mapToCurve25519 input, events) ∧
      ∀ e ∈ events, e.Within := by
  obtain ⟨out, events, run, rfl, within⟩ := (mapToCurve25519_runs input).from_nil
  exact ⟨events, run, within⟩

end Checked

end TrezorCore.Elligator2
