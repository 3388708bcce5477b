import TrezorCore.Lib.Bytes

/-!
# Elligator2

`thp/elligator2.rs`: the field GF(2^255 - 19) in five limbs of 51 bits, and the RFC 9380 map
to the Montgomery u-coordinate of a Curve25519 point. Limbs are `u64` and products `u128`,
with the source's order of additions, carries and masks.
-/

namespace TrezorCore.Elligator2

def LOW_51_BIT_MASK : UInt64 := ((1 : UInt64) <<< 51) - 1

/-- A field element, five limbs of radix 2^51. -/
structure Fe where
  l0 : UInt64
  l1 : UInt64
  l2 : UInt64
  l3 : UInt64
  l4 : UInt64
  deriving DecidableEq

/-- `u128`. -/
abbrev U128 := BitVec 128

/-- The product of two limbs, in 128 bits. -/
def m (x y : UInt64) : U128 := x.toBitVec.setWidth 128 * y.toBitVec.setWidth 128

/-- `as u64`. -/
def low (c : U128) : UInt64 := UInt64.ofBitVec (c.setWidth 64)

/-- Weak reduction: every limb hands its carry to the next, the last one's comes back times 19. -/
def reduce (limbs : Fe) : Fe where
  l0 := (limbs.l0 &&& LOW_51_BIT_MASK) + (limbs.l4 >>> 51) * 19
  l1 := (limbs.l1 &&& LOW_51_BIT_MASK) + (limbs.l0 >>> 51)
  l2 := (limbs.l2 &&& LOW_51_BIT_MASK) + (limbs.l1 >>> 51)
  l3 := (limbs.l3 &&& LOW_51_BIT_MASK) + (limbs.l2 >>> 51)
  l4 := (limbs.l4 &&& LOW_51_BIT_MASK) + (limbs.l3 >>> 51)

namespace Fe

def zero : Fe := ⟨0, 0, 0, 0, 0⟩

def one : Fe := ⟨1, 0, 0, 0, 0⟩

def fromU64 (x : UInt64) : Fe := ⟨x, 0, 0, 0, 0⟩

/-- sqrt(-1) mod p. -/
def sqrtM1 : Fe :=
  ⟨1718705420411056, 234908883556509, 2233514472574048, 2117202627021982, 765476049583133⟩

/-- `u64::from_le_bytes` of the eight bytes from `i` on. -/
def load8 (bytes : Octets 32) (i : Nat) : UInt64 := UInt64.ofNat (Bytes.beNat ((bytes.1.drop i).take 8).reverse)

def fromBytes (bytes : Octets 32) : Fe where
  l0 := load8 bytes 0 &&& LOW_51_BIT_MASK
  l1 := (load8 bytes 6 >>> 3) &&& LOW_51_BIT_MASK
  l2 := (load8 bytes 12 >>> 6) &&& LOW_51_BIT_MASK
  l3 := (load8 bytes 19 >>> 1) &&& LOW_51_BIT_MASK
  l4 := (load8 bytes 24 >>> 12) &&& LOW_51_BIT_MASK

/-- The canonical limbs: weakly reduced, less p if that is needed, all carries done. -/
def canonical (a : Fe) : Fe :=
  let r := reduce a
  -- q is 1 exactly when the value is p or more
  let q := (r.l0 + 19) >>> 51
  let q := (r.l1 + q) >>> 51
  let q := (r.l2 + q) >>> 51
  let q := (r.l3 + q) >>> 51
  let q := (r.l4 + q) >>> 51
  let l0 := r.l0 + 19 * q
  let l1 := r.l1 + (l0 >>> 51)
  let l2 := r.l2 + (l1 >>> 51)
  let l3 := r.l3 + (l2 >>> 51)
  let l4 := r.l4 + (l3 >>> 51)
  ⟨l0 &&& LOW_51_BIT_MASK, l1 &&& LOW_51_BIT_MASK, l2 &&& LOW_51_BIT_MASK, l3 &&& LOW_51_BIT_MASK,
    l4 &&& LOW_51_BIT_MASK⟩

/-- The bytes of canonical limbs. -/
def pack (l : Fe) : Octets 32 :=
  ⟨[l.l0.toUInt8, (l.l0 >>> 8).toUInt8, (l.l0 >>> 16).toUInt8, (l.l0 >>> 24).toUInt8, (l.l0 >>> 32).toUInt8,
    (l.l0 >>> 40).toUInt8, ((l.l0 >>> 48) ||| (l.l1 <<< 3)).toUInt8,
    (l.l1 >>> 5).toUInt8, (l.l1 >>> 13).toUInt8, (l.l1 >>> 21).toUInt8, (l.l1 >>> 29).toUInt8, (l.l1 >>> 37).toUInt8,
    ((l.l1 >>> 45) ||| (l.l2 <<< 6)).toUInt8,
    (l.l2 >>> 2).toUInt8, (l.l2 >>> 10).toUInt8, (l.l2 >>> 18).toUInt8, (l.l2 >>> 26).toUInt8, (l.l2 >>> 34).toUInt8,
    (l.l2 >>> 42).toUInt8, ((l.l2 >>> 50) ||| (l.l3 <<< 1)).toUInt8,
    (l.l3 >>> 7).toUInt8, (l.l3 >>> 15).toUInt8, (l.l3 >>> 23).toUInt8, (l.l3 >>> 31).toUInt8, (l.l3 >>> 39).toUInt8,
    ((l.l3 >>> 47) ||| (l.l4 <<< 4)).toUInt8,
    (l.l4 >>> 4).toUInt8, (l.l4 >>> 12).toUInt8, (l.l4 >>> 20).toUInt8, (l.l4 >>> 28).toUInt8, (l.l4 >>> 36).toUInt8,
    (l.l4 >>> 44).toUInt8], rfl⟩

def toBytes (a : Fe) : Octets 32 := a.canonical.pack

def add (a b : Fe) : Fe := ⟨a.l0 + b.l0, a.l1 + b.l1, a.l2 + b.l2, a.l3 + b.l3, a.l4 + b.l4⟩

/-- 16p is added limb by limb before the subtraction. -/
def sub (a b : Fe) : Fe :=
  reduce
    ⟨(a.l0 + 36028797018963664) - b.l0, (a.l1 + 36028797018963952) - b.l1, (a.l2 + 36028797018963952) - b.l2,
      (a.l3 + 36028797018963952) - b.l3, (a.l4 + 36028797018963952) - b.l4⟩

def neg (a : Fe) : Fe := zero.sub a

/-- The carries of `mul`, from its five columns. -/
def mulCarry (c0 c1 c2 c3 c4 : U128) : Fe :=
  let c1 := c1 + (c0 >>> 51)
  let c2 := c2 + (c1 >>> 51)
  let c3 := c3 + (c2 >>> 51)
  let c4 := c4 + (c3 >>> 51)
  let carry := low (c4 >>> 51)
  let out0 := (low c0 &&& LOW_51_BIT_MASK) + carry * 19
  ⟨out0 &&& LOW_51_BIT_MASK, (low c1 &&& LOW_51_BIT_MASK) + (out0 >>> 51), low c2 &&& LOW_51_BIT_MASK,
    low c3 &&& LOW_51_BIT_MASK, low c4 &&& LOW_51_BIT_MASK⟩

def mul (a b : Fe) : Fe :=
  let b1_19 := b.l1 * 19
  let b2_19 := b.l2 * 19
  let b3_19 := b.l3 * 19
  let b4_19 := b.l4 * 19
  mulCarry
    (m a.l0 b.l0 + m a.l4 b1_19 + m a.l3 b2_19 + m a.l2 b3_19 + m a.l1 b4_19)
    (m a.l1 b.l0 + m a.l0 b.l1 + m a.l4 b2_19 + m a.l3 b3_19 + m a.l2 b4_19)
    (m a.l2 b.l0 + m a.l1 b.l1 + m a.l0 b.l2 + m a.l4 b3_19 + m a.l3 b4_19)
    (m a.l3 b.l0 + m a.l2 b.l1 + m a.l1 b.l2 + m a.l0 b.l3 + m a.l4 b4_19)
    (m a.l4 b.l0 + m a.l3 b.l1 + m a.l2 b.l2 + m a.l1 b.l3 + m a.l0 b.l4)

def square (a : Fe) : Fe := a.mul a

def pow2k (a : Fe) : Nat → Fe
  | 0 => a
  | k + 1 => (pow2k a k).square

/-- `(self^(2^250-1), self^11)`. -/
def pow22501 (a : Fe) : Fe × Fe :=
  let t0 := a.square
  let t1 := t0.square.square
  let t2 := a.mul t1
  let t3 := t0.mul t2
  let t4 := t3.square
  let t5 := t2.mul t4
  let t6 := t5.pow2k 5
  let t7 := t6.mul t5
  let t8 := t7.pow2k 10
  let t9 := t8.mul t7
  let t10 := t9.pow2k 20
  let t11 := t10.mul t9
  let t12 := t11.pow2k 10
  let t13 := t12.mul t7
  let t14 := t13.pow2k 50
  let t15 := t14.mul t13
  let t16 := t15.pow2k 100
  let t17 := t16.mul t15
  let t18 := t17.pow2k 50
  let t19 := t18.mul t13
  (t19, t3)

/-- `self^(p-2)`. -/
def invert (a : Fe) : Fe :=
  let (t19, t3) := a.pow22501
  (t19.pow2k 5).mul t3

/-- `self^((p-5)/8)`. -/
def powP58 (a : Fe) : Fe :=
  let (t19, _) := a.pow22501
  a.mul (t19.pow2k 2)

def ctEq (a b : Fe) : Bool := a.toBytes = b.toBytes

/-- `a` if `c` is false, `b` if it is true. -/
def cmov (a b : Fe) (c : Bool) : Fe := if c then b else a

end Fe

/-- RFC 9380 `map_to_curve_elligator2_curve25519`, the u-coordinate. -/
def mapToCurve25519 (input : Octets 32) : Octets 32 :=
  let u := Fe.fromBytes input
  let c3 := Fe.sqrtM1
  let j := Fe.fromU64 486662
  let one := Fe.one
  let tv1 := u.square
  let tv1 := tv1.add tv1
  let xd := tv1.add one
  let x1n := j.neg
  let tv2 := xd.square
  let gxd := tv2.mul xd
  let gx1 := j.mul tv1
  let gx1 := gx1.mul x1n
  let gx1 := gx1.add tv2
  let gx1 := gx1.mul x1n
  let tv3 := gxd.square
  let tv2b := tv3.square
  let tv3 := tv3.mul gxd
  let tv3 := tv3.mul gx1
  let tv2b := tv2b.mul tv3
  let y11 := tv2b.powP58
  let y11 := y11.mul tv3
  let y12 := y11.mul c3
  let tv2c := y11.square
  let tv2c := tv2c.mul gxd
  let e1 := tv2c.ctEq gx1
  let y1 := Fe.cmov y12 y11 e1
  let x2n := x1n.mul tv1
  let tv2d := y1.square
  let tv2d := tv2d.mul gxd
  let e3 := tv2d.ctEq gx1
  let xn := Fe.cmov x2n x1n e3
  let x := xn.mul xd.invert
  x.toBytes

end TrezorCore.Elligator2
