import TrezorCore.Lib.Elligator
import TrezorCore.Thp.Field25519
import Mathlib.NumberTheory.LegendreSymbol.QuadraticReciprocity

/-!
# The map to the curve

`map_to_curve25519` of `thp/elligator2.rs` is Elligator 2 on Curve25519 with the non-square 2.
The two addition chains are powers; the guessed root and its correction by a root of `-1` decide
whether the first candidate is on the curve; and the last product puts the numerator over the
denominator.
-/

namespace TrezorCore.Elligator2
open Fe

namespace Fe

variable {a b c : Fe} {x y : ZMod p} {m n k : ℕ}

theorem Rep.eq (rep : Rep n a x) (same : x = y) : Rep n a y := same ▸ rep

theorem Rep.exponent (rep : Rep n a (x ^ m)) (same : m = k) : Rep n a (x ^ k) := same ▸ rep

/-! ## Powers -/

theorem Rep.square (ha : Rep (2 ^ 54) a x) : Rep (2 ^ 52) a.square (x ^ 2) :=
  (ha.mul ha).eq (pow_two x).symm

/-- A product whose bound is that of an operand. -/
theorem Rep.times (ha : Rep (2 ^ 54) a x) (hb : Rep (2 ^ 54) b y) : Rep (2 ^ 54) (a.mul b) (x * y) :=
  (ha.mul hb).mono (by decide)

/-- Products of powers add the exponents. -/
theorem Rep.mul_pow (hb : Rep (2 ^ 52) b (x ^ m)) (hc : Rep (2 ^ 52) c (x ^ n)) : Rep (2 ^ 52) (b.mul c) (x ^ (m + n)) :=
  ((hb.mono (by decide)).mul (hc.mono (by decide))).eq (pow_add x m n).symm

/-- Each squaring doubles the exponent. -/
theorem Rep.pow2k (hb : Rep (2 ^ 52) b (x ^ m)) (k : ℕ) : Rep (2 ^ 52) (b.pow2k k) (x ^ (m * 2 ^ k)) := by
  induction k with
  | zero =>
    rw [pow_zero, mul_one]
    exact hb
  | succ k ih =>
    apply (ih.mono (by decide)).square.eq
    rw [← pow_mul, mul_assoc, ← pow_succ]

/-- The shared chain. -/
theorem Rep.pow22501 (ha : Rep (2 ^ 54) a x) :
    Rep (2 ^ 52) a.pow22501.1 (x ^ (2 ^ 250 - 1)) ∧ Rep (2 ^ 52) a.pow22501.2 (x ^ 11) := by
  unfold Fe.pow22501
  extract_lets t0 t1 t2 t3 t4 t5 t6 t7 t8 t9 t10 t11 t12 t13 t14 t15 t16 t17 t18 t19
  have h0 : Rep (2 ^ 52) t0 (x ^ 2) := ha.square
  have h1 : Rep (2 ^ 52) t1 (x ^ 8) := (h0.pow2k 2).exponent (by norm_num)
  have h2 : Rep (2 ^ 52) t2 (x ^ 9) := (ha.mul (h1.mono (by decide))).eq (by ring)
  have h3 : Rep (2 ^ 52) t3 (x ^ 11) := h0.mul_pow h2
  have h4 : Rep (2 ^ 52) t4 (x ^ 22) := (h3.pow2k 1).exponent (by norm_num)
  have h5 : Rep (2 ^ 52) t5 (x ^ (2 ^ 5 - 1)) := (h2.mul_pow h4).exponent (by norm_num)
  have h7 : Rep (2 ^ 52) t7 (x ^ (2 ^ 10 - 1)) :=
    ((h5.pow2k 5).mul_pow h5).exponent (by norm_num)
  have h9 : Rep (2 ^ 52) t9 (x ^ (2 ^ 20 - 1)) :=
    ((h7.pow2k 10).mul_pow h7).exponent (by norm_num)
  have h11 : Rep (2 ^ 52) t11 (x ^ (2 ^ 40 - 1)) :=
    ((h9.pow2k 20).mul_pow h9).exponent (by norm_num)
  have h13 : Rep (2 ^ 52) t13 (x ^ (2 ^ 50 - 1)) :=
    ((h11.pow2k 10).mul_pow h7).exponent (by norm_num)
  have h15 : Rep (2 ^ 52) t15 (x ^ (2 ^ 100 - 1)) :=
    ((h13.pow2k 50).mul_pow h13).exponent (by norm_num)
  have h17 : Rep (2 ^ 52) t17 (x ^ (2 ^ 200 - 1)) :=
    ((h15.pow2k 100).mul_pow h15).exponent (by norm_num)
  exact ⟨((h17.pow2k 50).mul_pow h13).exponent (by norm_num), h3⟩

/-- Fermat's inverse. -/
theorem Rep.invert (ha : Rep (2 ^ 54) a x) : Rep (2 ^ 52) a.invert (x ^ (p - 2)) := by
  obtain ⟨high, low⟩ := ha.pow22501
  exact ((high.pow2k 5).mul_pow low).exponent (by norm_num [p])

theorem Rep.powP58 (ha : Rep (2 ^ 54) a x) : Rep (2 ^ 52) a.powP58 (x ^ (2 ^ 252 - 3)) := by
  have quarter := ha.pow22501.1.pow2k 2
  apply (ha.mul (quarter.mono (by decide))).eq
  rw [← pow_succ']
  congr 1

theorem Rep.sqrtM1 : Rep (2 ^ 52) sqrtM1 sqrtM1.nat := ⟨by constructor <;> decide, rfl⟩

end Fe

/-! ## The field's constants -/

/-- The constant of the source is a root of `-1`. -/
theorem sqrtM1_sq : (Fe.sqrtM1.nat : ZMod p) ^ 2 = -1 := by
  have divides : p ∣ Fe.sqrtM1.nat ^ 2 + 1 := by decide +kernel
  have zero := (ZMod.natCast_eq_zero_iff _ _).2 divides
  push_cast at zero
  exact eq_neg_of_add_eq_zero_left zero

theorem two_nonsquare : ¬ IsSquare (2 : ZMod p) := by
  rw [ZMod.exists_sq_eq_two_iff (by decide)]
  decide

theorem ringChar_ne_two : ringChar (ZMod p) ≠ 2 := by
  rw [ZMod.ringChar_zmod_n]
  decide

theorem card_eq : Fintype.card (ZMod p) = 8 * (2 ^ 252 - 3) + 5 := by
  rw [ZMod.card]
  decide

theorem pow_sub_two {x : ZMod p} (nonzero : x ≠ 0) : x ^ (p - 2) = x⁻¹ := by
  apply eq_inv_of_mul_eq_one_left
  rw [← pow_succ, show p - 2 + 1 = p - 1 by decide]
  exact ZMod.pow_card_sub_one_eq_one nonzero

/-- **The chains are the exponents.** The shared chain, the two powers made from it, and what they
are for: an inverse, and a root of every square. -/
theorem chains_are_exponents (x : Fe) (small : x.Below (2 ^ 54)) :
    x.pow22501.1.val = x.val ^ (2 ^ 250 - 1) ∧ x.pow22501.2.val = x.val ^ 11 ∧
    x.powP58.val = x.val ^ ((p - 5) / 8) ∧ (p - 5) / 8 = 2 ^ 252 - 3 ∧
    x.invert.val = x.val ^ (p - 2) ∧
    (x.val ≠ 0 → (x.mul x.invert).val = 1) ∧ (x.val = 0 → (x.mul x.invert).val = 0) ∧
    (IsSquare x.val → (x.mul x.powP58).square.val = x.val ∨ ((x.mul x.powP58).mul Fe.sqrtM1).square.val = x.val) := by
  have rx : Rep (2 ^ 54) x x.val := ⟨small, rfl⟩
  have exponent : (p - 5) / 8 = 2 ^ 252 - 3 := by decide
  have inverse := rx.invert
  have product : (x.mul x.invert).val = x.val * x.invert.val := (rx.times ⟨inverse.below.mono (by decide), rfl⟩).val
  refine ⟨rx.pow22501.1.val, rx.pow22501.2.val, ?_, exponent, inverse.val, ?_, ?_, ?_⟩
  · rw [exponent]
    exact rx.powP58.val
  · intro nonzero
    rw [product, inverse.val, pow_sub_two nonzero, mul_inv_cancel₀ nonzero]
  · intro zero
    rw [product, zero, zero_mul]
  · intro square
    have guess := rx.times (rx.powP58.mono (by decide))
    rw [← Elligator.root_iff ringChar_ne_two card_eq sqrtM1_sq] at square
    obtain plain | turned := square
    · left
      rw [guess.square.val, plain]
    · right
      rw [(guess.times (Rep.sqrtM1.mono (by decide))).square.val, turned]

theorem chains_are_exponents_four :
    ((Fe.fromU64 4).mul (Fe.fromU64 4).invert).val = 1 ∧ (Fe.zero.mul Fe.zero.invert).val = 0 ∧
      (((Fe.fromU64 4).mul (Fe.fromU64 4).powP58).square.val = (Fe.fromU64 4).val ∨
        (((Fe.fromU64 4).mul (Fe.fromU64 4).powP58).mul Fe.sqrtM1).square.val = (Fe.fromU64 4).val) := by
  have four : (Fe.fromU64 4).val = ((4 : ℕ) : ZMod p) := (Rep.fromU64 4).val
  have nonzero : (Fe.fromU64 4).val ≠ 0 := by
    rw [four, Ne, ZMod.natCast_eq_zero_iff]
    decide
  have square : IsSquare (Fe.fromU64 4).val := by
    rw [four]
    exact ⟨2, by norm_num⟩
  obtain ⟨-, -, -, -, -, inverse, -, root⟩ := chains_are_exponents (Fe.fromU64 4) (by constructor <;> decide)
  obtain ⟨-, -, -, -, -, -, zero, -⟩ := chains_are_exponents Fe.zero (by constructor <;> decide)
  exact ⟨inverse nonzero, zero Rep.zero.val, root square⟩

/-! ## The map -/

/-- The number of Montgomery's curve. -/
def J : ZMod p := 486662

theorem rep_J : Rep (2 ^ 52) (fromU64 486662) J := by
  have number : (486662 : UInt64).toNat = 486662 := by decide
  have rep := Rep.fromU64 486662
  rw [number] at rep
  exact rep.mono (by decide)

/-- The guess at a root. The exponent is a variable, for the kernel must not compute the power. -/
theorem rep_candidate {a b : Fe} {v w : ZMod p} {n : ℕ} (ha : Rep (2 ^ 52) a ((w * v ^ 7) ^ n))
    (hb : Rep (2 ^ 54) b (w * v ^ 3)) : Rep (2 ^ 54) (a.mul b) (Elligator.candidate n v w) := by
  unfold Elligator.candidate
  exact (ha.mono (by decide)).times hb

/-- A root is found if the guess is one or becomes one when it is turned. -/
theorem corrected_guess {y turn gxd gx1 : Fe} {r i v w : ZMod p} (hy : Rep (2 ^ 54) y r) (hturn : Rep (2 ^ 54) turn i)
    (hv : Rep (2 ^ 54) gxd v) (hw : Rep (2 ^ 54) gx1 w) :
    ((cmov (y.mul turn) y ((y.square.mul gxd).ctEq gx1)).square.mul gxd).ctEq gx1 = true ↔
      r ^ 2 * v = w ∨ (r * i) ^ 2 * v = w := by
  have test : ∀ {z : Fe} {s : ZMod p}, Rep (2 ^ 54) z s → ((z.square.mul gxd).ctEq gx1 = true ↔ s ^ 2 * v = w) := by
    intro z s hz
    rw [ctEq_iff, ((hz.square.mono (by decide)).mul hv).val, hw.val]
  rw [← test hy, ← test (hy.times hturn)]
  unfold cmov
  cases first : (y.square.mul gxd).ctEq gx1 with
  | true =>
    rw [if_pos rfl, first]
    exact (or_iff_left_of_imp fun _ => rfl).symm
  | false =>
    rw [if_neg Bool.false_ne_true]
    exact (or_iff_right Bool.false_ne_true).symm

/-- The map computes a fraction: its denominator, and for a square and a non-square value at the
first candidate the two numerators. -/
theorem val_mapToCurve25519 (input : Octets 32) {u : ZMod p} (hu : u = (Bytes.leNat input.1 % 2 ^ 255 : ℕ)) :
    ∃ x : Fe, mapToCurve25519 input = x.toBytes ∧
      (IsSquare (Elligator.curve J (Elligator.first J 2 u)) → x.val = Elligator.first J 2 u) ∧
      (¬ IsSquare (Elligator.curve J (Elligator.first J 2 u)) → x.val = Elligator.second J 2 u) := by
  have fine : 1 + 2 * u ^ 2 ≠ 0 := Elligator.denominator_ne_zero two_nonsquare sqrtM1_sq
  unfold mapToCurve25519
  extract_lets u' c3 j one tv1 tv1' xd x1n tv2 gxd gx1 gx1' gx1'' gx1''' tv3 tv2b tv3' tv3'' tv2b' y11 y11' y12
    tv2c tv2c' e1 y1 x2n tv2d tv2d' e3 xn x
  have ru : Rep (2 ^ 51) u' u := (Rep.fromBytes input).eq hu.symm
  have rj : Rep (2 ^ 52) j J := rep_J
  -- the denominator and the first numerator
  have rtv1 : Rep (2 ^ 53) tv1' (2 * u ^ 2) := by
    have square : Rep (2 ^ 52) tv1 (u ^ 2) := (ru.mono (by decide)).square
    exact (square.add square (by decide)).eq (by ring)
  have rxd : Rep (2 ^ 54) xd (1 + 2 * u ^ 2) := ((rtv1.add Rep.one (by decide)).mono (by decide)).eq (by ring)
  have rx1n : Rep (2 ^ 52) x1n (-J) := rj.neg
  generalize denominator : 1 + 2 * u ^ 2 = d at fine rxd
  -- the value at the first candidate, as a fraction `w / v`
  have rtv2 : Rep (2 ^ 52) tv2 (d ^ 2) := rxd.square
  have rgxd : Rep (2 ^ 54) gxd (d ^ 3) := ((rtv2.mono (by decide)).times rxd).eq (by ring)
  have rgx1 : Rep (2 ^ 54) gx1''' ((J * (2 * u ^ 2) * -J + d ^ 2) * -J) := by
    have r0 : Rep (2 ^ 54) gx1 (J * (2 * u ^ 2)) := (rj.mono (by decide)).times (rtv1.mono (by decide))
    have r1 : Rep (2 ^ 52) gx1' (J * (2 * u ^ 2) * -J) := r0.mul (rx1n.mono (by decide))
    have r2 : Rep (2 ^ 54) gx1'' (J * (2 * u ^ 2) * -J + d ^ 2) := (r1.add rtv2 (by decide)).mono (by decide)
    exact r2.times (rx1n.mono (by decide))
  have fraction := Elligator.curve_first (J := J) (Z := 2) (u := u) (by rwa [denominator])
  rw [denominator] at fraction
  have nonzero : d ^ 3 ≠ 0 := pow_ne_zero 3 fine
  generalize (J * (2 * u ^ 2) * -J + d ^ 2) * -J = w at rgx1 fraction
  generalize d ^ 3 = v at rgxd fraction nonzero
  -- the guess, and the guess turned by the root of `-1`
  have rtv3 : Rep (2 ^ 54) tv3'' (w * v ^ 3) := by
    have r0 : Rep (2 ^ 52) tv3' (v ^ 3) := ((rgxd.square.mono (by decide)).mul rgxd).eq (by ring)
    exact ((r0.mono (by decide)).times rgx1).eq (by ring)
  have rtv2b : Rep (2 ^ 54) tv2b' (w * v ^ 7) := by
    have r0 : Rep (2 ^ 52) tv2b ((v ^ 2) ^ 2) := (rgxd.square.mono (by decide)).square
    exact ((r0.mono (by decide)).times rtv3).eq (by ring)
  have ry11 : Rep (2 ^ 54) y11' (Elligator.candidate (2 ^ 252 - 3) v w) :=
    rep_candidate rtv2b.powP58 rtv3
  have decides : e3 = true ↔ IsSquare (w / v) := by
    rw [← Elligator.candidate_iff ringChar_ne_two card_eq sqrtM1_sq nonzero]
    exact corrected_guess ry11 (Rep.sqrtM1.mono (by decide)) rgxd rgx1
  have rinverse : Rep (2 ^ 54) xd.invert d⁻¹ := (rxd.invert.mono (by decide)).eq (pow_sub_two fine)
  rw [← denominator] at rinverse
  refine ⟨x, rfl, ?_, ?_⟩
  · intro square
    rw [fraction, ← decides] at square
    have taken : xn = x1n := if_pos square
    show (xn.mul xd.invert).val = _
    rw [taken, ((rx1n.mono (by decide)).mul rinverse).val, ← div_eq_mul_inv]
    rfl
  · intro off
    rw [fraction, ← decides] at off
    have taken : xn = x1n.mul tv1' := if_neg off
    have rx2n : Rep (2 ^ 52) xn (-J * (2 * u ^ 2)) := by
      rw [taken]
      exact (rx1n.mono (by decide)).mul (rtv1.mono (by decide))
    show (xn.mul xd.invert).val = _
    rw [((rx2n.mono (by decide)).mul rinverse).val, Elligator.second_eq (by rwa [denominator])]
    unfold Elligator.first
    ring

/-- **The map is Elligator 2.** The output is the canonical encoding of the candidate that is on
the curve, the first one if both are; and `u` and `-u` have one output. -/
theorem map_to_curve25519_is_elligator2 (input : Octets 32) :
    let u : ZMod p := (Bytes.leNat input.1 % 2 ^ 255 : ℕ)
    let x1 : ZMod p := -J / (1 + 2 * u ^ 2)
    let out : ℕ := Bytes.leNat (mapToCurve25519 input).1
    1 + 2 * u ^ 2 ≠ 0 ∧ out < p ∧
      (IsSquare (x1 ^ 3 + J * x1 ^ 2 + x1) → (out : ZMod p) = x1) ∧
      (¬ IsSquare (x1 ^ 3 + J * x1 ^ 2 + x1) → (out : ZMod p) = -x1 - J) ∧
      IsSquare ((out : ZMod p) ^ 3 + J * (out : ZMod p) ^ 2 + (out : ZMod p)) ∧
      ∀ input' : Octets 32, ((Bytes.leNat input'.1 % 2 ^ 255 : ℕ) : ZMod p) = -u →
        mapToCurve25519 input' = mapToCurve25519 input := by
  intro u x1 out
  have fine : 1 + 2 * u ^ 2 ≠ 0 := Elligator.denominator_ne_zero two_nonsquare sqrtM1_sq
  obtain ⟨x, same, taken, other⟩ := val_mapToCurve25519 input (u := u) rfl
  have number : out = x.val.val := by
    show Bytes.leNat (mapToCurve25519 input).1 = _
    rw [same, leNat_toBytes_val]
  have element : (out : ZMod p) = x.val := by
    rw [number, ZMod.natCast_zmod_val]
  refine ⟨fine, ?_, ?_, ?_, ?_, ?_⟩
  · rw [number]
    exact ZMod.val_lt _
  · intro square
    rw [element]
    exact taken square
  · intro off
    rw [element]
    exact other off
  · rw [element]
    by_cases square : IsSquare (Elligator.curve J (Elligator.first J 2 u))
    · rw [taken square]
      exact square
    · rw [other square]
      exact Elligator.second_on_curve fine two_nonsquare square
  · intro input' opposite
    obtain ⟨x', same', taken', other'⟩ := val_mapToCurve25519 input' rfl
    have first : Elligator.first J 2 ((Bytes.leNat input'.1 % 2 ^ 255 : ℕ) : ZMod p) = Elligator.first J 2 u := by
      rw [opposite]
      unfold Elligator.first
      rw [neg_sq]
    have second : Elligator.second J 2 ((Bytes.leNat input'.1 % 2 ^ 255 : ℕ) : ZMod p) = Elligator.second J 2 u := by
      unfold Elligator.second
      rw [first]
    rw [first] at taken' other'
    rw [second] at other'
    rw [same, same']
    apply toBytes_eq
    by_cases square : IsSquare (Elligator.curve J (Elligator.first J 2 u))
    · rw [taken square, taken' square]
    · rw [other square, other' square]

end TrezorCore.Elligator2
