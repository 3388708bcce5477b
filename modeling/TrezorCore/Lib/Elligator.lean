import Mathlib.FieldTheory.Finite.Basic
import Mathlib.NumberTheory.LegendreSymbol.QuadraticChar.Basic
import Mathlib.Tactic.FieldSimp
import Mathlib.Tactic.LinearCombination
import Mathlib.Tactic.Ring

/-!
# Elligator 2

The map to the Montgomery curve `y² = x³ + J x² + x` over a field with a non-square `Z`: of two
candidates for `x` that `u` gives, one is on the curve whenever the other is not. In a finite
field of `8n + 5` elements a quotient is tested for a square root with one power and a root of
`-1`, without a division.
-/

namespace Elligator

section Candidates

variable {F : Type*} [Field F] {J Z u : F}

/-- The right-hand side of the curve. -/
def curve (J x : F) : F := x ^ 3 + J * x ^ 2 + x

/-- The first candidate. -/
def first (J Z u : F) : F := -J / (1 + Z * u ^ 2)

/-- The second. -/
def second (J Z u : F) : F := -first J Z u - J

/-- The denominator is never zero. -/
theorem denominator_ne_zero (nonsquare : ¬ IsSquare Z) {i : F} (root : i ^ 2 = -1) : 1 + Z * u ^ 2 ≠ 0 := by
  intro zero
  have nonzero : u ≠ 0 := by
    rintro rfl
    simp at zero
  apply nonsquare
  refine ⟨i / u, ?_⟩
  have product : Z * u ^ 2 = i ^ 2 := by linear_combination zero - root
  field_simp
  exact product

variable (fine : 1 + Z * u ^ 2 ≠ 0)

include fine

theorem second_eq : second J Z u = first J Z u * (Z * u ^ 2) := by
  unfold second first
  field_simp
  ring

/-- The curve's value at the first candidate, as a fraction. -/
theorem curve_first :
    curve J (first J Z u) = (J * (Z * u ^ 2) * -J + (1 + Z * u ^ 2) ^ 2) * -J / (1 + Z * u ^ 2) ^ 3 := by
  unfold curve first
  field_simp
  ring

/-- The curve's values at the two candidates differ by the factor between them. -/
theorem curve_second : curve J (second J Z u) = Z * u ^ 2 * curve J (first J Z u) := by
  have apart : curve J (second J Z u) = second J Z u * (first J Z u ^ 2 + J * first J Z u + 1) := by
    unfold curve second
    ring
  rw [apart, second_eq fine]
  unfold curve
  ring

end Candidates

section Finite

variable {F : Type*} [Field F] [Fintype F]

theorem isSquare_mul_of_not {a b : F} (ha : ¬ IsSquare a) (hb : ¬ IsSquare b) : IsSquare (a * b) := by
  classical
  have nonzero : ∀ {c : F}, ¬ IsSquare c → c ≠ 0 := by
    rintro c nonsquare rfl
    exact nonsquare (IsSquare.zero)
  apply (quadraticChar_one_iff_isSquare (mul_ne_zero (nonzero ha) (nonzero hb))).1
  rw [map_mul, quadraticChar_neg_one_iff_not_isSquare.2 ha, quadraticChar_neg_one_iff_not_isSquare.2 hb]
  decide

/-- One of the candidates is on the curve. -/
theorem second_on_curve {J Z u : F} (fine : 1 + Z * u ^ 2 ≠ 0) (nonsquare : ¬ IsSquare Z)
    (off : ¬ IsSquare (curve J (first J Z u))) : IsSquare (curve J (second J Z u)) := by
  rw [curve_second fine]
  by_cases zero : u = 0
  · rw [zero]
    simp
  · apply isSquare_mul_of_not _ off
    rintro ⟨r, square⟩
    apply nonsquare
    refine ⟨r / u, ?_⟩
    field_simp
    rw [square]
    ring

end Finite

section Collisions

variable {F : Type*} [Field F] {J Z u v : F}

/-- The two candidates are told apart by the squares of their arguments. -/
theorem first_eq_iff (nonzero : J ≠ 0) (fine : 1 + Z * u ^ 2 ≠ 0) (fine' : 1 + Z * v ^ 2 ≠ 0) :
    first J Z u = first J Z v ↔ Z * u ^ 2 = Z * v ^ 2 := by
  unfold first
  rw [div_eq_div_iff fine fine']
  constructor
  · intro same
    have factored : J * (Z * u ^ 2 - Z * v ^ 2) = 0 := by linear_combination same
    exact sub_eq_zero.1 ((mul_eq_zero.1 factored).resolve_left nonzero)
  · intro same
    linear_combination J * same

/-- The first candidate of one argument is the second of another when they are reciprocal, up to
the factor `Z` and the sign. -/
theorem first_eq_second_iff (nonzero : J ≠ 0) (fine : 1 + Z * u ^ 2 ≠ 0) (fine' : 1 + Z * v ^ 2 ≠ 0) :
    first J Z u = second J Z v ↔ (Z * u * v) ^ 2 = 1 := by
  rw [second_eq fine']
  unfold first
  rw [div_mul_eq_mul_div, div_eq_div_iff fine fine']
  constructor
  · intro same
    have factored : J * ((Z * u * v) ^ 2 - 1) = 0 := by linear_combination same
    exact sub_eq_zero.1 ((mul_eq_zero.1 factored).resolve_left nonzero)
  · intro reciprocal
    linear_combination J * reciprocal

/-- The curve meets the axis at the origin only, which no candidate is. -/
theorem curve_first_ne_zero (nonzero : J ≠ 0) (discriminant : ¬ IsSquare (J ^ 2 - 4)) (fine : 1 + Z * u ^ 2 ≠ 0) :
    curve J (first J Z u) ≠ 0 := by
  intro zero
  have off : first J Z u ≠ 0 := div_ne_zero (neg_ne_zero.2 nonzero) fine
  have quadratic : first J Z u ^ 2 + J * first J Z u + 1 = 0 := by
    have factored : first J Z u * (first J Z u ^ 2 + J * first J Z u + 1) = 0 := by
      rw [← zero, curve]
      ring
    exact (mul_eq_zero.1 factored).resolve_left off
  exact discriminant ⟨2 * first J Z u + J, by linear_combination -4 * quadratic⟩

theorem mul_sq_eq_iff (nonsquare : ¬ IsSquare Z) : Z * u ^ 2 = Z * v ^ 2 ↔ u ^ 2 = v ^ 2 :=
  mul_right_inj' fun zero => nonsquare (zero ▸ IsSquare.zero)

end Collisions

section Map

variable {F : Type*} [Field F] [Fintype F] {J Z u v i : F}

open Classical in
/-- The map: the candidate on the curve, the first one if both are. -/
noncomputable def map (J Z u : F) : F := if IsSquare (curve J (first J Z u)) then first J Z u else second J Z u

variable (nonzero : J ≠ 0) (discriminant : ¬ IsSquare (J ^ 2 - 4)) (nonsquare : ¬ IsSquare Z)

include nonzero discriminant nonsquare in
/-- Of two reciprocal arguments, one takes its first candidate and the other its second. -/
theorem reciprocal_apart (fine : 1 + Z * u ^ 2 ≠ 0) (fine' : 1 + Z * v ^ 2 ≠ 0) (reciprocal : (Z * u * v) ^ 2 = 1) :
    IsSquare (curve J (first J Z u)) ↔ ¬ IsSquare (curve J (first J Z v)) := by
  have factor : ¬ IsSquare (Z * v ^ 2) := by
    rintro ⟨r, square⟩
    have invertible : v ≠ 0 := by
      rintro rfl
      simp at reciprocal
    refine nonsquare ⟨r / v, ?_⟩
    field_simp
    linear_combination square
  rw [(first_eq_second_iff nonzero fine fine').2 reciprocal, curve_second fine']
  constructor
  · rintro ⟨r, product⟩ ⟨s, square⟩
    have value : curve J (first J Z v) ≠ 0 := curve_first_ne_zero nonzero discriminant fine'
    have root : s ≠ 0 := by
      rintro rfl
      exact value (by rw [square, mul_zero])
    refine factor ⟨r / s, ?_⟩
    field_simp
    rw [square] at product
    linear_combination product
  · exact isSquare_mul_of_not factor

include nonzero discriminant nonsquare in
/-- **The collisions.** Two arguments have one image when they are equal up to the sign, or
reciprocal up to the factor and the sign. -/
theorem map_eq_iff (root : i ^ 2 = -1) : map J Z u = map J Z v ↔ (u = v ∨ u = -v) ∨ (Z * u * v = 1 ∨ Z * u * v = -1) := by
  have fine : ∀ w : F, 1 + Z * w ^ 2 ≠ 0 := fun _ => denominator_ne_zero nonsquare root
  rw [← sq_eq_sq_iff_eq_or_eq_neg, ← sq_eq_one_iff, ← mul_sq_eq_iff nonsquare, ← first_eq_iff nonzero (fine u) (fine v)]
  have apart := reciprocal_apart nonzero discriminant nonsquare (fine u) (fine v)
  have across := first_eq_second_iff nonzero (fine u) (fine v)
  have back := first_eq_second_iff nonzero (fine v) (fine u)
  rw [show Z * v * u = Z * u * v by ring] at back
  unfold map
  by_cases squareU : IsSquare (curve J (first J Z u)) <;> by_cases squareV : IsSquare (curve J (first J Z v)) <;>
    simp only [squareU, squareV, if_true, if_false, true_iff, false_iff, not_true, not_false_iff] at apart ⊢
  · exact (or_iff_left apart).symm
  · rw [across]
    refine (or_iff_right fun same => squareV ?_).symm
    rwa [← same]
  · rw [eq_comm, back]
    refine (or_iff_right fun same => squareU ?_).symm
    rwa [same]
  · rw [or_iff_left apart, second, second, sub_left_inj, neg_inj]

end Map

section Root

variable {F : Type*} [Field F] {n : ℕ} {v w i : F}

/-- The candidate for a root of `w / v`. -/
def candidate (n : ℕ) (v w : F) : F := (w * v ^ 7) ^ n * (w * v ^ 3)

theorem candidate_sq (n : ℕ) (v w : F) : candidate n v w ^ 2 * v = w * (w * v ^ 7) ^ (2 * n + 1) := by
  unfold candidate
  generalize power : (w * v ^ 7) ^ n = a
  have double : (w * v ^ 7) ^ (2 * n + 1) = a ^ 2 * (w * v ^ 7) := by rw [pow_succ, mul_comm 2 n, pow_mul, power]
  rw [double]
  ring

/-- **The test.** The candidate, or its product with a root of `-1`, is a root exactly when there
is one. -/
theorem candidate_iff [Fintype F] (odd : ringChar F ≠ 2) (card : Fintype.card F = 8 * n + 5) (root : i ^ 2 = -1) (nonzero : v ≠ 0) :
    (candidate n v w ^ 2 * v = w ∨ (candidate n v w * i) ^ 2 * v = w) ↔ IsSquare (w / v) := by
  by_cases zero : w = 0
  · subst zero
    simp [candidate]
  -- `t` is a fourth root of unity
  set t : F := (w * v ^ 7) ^ (2 * n + 1) with ht
  have whole : w * v ^ 7 ≠ 0 := mul_ne_zero zero (pow_ne_zero _ nonzero)
  have half : t ^ 2 = (w * v ^ 7) ^ (Fintype.card F / 2) := by
    rw [ht, ← pow_mul, card]
    congr 1
    omega
  have square : IsSquare (w / v) ↔ t ^ 2 = 1 := by
    rw [half, ← FiniteField.isSquare_iff odd whole]
    constructor
    · rintro ⟨r, same⟩
      refine ⟨r * v ^ 4, ?_⟩
      rw [div_eq_iff nonzero] at same
      rw [same]
      ring
    · rintro ⟨r, same⟩
      refine ⟨r / v ^ 4, ?_⟩
      field_simp
      linear_combination same
  have plain : candidate n v w ^ 2 * v = w ↔ t = 1 := by
    rw [candidate_sq]
    exact mul_eq_left₀ zero
  have turned : (candidate n v w * i) ^ 2 * v = w ↔ t = -1 := by
    have opposite : (candidate n v w * i) ^ 2 * v = w * -t := by
      have base := candidate_sq n v w
      rw [mul_pow, root]
      linear_combination -base
    rw [opposite, mul_eq_left₀ zero]
    constructor
    · intro h
      linear_combination -h
    · intro h
      linear_combination -h
  rw [plain, turned, square]
  exact sq_eq_one_iff.symm

/-- The test without a denominator. -/
theorem root_iff [Fintype F] (odd : ringChar F ≠ 2) (card : Fintype.card F = 8 * n + 5) (root : i ^ 2 = -1) :
    ((w * w ^ n) ^ 2 = w ∨ (w * w ^ n * i) ^ 2 = w) ↔ IsSquare w := by
  have test := candidate_iff (v := 1) (w := w) odd card root one_ne_zero
  have guess : candidate n 1 w = w * w ^ n := by
    unfold candidate
    rw [one_pow, one_pow, mul_one, mul_comm]
  rwa [guess, mul_one, mul_one, div_one] at test

end Root

end Elligator
