import Mathlib.NumberTheory.LucasPrimality

/-!
# Primality from a factorization

Lucas's test with the prime factors of `p - 1` written out, each as often as it divides. The
powers are computed by repeated squaring, so the test of a large number can be evaluated.
-/

namespace Lucas

/-- `a ^ n` modulo `m`, for an exponent of at most `bits` bits. -/
def power (m : ℕ) : ℕ → ℕ → ℕ → ℕ
  | 0, _, _ => 1 % m
  | bits + 1, a, n => a ^ (n % 2) * power m bits (a ^ 2 % m) (n / 2) % m

theorem power_eq (m bits a n : ℕ) (fits : n < 2 ^ bits) : power m bits a n = a ^ n % m := by
  induction bits generalizing a n with
  | zero =>
    obtain rfl : n = 0 := by omega
    rw [power, pow_zero]
  | succ bits ih =>
    have half : n / 2 < 2 ^ bits := by omega
    calc power m (bits + 1) a n = a ^ (n % 2) * ((a ^ 2 % m) ^ (n / 2) % m) % m := by rw [power, ih _ _ half]
      _ = a ^ (n % 2) * (a ^ 2) ^ (n / 2) % m := by rw [← Nat.pow_mod, Nat.mul_mod_mod]
      _ = a ^ n % m := by rw [← pow_mul, ← pow_add, Nat.mod_add_div]

/-- Whether `a` has the full order modulo `p`, against every one of the factors of `p - 1`. -/
def passes (p a : ℕ) (factors : List ℕ) : Bool :=
  1 < p && factors.prod == p - 1 && power p (p.log2 + 1) a (p - 1) == 1 &&
    factors.all fun q => power p (p.log2 + 1) a ((p - 1) / q) != 1

/-- A number is prime when some number passes the test, with factors that are prime. -/
theorem prime_of_passes {p : ℕ} (a : ℕ) (factors : List ℕ) (primes : ∀ q ∈ factors, q.Prime) (test : passes p a factors = true) :
    p.Prime := by
  simp only [passes, Bool.and_eq_true, decide_eq_true_eq, beq_iff_eq, List.all_eq_true, bne_iff_ne] at test
  obtain ⟨⟨⟨large, whole⟩, one⟩, orders⟩ := test
  have computed : ∀ n ≤ p - 1, (a : ZMod p) ^ n = 1 ↔ power p (p.log2 + 1) a n = 1 := by
    intro n le
    have fits : n < 2 ^ (p.log2 + 1) := (by omega : n < p).trans Nat.lt_log2_self
    rw [power_eq _ _ _ _ fits, ← Nat.cast_pow, ← Nat.cast_one, ZMod.natCast_eq_natCast_iff', Nat.mod_eq_of_lt large]
  apply lucas_primality p (a : ZMod p) ((computed _ le_rfl).2 one)
  intro q prime divides
  rw [← whole] at divides
  obtain ⟨r, member, divides⟩ := (Prime.dvd_prod_iff prime.prime).1 divides
  obtain rfl : q = r := (Nat.prime_dvd_prime_iff_eq prime (primes r member)).1 divides
  rw [Ne, computed _ (Nat.div_le_self _ _)]
  exact orders q member

end Lucas
