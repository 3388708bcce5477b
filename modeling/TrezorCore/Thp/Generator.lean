import TrezorCore.Thp.Cpace
import TrezorCore.Thp.MapToCurve

/-!
# Which inputs share a generator

The generator of a pairing is the point that Elligator 2 takes a hash of the code to. The map is
not injective, and its collisions are these: a number and its negative, and two numbers whose
product is one half, up to the sign. Of the bytes, the highest bit is not read.
-/

namespace TrezorCore.Elligator2

/-- The number an input stands for. -/
def element (input : Octets 32) : ZMod p := (Bytes.leNat input.1 % 2 ^ 255 : ℕ)

theorem J_ne_zero : J ≠ 0 := by
  have divides : ¬ p ∣ 486662 := by decide +kernel
  have nonzero := mt (ZMod.natCast_eq_zero_iff 486662 p).1 divides
  exact_mod_cast nonzero

/-- A root of twice the curve's discriminant. -/
def discriminantRoot : ℕ := 12266827695768657164600179333338645286673574765834595908927148908871126726075

/-- The discriminant is not a square, for two is not and twice it is. -/
theorem discriminant_nonsquare : ¬ IsSquare (J ^ 2 - 4) := by
  have twice : (discriminantRoot : ZMod p) ^ 2 + 8 = 2 * J ^ 2 := by
    have same : ((discriminantRoot ^ 2 + 8 : ℕ) : ZMod p) = (2 * 486662 ^ 2 : ℕ) :=
      (ZMod.natCast_eq_natCast_iff' _ _ _).2 (by decide +kernel)
    exact_mod_cast same
  have nonzero : (discriminantRoot : ZMod p) ≠ 0 :=
    mt (ZMod.natCast_eq_zero_iff _ _).1 (by decide +kernel)
  rintro ⟨s, square⟩
  have invertible : s ≠ 0 := by
    rintro rfl
    exact pow_ne_zero 2 nonzero (by linear_combination twice + 2 * square)
  refine two_nonsquare ⟨discriminantRoot / s, ?_⟩
  field_simp
  linear_combination -twice - 2 * square

/-- The map's output stands for the image of its input. -/
theorem mapToCurve25519_map (input : Octets 32) :
    ∃ x : Fe, mapToCurve25519 input = x.toBytes ∧ x.val = Elligator.map J 2 (element input) := by
  obtain ⟨x, same, taken, other⟩ := val_mapToCurve25519 input (u := element input) rfl
  refine ⟨x, same, ?_⟩
  unfold Elligator.map
  split
  · next square => exact taken square
  · next off => exact other off

/-- **Which inputs share a point.** -/
theorem mapToCurve25519_eq_iff (input input' : Octets 32) :
    mapToCurve25519 input = mapToCurve25519 input' ↔
      (element input = element input' ∨ element input = -element input') ∨
        (2 * element input * element input' = 1 ∨ 2 * element input * element input' = -1) := by
  obtain ⟨x, same, image⟩ := mapToCurve25519_map input
  obtain ⟨x', same', image'⟩ := mapToCurve25519_map input'
  rw [same, same', ← Elligator.map_eq_iff J_ne_zero discriminant_nonsquare two_nonsquare sqrtM1_sq, ← image, ← image',
    ← Fe.ctEq_iff, Fe.ctEq, decide_eq_true_iff]

end TrezorCore.Elligator2

namespace TrezorCore.Cpace

open Elligator2

/-- The number that a code and a transcript are hashed to. -/
def hashed (K : Crates) (code : Octets 6) (handshakeHash : Bytes) : ZMod p :=
  element ((K.sha512 (DSI_PREFIX ++ code.1 ++ padding ++ handshakeHash ++ SID)).take 32)

/-- **Which codes share a generator**, over any transcripts: those whose hashes are equal or
opposite, or have one half or its negative as their product. -/
theorem generator_eq_iff (K : Crates) (code code' : Octets 6) (handshakeHash handshakeHash' : Bytes) :
    generator K code handshakeHash = generator K code' handshakeHash' ↔
      (hashed K code handshakeHash = hashed K code' handshakeHash' ∨ hashed K code handshakeHash = -hashed K code' handshakeHash') ∨
        (2 * hashed K code handshakeHash * hashed K code' handshakeHash' = 1 ∨
          2 * hashed K code handshakeHash * hashed K code' handshakeHash' = -1) :=
  mapToCurve25519_eq_iff _ _

end TrezorCore.Cpace
