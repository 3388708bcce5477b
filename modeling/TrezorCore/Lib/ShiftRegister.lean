import Mathlib.Data.List.Basic
import Mathlib.Data.List.GetD

/-!
# Reflected shift registers

The register of a reflected CRC: a bit is added at the low end, the register moves down, and a
one that falls out adds the polynomial. Every operation is linear in exclusive or. When the
polynomial has its top bit, the bit that falls out can be read off the top, so no step loses
anything, and bits that fit the register leave it zero only if they are what it held.
-/

namespace ShiftRegister

variable {w : Nat} (poly : BitVec w)

/-- One step down. -/
def step (x : BitVec w) : BitVec w := (x >>> 1) ^^^ (if x.getLsbD 0 then poly else 0#w)

def steps : Nat → BitVec w → BitVec w
  | 0, x => x
  | n + 1, x => steps n (step poly x)

/-- A bit at the low end of the register. -/
def lowBit (w : Nat) (b : Bool) : BitVec w := if b then 1#w else 0#w

theorem getLsbD_lowBit_zero (wide : 0 < w) (b : Bool) : (lowBit w b).getLsbD 0 = b := by
  cases b <;> simp [lowBit, wide]

theorem getLsbD_lowBit_succ (b : Bool) (i : Nat) : (lowBit w b).getLsbD (i + 1) = false := by
  cases b <;> simp [lowBit]

/-- A bit goes in. -/
def feed (x : BitVec w) (b : Bool) : BitVec w := step poly (x ^^^ lowBit w b)

def run (bits : List Bool) (x : BitVec w) : BitVec w := bits.foldl (feed poly) x

@[simp] theorem run_nil (x : BitVec w) : run poly [] x = x := rfl

@[simp] theorem run_cons (b : Bool) (bits : List Bool) (x : BitVec w) : run poly (b :: bits) x = run poly bits (feed poly x b) :=
  rfl

theorem run_append (as bs : List Bool) (x : BitVec w) : run poly (as ++ bs) x = run poly bs (run poly as x) := by
  unfold run
  rw [List.foldl_append]

/-! ## Linearity -/

theorem step_xor (x y : BitVec w) : step poly (x ^^^ y) = step poly x ^^^ step poly y := by
  apply BitVec.eq_of_getLsbD_eq
  intro i hi
  unfold step
  simp only [BitVec.getLsbD_xor, BitVec.getLsbD_ushiftRight]
  cases x.getLsbD 0 <;> cases y.getLsbD 0 <;> simp <;> cases x.getLsbD (1 + i) <;> cases y.getLsbD (1 + i) <;>
    cases poly.getLsbD i <;> rfl

theorem lowBit_xor (a b : Bool) : lowBit w (a ^^ b) = lowBit w a ^^^ lowBit w b := by
  cases a <;> cases b <;> simp [lowBit]

theorem feed_xor (x y : BitVec w) (a b : Bool) : feed poly (x ^^^ y) (a ^^ b) = feed poly x a ^^^ feed poly y b := by
  unfold feed
  rw [lowBit_xor, ← step_xor]
  congr 1
  ac_rfl

/-- The difference of two runs is the run on the differences. -/
theorem run_xor (as bs : List Bool) (same : as.length = bs.length) (x y : BitVec w) :
    run poly (List.zipWith xor as bs) (x ^^^ y) = run poly as x ^^^ run poly bs y := by
  induction as generalizing bs x y with
  | nil =>
    obtain rfl := List.eq_nil_of_length_eq_zero same.symm
    rfl
  | cons a as ih =>
    cases bs with
    | nil => cases same
    | cons b bs =>
      rw [List.zipWith_cons_cons, run_cons, run_cons, run_cons, ← ih bs (Nat.succ.inj same)]
      congr 1
      exact feed_xor poly x y a b

theorem run_false (n : Nat) : run poly (List.replicate n false) 0#w = 0#w := by
  induction n with
  | zero => rfl
  | succ n ih =>
    have still : feed poly 0#w false = 0#w := by simp [feed, step, lowBit]
    rw [List.replicate_succ, run_cons, still, ih]

/-! ## A polynomial with its top bit -/

section Top

variable {poly} (top : poly.getLsbD (w - 1) = true)

include top

/-- **Nothing is lost.** Bits that fit the register leave it zero only if it held them. -/
theorem held_of_run {bits : List Bool} {x : BitVec w} (short : bits.length ≤ w) (zero : run poly bits x = 0#w) (i : Nat) :
    x.getLsbD i = bits.getD i false := by
  have wide : 0 < w := by
    apply Nat.pos_of_ne_zero
    rintro rfl
    simp at top
  induction bits generalizing x i with
  | nil =>
    rw [run_nil] at zero
    rw [zero]
    simp
  | cons b bits ih =>
    rw [List.length_cons] at short
    have held : ∀ i, (feed poly x b).getLsbD i = bits.getD i false := fun i => ih (by omega) zero i
    -- the bit that fell out is at the top, where the rest of the bits does not reach
    have out : (x ^^^ lowBit w b).getLsbD 0 = false := by
      have end' := held (w - 1)
      rw [List.getD_eq_default _ _ (by omega)] at end'
      unfold feed step at end'
      rw [BitVec.getLsbD_xor, BitVec.getLsbD_ushiftRight, BitVec.getLsbD_of_ge _ (1 + (w - 1)) (by omega), Bool.false_xor] at end'
      cases low : (x ^^^ lowBit w b).getLsbD 0 with
      | false => rfl
      | true =>
        rw [low, if_pos rfl, top] at end'
        cases end'
    cases i with
    | zero =>
      rw [BitVec.getLsbD_xor] at out
      rw [getLsbD_lowBit_zero wide] at out
      simpa using out
    | succ i =>
      have moved := held i
      unfold feed step at moved
      rw [out, BitVec.getLsbD_xor, BitVec.getLsbD_ushiftRight, BitVec.getLsbD_xor] at moved
      rw [Nat.add_comm 1 i, getLsbD_lowBit_succ] at moved
      simpa using moved

theorem zero_of_run_false {n : Nat} {x : BitVec w} (zero : run poly (List.replicate n false) x = 0#w) : x = 0#w := by
  induction n generalizing x with
  | zero => exact zero
  | succ n ih =>
    rw [List.replicate_succ, run_cons] at zero
    have wide : [false].length ≤ w := by
      apply Nat.pos_of_ne_zero
      rintro rfl
      simp at top
    have one : run poly [false] x = 0#w := ih zero
    apply BitVec.eq_of_getLsbD_eq
    intro i hi
    rw [held_of_run top wide one i]
    cases i <;> simp

/-- **Bursts.** Two runs on bits that differ, but only inside a window as wide as the register, end
apart. -/
theorem run_ne_of_burst {as bs : List Bool} (same : as.length = bs.length) (differ : as ≠ bs) {start : Nat}
    (window : ∀ i, as[i]? ≠ bs[i]? → start ≤ i ∧ i < start + w) (x : BitVec w) : run poly as x ≠ run poly bs x := by
  intro equal
  set e := List.zipWith xor as bs with he
  have len : e.length = as.length := by
    rw [he, List.length_zipWith]
    omega
  have zero : run poly e 0#w = 0#w := by
    have difference := run_xor poly as bs same x x
    rwa [BitVec.xor_self, equal, BitVec.xor_self] at difference
  have outside : ∀ i, ¬ (start ≤ i ∧ i < start + w) → e.getD i false = false := by
    intro i out
    have alike : as[i]? = bs[i]? := by
      by_contra apart
      exact out (window i apart)
    rw [he, List.getD_eq_getElem?_getD, List.getElem?_zipWith, alike]
    cases bs[i]? <;> simp
  have before : e.take start = List.replicate (e.take start).length false := by
    apply List.eq_replicate_of_mem
    intro b hb
    obtain ⟨i, hi, rfl⟩ := List.getElem_of_mem hb
    have low := outside i (by rw [List.length_take] at hi; omega)
    rw [List.getElem_take]
    rwa [List.getD_eq_getElem _ _ (by rw [List.length_take] at hi; omega)] at low
  have after : e.drop (start + w) = List.replicate (e.drop (start + w)).length false := by
    apply List.eq_replicate_of_mem
    intro b hb
    obtain ⟨i, hi, rfl⟩ := List.getElem_of_mem hb
    have high := outside (start + w + i) (by omega)
    rw [List.getElem_drop]
    rwa [List.getD_eq_getElem _ _ (by rw [List.length_drop] at hi; omega)] at high
  have parts : e = e.take start ++ ((e.drop start).take w ++ e.drop (start + w)) := by
    rw [← List.drop_drop, List.take_append_drop, List.take_append_drop]
  rw [parts, run_append, run_append, before, run_false, after] at zero
  have inside := held_of_run top (by rw [List.length_take]; omega) (zero_of_run_false top zero)
  apply differ
  apply List.ext_getElem?
  intro i
  by_contra apart
  obtain ⟨low, high⟩ := window i apart
  have bit := inside (i - start)
  rw [BitVec.getLsbD_zero, List.getD_eq_getElem?_getD, List.getElem?_take_of_lt (by omega), List.getElem?_drop,
    show start + (i - start) = i by omega, he, List.getElem?_zipWith] at bit
  cases ha : as[i]? with
  | none =>
    rw [List.getElem?_eq_none_iff] at ha
    exact apart (by rw [List.getElem?_eq_none ha, List.getElem?_eq_none (by omega)])
  | some a =>
    cases hb : bs[i]? with
    | none =>
      rw [List.getElem?_eq_none_iff] at hb
      obtain ⟨inside, -⟩ := List.getElem?_eq_some_iff.1 ha
      omega
    | some b =>
      rw [ha, hb] at bit
      apply apart
      rw [ha, hb]
      cases a <;> cases b <;> simp at bit ⊢

end Top

/-! ## Several bits at once -/

/-- Steps on a register with some bits added at once take these bits one after the other. -/
theorem steps_eq_run (n : Nat) (x y : BitVec w) (low : ∀ i, n ≤ i → y.getLsbD i = false) :
    steps poly n (x ^^^ y) = run poly ((List.range n).map y.getLsbD) x := by
  induction n generalizing x y with
  | zero =>
    have zero : y = 0#w := by
      apply BitVec.eq_of_getLsbD_eq
      intro i hi
      rw [low i (Nat.zero_le i)]
      simp
    rw [zero, BitVec.xor_zero]
    rfl
  | succ n ih =>
    have first : step poly (x ^^^ y) = feed poly x (y.getLsbD 0) ^^^ (y >>> 1) := by
      apply BitVec.eq_of_getLsbD_eq
      intro i hi
      have bit : (lowBit w (y.getLsbD 0)).getLsbD 0 = y.getLsbD 0 := getLsbD_lowBit_zero (by omega) _
      have none : (lowBit w (y.getLsbD 0)).getLsbD (1 + i) = false := by
        rw [Nat.add_comm]
        exact getLsbD_lowBit_succ _ i
      unfold feed step
      simp only [BitVec.getLsbD_xor, BitVec.getLsbD_ushiftRight, bit, none, Bool.xor_false]
      cases x.getLsbD (1 + i) <;> cases y.getLsbD (1 + i) <;> simp
    rw [steps, first, ih]
    · rw [List.range_succ_eq_map, List.map_cons, run_cons, List.map_map]
      congr 1
      apply List.map_congr_left
      intro i _
      simp [Nat.add_comm]
    · intro i hi
      rw [BitVec.getLsbD_ushiftRight]
      exact low _ (by omega)

end ShiftRegister
