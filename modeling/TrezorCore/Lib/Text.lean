import Mathlib.Algebra.Ring.Nat
import Mathlib.Data.List.Basic
import Mathlib.Data.List.DropRight

/-!
# Text

The standard library's string functions that the crate parses its input with, on lists of
characters: `str::trim` and `u32::from_str`.
-/

namespace Text

/-- `char::is_whitespace`, the Unicode property `White_Space`. -/
def isWhitespace (c : Char) : Bool :=
  let n := c.toNat
  (9 ≤ n && n ≤ 13) || n == 0x20 || n == 0x85 || n == 0xA0 || n == 0x1680 || (0x2000 ≤ n && n ≤ 0x200A) ||
    n == 0x2028 || n == 0x2029 || n == 0x202F || n == 0x205F || n == 0x3000

/-- `str::trim`. -/
def trim (s : List Char) : List Char :=
  ((s.dropWhile isWhitespace).reverse.dropWhile isWhitespace).reverse

/-- The value of an ASCII digit. -/
def digit? (c : Char) : Option Nat := if '0' ≤ c ∧ c ≤ '9' then some (c.toNat - 48) else none

/-- Decimal digits, with the overflow check of every step. -/
def digits (limit : Nat) (s : List Char) : Option Nat :=
  s.foldlM (fun n c => do
    let d ← digit? c
    if n * 10 + d < limit then some (n * 10 + d) else none) 0

/-- `u32::from_str`: an optional plus sign, then at least one digit. -/
def parseU32 (s : List Char) : Option UInt32 :=
  let body := match s with
    | '+' :: rest => rest
    | _ => s
  match body with
  | [] => none
  | _ => (digits (2 ^ 32) body).map UInt32.ofNat

/-! ## Trimming -/

/-- Nothing but white space. -/
def Blank (s : List Char) : Prop := ∀ c ∈ s, isWhitespace c

/-- `str::trim_start`. -/
def trimStart (s : List Char) : List Char := s.dropWhile isWhitespace

/-- `str::trim_end`. -/
def trimEnd (s : List Char) : List Char := s.rdropWhile isWhitespace

theorem trim_eq (s : List Char) : trim s = trimEnd (trimStart s) := rfl

theorem trimStart_blank_append {w : List Char} (blank : Blank w) (s : List Char) :
    trimStart (w ++ s) = trimStart s := List.dropWhile_append_of_pos blank

theorem trimEnd_append_blank {w : List Char} (blank : Blank w) (s : List Char) : trimEnd (s ++ w) = trimEnd s := by
  unfold trimEnd List.rdropWhile
  rw [List.reverse_append, List.dropWhile_append_of_pos fun c mem => blank c (List.mem_reverse.1 mem)]

theorem trimStart_append {s : List Char} (word : ¬ Blank s) (r : List Char) : trimStart (s ++ r) = trimStart s ++ r := by
  have kept : s.dropWhile isWhitespace ≠ [] := fun none => word (List.dropWhile_eq_nil_iff.1 none)
  unfold trimStart
  rw [List.dropWhile_append, if_neg (by simpa using kept)]

theorem trimEnd_append {r : List Char} (word : ¬ Blank r) (s : List Char) : trimEnd (s ++ r) = s ++ trimEnd r := by
  have kept : r.reverse.dropWhile isWhitespace ≠ [] := fun none =>
    word fun c mem => List.dropWhile_eq_nil_iff.1 none c (List.mem_reverse.2 mem)
  unfold trimEnd List.rdropWhile
  rw [List.reverse_append, List.dropWhile_append, if_neg (by simpa using kept)]
  simp

theorem trimStart_of_blank {s : List Char} (blank : Blank s) : trimStart s = [] := List.dropWhile_eq_nil_iff.2 blank

/-- White space at the end does not survive, whatever is in front of it. -/
theorem trim_append_blank {w : List Char} (blank : Blank w) (s : List Char) : trim (s ++ w) = trim s := by
  rw [trim_eq, trim_eq]
  by_cases all : Blank s
  · have both : Blank (s ++ w) := fun c mem => (List.mem_append.1 mem).elim (all c) (blank c)
    rw [trimStart_of_blank both, trimStart_of_blank all]
  · rw [trimStart_append all, trimEnd_append_blank blank]

theorem trim_blank_append {w : List Char} (blank : Blank w) (s : List Char) : trim (w ++ s) = trim s := by
  rw [trim_eq, trim_eq, trimStart_blank_append blank]

@[simp] theorem trim_trimStart (s : List Char) : trim (trimStart s) = trim s := by
  unfold trimStart
  rw [trim_eq, trim_eq, trimStart, trimStart, List.dropWhile_idempotent]

@[simp] theorem trim_trimEnd (s : List Char) : trim (trimEnd s) = trim s := by
  have rest : Blank (s.rtakeWhile isWhitespace) := fun c mem => List.mem_rtakeWhile_imp mem
  calc trim (trimEnd s)
      = trim (trimEnd s ++ s.rtakeWhile isWhitespace) := (trim_append_blank rest _).symm
    _ = trim s := by rw [trimEnd, List.rdropWhile_append_rtakeWhile]

theorem trim_of_solid {s : List Char} (solid : ∀ c ∈ s, isWhitespace c = false) : trim s = s := by
  have start : trimStart s = s := by
    cases s with
    | nil => rfl
    | cons c s => exact List.dropWhile_cons_of_neg (by simp [solid c List.mem_cons_self])
  rw [trim_eq, start, trimEnd, List.rdropWhile_eq_self_iff]
  intro nonempty
  simp [solid _ (List.getLast_mem nonempty)]

/-- Trimming takes only white space away. -/
theorem exists_of_trim (s : List Char) : ∃ w w', Blank w ∧ Blank w' ∧ s = w ++ trim s ++ w' := by
  refine ⟨s.takeWhile isWhitespace, (trimStart s).rtakeWhile isWhitespace, ?_, ?_, ?_⟩
  · exact fun c mem => List.mem_takeWhile_imp mem
  · exact fun c mem => List.mem_rtakeWhile_imp mem
  · rw [trim_eq, List.append_assoc, trimEnd, List.rdropWhile_append_rtakeWhile, trimStart, List.takeWhile_append_dropWhile]

/-! ## Numerals -/

/-- Decimal digits, and the number they write. -/
structure Numeral (s : List Char) (n : Nat) : Prop where
  nonempty : s ≠ []
  digits : ∀ c ∈ s, c.isDigit
  value : Nat.ofDigitChars 10 s 0 = n

/-- The canonical digits, with any number of zeros in front. -/
theorem Numeral.padded (zeros n : Nat) : Numeral (List.replicate zeros '0' ++ Nat.toDigits 10 n) n where
  nonempty := by simp [Nat.toDigits_ne_nil]
  digits c mem := by
    obtain zero | digit := List.mem_append.1 mem
    · rw [List.eq_of_mem_replicate zero]
      rfl
    · exact Nat.isDigit_of_mem_toDigits (by omega) (by omega) digit
  value := by
    rw [Nat.ofDigitChars_append, Nat.ofDigitChars_replicate_zero, Nat.mul_zero, Nat.ofDigitChars_ten_toDigits]

theorem isDigit_iff {c : Char} : c.isDigit ↔ 48 ≤ c.toNat ∧ c.toNat ≤ 57 := by
  unfold Char.isDigit
  rw [Bool.and_eq_true, decide_eq_true_iff, decide_eq_true_iff]
  exact Iff.rfl

theorem isDigit_solid {c : Char} (digit : c.isDigit) : isWhitespace c = false := by
  rw [isDigit_iff] at digit
  unfold isWhitespace
  simp only [Bool.or_eq_false_iff, Bool.and_eq_false_iff, decide_eq_false_iff_not, beq_eq_false_iff_ne]
  omega

theorem digit?_eq_some_iff {c : Char} {d : Nat} : digit? c = some d ↔ c.isDigit ∧ c.toNat - 48 = d := by
  have range : '0' ≤ c ∧ c ≤ '9' ↔ c.isDigit := by
    rw [isDigit_iff]
    exact Iff.rfl
  unfold digit?
  simp only [range, Option.ite_none_right_eq_some, Option.some.injEq]

theorem le_ofDigitChars (s : List Char) (acc : Nat) : acc ≤ Nat.ofDigitChars 10 s acc := by
  induction s generalizing acc with
  | nil => simp
  | cons c s ih =>
    rw [Nat.ofDigitChars_cons]
    have := ih (10 * acc + (c.toNat - '0'.toNat))
    omega

/-- What the overflow check of every step comes to: only the last value counts, since the values
grow. -/
theorem digits_from_eq_some_iff {limit : Nat} (s : List Char) (acc n : Nat) :
    s.foldlM (fun n c => do
      let d ← digit? c
      if n * 10 + d < limit then some (n * 10 + d) else none) acc = some n ↔
    (∀ c ∈ s, c.isDigit) ∧ Nat.ofDigitChars 10 s acc = n ∧ (s = [] ∨ n < limit) := by
  induction s generalizing acc with
  | nil => simp
  | cons c s ih =>
    have next : acc * 10 + (c.toNat - 48) = 10 * acc + (c.toNat - '0'.toNat) := by
      show acc * 10 + (c.toNat - 48) = 10 * acc + (c.toNat - 48)
      omega
    have grows := le_ofDigitChars s (10 * acc + (c.toNat - '0'.toNat))
    simp only [List.foldlM_cons, Option.bind_eq_bind, Option.bind_eq_some_iff, digit?_eq_some_iff,
      Option.ite_none_right_eq_some, Option.some.injEq, Nat.ofDigitChars_cons, List.forall_mem_cons]
    constructor
    · rintro ⟨_, ⟨_, ⟨digit, rfl⟩, _, rfl⟩, rest⟩
      obtain ⟨digits, value, bound⟩ := (ih _).1 rest
      rw [next] at value
      refine ⟨⟨digit, digits⟩, value, Or.inr ?_⟩
      obtain rfl | below := bound
      · rw [Nat.ofDigitChars_nil] at value
        omega
      · exact below
    · rintro ⟨⟨digit, digits⟩, value, bound⟩
      have below : n < limit := by simpa using bound
      refine ⟨_, ⟨_, ⟨digit, rfl⟩, by omega, rfl⟩, (ih _).2 ⟨digits, ?_, Or.inr below⟩⟩
      rw [next]
      exact value

theorem digits_eq_some_iff {limit : Nat} {s : List Char} {n : Nat} (nonempty : s ≠ []) :
    digits limit s = some n ↔ Numeral s n ∧ n < limit := by
  unfold digits
  rw [digits_from_eq_some_iff]
  constructor
  · rintro ⟨digits, value, bound⟩
    exact ⟨⟨nonempty, digits, value⟩, bound.resolve_left nonempty⟩
  · rintro ⟨numeral, below⟩
    exact ⟨numeral.digits, numeral.value, Or.inr below⟩

theorem digits_u32_iff {s : List Char} {n : UInt32} (nonempty : s ≠ []) :
    (digits (2 ^ 32) s).map UInt32.ofNat = some n ↔ Numeral s n.toNat := by
  rw [Option.map_eq_some_iff]
  constructor
  · rintro ⟨m, eq, rfl⟩
    obtain ⟨numeral, below⟩ := (digits_eq_some_iff nonempty).1 eq
    rw [UInt32.toNat_ofNat_of_lt' below]
    exact numeral
  · intro numeral
    exact ⟨n.toNat, (digits_eq_some_iff nonempty).2 ⟨numeral, n.toNat_lt⟩, UInt32.ofNat_toNat⟩

/-- The sign `u32::from_str` takes. -/
def plus : List Char := ['+']

/-- What may stand in front of a numeral. -/
def signs : List (List Char) := [[], plus]

/-- What `u32::from_str` reads: a numeral, or a numeral behind a plus sign. -/
theorem parseU32_eq_some_iff {s : List Char} {n : UInt32} :
    parseU32 s = some n ↔ ∃ sign ∈ signs, ∃ body, s = sign ++ body ∧ Numeral body n.toNat := by
  have empty : ¬ Numeral [] n.toNat := fun numeral => numeral.nonempty rfl
  unfold parseU32
  split
  rename_i body rest
  · have unsigned : ¬ Numeral ('+' :: rest) n.toNat :=
      fun numeral => absurd (numeral.digits '+' List.mem_cons_self) (by decide)
    cases rest with
    | nil => simp [signs, plus, unsigned, empty]
    | cons c rest => simpa [signs, plus, unsigned] using digits_u32_iff (List.cons_ne_nil c rest)
  · rename_i unsigned
    have unsigned : ∀ body, s ≠ plus ++ body := unsigned
    cases s with
    | nil => simp [signs, plus, empty]
    | cons c rest => simpa [signs, unsigned] using digits_u32_iff (List.cons_ne_nil c rest)

end Text
