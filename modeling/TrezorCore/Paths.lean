import TrezorCore.Bip32
import TrezorCore.Chains.Bitcoin
import TrezorCore.Chains.Ethereum
import TrezorCore.Chains.Solana
import TrezorCore.Chains.Tron
import TrezorCore.Lib.Comp
import TrezorCore.Lib.Text
import Mathlib.Data.List.Forall2

/-!
# The grammar of derivation paths

`Bip32.parsePath` is layered calls of the string library. Here is the grammar it is meant to read, and
exactly what it reads: a path is accepted when its components are numerals with a marker, and the
integer parser's own plus sign is the one way past the numerals.
-/

namespace TrezorCore.Bip32

open Text

/-! ## The grammar -/

/-- The markers of a hardened component. -/
def markers : List Char := [apostrophe, 'h', 'H']

/-- One component: after trimming and behind `sign`, a numeral below `2 ^ 31` and at most one
marker, which sets bit 31. -/
inductive Component (sign raw : List Char) : UInt32 → Prop
  | plain (digits : List Char) (idx : UInt32) (numeral : Numeral digits idx.toNat) (below : idx.toNat < 2 ^ 31)
      (text : trim raw = sign ++ digits) : Component sign raw idx
  | hardened (digits : List Char) (marker : Char) (idx : UInt32) (numeral : Numeral digits idx.toNat)
      (below : idx.toNat < 2 ^ 31) (marked : marker ∈ markers) (text : trim raw = sign ++ digits ++ [marker]) :
      Component sign raw (idx + 0x80000000)

/-- The texts of the empty path. -/
def empties : List (List Char) := [[], ['m'], ['M'], ['m', '/'], ['M', '/']]

def prefixes : List (List Char) := [[], ['m', '/'], ['M', '/']]

/-- A trimmed path and the indices it stands for, over a reading of its components. -/
inductive Denotes (C : List Char → UInt32 → Prop) (text : List Char) : List UInt32 → Prop
  | empty (bare : text ∈ empties) : Denotes C text []
  | path (front : List Char) (raws : List (List Char)) (v : List UInt32) (known : front ∈ prefixes) (some_raw : raws ≠ [])
      (split : text = front ++ ['/'].intercalate raws) (each : List.Forall₂ C raws v) : Denotes C text v

/-- A component as the integer parser takes it: behind a plus sign or not. -/
def Loose (raw : List Char) (idx : UInt32) : Prop := ∃ sign ∈ signs, Component sign raw idx

/-- An `m` behind the prefix. -/
def doubled : List (List Char) := [['m', '/', 'm'], ['m', '/', 'M'], ['M', '/', 'm'], ['M', '/', 'M']]

/-! ## One component -/

theorem digit_not_marker {c : Char} (digit : c.isDigit) : c ∉ markers := by
  intro mem
  have none : markers.all (fun m => !m.isDigit) := by decide
  have not_digit := List.all_eq_true.1 none c mem
  rw [digit] at not_digit
  cases not_digit

theorem splitHardened_marked {marker : Char} (marked : marker ∈ markers) (s : List Char) :
    splitHardened (s ++ [marker]) = (s, true) := by
  unfold splitHardened stripSuffix
  simp only [markers, List.mem_cons, List.not_mem_nil, or_false] at marked
  obtain rfl | rfl | rfl := marked <;> simp [apostrophe]

theorem splitHardened_plain {s : List Char} (plain : ∀ marker ∈ markers, s.getLast? ≠ some marker) :
    splitHardened s = (s, false) := by
  have a := plain apostrophe (by decide)
  have b := plain 'h' (by decide)
  have c := plain 'H' (by decide)
  unfold splitHardened stripSuffix
  rw [if_neg a, if_neg b, if_neg c]
  rfl

/-- A component either ends in a marker or it does not. -/
theorem marked_or_plain (s : List Char) :
    (∃ body, ∃ marker ∈ markers, s = body ++ [marker]) ∨ ∀ marker ∈ markers, s.getLast? ≠ some marker := by
  by_cases some_marker : ∃ marker ∈ markers, s.getLast? = some marker
  · obtain ⟨marker, marked, last⟩ := some_marker
    obtain ⟨body, eq⟩ := List.getLast?_eq_some_iff.1 last
    exact Or.inl ⟨body, marker, marked, eq⟩
  · exact Or.inr fun marker marked last => some_marker ⟨marker, marked, last⟩

theorem numeral_not_marked {sign s : List Char} {n : Nat} (numeral : Numeral s n) :
    ∀ marker ∈ markers, (sign ++ s).getLast? ≠ some marker := by
  intro marker marked last
  have tail : s.getLast? = some marker := by
    rw [List.getLast?_append, List.getLast?_eq_some_getLast numeral.nonempty] at last
    rw [List.getLast?_eq_some_getLast numeral.nonempty]
    exact last
  exact digit_not_marker (numeral.digits marker (List.mem_of_getLast? tail)) marked

theorem or_top {idx : UInt32} (below : idx.toNat < 2 ^ 31) : idx ||| 0x80000000 = idx + 0x80000000 := by
  apply UInt32.toNat_inj.1
  have joined := Nat.two_pow_add_eq_or_of_lt below 1
  rw [UInt32.toNat_or, UInt32.toNat_add, Nat.or_comm]
  rw [Nat.mul_one] at joined
  show 2 ^ 31 ||| idx.toNat = (idx.toNat + 2 ^ 31) % 2 ^ 32
  omega

/-- The index the code makes of the number it read. -/
theorem parseComponent_split {input : String} {raw digits : List Char} {hardened : Bool} {idx : UInt32}
    (split : splitHardened (trim raw) = (digits, hardened)) (nonempty : trim raw ≠ []) :
    parseComponent input raw = .ok idx ↔ ∃ n, parseU32 digits = some n ∧ n.toNat < 2 ^ 31 ∧
      (if hardened then n + 0x80000000 else n) = idx := by
  unfold parseComponent
  simp only [List.isEmpty_iff, nonempty, if_false, split]
  cases parseU32 digits with
  | none => simp
  | some n =>
    simp only [Option.some.injEq, exists_eq_left']
    by_cases high : 0x80000000 ≤ n
    · have : ¬ n.toNat < 2 ^ 31 := Nat.not_lt.2 (UInt32.le_iff_toNat_le.1 high)
      rw [if_pos high]
      simpa using fun small => absurd small this
    · have below : n.toNat < 2 ^ 31 := Nat.not_le.1 fun le => high (UInt32.le_iff_toNat_le.2 le)
      rw [if_neg high, or_top below, Except.ok.injEq]
      exact ⟨fun eq => ⟨below, eq⟩, fun both => both.2⟩

/-- What one component may be. -/
theorem parseComponent_ok_iff {input : String} {raw : List Char} {idx : UInt32} :
    parseComponent input raw = .ok idx ↔ Loose raw idx := by
  obtain ⟨body, marker, marked, text⟩ | plain := marked_or_plain (trim raw)
  · have split : splitHardened (trim raw) = (body, true) := by rw [text, splitHardened_marked marked]
    rw [parseComponent_split split (by simp [text])]
    simp only [parseU32_eq_some_iff, if_true]
    constructor
    · rintro ⟨n, ⟨sign, known, digits, rfl, numeral⟩, below, rfl⟩
      exact ⟨sign, known, .hardened digits marker n numeral below marked text⟩
    · rintro ⟨sign, known, component⟩
      cases component with
      | plain digits _ numeral _ text' =>
        have last := @numeral_not_marked sign digits _ numeral marker marked
        simp [← text', text] at last
      | hardened digits marker' n numeral below _ text' =>
        obtain ⟨rfl, _⟩ := List.append_inj' (text.symm.trans text') rfl
        exact ⟨n, ⟨sign, known, digits, rfl, numeral⟩, below, rfl⟩
  · by_cases empty : trim raw = []
    · have fails : parseComponent input raw ≠ .ok idx := by
        unfold parseComponent
        simp [empty]
      refine iff_of_false fails ?_
      rintro ⟨sign, _, component⟩
      cases component with
      | plain digits _ numeral _ text => simp [text, numeral.nonempty] at empty
      | hardened digits marker n _ _ _ text => simp [text] at empty
    have split := splitHardened_plain plain
    rw [parseComponent_split split empty]
    simp only [parseU32_eq_some_iff, Bool.false_eq_true, if_false]
    constructor
    · rintro ⟨n, ⟨sign, known, digits, text, numeral⟩, below, rfl⟩
      exact ⟨sign, known, .plain digits n numeral below text⟩
    · rintro ⟨sign, known, component⟩
      cases component with
      | plain digits _ numeral below text => exact ⟨idx, ⟨sign, known, digits, text, numeral⟩, below, rfl⟩
      | hardened digits marker n _ _ marked text =>
        have last := plain marker marked
        simp [text] at last

/-! ## The whole path -/

theorem all_left {α β : Type} {R : α → β → Prop} {p : α → Prop} (holds : ∀ a b, R a b → p a) {xs : List α} {ys : List β}
    (each : List.Forall₂ R xs ys) : ∀ a ∈ xs, p a :=
  ((List.forall₂_and_left _ _).1 (each.imp fun a b rel => ⟨holds a b rel, rel⟩)).1

theorem mapM_ok_iff {ε α β : Type} (f : α → Except ε β) (xs : List α) (ys : List β) :
    xs.mapM f = .ok ys ↔ List.Forall₂ (fun x y => f x = .ok y) xs ys := by
  induction xs generalizing ys with
  | nil => simp [pure, Except.pure, eq_comm]
  | cons x xs ih =>
    simp only [List.mapM_cons, Except.bind_eq_ok, ih, pure, Except.pure, Except.ok.injEq, List.forall₂_cons_left_iff]
    constructor
    · rintro ⟨y, first, ys, rest, rfl⟩
      exact ⟨y, ys, first, rest, rfl⟩
    · rintro ⟨y, ys, first, rest, rfl⟩
      exact ⟨y, first, ys, rest, rfl⟩

/-- What is left behind the prefix. -/
def body (text : List Char) : List Char :=
  ((stripPrefix ['m', '/'] text).or (stripPrefix ['M', '/'] text)).getD text

theorem parsePath_eq (input : String) : parsePath input =
    if body (trim input.toList) = [] ∨ body (trim input.toList) = ['m'] ∨ body (trim input.toList) = ['M'] then .ok []
    else ((body (trim input.toList)).splitOn '/').mapM (parseComponent input) := by
  unfold parsePath
  simp only [List.isEmpty_iff]
  rfl

theorem exists_body (text : List Char) : ∃ front ∈ prefixes, text = front ++ body text := by
  unfold body stripPrefix
  by_cases lower : ['m', '/'].isPrefixOf text
  · obtain ⟨rest, rfl⟩ := List.isPrefixOf_iff_prefix.1 lower
    exact ⟨['m', '/'], by decide, by simp⟩
  · by_cases upper : ['M', '/'].isPrefixOf text
    · obtain ⟨rest, rfl⟩ := List.isPrefixOf_iff_prefix.1 upper
      exact ⟨['M', '/'], by decide, by simp⟩
    · exact ⟨[], by decide, by simp [lower, upper]⟩

/-- The characters of a component between its white space. -/
def inComponent (c : Char) : Bool := c ∈ plus || c.isDigit || c ∈ markers

theorem Loose.chars {raw : List Char} {idx : UInt32} (loose : Loose raw idx) :
    trim raw ≠ [] ∧ ∀ c ∈ trim raw, inComponent c := by
  obtain ⟨sign, known, component⟩ := loose
  have signed : ∀ c ∈ sign, c ∈ plus := by
    simp only [signs, List.mem_cons, List.not_mem_nil, or_false] at known
    obtain rfl | rfl := known <;> simp
  cases component with
  | plain digits _ numeral _ text =>
    refine ⟨by simp [text, numeral.nonempty], fun c mem => ?_⟩
    rw [text, List.mem_append] at mem
    obtain mem | mem := mem
    · simp [inComponent, signed c mem]
    · simp [inComponent, numeral.digits c mem]
  | hardened digits marker n numeral _ marked text =>
    refine ⟨by simp [text], fun c mem => ?_⟩
    rw [text, List.mem_append, List.mem_append, List.mem_singleton] at mem
    obtain (mem | mem) | rfl := mem
    · simp [inComponent, signed c mem]
    · simp [inComponent, numeral.digits c mem]
    · simp [inComponent, marked]

theorem Loose.not_blank {raw : List Char} {idx : UInt32} (loose : Loose raw idx) : ¬ Blank raw := fun blank =>
  loose.chars.1 (by rw [trim_eq, trimStart_of_blank blank]; rfl)

theorem Loose.no_slash {raw : List Char} {idx : UInt32} (loose : Loose raw idx) : '/' ∉ raw := by
  intro mem
  obtain ⟨w, w', blank, blank', eq⟩ := exists_of_trim raw
  rw [eq, List.mem_append, List.mem_append] at mem
  obtain (mem | mem) | mem := mem
  · exact absurd (blank _ mem) (by decide)
  · exact absurd (loose.chars.2 _ mem) (by decide)
  · exact absurd (blank' _ mem) (by decide)

theorem Loose.ne_m {raw : List Char} {idx : UInt32} (loose : Loose raw idx) : raw ≠ ['m'] ∧ raw ≠ ['M'] := by
  constructor
  · rintro rfl
    exact absurd (loose.chars.2 'm' (by decide)) (by decide)
  · rintro rfl
    exact absurd (loose.chars.2 'M' (by decide)) (by decide)

/-- Every piece of the text is the text of a component. -/
theorem splitOn_raws {raws : List (List Char)} {v : List UInt32} (some_raw : raws ≠ []) (each : List.Forall₂ Loose raws v) :
    (['/'].intercalate raws).splitOn '/' = raws := by
  exact List.splitOn_intercalate '/' (all_left (fun _ _ loose => loose.no_slash) each) some_raw

theorem no_letter {raws : List (List Char)} {v : List UInt32} (each : List.Forall₂ Loose raws v) :
    [] ∉ raws ∧ ∀ m ∈ ['m', 'M'], [m] ∉ raws := by
  constructor
  · intro mem
    exact all_left (fun _ _ loose => loose.not_blank) each [] mem (by simp [Blank])
  · intro m letter mem
    have ne := all_left (fun _ _ loose => loose.ne_m) each [m] mem
    simp only [List.mem_cons, List.not_mem_nil, or_false] at letter
    obtain rfl | rfl := letter
    · exact ne.1 rfl
    · exact ne.2 rfl

/-- Components are not one of the texts that stand for no component. -/
theorem not_bare {raws : List (List Char)} {v : List UInt32} (some_raw : raws ≠ []) (each : List.Forall₂ Loose raws v) :
    ['/'].intercalate raws ∉ [[], ['m'], ['M']] := by
  intro bare
  have pieces := splitOn_raws some_raw each
  have missing := no_letter each
  simp only [List.mem_cons, List.not_mem_nil, or_false] at bare
  obtain eq | eq | eq := bare
  all_goals rw [eq] at pieces
  · exact missing.1 (pieces ▸ by decide)
  · exact missing.2 'm' (by decide) (pieces ▸ by decide)
  · exact missing.2 'M' (by decide) (pieces ▸ by decide)

theorem no_prefix {m : Char} (letter : m ∈ ['m', 'M']) {raws : List (List Char)} {v : List UInt32} (some_raw : raws ≠ [])
    (each : List.Forall₂ Loose raws v) : ¬ [m, '/'].isPrefixOf (['/'].intercalate raws) := by
  intro before
  obtain ⟨rest, eq⟩ := List.isPrefixOf_iff_prefix.1 before
  have slash : '/' ∉ [m] := by
    simp only [List.mem_cons, List.not_mem_nil, or_false] at letter
    obtain rfl | rfl := letter <;> decide
  have pieces := splitOn_raws some_raw each
  rw [← eq, show [m, '/'] ++ rest = [m] ++ '/' :: rest from rfl, List.splitOn_append_cons_self,
    List.splitOn_eq_singleton slash] at pieces
  exact (no_letter each).2 m letter (pieces ▸ List.mem_cons_self)

/-- The prefix is found again in front of components. -/
theorem body_append {front : List Char} (known : front ∈ prefixes) {raws : List (List Char)} {v : List UInt32}
    (some_raw : raws ≠ []) (each : List.Forall₂ Loose raws v) :
    body (front ++ ['/'].intercalate raws) = ['/'].intercalate raws := by
  simp only [prefixes, List.mem_cons, List.not_mem_nil, or_false] at known
  obtain rfl | rfl | rfl := known
  · have lower := no_prefix (m := 'm') (by decide) some_raw each
    have upper := no_prefix (m := 'M') (by decide) some_raw each
    rw [List.nil_append, body, stripPrefix, stripPrefix, if_neg lower, if_neg upper]
    rfl
  · simp [body, stripPrefix]
  · simp [body, stripPrefix]

theorem parsePath_ok_iff {input : String} {v : List UInt32} :
    parsePath input = .ok v ↔
      Denotes Loose (trim input.toList) v ∨ trim input.toList ∈ doubled ∧ v = [] := by
  rw [parsePath_eq]
  generalize trim input.toList = text
  constructor
  · intro ok
    obtain ⟨front, known, eq⟩ := exists_body text
    split at ok
    · rename_i bare
      cases ok
      have cases : ∀ front ∈ prefixes, ∀ rest ∈ [[], ['m'], ['M']], front ++ rest ∈ empties ∨ front ++ rest ∈ doubled := by
        decide
      have bare : body text ∈ [[], ['m'], ['M']] := by simpa using bare
      rw [eq]
      exact (cases front known _ bare).imp .empty fun mem => ⟨mem, rfl⟩
    · have each := (mapM_ok_iff _ _ _).1 ok
      refine Or.inl (.path front _ v known (List.splitOn_ne_nil _ _) ?_ (each.imp fun _ _ => parseComponent_ok_iff.1))
      rw [List.intercalate_splitOn]
      exact eq
  · have bare : ∀ text ∈ empties ++ doubled, body text = [] ∨ body text = ['m'] ∨ body text = ['M'] := by decide
    rintro (denotes | ⟨twice, rfl⟩)
    · cases denotes with
      | empty empty => rw [if_pos (bare text (List.mem_append_left _ empty))]
      | path front raws v known some_raw split each =>
        have pieces := splitOn_raws some_raw each
        rw [split, body_append known some_raw each]
        rw [if_neg, pieces, mapM_ok_iff]
        · exact each.imp fun _ _ => parseComponent_ok_iff.2
        · simpa using not_bare some_raw each
    · rw [if_pos (bare text (List.mem_append_right _ twice))]

/-! ## What the integer parser lets through -/

/-- The texts that are read as a path and are none: an `m` for components, or components of
which one carries a plus sign. -/
inductive Slip (text : List Char) : Prop
  | letter (twice : text ∈ doubled)
  | signed (front : List Char) (raws : List (List Char)) (v : List UInt32) (known : front ∈ prefixes)
      (some_raw : raws ≠ []) (split : text = front ++ ['/'].intercalate raws) (each : List.Forall₂ Loose raws v)
      (raw : List Char) (mem : raw ∈ raws) (idx : UInt32) (behind : Component plus raw idx)

theorem Component.loose {raw : List Char} {idx : UInt32} (component : Component [] raw idx) : Loose raw idx :=
  ⟨[], by decide, component⟩

theorem Component.digit {sign raw : List Char} {idx : UInt32} (component : Component sign raw idx) :
    ∃ d rest, d.isDigit ∧ trim raw = sign ++ d :: rest := by
  have first : ∀ {digits : List Char} {n : Nat}, Numeral digits n → ∃ d rest, d.isDigit ∧ digits = d :: rest := by
    intro digits n numeral
    obtain ⟨d, rest, rfl⟩ := List.exists_cons_of_ne_nil numeral.nonempty
    exact ⟨d, rest, numeral.digits d List.mem_cons_self, rfl⟩
  cases component with
  | plain digits _ numeral _ text =>
    obtain ⟨d, rest, digit, rfl⟩ := first numeral
    exact ⟨d, rest, digit, text⟩
  | hardened digits marker n numeral _ _ text =>
    obtain ⟨d, rest, digit, rfl⟩ := first numeral
    exact ⟨d, rest ++ [marker], digit, by simpa using text⟩

/-- No text is a component with the sign and one without. -/
theorem Component.not_both {raw : List Char} {i j : UInt32} (behind : Component plus raw i) : ¬ Component [] raw j := by
  intro bare
  obtain ⟨d, rest, _, text⟩ := behind.digit
  obtain ⟨d', rest', digit, text'⟩ := bare.digit
  have eq : '+' :: d :: rest = d' :: rest' := text.symm.trans text'
  rw [← (List.cons.inj eq).1] at digit
  exact absurd digit (by decide)

theorem Loose.bare {raw : List Char} {idx : UInt32} (loose : Loose raw idx) (unsigned : ¬ Component plus raw idx) :
    Component [] raw idx := by
  obtain ⟨sign, known, component⟩ := loose
  simp only [signs, List.mem_cons, List.not_mem_nil, or_false] at known
  obtain rfl | rfl := known
  · exact component
  · exact absurd component unsigned

/-- A text is cut into components in one way. -/
theorem Denotes.raws {text front : List Char} {raws : List (List Char)} {v w : List UInt32} (known : front ∈ prefixes)
    (some_raw : raws ≠ []) (split : text = front ++ ['/'].intercalate raws) (each : List.Forall₂ Loose raws w)
    (denotes : Denotes (Component []) text v) : List.Forall₂ (Component []) raws v := by
  have rest := body_append known some_raw each
  cases denotes with
  | empty empty =>
    have bare : ∀ text ∈ empties, body text ∈ [[], ['m'], ['M']] := by decide
    have := bare _ empty
    rw [split, rest] at this
    exact absurd this (not_bare some_raw each)
  | path front' raws' _ known' some_raw' split' each' =>
    have loose := each'.imp fun _ _ component => Component.loose component
    have rest' := body_append known' some_raw' loose
    rw [← split', split, rest] at rest'
    rw [← splitOn_raws some_raw each, rest', splitOn_raws some_raw' loose]
    exact each'

/-- Such a text is accepted and is no path. -/
theorem Slip.accepted {input : String} (slip : Slip (trim input.toList)) :
    ∃ v, parsePath input = .ok v ∧ ¬ Denotes (Component []) (trim input.toList) v := by
  cases slip with
  | letter twice =>
    refine ⟨[], parsePath_ok_iff.2 (Or.inr ⟨twice, rfl⟩), fun denotes => ?_⟩
    cases denotes with
    | empty empty =>
      have apart : ∀ text ∈ doubled, text ∉ empties := by decide
      exact apart _ twice empty
    | path front raws _ known some_raw split each =>
      cases each
      exact some_raw rfl
  | signed front raws v known some_raw split each raw mem idx behind =>
    refine ⟨v, parsePath_ok_iff.2 (Or.inl (.path front raws v known some_raw split each)), fun denotes => ?_⟩
    have bare := denotes.raws known some_raw split each
    have unsigned := all_left (p := fun raw => ∀ i, ¬ Component plus raw i)
      (fun _ _ component _ behind => behind.not_both component) bare
    exact unsigned raw mem idx behind

/-- Only paths are accepted, apart from the texts with a slip. -/
theorem parsePath_grammar_iff (input : String) :
    (∀ v, parsePath input = .ok v → Denotes (Component []) (trim input.toList) v) ↔ ¬ Slip (trim input.toList) := by
  constructor
  · intro holds slip
    obtain ⟨v, ok, none⟩ := slip.accepted
    exact none (holds v ok)
  · intro clean v ok
    obtain denotes | ⟨twice, _⟩ := parsePath_ok_iff.1 ok
    · cases denotes with
      | empty empty => exact .empty empty
      | path front raws _ known some_raw split each =>
        have unsigned : ∀ raw ∈ raws, ∀ idx, ¬ Component plus raw idx := fun raw mem idx behind =>
          clean (.signed front raws v known some_raw split each raw mem idx behind)
        have both := (List.forall₂_and_left _ _).2 ⟨unsigned, each⟩
        exact .path front raws v known some_raw split (both.imp fun raw idx ⟨unsigned, loose⟩ => loose.bare (unsigned idx))
    · exact absurd (.letter twice) clean

/-- `"m/+5"` and `"m/m"` are read as paths, although a sign is no digit and an `m` is no
component. -/
theorem parsePath_takes_slips :
    (parsePath "m/+5" = .ok [5] ∧ ¬ Denotes (Component []) (trim "m/+5".toList) [5]) ∧
    parsePath "m/m" = .ok [] ∧ ¬ Denotes (Component []) (trim "m/m".toList) [] := by
  constructor
  · have five_numeral : Numeral ['5'] 5 := ⟨by decide, List.forall_mem_singleton.2 (by decide), by decide⟩
    have five : Component plus ['+', '5'] 5 := .plain ['5'] 5 five_numeral (by decide) (by decide)
    have each : List.Forall₂ Loose [['+', '5']] [5] := .cons ⟨plus, by decide, five⟩ .nil
    have split : trim "m/+5".toList = ['m', '/'] ++ ['/'].intercalate [['+', '5']] := by decide
    have slip := Slip.signed ['m', '/'] _ [5] (by decide) (by decide) split each ['+', '5'] List.mem_cons_self 5 five
    have ok : parsePath "m/+5" = .ok [5] := parsePath_ok_iff.2 (Or.inl (.path _ _ _ (by decide) (by decide) split each))
    obtain ⟨v, ok', none⟩ := slip.accepted
    rw [ok, Except.ok.injEq] at ok'
    exact ⟨ok, ok' ▸ none⟩
  · have twice : trim "m/m".toList ∈ doubled := by decide
    have ok : parsePath "m/m" = .ok [] := parsePath_ok_iff.2 (Or.inr ⟨twice, rfl⟩)
    obtain ⟨v, ok', none⟩ := (Slip.letter twice).accepted
    rw [ok, Except.ok.injEq] at ok'
    exact ⟨ok, ok' ▸ none⟩

/-! ## Rendering -/

/-- White space between the parts of a text. -/
structure Space where
  text : List Char
  blank : Blank text

inductive Marker where
  | apostrophe
  | h
  | H

def Marker.char : Marker → Char
  | .apostrophe => Bip32.apostrophe
  | .h => 'h'
  | .H => 'H'

/-- How one component is written. -/
structure Style where
  before : Space
  zeros : Nat
  marker : Marker
  after : Space

inductive Front where
  | bare
  | lower
  | upper

def Front.text : Front → List Char
  | .bare => []
  | .lower => ['m', '/']
  | .upper => ['M', '/']

/-- How a path is written around its components. -/
structure Layout where
  before : Space
  front : Front
  after : Space

/-- The decimal low 31 bits, and a marker for bit 31. -/
def numeralOf (zeros : Nat) (marker : Marker) (idx : UInt32) : List Char :=
  List.replicate zeros '0' ++ Nat.toDigits 10 (idx.toNat % 2 ^ 31) ++ if 2 ^ 31 ≤ idx.toNat then [marker.char] else []

def renderComponent (part : UInt32 × Style) : List Char :=
  part.2.before.text ++ numeralOf part.2.zeros part.2.marker part.1 ++ part.2.after.text

def render (layout : Layout) (path : List (UInt32 × Style)) : String :=
  String.ofList (layout.before.text ++ (layout.front.text ++ ['/'].intercalate (path.map renderComponent)) ++
    layout.after.text)

theorem Marker.known (marker : Marker) : marker.char ∈ markers ∧ isWhitespace marker.char = false := by
  cases marker <;> decide

theorem Front.known (front : Front) : front.text ∈ prefixes := by
  cases front <;> decide

theorem Front.solid (front : Front) :
    trimStart front.text = front.text ∧ ¬ Blank front.text ∨ front.text = [] := by
  cases front with
  | bare => exact Or.inr rfl
  | lower => exact Or.inl ⟨by decide, fun blank => absurd (blank 'm' (by decide)) (by decide)⟩
  | upper => exact Or.inl ⟨by decide, fun blank => absurd (blank 'M' (by decide)) (by decide)⟩

/-- A written component is read back. -/
theorem component_render (part : UInt32 × Style) : Component [] (renderComponent part) part.1 := by
  obtain ⟨idx, style⟩ := part
  have numeral := Numeral.padded style.zeros (idx.toNat % 2 ^ 31)
  have trimmed : trim (renderComponent (idx, style)) = numeralOf style.zeros style.marker idx := by
    rw [renderComponent, trim_append_blank style.after.blank, trim_blank_append style.before.blank]
    apply trim_of_solid
    intro c mem
    rw [numeralOf, List.mem_append] at mem
    obtain mem | mem := mem
    · exact isDigit_solid (numeral.digits c mem)
    · split at mem
      · rw [List.mem_singleton.1 mem]
        exact style.marker.known.2
      · cases mem
  by_cases top : 2 ^ 31 ≤ idx.toNat
  · have low : (UInt32.ofNat (idx.toNat % 2 ^ 31)).toNat = idx.toNat % 2 ^ 31 :=
      UInt32.toNat_ofNat_of_lt' (by show _ < 2 ^ 32; omega)
    have back : UInt32.ofNat (idx.toNat % 2 ^ 31) + 0x80000000 = idx := by
      apply UInt32.toNat_inj.1
      have bit : (0x80000000 : UInt32).toNat = 2147483648 := rfl
      have := idx.toNat_lt
      rw [UInt32.toNat_add, low, bit]
      omega
    rw [numeralOf, if_pos top] at trimmed
    rw [← low] at numeral
    have component : Component [] (renderComponent (idx, style)) (UInt32.ofNat (idx.toNat % 2 ^ 31) + 0x80000000) :=
      .hardened _ _ _ numeral (by rw [low]; omega) style.marker.known.1 (by rw [trimmed, low]; rfl)
    rw [back] at component
    exact component
  · rw [numeralOf, if_neg top, List.append_nil] at trimmed
    rw [Nat.mod_eq_of_lt (Nat.not_le.1 top)] at numeral trimmed
    exact .plain _ idx numeral (Nat.not_le.1 top) trimmed

theorem Loose.of_trim {raw raw' : List Char} {idx : UInt32} (same : trim raw' = trim raw) (loose : Loose raw idx) :
    Loose raw' idx := by
  obtain ⟨sign, known, component⟩ := loose
  refine ⟨sign, known, ?_⟩
  cases component with
  | plain digits _ numeral below text => exact .plain digits idx numeral below (same.trans text)
  | hardened digits marker n numeral below marked text =>
    exact .hardened digits marker n numeral below marked (same.trans text)

theorem intercalate_not_blank {raws : List (List Char)} {v : List UInt32} (some_raw : raws ≠ [])
    (each : List.Forall₂ Loose raws v) : ¬ Blank (['/'].intercalate raws) := by
  intro blank
  cases each with
  | nil => exact some_raw rfl
  | cons loose rest =>
    apply loose.not_blank
    intro c mem
    apply blank
    cases rest with
    | nil => simpa using mem
    | cons => simp [List.intercalate_cons_cons, mem]

/-- Trimming a path at its start trims the first component. -/
theorem trimStart_components {raws : List (List Char)} {v : List UInt32} (some_raw : raws ≠ [])
    (each : List.Forall₂ Loose raws v) : ∃ raws', trimStart (['/'].intercalate raws) = ['/'].intercalate raws' ∧
      raws' ≠ [] ∧ List.Forall₂ Loose raws' v := by
  cases each with
  | nil => exact absurd rfl some_raw
  | @cons raw idx raws v loose rest =>
    refine ⟨trimStart raw :: raws, ?_, List.cons_ne_nil _ _, .cons (loose.of_trim (trim_trimStart raw)) rest⟩
    cases rest with
    | nil => simp
    | cons =>
      rw [List.intercalate_cons_cons, List.append_assoc, trimStart_append loose.not_blank, List.intercalate_cons_cons,
        List.append_assoc]

/-- At its end, the last one. -/
theorem trimEnd_components {raws : List (List Char)} {v : List UInt32} (some_raw : raws ≠ [])
    (each : List.Forall₂ Loose raws v) : ∃ raws', trimEnd (['/'].intercalate raws) = ['/'].intercalate raws' ∧
      raws' ≠ [] ∧ List.Forall₂ Loose raws' v := by
  induction each with
  | nil => exact absurd rfl some_raw
  | @cons raw idx raws v loose rest ih =>
    cases rest with
    | nil => exact ⟨[trimEnd raw], by simp, List.cons_ne_nil _ _, .cons (loose.of_trim (trim_trimEnd raw)) .nil⟩
    | @cons next _ raws _ loose' rest =>
      obtain ⟨raws', eq, some_raw', each'⟩ := ih (List.cons_ne_nil _ _)
      obtain ⟨next', raws', rfl⟩ := List.exists_cons_of_ne_nil some_raw'
      have word := intercalate_not_blank (List.cons_ne_nil next raws) (.cons loose' rest)
      refine ⟨raw :: next' :: raws', ?_, List.cons_ne_nil _ _, .cons loose each'⟩
      rw [List.intercalate_cons_cons, trimEnd_append word, eq, List.intercalate_cons_cons]

/-- A written path denotes its indices. -/
theorem denotes_render (layout : Layout) (path : List (UInt32 × Style)) :
    Denotes Loose (trim (render layout path).toList) (path.map Prod.fst) := by
  rw [render, String.toList_ofList, trim_append_blank layout.after.blank, trim_blank_append layout.before.blank]
  have known := layout.front.known
  have each : List.Forall₂ Loose (path.map renderComponent) (path.map Prod.fst) := by
    rw [List.forall₂_map_left_iff, List.forall₂_map_right_iff, List.forall₂_same]
    exact fun part _ => (component_render part).loose
  cases path with
  | nil =>
    apply Denotes.empty
    have alone : ∀ front ∈ prefixes, trim (front ++ ['/'].intercalate []) ∈ empties := by decide
    exact alone _ known
  | cons part path =>
    have some_raw : (part :: path).map renderComponent ≠ [] := List.cons_ne_nil _ _
    generalize (part :: path).map renderComponent = raws at each some_raw
    obtain ⟨front, solid⟩ | bare := layout.front.solid
    · obtain ⟨raws', eq, some_raw', each'⟩ := trimEnd_components some_raw each
      refine .path _ raws' _ known some_raw' ?_ each'
      rw [trim_eq, trimStart_append solid, front, trimEnd_append (intercalate_not_blank some_raw each), eq]
    · obtain ⟨raws', eq, some_raw', each'⟩ := trimStart_components some_raw each
      obtain ⟨raws'', eq', some_raw'', each''⟩ := trimEnd_components some_raw' each'
      refine .path _ raws'' _ known some_raw'' ?_ each''
      rw [bare, List.nil_append, List.nil_append, trim_eq, eq, eq']

/-- Parsing inverts rendering. -/
theorem parsePath_render (layout : Layout) (path : List (UInt32 × Style)) :
    parsePath (render layout path) = .ok (path.map Prod.fst) :=
  parsePath_ok_iff.2 (Or.inl (denotes_render layout path))

/-! ## The standard account paths -/

/-- The number of an index, without its hardened bit. -/
def number (idx : UInt32) : Nat := idx.toNat % 2 ^ 31

/-- The usual notation. -/
def usual : Style := ⟨⟨[], by simp [Blank]⟩, 0, .apostrophe, ⟨[], by simp [Blank]⟩⟩

def plainly (path : List UInt32) : String :=
  render ⟨⟨[], by simp [Blank]⟩, .lower, ⟨[], by simp [Blank]⟩⟩ (path.map fun idx => (idx, usual))

theorem parsePath_plainly (path : List UInt32) : parsePath (plainly path) = .ok path := by
  rw [plainly, parsePath_render, List.map_map]
  simp [Function.comp_def]

theorem number_or (idx : UInt32) : (0x80000000 ||| idx).toNat % 2 ^ 31 = number idx ∧ 2 ^ 31 ≤ (0x80000000 ||| idx).toNat := by
  have bit : (0x80000000 : UInt32).toNat = 2 ^ 31 := rfl
  have split : idx.toNat = 2 ^ 31 * (idx.toNat / 2 ^ 31) + idx.toNat % 2 ^ 31 := by omega
  rw [UInt32.toNat_or, bit]
  constructor
  · rw [Nat.or_mod_two_pow, Nat.mod_self, Nat.zero_or, number]
  · exact Nat.left_le_or

/-- A hardened index in the usual notation. -/
theorem render_hardened (idx : UInt32) :
    renderComponent (0x80000000 ||| idx, usual) = Nat.toDigits 10 (number idx) ++ [apostrophe] := by
  have parts := number_or idx
  rw [renderComponent, numeralOf, parts.1, if_pos parts.2]
  simp [usual, Marker.char]

theorem render_fixed :
    renderComponent (0x8000002C, usual) = ['4', '4', apostrophe] ∧
    renderComponent (0x8000003C, usual) = ['6', '0', apostrophe] ∧
    renderComponent (0x80000000, usual) = ['0', apostrophe] ∧ renderComponent (0, usual) = ['0'] := by
  decide

theorem digits_fixed : Nat.toDigits 10 (number 84) = ['8', '4'] ∧ Nat.toDigits 10 (number 44) = ['4', '4'] ∧
    Nat.toDigits 10 (number 195) = ['1', '9', '5'] ∧ Nat.toDigits 10 (number 501) = ['5', '0', '1'] := by
  decide

theorem bitcoin_text (account coinType : UInt32) :
    s!"m/84'/{number coinType}'/{number account}'" = plainly (Bitcoin.accountPath account coinType) := by
  apply String.toList_inj.1
  have front : (toString "m/84'/").toList = ['m', '/', '8', '4', apostrophe, '/'] := by decide
  have middle : (toString "'/").toList = [apostrophe, '/'] := by decide
  have back : (toString "'").toList = [apostrophe] := by decide
  simp [plainly, render, Front.text, Bitcoin.accountPath, render_hardened, digits_fixed, front, middle, back]

theorem ethereum_text (account : UInt32) :
    s!"m/44'/60'/{number account}'/0/0" = plainly (Ethereum.accountPath account) := by
  apply String.toList_inj.1
  have front : (toString "m/44'/60'/").toList = ['m', '/', '4', '4', apostrophe, '/', '6', '0', apostrophe, '/'] := by
    decide
  have back : (toString "'/0/0").toList = [apostrophe, '/', '0', '/', '0'] := by decide
  simp [plainly, render, Front.text, Ethereum.accountPath, render_hardened, render_fixed, front, back]

theorem tron_text (account : UInt32) :
    s!"m/44'/195'/{number account}'/0/0" = plainly (Tron.accountPath account) := by
  apply String.toList_inj.1
  have front : (toString "m/44'/195'/").toList =
      ['m', '/', '4', '4', apostrophe, '/', '1', '9', '5', apostrophe, '/'] := by decide
  have back : (toString "'/0/0").toList = [apostrophe, '/', '0', '/', '0'] := by decide
  simp [plainly, render, Front.text, Tron.accountPath, render_hardened, digits_fixed, render_fixed, front, back]

theorem solana_text (account : UInt32) :
    s!"m/44'/501'/{number account}'/0'" = plainly (Solana.accountPath account) := by
  apply String.toList_inj.1
  have front : (toString "m/44'/501'/").toList =
      ['m', '/', '4', '4', apostrophe, '/', '5', '0', '1', apostrophe, '/'] := by decide
  have back : (toString "'/0'").toList = [apostrophe, '/', '0', apostrophe] := by decide
  simp [plainly, render, Front.text, Solana.accountPath, render_hardened, digits_fixed, render_fixed, front, back]

/-- Parsing inverts rendering, in every notation; so the standard account paths are read from
their usual texts. -/
theorem parsePath_inverts_render :
    (∀ (layout : Layout) (path : List (UInt32 × Style)), parsePath (render layout path) = .ok (path.map Prod.fst)) ∧
    ∀ account coinType : UInt32,
      parsePath s!"m/84'/{number coinType}'/{number account}'" = .ok (Bitcoin.accountPath account coinType) ∧
      parsePath s!"m/44'/60'/{number account}'/0/0" = .ok (Ethereum.accountPath account) ∧
      parsePath s!"m/44'/195'/{number account}'/0/0" = .ok (Tron.accountPath account) ∧
      parsePath s!"m/44'/501'/{number account}'/0'" = .ok (Solana.accountPath account) := by
  constructor
  · exact parsePath_render
  · intro account coinType
    rw [bitcoin_text, ethereum_text, tron_text, solana_text]
    exact ⟨parsePath_plainly _, parsePath_plainly _, parsePath_plainly _, parsePath_plainly _⟩

end TrezorCore.Bip32
