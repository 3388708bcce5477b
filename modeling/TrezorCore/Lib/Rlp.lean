import TrezorCore.Lib.Bytes
import Mathlib.Data.Nat.Log

/-!
# Canonical RLP

The encoder of Ethereum's RLP. A byte below 128 stands for itself; any other item has a header
with its kind and its length, which is written in the first byte when it is small and else as
a big-endian number without leading zeros. An item of the top level is a string or a list that
is given by the bytes inside it.
-/

namespace Rlp

/-- Big-endian without leading zeros; zero is empty. -/
def minimalBe (n : Nat) : Bytes := if n = 0 then [] else Bytes.toBe (Nat.log2 n / 8 + 1) n

/-- The header of an item of a kind, `0x80` for a string and `0xc0` for a list. -/
def header (kind len : Nat) : Bytes :=
  if len < 56 then [UInt8.ofNat (kind + len)]
  else UInt8.ofNat (kind + 55 + (minimalBe len).length) :: minimalBe len

def encodeString (bytes : Bytes) : Bytes :=
  match bytes with
  | [b] => if b < 0x80 then [b] else header 0x80 1 ++ [b]
  | bytes => header 0x80 bytes.length ++ bytes

/-- A list, from the encodings of its items. -/
def encodeList (payload : Bytes) : Bytes := header 0xc0 payload.length ++ payload

/-- A string, or a list by its payload. -/
inductive Item where
  | string (bytes : Bytes)
  | list (payload : Bytes)

def Item.encode : Item → Bytes
  | .string bytes => encodeString bytes
  | .list payload => encodeList payload

def Item.payload : Item → Bytes
  | .string bytes => bytes
  | .list payload => payload

theorem lt_pow_width (n : Nat) : n < 256 ^ (Nat.log2 n / 8 + 1) := by
  have top : n < 2 ^ (Nat.log2 n + 1) := Nat.lt_log2_self
  have room : 2 ^ (Nat.log2 n + 1) ≤ 2 ^ (8 * (Nat.log2 n / 8 + 1)) := Nat.pow_le_pow_right (by decide) (by omega)
  rw [show (256 : Nat) = 2 ^ 8 from rfl, ← Nat.pow_mul]
  omega

@[simp] theorem beNat_minimalBe (n : Nat) : Bytes.beNat (minimalBe n) = n := by
  unfold minimalBe
  split
  · next zero => rw [zero, Bytes.beNat_nil]
  · rw [Bytes.beNat_toBe, Nat.mod_eq_of_lt (lt_pow_width n)]

/-- A number below `256 ^ k` takes at most `k` bytes. -/
theorem length_minimalBe_le {n k : Nat} (fits : n < 2 ^ (8 * k)) : (minimalBe n).length ≤ k := by
  unfold minimalBe
  split
  · exact Nat.zero_le k
  · next nonzero =>
    have log : Nat.log2 n < 8 * k := (Nat.log2_lt nonzero).2 fits
    rw [Bytes.length_toBe]
    omega

theorem length_minimalBe_pos {n : Nat} (pos : 0 < n) : 0 < (minimalBe n).length := by
  unfold minimalBe
  rw [if_neg (by omega), Bytes.length_toBe]
  omega

theorem header_ne_nil (kind len : Nat) : header kind len ≠ [] := by
  unfold header
  split <;> exact List.cons_ne_nil _ _

/-- A string is a byte that stands for itself, or has a header. -/
theorem encodeString_cases (bytes : Bytes) :
    (∃ b, b < 0x80 ∧ bytes = [b] ∧ encodeString bytes = [b]) ∨
      encodeString bytes = header 0x80 bytes.length ++ bytes := by
  rcases bytes with _ | ⟨b, _ | ⟨c, rest⟩⟩
  · exact .inr rfl
  · by_cases small : b < 0x80
    · exact .inl ⟨b, small, rfl, if_pos small⟩
    · exact .inr (if_neg small)
  · exact .inr rfl

/-- An item takes at least a byte. -/
theorem Item.encode_pos (item : Item) : 0 < item.encode.length := by
  have behind : ∀ kind len (payload : Bytes), 0 < (header kind len ++ payload).length := by
    intro kind len payload
    have some := List.length_pos_iff.2 (header_ne_nil kind len)
    rw [List.length_append]
    omega
  cases item with
  | string bytes =>
    show 0 < (encodeString bytes).length
    rcases encodeString_cases bytes with ⟨b, -, -, own⟩ | headed
    · rw [own]
      exact Nat.zero_lt_one
    · rw [headed]
      exact behind _ _ _
  | list payload => exact behind _ _ _

end Rlp
