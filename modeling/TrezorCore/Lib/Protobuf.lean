import Mathlib.Algebra.Ring.Nat
import Mathlib.Data.List.Basic
import TrezorCore.Lib.Bytes

/-!
# The protobuf wire format

A message on the wire is a list of numbered values. `fields` reads one and `write` writes one; a
decoder for a schema looks at the numbers that it knows and at no others, and `fields_write` says
that everything that was written is there to be read.
-/

namespace Protobuf

/-- The value of a field. The bytes of a group end with its end tag. -/
inductive Value where
  | varint (n : UInt64)
  | fixed64 (octets : Bytes)
  | len (payload : Bytes)
  | group (payload : Bytes)
  | fixed32 (octets : Bytes)
  deriving DecidableEq

structure Field where
  number : Nat
  value : Value
  deriving DecidableEq

/-! ## Varints -/

/-- Seven bits a byte, the lowest first. -/
def readVarint : Bytes → Option (Nat × Bytes)
  | [] => none
  | b :: rest =>
    if b.toNat < 128 then some (b.toNat, rest)
    else (readVarint rest).map fun r => (b.toNat - 128 + 128 * r.1, r.2)

/-- The bytes of a varint, at most `room` of them. -/
def writeUpTo : Nat → Nat → Bytes
  | 0, _ => []
  | room + 1, n => if n < 128 then [UInt8.ofNat n] else UInt8.ofNat (n % 128 + 128) :: writeUpTo room (n / 128)

/-- The shortest varint; a number takes fewer bytes than it counts. -/
def writeVarint (n : Nat) : Bytes := writeUpTo (n + 1) n

theorem readVarint_writeUpTo (room n : Nat) (fits : n < room) (rest : Bytes) :
    readVarint (writeUpTo room n ++ rest) = some (n, rest) := by
  induction room generalizing n with
  | zero => omega
  | succ room ih =>
    rw [writeUpTo]
    split
    · rename_i small
      have byte : (UInt8.ofNat n).toNat = n := UInt8.toNat_ofNat_of_lt' (by show n < 256; omega)
      rw [List.singleton_append, readVarint, byte, if_pos small]
    · rename_i big
      have byte : (UInt8.ofNat (n % 128 + 128)).toNat = n % 128 + 128 :=
        UInt8.toNat_ofNat_of_lt' (by show n % 128 + 128 < 256; omega)
      have whole : n % 128 + 128 - 128 + 128 * (n / 128) = n := by omega
      rw [List.cons_append, readVarint, byte, if_neg (by omega), ih (n / 128) (by omega), Option.map_some, whole]

theorem readVarint_write (n : Nat) (rest : Bytes) : readVarint (writeVarint n ++ rest) = some (n, rest) :=
  readVarint_writeUpTo (n + 1) n (Nat.lt_succ_self n) rest

theorem writeVarint_ne_nil (n : Nat) : writeVarint n ≠ [] := by
  unfold writeVarint writeUpTo
  split <;> simp

/-! ## Fields -/

/-- Some bytes, and what is left. -/
def takeBytes (n : Nat) (bytes : Bytes) : Option (Bytes × Bytes) :=
  if n ≤ bytes.length then some (bytes.take n, bytes.drop n) else none

/-- A number and a wire type. -/
def readKey (bytes : Bytes) : Option (Nat × Nat × Bytes) :=
  (readVarint bytes).map fun r => (r.1 / 8, r.1 % 8, r.2)

/-- What is left behind a value that is no group. -/
def skipPlain (wire : Nat) (bytes : Bytes) : Option Bytes :=
  match wire with
  | 0 => (readVarint bytes).map Prod.snd
  | 1 => (takeBytes 8 bytes).map Prod.snd
  | 2 => (readVarint bytes).bind fun r => (takeBytes r.1 r.2).map Prod.snd
  | 5 => (takeBytes 4 bytes).map Prod.snd
  | _ => none

/-- The end of the groups that are open, the innermost first: what is left behind their end tags. -/
def skipGroups : Nat → List Nat → Bytes → Option Bytes
  | _, [], bytes => some bytes
  | 0, _ :: _, _ => none
  | fuel + 1, number :: open_, bytes =>
    (readKey bytes).bind fun key =>
      if key.2.1 = 4 then
        if key.1 = number then skipGroups fuel open_ key.2.2 else none
      else if key.2.1 = 3 then skipGroups fuel (key.1 :: number :: open_) key.2.2
      else (skipPlain key.2.1 key.2.2).bind fun rest => skipGroups fuel (number :: open_) rest

/-- The value of a wire type. -/
def readValue (number wire : Nat) (bytes : Bytes) : Option (Value × Bytes) :=
  match wire with
  | 0 => (readVarint bytes).bind fun r => if r.1 < 2 ^ 64 then some (.varint (UInt64.ofNat r.1), r.2) else none
  | 1 => (takeBytes 8 bytes).map fun r => (.fixed64 r.1, r.2)
  | 2 => (readVarint bytes).bind fun r => (takeBytes r.1 r.2).map fun r => (.len r.1, r.2)
  | 3 => (skipGroups bytes.length [number] bytes).map fun rest => (.group (bytes.take (bytes.length - rest.length)), rest)
  | 5 => (takeBytes 4 bytes).map fun r => (.fixed32 r.1, r.2)
  | _ => none

def readField (bytes : Bytes) : Option (Field × Bytes) :=
  (readKey bytes).bind fun key => (readValue key.1 key.2.1 key.2.2).map fun r => (⟨key.1, r.1⟩, r.2)

def readFields : Nat → Bytes → Option (List Field)
  | _, [] => some []
  | 0, _ :: _ => none
  | fuel + 1, b :: bytes => (readField (b :: bytes)).bind fun r => (readFields fuel r.2).map (r.1 :: ·)

/-- The fields of a message. A field takes at least a byte, so its length is fuel enough. -/
def fields (bytes : Bytes) : Option (List Field) := readFields bytes.length bytes

/-! ## Writing -/

/-- The wire type and the bytes of a value; those of a group close it. -/
def Value.wire : Value → Nat
  | .varint _ => 0
  | .fixed64 _ => 1
  | .len _ => 2
  | .group _ => 3
  | .fixed32 _ => 5

def Value.write : Value → Bytes
  | .varint n => writeVarint n.toNat
  | .fixed64 octets | .group octets | .fixed32 octets => octets
  | .len payload => writeVarint payload.length ++ payload

def Field.write (f : Field) : Bytes := writeVarint (f.number * 8 + f.value.wire) ++ f.value.write

def write (fs : List Field) : Bytes := fs.flatMap Field.write

/-- A varint or a byte string, which is what a schema without fixed-width numbers writes. -/
def Value.Simple : Value → Prop
  | .varint _ | .len _ => True
  | _ => False

theorem takeBytes_append (payload rest : Bytes) : takeBytes payload.length (payload ++ rest) = some (payload, rest) := by
  rw [takeBytes, if_pos (by simp), List.take_left, List.drop_left]

theorem readValue_write {v : Value} (simple : v.Simple) (number : Nat) (rest : Bytes) :
    readValue number v.wire (v.write ++ rest) = some (v, rest) := by
  cases v with
  | varint n =>
    show (readVarint _).bind _ = _
    rw [Value.write, readVarint_write, Option.bind_some, if_pos n.toNat_lt, UInt64.ofNat_toNat]
  | len payload =>
    show (readVarint _).bind _ = _
    rw [Value.write, List.append_assoc, readVarint_write, Option.bind_some, takeBytes_append]
    rfl
  | fixed64 | group | fixed32 => exact absurd simple id

theorem Value.wire_lt (v : Value) : v.wire < 8 := by
  cases v <;> simp [Value.wire]

theorem readField_write {f : Field} (simple : f.value.Simple) (rest : Bytes) :
    readField (f.write ++ rest) = some (f, rest) := by
  have wire := f.value.wire_lt
  have number : (f.number * 8 + f.value.wire) / 8 = f.number := by omega
  have type : (f.number * 8 + f.value.wire) % 8 = f.value.wire := by omega
  rw [Field.write, List.append_assoc, readField, readKey, readVarint_write, Option.map_some, Option.bind_some, number, type,
    readValue_write simple, Option.map_some]

/-- **What was written is read.** -/
theorem fields_write {fs : List Field} (simple : ∀ f ∈ fs, f.value.Simple) : fields (write fs) = some fs := by
  have enough : ∀ fuel, (write fs).length ≤ fuel → readFields fuel (write fs) = some fs := by
    induction fs with
    | nil => intro fuel _; cases fuel <;> rfl
    | cons f fs ih =>
      intro fuel room
      obtain ⟨b, bytes, front⟩ := List.exists_cons_of_ne_nil (List.append_ne_nil_of_left_ne_nil (writeVarint_ne_nil _) f.value.write)
      have whole : write (f :: fs) = f.write ++ write fs := rfl
      have first : f.write = b :: bytes := front
      rw [whole, first, List.cons_append, List.length_cons, List.length_append] at room
      obtain ⟨fuel, rfl⟩ : ∃ k, fuel = k + 1 := ⟨fuel - 1, by omega⟩
      have rest := ih (fun g mem => simple g (List.mem_cons_of_mem f mem)) fuel (by omega)
      have head := readField_write (simple f List.mem_cons_self) (write fs)
      rw [whole, first, List.cons_append] at *
      rw [readFields, head, Option.bind_some, rest]
      rfl
  exact enough _ le_rfl

/-! ## Looking fields up -/

/-- The values of a number, in order. -/
def values (number : Nat) (fs : List Field) : List Value := (fs.filter fun f => f.number = number).map Field.value

@[simp] theorem values_append (number : Nat) (a b : List Field) : values number (a ++ b) = values number a ++ values number b := by
  rw [values, List.filter_append, List.map_append]
  rfl

def Value.varint? : Value → Option UInt64
  | .varint n => some n
  | _ => none

def Value.len? : Value → Option Bytes
  | .len payload => some payload
  | _ => none

/-- A number that stands at most once; the last one counts. -/
def varint? (number : Nat) (fs : List Field) : Option UInt64 := ((values number fs).filterMap Value.varint?).getLast?

/-- A byte string that stands at most once. -/
def len? (number : Nat) (fs : List Field) : Option Bytes := ((values number fs).filterMap Value.len?).getLast?

/-- Byte strings that may stand any number of times. -/
def lens (number : Nat) (fs : List Field) : List Bytes := (values number fs).filterMap Value.len?

end Protobuf
