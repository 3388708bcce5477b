import TrezorCore.Error
import TrezorCore.Lib.Text

/-!
# Derivation paths

`bip32.rs`: a human path string into the `address_n` of the messages.
-/

namespace TrezorCore.Bip32

open Text

/-- `str::strip_prefix`. -/
def stripPrefix (pre s : List Char) : Option (List Char) := if pre.isPrefixOf s then some (s.drop pre.length) else none

/-- `str::strip_suffix` with one character. -/
def stripSuffix (c : Char) (s : List Char) : Option (List Char) :=
  if s.getLast? = some c then some s.dropLast else none

/-- The hardened marker besides `h` and `H`. -/
def apostrophe : Char := Char.ofNat 39

/-- The digits of a component and whether it is hardened. -/
def splitHardened (comp : List Char) : List Char × Bool :=
  match (stripSuffix apostrophe comp).or ((stripSuffix 'h' comp).or (stripSuffix 'H' comp)) with
  | some digits => (digits, true)
  | none => (comp, false)

/-- One component of a path; `input` is the whole path, for the errors. -/
def parseComponent (input : String) (raw : List Char) : Except TrezorError UInt32 :=
  let comp := trim raw
  if comp.isEmpty then .error (.thp s!"invalid derivation path '{input}': empty component")
  else
    let (digits, hardened) := splitHardened comp
    match parseU32 digits with
    | none => .error (.thp s!"invalid derivation path '{input}': bad component '{String.ofList comp}'")
    | some idx =>
      if 0x80000000 ≤ idx then
        .error (.thp s!"invalid derivation path '{input}': index '{String.ofList comp}' out of range")
      else .ok (if hardened then idx ||| 0x80000000 else idx)

/-- Parse a path, with an optional `m/` in front. -/
def parsePath (input : String) : Except TrezorError (List UInt32) :=
  let trimmed := trim input.toList
  let body := ((stripPrefix ['m', '/'] trimmed).or (stripPrefix ['M', '/'] trimmed)).getD trimmed
  if body.isEmpty ∨ body = ['m'] ∨ body = ['M'] then .ok []
  else (body.splitOn '/').mapM (parseComponent input)

end TrezorCore.Bip32
