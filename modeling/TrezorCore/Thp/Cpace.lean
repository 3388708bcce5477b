import TrezorCore.Crates
import TrezorCore.Thp.Elligator2

/-!
# CPace, host side

`thp/cpace.rs`: the generator of a pairing code and a handshake transcript, and the host's
public key and tag. All the pairing code does on the host is to choose the generator.
-/

namespace TrezorCore.Cpace

variable (K : Crates)

/-- `0x08 || "CPace255" || 0x06`. -/
def DSI_PREFIX : Bytes := [0x08, 0x43, 0x50, 0x61, 0x63, 0x65, 0x32, 0x35, 0x35, 0x06]
def PADDING_LEN : Nat := 113
def SID : Bytes := [0x00]
abbrev CODE_LEN : Nat := 6

/-- The zero padding between its two length markers. -/
def padding : Bytes := 0x6f :: (List.replicate (PADDING_LEN - 2) 0 ++ [0x20])

/-- `format!("{:06}", code % 1_000_000)`. -/
def formatCode (code : UInt32) : Octets CODE_LEN :=
  List.Vector.ofFn fun i => UInt8.ofNat (48 + code.toNat % 1000000 / 10 ^ (5 - i.val) % 10)

/-- The generator point of a code and a transcript. -/
def generator (code : Octets CODE_LEN) (handshakeHash : Bytes) : Octets 32 :=
  let pregenerator := K.sha512 (DSI_PREFIX ++ code.1 ++ padding ++ handshakeHash ++ SID)
  Elligator2.mapToCurve25519 (pregenerator.take 32)

structure HostCpace where
  hostPublic : Octets 32
  tag : Octets 32

/-- The host's public key and tag. -/
def hostCpace (code : Octets CODE_LEN) (handshakeHash : Bytes) (trezorPublic hostPrivate : Octets 32) : HostCpace :=
  let g := generator K code handshakeHash
  let hostPublic := K.x25519 hostPrivate g
  let shared := K.x25519 hostPrivate trezorPublic
  ⟨hostPublic, K.sha256 shared.1⟩

/-- The digits tell codes apart, up to a multiple of a million. -/
theorem formatCode_eq_iff (a b : UInt32) :
    formatCode a = formatCode b ↔ a.toNat % 1000000 = b.toNat % 1000000 := by
  refine ⟨fun h => ?_, fun h => by simp only [formatCode, h]⟩
  have digit : ∀ i : Fin 6,
      a.toNat % 1000000 / 10 ^ (5 - i.val) % 10 = b.toNat % 1000000 / 10 ^ (5 - i.val) % 10 := by
    intro i
    have same := congrArg (fun v => (List.Vector.get v i).toNat) h
    simp only [formatCode, List.Vector.get_ofFn, UInt8.toNat_ofNat'] at same
    omega
  have d0 := digit 0
  have d1 := digit 1
  have d2 := digit 2
  have d3 := digit 3
  have d4 := digit 4
  have d5 := digit 5
  simp at d0 d1 d2 d3 d4 d5
  omega

example : (formatCode 42).1 = [0x30, 0x30, 0x30, 0x30, 0x34, 0x32] := by decide

end TrezorCore.Cpace
