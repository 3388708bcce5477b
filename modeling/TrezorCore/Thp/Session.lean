import TrezorCore.Thp.Noise

/-!
# The encrypted transport session

`thp/session.rs`. Application payloads are sealed with AES-256-GCM under the two
handshake keys, with a nonce counter for each direction and an empty AAD. The IV is four
zero bytes and the big-endian counter.
-/

namespace TrezorCore

open Noise (SessionKeys)

variable (K : Crates)

/-- `iv_from_nonce`. -/
def ivFromNonce (nonce : UInt64) : Octets 12 :=
  ⟨List.replicate 4 0 ++ Bytes.toBe 8 nonce.toNat, by simp⟩

theorem ivFromNonce_inj {m n : UInt64} (h : ivFromNonce m = ivFromNonce n) : m = n := by
  have tails := List.append_cancel_left (congrArg Subtype.val h)
  have same := Bytes.toBe_inj m.toNat_lt n.toNat_lt tails
  exact UInt64.toNat_inj.1 same

theorem ivFromNonce_zero : ivFromNonce 0 = Noise.IV_ZERO := rfl

/-- Below `2 ^ 64` the counter value is the number of messages. -/
theorem ofNat_inj_of_lt {m n : Nat} (hm : m < 2 ^ 64) (hn : n < 2 ^ 64) (h : UInt64.ofNat m = UInt64.ofNat n) :
    m = n := by
  have := congrArg UInt64.toNat h
  rwa [UInt64.toNat_ofNat_of_lt' hm, UInt64.toNat_ofNat_of_lt' hn] at this

/-- One endpoint of an encrypted channel. -/
structure Session where
  keySend : Octets 32
  keyRecv : Octets 32
  nonceSend : UInt64
  nonceRecv : UInt64
  deriving DecidableEq

namespace Session

/-- Send with `key_request`, receive with `key_response`. -/
def fromHandshake (keys : SessionKeys) : Session :=
  ⟨keys.keyRequest, keys.keyResponse, keys.nonceRequest, keys.nonceResponse⟩

/-- `Session::seal`: seal a payload and advance the send nonce. The `+= 1` starts over at zero behind
`u64::MAX`, as in a release build. -/
def sealPayload (appPayload : Bytes) : Io Session Bytes := do
  let self ← Io.own
  let ct ← aeadSeal K self.keySend (ivFromNonce self.nonceSend) [] appPayload
  Io.modifyOwn fun self => { self with nonceSend := self.nonceSend + 1 }
  pure ct

/-- `Session::open`: the receive nonce advances on success only, and in the same way. -/
def openPayload (ciphertext : Bytes) : Io Session Bytes := do
  let self ← Io.own
  let pt ← aeadOpen K self.keyRecv (ivFromNonce self.nonceRecv) [] ciphertext
  Io.modifyOwn fun self => { self with nonceRecv := self.nonceRecv + 1 }
  pure pt

/-! ### With overflow checks -/

/-- `u64::MAX`. -/
def MAX_NONCE : UInt64 := 0xFFFFFFFFFFFFFFFF

/-- `+= 1` in a build with overflow checks, which panics without a value. -/
def checkedSucc (nonce : UInt64) : Option UInt64 := if nonce = MAX_NONCE then none else some (nonce + 1)

/-- `Session::seal` in such a build. -/
def sealChecked (appPayload : Bytes) : Io Session Bytes := do
  let self ← Io.own
  let ct ← aeadSeal K self.keySend (ivFromNonce self.nonceSend) [] appPayload
  let nonceSend ← .unwrap (checkedSucc self.nonceSend)
  Io.modifyOwn fun self => { self with nonceSend }
  pure ct

/-- `Session::open` in such a build. -/
def openChecked (ciphertext : Bytes) : Io Session Bytes := do
  let self ← Io.own
  let pt ← aeadOpen K self.keyRecv (ivFromNonce self.nonceRecv) [] ciphertext
  let nonceRecv ← .unwrap (checkedSucc self.nonceRecv)
  Io.modifyOwn fun self => { self with nonceRecv }
  pure pt

end Session

/-- session_id(1) + message_type(2). -/
abbrev APP_HEADER_LEN : Nat := 3

/-- `session_id || message_type (BE) || protobuf`. -/
def encodeAppMessage (m : AppMessage) : Bytes := m.sessionId :: Bytes.toBe 2 m.type.toNat ++ m.body

def decodeAppMessage (payload : Bytes) : Except TrezorError AppMessage :=
  if short : payload.length < APP_HEADER_LEN then
    .error (.thp "application message shorter than its 3-byte header")
  else
    have long : 3 ≤ payload.length := Nat.not_lt.1 short
    .ok ⟨payload[0], UInt16.ofNat (Bytes.beNat [payload[1], payload[2]]), payload.drop APP_HEADER_LEN⟩

/-- The decoder reads back what the encoder wrote. -/
theorem decodeAppMessage_encode (m : AppMessage) : decodeAppMessage (encodeAppMessage m) = .ok m := by
  obtain ⟨sid, type, body⟩ := m
  obtain ⟨t0, t1, ht⟩ : ∃ t0 t1, Bytes.toBe 2 type.toNat = [t0, t1] :=
    List.length_eq_two.1 (Bytes.length_toBe 2 _)
  have hn : Bytes.beNat [t0, t1] = type.toNat := by
    rw [← ht, Bytes.beNat_toBe]
    exact Nat.mod_eq_of_lt type.toNat_lt
  simp [encodeAppMessage, ht, decodeAppMessage, APP_HEADER_LEN, hn]

end TrezorCore
