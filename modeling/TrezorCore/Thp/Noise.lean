import TrezorCore.Crates
import TrezorCore.Transport

/-!
# The secure-channel handshake

`thp/aead.rs` and `thp/noise.rs`. The host side is `HostHandshake`, a bespoke
Noise-XX-style state machine with a masked device static key; the device side is
`TrezorResponder`, the spec-faithful responder the crate's tests run it against. The AEAD
calls and the HKDF steps leave events, so a run shows which key, IV and transcript hash
each ciphertext was made or opened with.
-/

namespace TrezorCore

variable {γ : Type} (K : Crates)

/-- `aead::seal`. -/
def aeadSeal (key : Octets 32) (iv : Octets 12) (aad plaintext : Bytes) : Io γ Bytes := do
  let ciphertext := K.aesGcmEncrypt key iv aad plaintext
  Io.note (.sealed key iv aad plaintext ciphertext)
  pure ciphertext

/-- `aead::open`. -/
def aeadOpen (key : Octets 32) (iv : Octets 12) (aad ciphertext : Bytes) : Io γ Bytes := do
  let plaintext := K.aesGcmDecrypt key iv aad ciphertext
  Io.note (.opened key iv aad ciphertext plaintext)
  match plaintext with
  | some plaintext => pure plaintext
  | none => .fail (.thp "AES-GCM authentication failed")

section Aead

variable {K} {β : Type} {key : Octets 32} {iv : Octets 12} {aad : Bytes}

theorem run_aeadSeal_bind (plaintext : Bytes) (f : Bytes → Io γ β) (h : Host γ) :
    (aeadSeal K key iv aad plaintext >>= f).run h =
      (f (K.aesGcmEncrypt key iv aad plaintext)).run
        ⟨h.own, h.wire.log (.sealed key iv aad plaintext (K.aesGcmEncrypt key iv aad plaintext))⟩ := rfl

theorem run_aeadOpen_bind {ciphertext plaintext : Bytes} (opens : K.aesGcmDecrypt key iv aad ciphertext = some plaintext)
    (f : Bytes → Io γ β) (h : Host γ) :
    (aeadOpen K key iv aad ciphertext >>= f).run h =
      (f plaintext).run ⟨h.own, h.wire.log (.opened key iv aad ciphertext (some plaintext))⟩ := by
  simp [aeadOpen, opens, Comp.run_bind]

theorem run_aeadOpen_bind_none {ciphertext : Bytes} (rejects : K.aesGcmDecrypt key iv aad ciphertext = none)
    (f : Bytes → Io γ β) (h : Host γ) :
    (aeadOpen K key iv aad ciphertext >>= f).run h =
      (.err (.thp "AES-GCM authentication failed"), ⟨h.own, h.wire.log (.opened key iv aad ciphertext none)⟩) := by
  simp [aeadOpen, rejects, Comp.run_bind]

end Aead

/-- The events of the AEAD and of the HKDF. -/
def Event.isCrypto : Event → Bool
  | .derived _ _ | .sealed _ _ _ _ _ | .opened _ _ _ _ _ => true
  | _ => false

/-- A relation that holds across the primitives: it follows from one of their events. -/
structure AcrossCrypto (R : Host γ → Host γ → Prop) : Prop where
  refl : ∀ h, R h h
  trans : ∀ a b c, R a b → R b c → R a c
  note : ∀ e, e.isCrypto = true → Comp.Keeps R (Io.note e : Io γ Unit)

namespace AcrossCrypto

variable {K} {R : Host γ → Host γ → Prop}

theorem aeadSeal (r : AcrossCrypto R) (key : Octets 32) (iv : Octets 12) (aad plaintext : Bytes) :
    Comp.Keeps R (aeadSeal K key iv aad plaintext : Io γ _) :=
  .bind r.trans (r.note _ rfl) fun _ => .pure r.refl _

theorem aeadOpen (r : AcrossCrypto R) (key : Octets 32) (iv : Octets 12) (aad ciphertext : Bytes) :
    Comp.Keeps R (aeadOpen K key iv aad ciphertext : Io γ _) := by
  refine .bind r.trans (r.note _ rfl) fun _ => ?_
  cases K.aesGcmDecrypt key iv aad ciphertext with
  | some plaintext => exact .pure r.refl _
  | none => exact .fail r.refl _

end AcrossCrypto

namespace Noise

/-- `Noise_XX_25519_AESGCM_SHA256`, padded with NULs to 32 bytes. -/
def PROTOCOL_NAME : Octets 32 :=
  ⟨[0x4e, 0x6f, 0x69, 0x73, 0x65, 0x5f, 0x58, 0x58, 0x5f, 0x32, 0x35, 0x35, 0x31, 0x39, 0x5f,
    0x41, 0x45, 0x53, 0x47, 0x43, 0x4d, 0x5f, 0x53, 0x48, 0x41, 0x32, 0x35, 0x36, 0, 0, 0, 0], rfl⟩

/-- AES-GCM IV `0^96`. -/
def IV_ZERO : Octets 12 := ⟨[0, 0, 0, 0, 0, 0, 0, 0, 0, 0, 0, 0], rfl⟩
/-- AES-GCM IV `0^95 || 1`. -/
def IV_ONE : Octets 12 := ⟨[0, 0, 0, 0, 0, 0, 0, 0, 0, 0, 0, 1], rfl⟩

def PUBKEY_LEN : Nat := 32
/-- 32-byte masked static + 16-byte tag. -/
def ENC_STATIC_LEN : Nat := 48
def TAG_LEN : Nat := 16
def INIT_RESPONSE_LEN : Nat := PUBKEY_LEN + ENC_STATIC_LEN + TAG_LEN

def sha256Concat (parts : List Bytes) : Octets 32 := K.sha256 parts.flatten

/-- THP's two-output HKDF, as a function. -/
def hkdfOutputs (ck input : Bytes) : Octets 32 × Octets 32 :=
  let tempKey := K.hmacSha256 ck input
  let output1 := K.hmacSha256 tempKey.1 [0x01]
  let output2 := K.hmacSha256 tempKey.1 (output1.1 ++ [0x02])
  (output1, output2)

/-- `hkdf`: returns `(chaining_key, key)`. -/
def hkdf (ck input : Bytes) : Io γ (Octets 32 × Octets 32) := do
  let out := hkdfOutputs K ck input
  Io.note (.derived out.1 out.2)
  pure out

theorem run_hkdf_bind {K : Crates} {β : Type} (ck input : Bytes) (f : Octets 32 × Octets 32 → Io γ β) (h : Host γ) :
    (hkdf K ck input >>= f).run h =
      (f (hkdfOutputs K ck input)).run
        ⟨h.own, h.wire.log (.derived (hkdfOutputs K ck input).1 (hkdfOutputs K ck input).2)⟩ := rfl

def randomScalar : Io γ (Octets 32) := Io.getrandom 32

def asArray32 (bytes : Bytes) : Io γ (Octets 32) :=
  match Bytes.asOctets 32 bytes with
  | some array => pure array
  | none => .fail (.thp "expected a 32-byte field")

/-- The encrypted-session secrets produced by a completed handshake. -/
structure SessionKeys where
  keyRequest : Octets 32
  keyResponse : Octets 32
  nonceRequest : UInt64
  nonceResponse : UInt64
  trezorState : Bytes
  trezorMaskedStaticPubkey : Octets 32
  handshakeHash : Octets 32
  hostStaticPubkey : Octets 32
  deriving DecidableEq

/-- The host side of the handshake. -/
structure HostHandshake where
  deviceProperties : Bytes
  tryToUnlock : UInt8
  ephemeralPriv : Octets 32
  ephemeralPub : Octets 32
  staticPriv : Octets 32
  staticPub : Octets 32
  hostPairingCredential : Option Bytes
  h : Octets 32
  ck : Octets 32
  maskedStatic : Octets 32

def zero32 : Octets 32 := List.Vector.replicate 32 0

namespace HostHandshake

def withEphemeral (deviceProperties : Bytes) (tryToUnlock : UInt8) (staticPriv : Octets 32)
    (hostPairingCredential : Option Bytes) (ephemeralPriv : Octets 32) : HostHandshake where
  deviceProperties
  tryToUnlock
  ephemeralPriv
  ephemeralPub := K.publicKey ephemeralPriv
  staticPriv
  staticPub := K.publicKey staticPriv
  hostPairingCredential
  h := zero32
  ck := zero32
  maskedStatic := zero32

/-- `HostHandshake::new`. -/
def new (deviceProperties : Bytes) (tryToUnlock : UInt8) (staticPriv : Octets 32)
    (hostPairingCredential : Option Bytes) : Io γ HostHandshake := do
  let ephemeralPriv ← randomScalar
  pure (withEphemeral K deviceProperties tryToUnlock staticPriv hostPairingCredential ephemeralPriv)

/-- HH0: `host_ephemeral_pubkey || try_to_unlock`. -/
def initRequestPayload (self : HostHandshake) : Bytes := self.ephemeralPub.1 ++ [self.tryToUnlock]

/-- HH1: consume the init response and produce the completion request,
`encrypted_host_static_pubkey || encrypted_payload`. The state changes only at the end,
when nothing can fail any more. -/
def readInitResponse (resp : Bytes) : Io HostHandshake Bytes := do
  if resp.length ≠ INIT_RESPONSE_LEN then
    .fail (.thp "handshake init response has the wrong size")
  else
    let self ← Io.own
    let trezorEphemeralPub ← asArray32 (resp.take PUBKEY_LEN)
    let encStatic := (resp.drop PUBKEY_LEN).take ENC_STATIC_LEN
    let tag := resp.drop (PUBKEY_LEN + ENC_STATIC_LEN)
    let h := sha256Concat K [PROTOCOL_NAME.1, self.deviceProperties]
    let h := sha256Concat K [h.1, self.ephemeralPub.1]
    let h := sha256Concat K [h.1, [self.tryToUnlock]]
    let h := sha256Concat K [h.1, trezorEphemeralPub.1]
    let (ck, k) ← hkdf K PROTOCOL_NAME.1 (K.x25519 self.ephemeralPriv trezorEphemeralPub).1
    let maskedStatic ← aeadOpen K k IV_ZERO h.1 encStatic
    let maskedStatic ← asArray32 maskedStatic
    let h := sha256Concat K [h.1, encStatic]
    let (ck, k) ← hkdf K ck.1 (K.x25519 self.ephemeralPriv maskedStatic).1
    let empty ← aeadOpen K k IV_ZERO h.1 tag
    if empty ≠ [] then
      .fail (.thp "handshake authentication payload was not empty")
    else
      let h := sha256Concat K [h.1, tag]
      let encHostStatic ← aeadSeal K k IV_ONE h.1 self.staticPub.1
      let h := sha256Concat K [h.1, encHostStatic]
      let (ck, k) ← hkdf K ck.1 (K.x25519 self.staticPriv trezorEphemeralPub).1
      let payload := K.completionPayload.encode ⟨self.hostPairingCredential⟩
      let encPayload ← aeadSeal K k IV_ZERO h.1 payload
      let h := sha256Concat K [h.1, encPayload]
      Io.modifyOwn fun self => { self with h, ck, maskedStatic }
      pure (encHostStatic ++ encPayload)

/-- HH2/HH3: consume the completion response and derive the session keys. -/
def readCompletionResponse (resp : Bytes) : Io HostHandshake SessionKeys := do
  let self ← Io.own
  let (keyRequest, keyResponse) ← hkdf K self.ck.1 []
  let trezorState ← aeadOpen K keyResponse IV_ZERO [] resp
  pure
    { keyRequest, keyResponse, nonceRequest := 0, nonceResponse := 1, trezorState,
      trezorMaskedStaticPubkey := self.maskedStatic, handshakeHash := self.h,
      hostStaticPubkey := self.staticPub }

end HostHandshake

/-! ## Relations across the handshake -/

/-- A relation that holds across the events of a handshake, which uses the AEAD with two constant IVs. -/
structure AcrossNoise (R : Host γ → Host γ → Prop) : Prop where
  refl : ∀ h, R h h
  trans : ∀ a b c, R a b → R b c → R a c
  derived : ∀ ck key, Comp.Keeps R (Io.note (.derived ck key) : Io γ Unit)
  sealed : ∀ key iv aad plaintext ciphertext, iv = IV_ZERO ∨ iv = IV_ONE →
    Comp.Keeps R (Io.note (.sealed key iv aad plaintext ciphertext) : Io γ Unit)
  opened : ∀ key aad ciphertext plaintext, Comp.Keeps R (Io.note (.opened key IV_ZERO aad ciphertext plaintext) : Io γ Unit)

section Across

variable {K} {R : Host γ → Host γ → Prop}

theorem AcrossNoise.of_crypto (r : AcrossCrypto R) : AcrossNoise R where
  refl := r.refl
  trans := r.trans
  derived _ _ := r.note _ rfl
  sealed _ _ _ _ _ _ := r.note _ rfl
  opened _ _ _ _ := r.note _ rfl

namespace AcrossNoise

theorem aeadSeal (r : AcrossNoise R) (key : Octets 32) {iv : Octets 12} (aad plaintext : Bytes) (fixed : iv = IV_ZERO ∨ iv = IV_ONE) :
    Comp.Keeps R (TrezorCore.aeadSeal K key iv aad plaintext : Io γ _) :=
  .bind r.trans (r.sealed _ _ _ _ _ fixed) fun _ => .pure r.refl _

theorem aeadOpen (r : AcrossNoise R) (key : Octets 32) (aad ciphertext : Bytes) :
    Comp.Keeps R (TrezorCore.aeadOpen K key IV_ZERO aad ciphertext : Io γ _) := by
  refine .bind r.trans (r.opened _ _ _ _) fun _ => ?_
  cases K.aesGcmDecrypt key IV_ZERO aad ciphertext with
  | some plaintext => exact .pure r.refl _
  | none => exact .fail r.refl _

end AcrossNoise

theorem hkdf_across (r : AcrossNoise R) (ck input : Bytes) : Comp.Keeps R (hkdf K ck input : Io γ _) :=
  .bind r.trans (r.derived _ _) fun _ => .pure r.refl _

theorem asArray32_across (r : AcrossNoise R) (bytes : Bytes) : Comp.Keeps R (asArray32 bytes : Io γ _) := by
  rw [asArray32]
  cases Bytes.asOctets 32 bytes with
  | some array => exact .pure r.refl _
  | none => exact .fail r.refl _

variable {S : Host HostHandshake → Host HostHandshake → Prop}

theorem readInitResponse_across (r : AcrossNoise S)
    (modify : ∀ h ck maskedStatic, Comp.Keeps S (Io.modifyOwn fun self => { self with h, ck, maskedStatic })) (resp : Bytes) :
    Comp.Keeps S (HostHandshake.readInitResponse K resp) := by
  unfold HostHandshake.readInitResponse
  by_cases size : resp.length ≠ INIT_RESPONSE_LEN
  · rw [if_pos size]
    exact .fail r.refl _
  · rw [if_neg size]
    refine .bind r.trans r.refl fun self => .bind r.trans (asArray32_across r _) fun ephemeral =>
      .bind r.trans (hkdf_across r _ _) fun keys => .bind r.trans (r.aeadOpen _ _ _) fun masked =>
      .bind r.trans (asArray32_across r _) fun masked => .bind r.trans (hkdf_across r _ _) fun keys =>
      .bind r.trans (r.aeadOpen _ _ _) fun empty => ?_
    by_cases nonempty : empty ≠ []
    · rw [if_pos nonempty]
      exact .fail r.refl _
    · rw [if_neg nonempty]
      exact .bind r.trans (r.aeadSeal _ _ _ (.inr rfl)) fun encHostStatic => .bind r.trans (hkdf_across r _ _) fun keys =>
        .bind r.trans (r.aeadSeal _ _ _ (.inl rfl)) fun encPayload => .bind r.trans (modify _ _ _) fun _ => .pure r.refl _

theorem readCompletionResponse_across (r : AcrossNoise S) (resp : Bytes) :
    Comp.Keeps S (HostHandshake.readCompletionResponse K resp) :=
  .bind r.trans r.refl fun _ => .bind r.trans (hkdf_across r _ _) fun _ =>
    .bind r.trans (r.aeadOpen _ _ _) fun _ => .pure r.refl _

/-- The static key of a handshake stays the host's, -/
theorem readInitResponse_static (resp : Bytes) :
    Comp.Keeps (fun h h' => h'.own.staticPub = h.own.staticPub) (HostHandshake.readInitResponse K resp) :=
  readInitResponse_across (S := fun h h' => h'.own.staticPub = h.own.staticPub)
    (.of_crypto ⟨fun _ => rfl, fun _ _ _ h1 h2 => h2.trans h1, fun _ _ _ => rfl⟩) (fun _ _ _ _ => rfl) resp

/-- and is the one among its keys. The counters start at zero and one. -/
theorem readCompletionResponse_keys (resp : Bytes) (staticPub : Octets 32) :
    Comp.Triple (fun h => h.own.staticPub = staticPub) (HostHandshake.readCompletionResponse K resp)
      (fun keys _ => keys.hostStaticPubkey = staticPub ∧ keys.nonceRequest = 0 ∧ keys.nonceResponse = 1) fun _ => True := by
  intro h static
  rw [HostHandshake.readCompletionResponse, Io.run_own_bind]
  exact Comp.Triple.bind (.constant _) (fun _ => .bind (.constant _) fun _ => .pure _ fun _ static => ⟨static, rfl, rfl⟩) h static

end Across

/-! ## Cryptographic history -/

/-- The outputs of the HKDF steps of a history. -/
def derivations (trace : List Event) : List (Octets 32 × Octets 32) :=
  trace.filterMap fun
    | .derived ck k => some (ck, k)
    | _ => none

/-- One use of the AEAD. -/
structure AeadUse where
  key : Octets 32
  iv : Octets 12
  aad : Bytes
  plaintext : Bytes
  ciphertext : Bytes
  deriving DecidableEq

/-- The seals of a history. -/
def seals (trace : List Event) : List AeadUse :=
  trace.filterMap fun
    | .sealed key iv aad p c => some ⟨key, iv, aad, p, c⟩
    | _ => none

/-- The successful opens of a history. -/
def opens (trace : List Event) : List AeadUse :=
  trace.filterMap fun
    | .opened key iv aad c (some p) => some ⟨key, iv, aad, p, c⟩
    | _ => none

@[simp] theorem derivations_append (a b : List Event) : derivations (a ++ b) = derivations a ++ derivations b :=
  List.filterMap_append

@[simp] theorem seals_append (a b : List Event) : seals (a ++ b) = seals a ++ seals b := List.filterMap_append

/-! ## The responder -/

structure TrezorResponder where
  deviceProperties : Bytes
  staticPriv : Octets 32
  staticPub : Octets 32
  ephemeralPriv : Octets 32
  h : Octets 32
  ck : Octets 32
  k : Octets 32

/-- Mirror of `SessionKeys` on the responder side. -/
structure ResponderResult where
  response : Bytes
  hostStaticPub : Octets 32
  keyRequest : Octets 32
  keyResponse : Octets 32

namespace TrezorResponder

def new (deviceProperties : Bytes) (staticPriv : Octets 32) : TrezorResponder where
  deviceProperties
  staticPriv
  staticPub := K.publicKey staticPriv
  ephemeralPriv := zero32
  h := zero32
  ck := zero32
  k := zero32

/-- The scalar that masks the device's static key. -/
def mask (self : TrezorResponder) (ephemeralPub : Octets 32) : Octets 32 :=
  sha256Concat K [self.staticPub.1, ephemeralPub.1]

/-- TH1: init request to init response. -/
def handleInitRequest (req : Bytes) : Io TrezorResponder Bytes := do
  let hostEphemeralPub ← .unwrap (Bytes.asOctets 32 (req.take PUBKEY_LEN))
  let tryToUnlock ← .unwrap req[PUBKEY_LEN]?
  let ephemeralPriv ← randomScalar
  Io.modifyOwn fun self => { self with ephemeralPriv }
  let self ← Io.own
  let ephemeralPub := K.publicKey self.ephemeralPriv
  let h := sha256Concat K [PROTOCOL_NAME.1, self.deviceProperties]
  let h := sha256Concat K [h.1, hostEphemeralPub.1]
  let h := sha256Concat K [h.1, [tryToUnlock]]
  let h := sha256Concat K [h.1, ephemeralPub.1]
  let (ck, kA) ← hkdf K PROTOCOL_NAME.1 (K.x25519 self.ephemeralPriv hostEphemeralPub).1
  let mask := self.mask K ephemeralPub
  let maskedStatic := K.x25519 mask self.staticPub
  let encStatic ← aeadSeal K kA IV_ZERO h.1 maskedStatic.1
  let h := sha256Concat K [h.1, encStatic]
  let (ck, kB) ← hkdf K ck.1 (K.x25519 mask (K.x25519 self.staticPriv hostEphemeralPub)).1
  let tag ← aeadSeal K kB IV_ZERO h.1 []
  let h := sha256Concat K [h.1, tag]
  Io.modifyOwn fun self => { self with h, ck, k := kB }
  pure (ephemeralPub.1 ++ encStatic ++ tag)

/-- `STATE_UNPAIRED`, opaque to the handshake. -/
def trezorState : Bytes := [0x02]

/-- TH2: completion request to completion response. -/
def handleCompletionRequest (req : Bytes) : Io TrezorResponder ResponderResult := do
  let self ← Io.own
  -- `&req[0..ENC_STATIC_LEN]` panics on a shorter request
  if req.length < ENC_STATIC_LEN then .panic
  else
    let encHostStatic := req.take ENC_STATIC_LEN
    let encPayload := req.drop ENC_STATIC_LEN
    let hostStaticPub ← unwrapped (aeadOpen K self.k IV_ONE self.h.1 encHostStatic)
    let hostStaticPub ← .unwrap (Bytes.asOctets 32 hostStaticPub)
    let h := sha256Concat K [self.h.1, encHostStatic]
    let (ck, kC) ← hkdf K self.ck.1 (K.x25519 self.ephemeralPriv hostStaticPub).1
    let payloadBytes ← unwrapped (aeadOpen K kC IV_ZERO h.1 encPayload)
    let _ ← .unwrap (K.completionPayload.decode payloadBytes).toOption
    let (keyRequest, keyResponse) ← hkdf K ck.1 []
    let response ← aeadSeal K keyResponse IV_ZERO [] trezorState
    pure { response, hostStaticPub, keyRequest, keyResponse }
where
  /-- `unwrap` on the result of a call. -/
  unwrapped {α : Type} (x : Io TrezorResponder α) : Io TrezorResponder α := ⟨fun h =>
    match x.run h with
    | (.err _, h') => (.panicked, h')
    | r => r⟩

end TrezorResponder

end Noise

end TrezorCore
