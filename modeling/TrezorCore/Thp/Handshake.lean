import TrezorCore.Thp.Noise

/-!
# Handshake agreement

What the handshake is meant to compute is a `Script`: one sequence of transcript hashes,
HKDF steps and ciphertexts, written down once from the four secrets. Each of the four calls
of `HostHandshake` and `TrezorResponder` is shown to follow it, the host by definition and
the responder through the commutation of scalar multiplication; agreement is then read off
the script (`handshake_agreement`).
-/

namespace TrezorCore.Noise

variable (K : Crates)

/-- What the two parties bring to a handshake. -/
structure Secrets where
  deviceProperties : Bytes
  tryToUnlock : UInt8
  hostEphemeral : Octets 32
  hostStatic : Octets 32
  deviceEphemeral : Octets 32
  deviceStatic : Octets 32
  credential : Option Bytes

namespace Secrets

variable (p : Secrets)

def h3 : Octets 32 :=
  let h0 := sha256Concat K [PROTOCOL_NAME.1, p.deviceProperties]
  let h1 := sha256Concat K [h0.1, (K.publicKey p.hostEphemeral).1]
  let h2 := sha256Concat K [h1.1, [p.tryToUnlock]]
  sha256Concat K [h2.1, (K.publicKey p.deviceEphemeral).1]

/-- First HKDF step: the two ephemeral keys. -/
def step1 : Octets 32 × Octets 32 :=
  hkdfOutputs K PROTOCOL_NAME.1 (K.x25519 p.hostEphemeral (K.publicKey p.deviceEphemeral)).1

def mask : Octets 32 := sha256Concat K [(K.publicKey p.deviceStatic).1, (K.publicKey p.deviceEphemeral).1]

/-- The device's static key as the host sees it. -/
def maskedStatic : Octets 32 := K.x25519 (p.mask K) (K.publicKey p.deviceStatic)

def encStatic : Bytes := K.aesGcmEncrypt (p.step1 K).2 IV_ZERO (p.h3 K).1 (p.maskedStatic K).1

def h4 : Octets 32 := sha256Concat K [(p.h3 K).1, p.encStatic K]

/-- Second step: the host's ephemeral key and the masked static key, a triple product. -/
def step2 : Octets 32 × Octets 32 :=
  hkdfOutputs K (p.step1 K).1.1 (K.x25519 p.hostEphemeral (p.maskedStatic K)).1

def tag : Bytes := K.aesGcmEncrypt (p.step2 K).2 IV_ZERO (p.h4 K).1 []

def h5 : Octets 32 := sha256Concat K [(p.h4 K).1, p.tag K]

def encHostStatic : Bytes := K.aesGcmEncrypt (p.step2 K).2 IV_ONE (p.h5 K).1 (K.publicKey p.hostStatic).1

def h6 : Octets 32 := sha256Concat K [(p.h5 K).1, p.encHostStatic K]

/-- Third step: the host's static and the device's ephemeral key. -/
def step3 : Octets 32 × Octets 32 :=
  hkdfOutputs K (p.step2 K).1.1 (K.x25519 p.hostStatic (K.publicKey p.deviceEphemeral)).1

def payload : Bytes := K.completionPayload.encode ⟨p.credential⟩

def encPayload : Bytes := K.aesGcmEncrypt (p.step3 K).2 IV_ZERO (p.h6 K).1 (p.payload K)

def h7 : Octets 32 := sha256Concat K [(p.h6 K).1, p.encPayload K]

/-- Last step: `key_request` and `key_response`. -/
def step4 : Octets 32 × Octets 32 := hkdfOutputs K (p.step3 K).1.1 []

def response : Bytes := K.aesGcmEncrypt (p.step4 K).2 IV_ZERO [] TrezorResponder.trezorState

/-! ### The history of each call -/

def deviceInitEvents : List Event :=
  [.derived (p.step1 K).1 (p.step1 K).2,
    .sealed (p.step1 K).2 IV_ZERO (p.h3 K).1 (p.maskedStatic K).1 (p.encStatic K),
    .derived (p.step2 K).1 (p.step2 K).2,
    .sealed (p.step2 K).2 IV_ZERO (p.h4 K).1 [] (p.tag K)]

def hostInitEvents : List Event :=
  [.derived (p.step1 K).1 (p.step1 K).2,
    .opened (p.step1 K).2 IV_ZERO (p.h3 K).1 (p.encStatic K) (some (p.maskedStatic K).1),
    .derived (p.step2 K).1 (p.step2 K).2,
    .opened (p.step2 K).2 IV_ZERO (p.h4 K).1 (p.tag K) (some []),
    .sealed (p.step2 K).2 IV_ONE (p.h5 K).1 (K.publicKey p.hostStatic).1 (p.encHostStatic K),
    .derived (p.step3 K).1 (p.step3 K).2,
    .sealed (p.step3 K).2 IV_ZERO (p.h6 K).1 (p.payload K) (p.encPayload K)]

def deviceCompletionEvents : List Event :=
  [.opened (p.step2 K).2 IV_ONE (p.h5 K).1 (p.encHostStatic K) (some (K.publicKey p.hostStatic).1),
    .derived (p.step3 K).1 (p.step3 K).2,
    .opened (p.step3 K).2 IV_ZERO (p.h6 K).1 (p.encPayload K) (some (p.payload K)),
    .derived (p.step4 K).1 (p.step4 K).2,
    .sealed (p.step4 K).2 IV_ZERO [] TrezorResponder.trezorState (p.response K)]

def hostCompletionEvents : List Event :=
  [.derived (p.step4 K).1 (p.step4 K).2,
    .opened (p.step4 K).2 IV_ZERO [] (p.response K) (some TrezorResponder.trezorState)]

/-! ### The states between the calls -/

def hostStart : HostHandshake :=
  .withEphemeral K p.deviceProperties p.tryToUnlock p.hostStatic p.credential p.hostEphemeral

def hostMiddle : HostHandshake :=
  { p.hostStart K with h := p.h7 K, ck := (p.step3 K).1, maskedStatic := p.maskedStatic K }

def deviceMiddle : TrezorResponder :=
  { TrezorResponder.new K p.deviceProperties p.deviceStatic with
    ephemeralPriv := p.deviceEphemeral, h := p.h5 K, ck := (p.step2 K).1, k := (p.step2 K).2 }

end Secrets

/-! ## The four calls follow the script -/

section Calls

variable {K} {base : Octets 32} {p : Secrets}

theorem dh_ephemeral (dh : K.toCrypto.X25519Laws base) (a b : Octets 32) :
    K.x25519 a (K.publicKey b) = K.x25519 b (K.publicKey a) := by
  rw [dh.publicKey_eq, dh.publicKey_eq, dh.comm]

/-- The triple product of the masked static key. -/
theorem dh_masked (dh : K.toCrypto.X25519Laws base) (m s e : Octets 32) :
    K.x25519 m (K.x25519 s (K.publicKey e)) = K.x25519 e (K.x25519 m (K.publicKey s)) := by
  rw [dh_ephemeral dh s e, dh.comm m e]

/-- TH1. -/
theorem handleInitRequest_run (dh : K.toCrypto.X25519Laws base) (w : Wire)
    (drawn : List.Vector.ofFn (fun i => w.entropy (w.drawn + i)) = p.deviceEphemeral) :
    (TrezorResponder.handleInitRequest K (p.hostStart K).initRequestPayload).run
      ⟨.new K p.deviceProperties p.deviceStatic, w⟩ =
    (.ok ((K.publicKey p.deviceEphemeral).1 ++ p.encStatic K ++ p.tag K),
      ⟨p.deviceMiddle K, { w with drawn := w.drawn + 32 }.logAll (p.deviceInitEvents K)⟩) := by
  have key : Bytes.asOctets 32 ((p.hostStart K).initRequestPayload.take PUBKEY_LEN) =
      some (K.publicKey p.hostEphemeral) := by
    have cut : (p.hostStart K).initRequestPayload.take PUBKEY_LEN = (K.publicKey p.hostEphemeral).1 :=
      List.take_left' (K.publicKey p.hostEphemeral).2
    rw [cut, Bytes.asOctets_val]
  have unlock : (p.hostStart K).initRequestPayload[PUBKEY_LEN]? = some p.tryToUnlock := by
    have len : (K.publicKey p.hostEphemeral).1.length = PUBKEY_LEN := (K.publicKey p.hostEphemeral).2
    exact (congrArg (fun n => ((K.publicKey p.hostEphemeral).1 ++ [p.tryToUnlock])[n]?) len.symm).trans
      List.getElem?_concat_length
  simp only [TrezorResponder.handleInitRequest, key, unlock, Comp.unwrap_some, Comp.pure_bind, randomScalar,
    Io.run_getrandom_bind, drawn, Io.run_modifyOwn_bind, Io.run_own_bind, TrezorResponder.new, run_hkdf_bind,
    run_aeadSeal_bind, TrezorResponder.mask, dh_ephemeral dh p.deviceEphemeral p.hostEphemeral,
    dh_masked dh _ p.deviceStatic p.hostEphemeral]
  simp only [Wire.log_eq, Wire.logAll_logAll]
  rfl

theorem asArray32_val {γ : Type} (v : Octets 32) : (asArray32 v.1 : Io γ (Octets 32)) = pure v := by
  simp [asArray32]

/-- HH1. -/
theorem readInitResponse_run (aead : K.toCrypto.AeadLaws) (w : Wire) :
    (HostHandshake.readInitResponse K ((K.publicKey p.deviceEphemeral).1 ++ p.encStatic K ++ p.tag K)).run
      ⟨p.hostStart K, w⟩ =
    (.ok (p.encHostStatic K ++ p.encPayload K), ⟨p.hostMiddle K, w.logAll (p.hostInitEvents K)⟩) := by
  have keyLen : (K.publicKey p.deviceEphemeral).1.length = PUBKEY_LEN := (K.publicKey p.deviceEphemeral).2
  have staticLen : (p.encStatic K).length = ENC_STATIC_LEN := by
    rw [Secrets.encStatic, aead.length_encrypt, (p.maskedStatic K).2]
    rfl
  have tagLen : (p.tag K).length = TAG_LEN := aead.length_encrypt _ _ _ []
  have size : ¬ ((K.publicKey p.deviceEphemeral).1 ++ p.encStatic K ++ p.tag K).length ≠ INIT_RESPONSE_LEN := by
    simp only [List.length_append, keyLen, staticLen, tagLen, INIT_RESPONSE_LEN, ne_eq, not_true_eq_false,
      not_false_eq_true]
  have key : ((K.publicKey p.deviceEphemeral).1 ++ p.encStatic K ++ p.tag K).take PUBKEY_LEN =
      (K.publicKey p.deviceEphemeral).1 := by
    rw [List.append_assoc]
    exact List.take_left' keyLen
  have static : (((K.publicKey p.deviceEphemeral).1 ++ p.encStatic K ++ p.tag K).drop PUBKEY_LEN).take
      ENC_STATIC_LEN = p.encStatic K := by
    rw [List.append_assoc, List.drop_left' keyLen]
    exact List.take_left' staticLen
  have tag : ((K.publicKey p.deviceEphemeral).1 ++ p.encStatic K ++ p.tag K).drop (PUBKEY_LEN + ENC_STATIC_LEN) =
      p.tag K :=
    List.drop_left' (by rw [List.length_append, keyLen, staticLen])
  have openStatic : K.aesGcmDecrypt (p.step1 K).2 IV_ZERO (p.h3 K).1 (p.encStatic K) = some (p.maskedStatic K).1 :=
    aead.decrypt_encrypt _ _ _ _
  have openTag : K.aesGcmDecrypt (p.step2 K).2 IV_ZERO (p.h4 K).1 (p.tag K) = some [] := aead.decrypt_encrypt _ _ _ _
  simp only [HostHandshake.readInitResponse, if_neg size, Io.run_own_bind, key, static, tag, asArray32_val,
    Comp.pure_bind, run_hkdf_bind]
  -- the transcript and the first two keys, as the script names them
  refine (run_aeadOpen_bind openStatic _ _).trans ?_
  simp only [asArray32_val, Comp.pure_bind, run_hkdf_bind]
  refine (run_aeadOpen_bind openTag _ _).trans ?_
  simp only [ne_eq, not_true_eq_false, if_false, run_aeadSeal_bind, run_hkdf_bind, Io.run_modifyOwn_bind,
    Comp.run_pure, Wire.log_eq, Wire.logAll_logAll]
  rfl

theorem run_unwrapped_open {β : Type} {key : Octets 32} {iv : Octets 12} {aad ciphertext plaintext : Bytes}
    (opens : K.aesGcmDecrypt key iv aad ciphertext = some plaintext) (f : Bytes → Io TrezorResponder β)
    (h : Host TrezorResponder) :
    (TrezorResponder.handleCompletionRequest.unwrapped (aeadOpen K key iv aad ciphertext) >>= f).run h =
      (f plaintext).run ⟨h.own, h.wire.log (.opened key iv aad ciphertext (some plaintext))⟩ := by
  simp [TrezorResponder.handleCompletionRequest.unwrapped, aeadOpen, opens, Comp.run_bind]

/-- TH2. -/
theorem handleCompletionRequest_run (dh : K.toCrypto.X25519Laws base) (aead : K.toCrypto.AeadLaws)
    (decodes : K.completionPayload.decode (p.payload K) = .ok ⟨p.credential⟩) (w : Wire) :
    (TrezorResponder.handleCompletionRequest K (p.encHostStatic K ++ p.encPayload K)).run ⟨p.deviceMiddle K, w⟩ =
    (.ok ⟨p.response K, K.publicKey p.hostStatic, (p.step4 K).1, (p.step4 K).2⟩,
      ⟨p.deviceMiddle K, w.logAll (p.deviceCompletionEvents K)⟩) := by
  have staticLen : (p.encHostStatic K).length = ENC_STATIC_LEN := by
    rw [Secrets.encHostStatic, aead.length_encrypt, (K.publicKey p.hostStatic).2]
    rfl
  have size : ¬ (p.encHostStatic K ++ p.encPayload K).length < ENC_STATIC_LEN := by
    rw [List.length_append]
    omega
  have static : (p.encHostStatic K ++ p.encPayload K).take ENC_STATIC_LEN = p.encHostStatic K :=
    List.take_left' staticLen
  have payload : (p.encHostStatic K ++ p.encPayload K).drop ENC_STATIC_LEN = p.encPayload K :=
    List.drop_left' staticLen
  have openStatic : K.aesGcmDecrypt (p.step2 K).2 IV_ONE (p.h5 K).1 (p.encHostStatic K) =
      some (K.publicKey p.hostStatic).1 := aead.decrypt_encrypt _ _ _ _
  have openPayload : K.aesGcmDecrypt (p.step3 K).2 IV_ZERO (p.h6 K).1 (p.encPayload K) = some (p.payload K) :=
    aead.decrypt_encrypt _ _ _ _
  simp only [TrezorResponder.handleCompletionRequest, if_neg size, Io.run_own_bind, static, payload]
  refine (run_unwrapped_open openStatic _ _).trans ?_
  simp only [Bytes.asOctets_val, Comp.unwrap_some, Comp.pure_bind, run_hkdf_bind, Secrets.deviceMiddle,
    dh_ephemeral dh p.deviceEphemeral p.hostStatic]
  refine (run_unwrapped_open openPayload _ _).trans ?_
  simp only [decodes, Except.toOption, Comp.unwrap_some, Comp.pure_bind, run_hkdf_bind, run_aeadSeal_bind,
    Comp.run_pure, Wire.log_eq, Wire.logAll_logAll]
  rfl

/-- HH2 and HH3. -/
theorem readCompletionResponse_run (aead : K.toCrypto.AeadLaws) (w : Wire) :
    (HostHandshake.readCompletionResponse K (p.response K)).run ⟨p.hostMiddle K, w⟩ =
    (.ok { keyRequest := (p.step4 K).1, keyResponse := (p.step4 K).2, nonceRequest := 0, nonceResponse := 1,
           trezorState := TrezorResponder.trezorState, trezorMaskedStaticPubkey := p.maskedStatic K,
           handshakeHash := p.h7 K, hostStaticPubkey := K.publicKey p.hostStatic },
      ⟨p.hostMiddle K, w.logAll (p.hostCompletionEvents K)⟩) := by
  have openState : K.aesGcmDecrypt (p.step4 K).2 IV_ZERO [] (p.response K) = some TrezorResponder.trezorState :=
    aead.decrypt_encrypt _ _ _ _
  simp only [HostHandshake.readCompletionResponse, Io.run_own_bind, run_hkdf_bind]
  refine (run_aeadOpen_bind openState _ _).trans ?_
  simp only [Comp.run_pure, Wire.log_eq, Wire.logAll_logAll]
  rfl

end Calls

/-! ## Agreement -/

/-- What the two sides end up with, and what each of them did. -/
structure Ended where
  keys : SessionKeys
  result : ResponderResult
  host : HostHandshake
  device : TrezorResponder
  hostHistory : List Event
  deviceHistory : List Event

/-- The host and the responder, message by message. -/
def exchange (host : HostHandshake) (device : TrezorResponder) : Io Unit Ended := do
  let ((initResponse, device), d1) ←
    Io.recorded (Io.runOwned (TrezorResponder.handleInitRequest K host.initRequestPayload) device)
  let ((completionRequest, host), h1) ← Io.recorded (Io.runOwned (HostHandshake.readInitResponse K initResponse) host)
  let ((result, device), d2) ←
    Io.recorded (Io.runOwned (TrezorResponder.handleCompletionRequest K completionRequest) device)
  let ((keys, host), h2) ← Io.recorded (Io.runOwned (HostHandshake.readCompletionResponse K result.response) host)
  pure ⟨keys, result, host, device, h1 ++ h2, d1 ++ d2⟩

/-- The handshake did what it is for. -/
structure Agreement (p : Secrets) (e : Ended) : Prop where
  /-- The same four HKDF steps; the third gives the final chaining key, the last the keys. -/
  derived : ∃ d1 d2 d3, derivations e.hostHistory = [d1, d2, d3, (e.keys.keyRequest, e.keys.keyResponse)] ∧
    derivations e.deviceHistory = [d1, d2, d3, (e.result.keyRequest, e.result.keyResponse)] ∧ e.host.ck = d3.1
  keyRequest : e.keys.keyRequest = e.result.keyRequest
  keyResponse : e.keys.keyResponse = e.result.keyResponse
  /-- Each side opened what the other sealed, under the same key, IV and transcript hash. -/
  fromDevice : opens e.hostHistory = seals e.deviceHistory
  fromHost : opens e.deviceHistory = seals e.hostHistory
  hostStatic : e.result.hostStaticPub = K.publicKey p.hostStatic
  credential : ∃ use, (opens e.deviceHistory).getLast? = some use ∧
    K.completionPayload.decode use.plaintext = .ok ⟨p.credential⟩
  maskedStatic : e.keys.trezorMaskedStaticPubkey =
    K.x25519 (sha256Concat K [(K.publicKey p.deviceStatic).1, (K.publicKey p.deviceEphemeral).1])
      (K.publicKey p.deviceStatic)
  state : e.keys.trezorState = TrezorResponder.trezorState

theorem recorded_ok {γ δ α : Type} {x : Io δ α} {d d' : δ} {w w' : Wire} {a : α} {events : List Event} {g : γ}
    (run : x.run ⟨d, w⟩ = (.ok a, ⟨d', w'.logAll events⟩)) (same : w'.trace = w.trace) :
    (Io.recorded (Io.runOwned x d)).run ⟨g, w⟩ = (.ok ((a, d'), events), ⟨g, w'.logAll events⟩) := by
  simp only [Io.recorded, Io.runOwned, run, Wire.logAll, same, List.drop_left]

/-- **Handshake agreement.** With the laws of X25519 and AES-GCM, and a credential message
that decodes to itself, the handshake always completes and the two sides agree. -/
theorem handshake_agreement (K : Crates) {base : Octets 32} (dh : K.toCrypto.X25519Laws base)
    (aead : K.toCrypto.AeadLaws) (p : Secrets)
    (decodes : K.completionPayload.decode (K.completionPayload.encode ⟨p.credential⟩) = .ok ⟨p.credential⟩) (w : Wire)
    (drawn : List.Vector.ofFn (fun i => w.entropy (w.drawn + i)) = p.deviceEphemeral) :
    ∃ e w', (exchange K
        (.withEphemeral K p.deviceProperties p.tryToUnlock p.hostStatic p.credential p.hostEphemeral)
        (.new K p.deviceProperties p.deviceStatic)).run ⟨(), w⟩ = (.ok e, ⟨(), w'⟩) ∧ Agreement K p e := by
  have init := recorded_ok (g := ()) (handleInitRequest_run dh w drawn) rfl
  have request := fun w => recorded_ok (g := ()) (readInitResponse_run (p := p) aead w) rfl
  have completion := fun w => recorded_ok (g := ()) (handleCompletionRequest_run dh aead decodes w) rfl
  have response := fun w => recorded_ok (g := ()) (readCompletionResponse_run (p := p) aead w) rfl
  refine ⟨_, _, (Comp.bind_ok init).trans ((Comp.bind_ok (request _)).trans ((Comp.bind_ok (completion _)).trans
    (Comp.bind_ok (response _)))), ?_⟩
  constructor
  · exact ⟨p.step1 K, p.step2 K, p.step3 K, rfl, rfl, rfl⟩
  · rfl
  · rfl
  · rfl
  · rfl
  · rfl
  · exact ⟨_, rfl, decodes⟩
  · rfl
  · rfl

/-- The smallest handshake of the small instance. -/
def sampleSecrets : Secrets where
  deviceProperties := [8, 1]
  tryToUnlock := 0
  hostEphemeral := List.Vector.replicate 32 3
  hostStatic := List.Vector.replicate 32 5
  deviceEphemeral := List.Vector.replicate 32 0
  deviceStatic := List.Vector.replicate 32 7
  credential := some [1, 2, 3]

theorem handshake_agreement_sample :
    ∃ e w', (exchange Crates.toy
        (.withEphemeral Crates.toy sampleSecrets.deviceProperties sampleSecrets.tryToUnlock sampleSecrets.hostStatic
          sampleSecrets.credential sampleSecrets.hostEphemeral)
        (.new Crates.toy sampleSecrets.deviceProperties sampleSecrets.deviceStatic)).run ⟨(), Wire.quiet⟩ =
        (.ok e, ⟨(), w'⟩) ∧ Agreement Crates.toy sampleSecrets e :=
  handshake_agreement Crates.toy Crypto.toy_x25519 Crypto.toy_aead sampleSecrets rfl Wire.quiet (by decide +kernel)

end TrezorCore.Noise
