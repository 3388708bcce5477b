import TrezorCore.Lib.HashChain
import TrezorCore.Thp.Handshake

/-!
# Transcript binding

The first ciphertext of an init response is sealed under the hash of everything both sides
have said so far. Values that leave the Diffie-Hellman keys alone, the advertised device
properties, the unlock byte and the unused bit of a point among them, are bound by that
hash and by nothing else. The host opens this ciphertext before it does anything with the
response, so a host with another transcript stops there, with nothing changed.
-/

namespace TrezorCore.Noise

variable (K : Crates)

/-- What the transcript hash of the init response covers. -/
structure Transcript where
  deviceProperties : Bytes
  hostEphemeral : Octets 32
  tryToUnlock : UInt8
  deviceEphemeral : Octets 32
  deriving DecidableEq

namespace Transcript

def fields (t : Transcript) : List Bytes :=
  [t.deviceProperties, t.hostEphemeral.1, [t.tryToUnlock], t.deviceEphemeral.1]

def hash (t : Transcript) : Octets 32 := HashChain.chain K.sha256 PROTOCOL_NAME t.fields

/-- The inputs hashed for it. -/
def inputs (t : Transcript) : List Bytes := HashChain.inputs K.sha256 PROTOCOL_NAME t.fields

theorem fields_inj {t t' : Transcript} (h : t.fields = t'.fields) : t = t' := by
  obtain ⟨properties, host, unlock, device⟩ := t
  obtain ⟨properties', host', unlock', device'⟩ := t'
  simp only [fields, List.cons.injEq, and_true] at h
  obtain ⟨rfl, hh, rfl, hd⟩ := h
  rw [Subtype.ext hh, Subtype.ext hd]

/-- The transcript hash binds the transcript. -/
theorem hash_inj {K : Crates} {t t' : Transcript} (sha : Set.InjOn K.sha256 {x | x ∈ t.inputs K ++ t'.inputs K})
    (h : t.hash K = t'.hash K) : t = t' := by
  obtain ⟨_, same⟩ := HashChain.chain_inj sha rfl h
  exact fields_inj same

end Transcript

/-- The transcript of a host that read this key from an init response. -/
def HostHandshake.transcript (host : HostHandshake) (deviceEphemeral : Octets 32) : Transcript :=
  ⟨host.deviceProperties, host.ephemeralPub, host.tryToUnlock, deviceEphemeral⟩

/-- AES-GCM opened a ciphertext of one side only under the key, IV and AAD it was sealed with. -/
def OpensAsSealed (sealer opener : List Event) : Prop :=
  ∀ u ∈ seals sealer, ∀ o ∈ opens opener, o.ciphertext = u.ciphertext → o.key = u.key ∧ o.iv = u.iv ∧ o.aad = u.aad

/-! ## The responder's ciphertext -/

section Device

variable {K}

/-- The four steps in which either side computes the hash. -/
theorem Transcript.hash_eq (properties : Bytes) (host : Octets 32) (unlock : UInt8) (device : Octets 32) :
    sha256Concat K [(sha256Concat K [(sha256Concat K [(sha256Concat K [PROTOCOL_NAME.1, properties]).1, host.1]).1,
      [unlock]]).1, device.1] = (⟨properties, host, unlock, device⟩ : Transcript).hash K := by
  simp only [hash, fields, HashChain.chain, sha256Concat, List.flatten_cons, List.flatten_nil, List.append_nil]

/-- The masked static key, sealed under a transcript. -/
def Transcript.sealStatic (K : Crates) (t : Transcript) (key masked : Octets 32) : AeadUse :=
  ⟨key, IV_ZERO, (t.hash K).1, masked.1, K.aesGcmEncrypt key IV_ZERO (t.hash K).1 masked.1⟩

/-- An init response is a key, the masked static key sealed under the transcript, and a tag. -/
theorem handleInitRequest_ok {device : TrezorResponder} {hostEphemeral : Octets 32} {unlock : UInt8} {rest R : Bytes}
    {w : Wire} {hd : Host TrezorResponder}
    (answered : (TrezorResponder.handleInitRequest K (hostEphemeral.1 ++ unlock :: rest)).run ⟨device, w⟩ = (.ok R, hd)) :
    ∃ key masked key' aad,
      (⟨device.deviceProperties, hostEphemeral, unlock, K.publicKey hd.own.ephemeralPriv⟩ : Transcript).sealStatic K
          key masked ∈ seals hd.wire.trace ∧
        R = (K.publicKey hd.own.ephemeralPriv).1 ++
          ((⟨device.deviceProperties, hostEphemeral, unlock, K.publicKey hd.own.ephemeralPriv⟩ : Transcript).sealStatic K
            key masked).ciphertext ++ K.aesGcmEncrypt key' IV_ZERO aad [] := by
  have key : Bytes.asOctets 32 ((hostEphemeral.1 ++ unlock :: rest).take PUBKEY_LEN) = some hostEphemeral := by
    have cut : (hostEphemeral.1 ++ unlock :: rest).take PUBKEY_LEN = hostEphemeral.1 := List.take_left' hostEphemeral.2
    rw [cut, Bytes.asOctets_val]
  have byte : (hostEphemeral.1 ++ unlock :: rest)[PUBKEY_LEN]? = some unlock := by
    have len : hostEphemeral.1.length = PUBKEY_LEN := hostEphemeral.2
    rw [← len, List.getElem?_append_right (Nat.le_refl _), Nat.sub_self]
    rfl
  simp only [TrezorResponder.handleInitRequest, key, byte, Comp.unwrap_some, Comp.pure_bind, randomScalar,
    Io.run_getrandom_bind, Io.run_modifyOwn_bind, Io.run_own_bind, Transcript.hash_eq, run_hkdf_bind, run_aeadSeal_bind,
    Comp.run_pure] at answered
  cases answered
  refine ⟨_, _, _, _, ?_, rfl⟩
  simp only [Wire.log_trace, seals_append, List.mem_append]
  exact .inl (.inl (.inr (List.mem_singleton.2 rfl)))

end Device

/-! ## The host's first step -/

section Host

variable {K}

/-- The history only grows. -/
def Grows {γ : Type} (h h' : Host γ) : Prop := h.wire.trace <+: h'.wire.trace

theorem Grows.refl {γ : Type} (h : Host γ) : Grows h h := List.prefix_refl _

theorem Grows.trans {γ : Type} (a b c : Host γ) (h1 : Grows a b) (h2 : Grows b c) : Grows a c :=
  List.IsPrefix.trans h1 h2

theorem Grows.across {γ : Type} : AcrossCrypto (Grows (γ := γ)) :=
  ⟨Grows.refl, Grows.trans, fun _ _ _ => List.prefix_append _ _⟩

/-- What was opened before stays in the history. -/
theorem opens_after {γ α : Type} {x : Io γ α} {s : Host γ} {u : AeadUse} (grows : Comp.Keeps Grows x)
    (seen : u ∈ opens s.wire.trace) : u ∈ opens (x.run s).2.wire.trace :=
  ((grows s).sublist.filterMap _).subset seen

/-- The key the host opens the masked static key with. -/
def HostHandshake.staticKey (K : Crates) (host : HostHandshake) (deviceEphemeral : Octets 32) : Octets 32 :=
  (hkdfOutputs K PROTOCOL_NAME.1 (K.x25519 host.ephemeralPriv deviceEphemeral).1).2

variable {host : HostHandshake} {deviceEphemeral : Octets 32} {encStatic tag : Bytes} {w : Wire}

/-- A response of the right length comes apart into its three fields. -/
theorem init_response_fields (deviceEphemeral : Octets 32) (static : encStatic.length = ENC_STATIC_LEN) (last : tag.length = TAG_LEN) :
    (deviceEphemeral.1 ++ encStatic ++ tag).length = INIT_RESPONSE_LEN ∧
      (deviceEphemeral.1 ++ encStatic ++ tag).take PUBKEY_LEN = deviceEphemeral.1 ∧
      ((deviceEphemeral.1 ++ encStatic ++ tag).drop PUBKEY_LEN).take ENC_STATIC_LEN = encStatic := by
  have keyLen : deviceEphemeral.1.length = PUBKEY_LEN := deviceEphemeral.2
  refine ⟨?_, ?_, ?_⟩
  · rw [List.length_append, List.length_append, keyLen, static, last]
    rfl
  · rw [List.append_assoc]
    exact List.take_left' keyLen
  · rw [List.append_assoc, List.drop_left' keyLen]
    exact List.take_left' static

/-- The ciphertext is rejected: nothing else happens. -/
theorem readInitResponse_rejects (static : encStatic.length = ENC_STATIC_LEN) (last : tag.length = TAG_LEN)
    (rejects : K.aesGcmDecrypt (host.staticKey K deviceEphemeral) IV_ZERO
      ((host.transcript deviceEphemeral).hash K).1 encStatic = none) :
    ∃ e w', (HostHandshake.readInitResponse K (deviceEphemeral.1 ++ encStatic ++ tag)).run ⟨host, w⟩ = (.err e, ⟨host, w'⟩) ∧
      seals w'.trace = seals w.trace := by
  obtain ⟨size, key, field⟩ := init_response_fields deviceEphemeral static last
  simp only [HostHandshake.readInitResponse, if_neg (not_not.2 size), Io.run_own_bind, key, field, asArray32_val,
    Comp.pure_bind, Transcript.hash_eq, run_hkdf_bind]
  refine ⟨_, _, run_aeadOpen_bind_none rejects _ _, ?_⟩
  simp only [Wire.log_trace, seals_append]
  simp [seals]

/-- The ciphertext is accepted: the host's history shows the key, IV and AAD. -/
theorem readInitResponse_opens (static : encStatic.length = ENC_STATIC_LEN) (last : tag.length = TAG_LEN) {p : Bytes}
    (accepts : K.aesGcmDecrypt (host.staticKey K deviceEphemeral) IV_ZERO
      ((host.transcript deviceEphemeral).hash K).1 encStatic = some p) :
    ⟨host.staticKey K deviceEphemeral, IV_ZERO, ((host.transcript deviceEphemeral).hash K).1, p, encStatic⟩ ∈
      opens ((HostHandshake.readInitResponse K (deviceEphemeral.1 ++ encStatic ++ tag)).run ⟨host, w⟩).2.wire.trace := by
  obtain ⟨size, key, field⟩ := init_response_fields deviceEphemeral static last
  simp only [HostHandshake.readInitResponse, if_neg (not_not.2 size), Io.run_own_bind, key, field, asArray32_val,
    Comp.pure_bind, Transcript.hash_eq, run_hkdf_bind]
  simp only [HostHandshake.staticKey, HostHandshake.transcript] at accepts ⊢
  rw [run_aeadOpen_bind accepts]
  -- whatever comes next only adds to the history
  refine opens_after ?_ (by simp [opens, Wire.log])
  have r : AcrossCrypto (Grows (γ := HostHandshake)) := Grows.across
  refine .bind r.trans (asArray32_across (.of_crypto r) _) fun masked => .bind r.trans (hkdf_across (.of_crypto r) _ _) fun keys =>
    .bind r.trans (r.aeadOpen _ _ _ _) fun empty => ?_
  by_cases nonempty : empty ≠ []
  · rw [if_pos nonempty]
    exact .fail r.refl _
  · rw [if_neg nonempty]
    refine .bind r.trans (r.aeadSeal _ _ _ _) fun encHostStatic => .bind r.trans (hkdf_across (.of_crypto r) _ _) fun keys =>
      .bind r.trans (r.aeadSeal _ _ _ _) fun encPayload => .bind r.trans ?_ fun _ => .pure r.refl _
    exact fun _ => List.prefix_refl _

end Host

/-- **Transcript binding.** A host whose device properties, ephemeral key or unlock byte are
not those the responder answered to, or that is handed another ephemeral key of the device
than the responder sent, rejects the response: no completion request, nothing sealed and
its state as before. Assumed: SHA-256 is injective on what the two transcripts hash, an
AES-GCM ciphertext is 16 bytes longer than its plaintext, and the host's opens accept a
ciphertext of the device only as it was sealed. -/
theorem transcript_binding (K : Crates) (device : TrezorResponder) (hostEphemeral : Octets 32) (unlock : UInt8)
    (rest R : Bytes) (wd : Wire) (hd : Host TrezorResponder)
    (answered : (TrezorResponder.handleInitRequest K (hostEphemeral.1 ++ unlock :: rest)).run ⟨device, wd⟩ = (.ok R, hd))
    (host : HostHandshake) (wh : Wire) (ephemeral : Octets 32)
    (sha : Set.InjOn K.sha256 {x | x ∈ (host.transcript ephemeral).inputs K ++
      (⟨device.deviceProperties, hostEphemeral, unlock, K.publicKey hd.own.ephemeralPriv⟩ : Transcript).inputs K})
    (tag : ∀ key iv aad plaintext, (K.aesGcmEncrypt key iv aad plaintext).length = plaintext.length + 16)
    (aead : OpensAsSealed hd.wire.trace
      ((HostHandshake.readInitResponse K (ephemeral.1 ++ R.drop 32)).run ⟨host, wh⟩).2.wire.trace)
    (differs : device.deviceProperties ≠ host.deviceProperties ∨ hostEphemeral ≠ host.ephemeralPub ∨
      unlock ≠ host.tryToUnlock ∨ R.take 32 ≠ ephemeral.1) :
    ∃ e w', (HostHandshake.readInitResponse K (ephemeral.1 ++ R.drop 32)).run ⟨host, wh⟩ = (.err e, ⟨host, w'⟩) ∧
      seals w'.trace = seals wh.trace := by
  obtain ⟨key, masked, key', aad, sealed, rfl⟩ := handleInitRequest_ok answered
  have keyLen : (K.publicKey hd.own.ephemeralPriv).1.length = 32 := (K.publicKey hd.own.ephemeralPriv).2
  rw [List.append_assoc, List.take_left' keyLen] at differs
  rw [List.append_assoc, List.drop_left' keyLen, ← List.append_assoc] at aead ⊢
  generalize hu : Transcript.sealStatic K _ key masked = u at sealed aead ⊢
  have staticLen : u.ciphertext.length = ENC_STATIC_LEN := by
    rw [← hu]
    exact (tag _ _ _ _).trans (congrArg (· + 16) masked.2)
  have tagLen : (K.aesGcmEncrypt key' IV_ZERO aad []).length = TAG_LEN := tag _ _ _ []
  rcases opened : K.aesGcmDecrypt (host.staticKey K ephemeral) IV_ZERO ((host.transcript ephemeral).hash K).1 u.ciphertext
    with _ | p
  · exact readInitResponse_rejects staticLen tagLen opened
  · -- an accepted ciphertext was sealed under the host's own transcript
    obtain ⟨_, _, same⟩ := aead u sealed _ (readInitResponse_opens staticLen tagLen opened) rfl
    rw [← hu] at same
    have equal := Transcript.hash_inj sha (Subtype.ext same)
    simp only [HostHandshake.transcript, Transcript.mk.injEq] at equal
    obtain ⟨properties, ephemeralPub, byte, deviceKey⟩ := equal
    rcases differs with h | h | h | h
    · exact absurd properties.symm h
    · exact absurd ephemeralPub.symm h
    · exact absurd byte.symm h
    · exact absurd (congrArg Subtype.val deviceKey.symm) h

/-! ### A host that saw other device properties -/

/-- A remainder modulo a number coprime to 256, so that every byte counts. -/
def remainderHash (n modulus : Nat) (bs : Bytes) : Octets n :=
  ⟨Bytes.toBe n (Bytes.beNat bs % modulus), Bytes.length_toBe n _⟩

/-- The small instance with a hash of the whole input and a tag over key, IV, AAD and plaintext. -/
def Crates.binding : Crates where
  toCrypto := { Crypto.toy with
    sha256 := remainderHash 32 (2 ^ 256 - 189)
    aesGcmEncrypt := fun key iv aad plaintext => plaintext ++ tag key iv aad plaintext
    aesGcmDecrypt := fun key iv aad ciphertext =>
      let n := ciphertext.length - 16
      if ciphertext.drop n = tag key iv aad (ciphertext.take n) then some (ciphertext.take n) else none }
  toProst := .toy
  toBitcoinCrate := .toy
where
  tag (key : Octets 32) (iv : Octets 12) (aad plaintext : Bytes) : Bytes :=
    (remainderHash 16 (2 ^ 128 - 159) (key.1 ++ iv.1 ++ aad ++ plaintext)).1

def sampleEphemeral : Octets 32 := List.Vector.replicate 32 3

/-- A host that was shown the device properties `08 02`. -/
def sampleHost : HostHandshake :=
  .withEphemeral Crates.binding [8, 2] 0 (List.Vector.replicate 32 5) none sampleEphemeral

def sampleDevice : TrezorResponder := .new Crates.binding [8, 1] (List.Vector.replicate 32 7)

/-- A device with the properties `08 01` answers the request of that host. -/
def sampleAnswer : Outcome TrezorError Bytes × Host TrezorResponder :=
  (TrezorResponder.handleInitRequest Crates.binding (sampleEphemeral.1 ++ (0 : UInt8) :: ([] : Bytes))).run ⟨sampleDevice, Wire.quiet⟩

def sampleResponse : Bytes := sampleAnswer.1.value?.getD []

/-- The key the device drew. -/
def sampleKey : Octets 32 := List.Vector.replicate 32 0

theorem sampleAnswer_eq :
    (TrezorResponder.handleInitRequest Crates.binding (sampleEphemeral.1 ++ (0 : UInt8) :: ([] : Bytes))).run ⟨sampleDevice, Wire.quiet⟩ =
      (.ok sampleResponse, sampleAnswer.2) := by
  have value : sampleAnswer.1 = .ok sampleResponse := by decide +kernel
  rw [← value]
  unfold sampleAnswer
  exact (Prod.eta _).symm

theorem transcript_binding_sample :
    ∃ e w', (HostHandshake.readInitResponse Crates.binding (sampleKey.1 ++ sampleResponse.drop 32)).run
        ⟨sampleHost, Wire.quiet⟩ = (.err e, ⟨sampleHost, w'⟩) ∧ seals w'.trace = seals Wire.quiet.trace := by
  have injective : ∀ x ∈ (sampleHost.transcript sampleKey).inputs Crates.binding ++
        (⟨sampleDevice.deviceProperties, sampleEphemeral, 0, Crates.binding.publicKey sampleAnswer.2.own.ephemeralPriv⟩ :
          Transcript).inputs Crates.binding,
      ∀ y ∈ (sampleHost.transcript sampleKey).inputs Crates.binding ++
        (⟨sampleDevice.deviceProperties, sampleEphemeral, 0, Crates.binding.publicKey sampleAnswer.2.own.ephemeralPriv⟩ :
          Transcript).inputs Crates.binding,
      Crates.binding.sha256 x = Crates.binding.sha256 y → x = y := by decide +kernel
  have honest : ∀ u ∈ seals sampleAnswer.2.wire.trace,
      ∀ o ∈ opens ((HostHandshake.readInitResponse Crates.binding (sampleKey.1 ++ sampleResponse.drop 32)).run
        ⟨sampleHost, Wire.quiet⟩).2.wire.trace,
      o.ciphertext = u.ciphertext → o.key = u.key ∧ o.iv = u.iv ∧ o.aad = u.aad := by decide +kernel
  refine transcript_binding Crates.binding sampleDevice sampleEphemeral 0 [] sampleResponse Wire.quiet sampleAnswer.2
    sampleAnswer_eq sampleHost Wire.quiet sampleKey (fun x hx y hy => injective x hx y hy)
    (fun key iv aad plaintext => ?_) honest (.inl (by decide))
  simp [Crates.binding, Crates.binding.tag, remainderHash]

end TrezorCore.Noise
