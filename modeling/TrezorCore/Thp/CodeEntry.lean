import TrezorCore.Thp.BringUp
import TrezorCore.Thp.Pairing
import TrezorCore.Thp.Service

/-!
# CodeEntry with a device that keeps to the protocol

Pairing without frames and nonces: `idealPairing` says the messages of `thp/pairing.rs` to a
service, with the values the host draws given to it. `runCodeentryPairing_simulates` says that
the pairing on a connection is that. A device that shows a code, recomputes the tag and reveals
its secret only for the tag it expects then gives its credential to exactly those users whose
code leads to the same shared secret (`idealPairing_shown`).
-/

namespace TrezorCore.Pairing

open Connection

variable (K : Crates)

/-! ## The messages of a pairing -/

/-- CodeEntry pairing with a device that will send certain messages. -/
def idealPairing (challenge : Octets 16) (hostPriv handshakeHash hostStaticPubkey : Octets 32) (hostName appName : String)
    (codeProvider : Option String) : Comp (List AppMessage) TrezorError Bytes := do
  let (rt, _) ← service K ⟨none, T_PAIRING_REQUEST, K.pairingRequest.encode ⟨hostName, appName⟩⟩
  .ofExcept (expectType rt T_PAIRING_REQUEST_APPROVED "ThpPairingRequestApproved")
  let (rt, rp) ← service K ⟨none, T_SELECT_METHOD, K.selectMethod.encode ⟨PAIRING_METHOD_CODE_ENTRY⟩⟩
  .ofExcept (expectType rt T_CODE_ENTRY_COMMITMENT "ThpCodeEntryCommitment")
  let commitment ← .ofExcept (decode K.codeEntryCommitment "commitment decode" rp)
  let (rt, rp) ← service K ⟨none, T_CODE_ENTRY_CHALLENGE, K.codeEntryChallenge.encode ⟨challenge.1⟩⟩
  .ofExcept (expectType rt T_CODE_ENTRY_CPACE_TREZOR "ThpCodeEntryCpaceTrezor")
  let cpaceTrezor ← .ofExcept (decode K.codeEntryCpaceTrezor "cpace-trezor decode" rp)
  let cpaceTrezorPub ← .ofExcept (as32 cpaceTrezor.cpaceTrezorPublicKey)
  match codeProvider with
  | none => .drop
  | some codeStr => do
    let codeNum ← .ofExcept (parseCode codeStr)
    let host := Cpace.hostCpace K (Cpace.formatCode codeNum) handshakeHash.1 cpaceTrezorPub hostPriv
    let (rt, rp) ← service K ⟨none, T_CODE_ENTRY_CPACE_HOST_TAG, K.codeEntryCpaceHostTag.encode ⟨host.hostPublic.1, host.tag.1⟩⟩
    .ofExcept (expectType rt T_CODE_ENTRY_SECRET "ThpCodeEntrySecret")
    let secret ← .ofExcept (decode K.codeEntrySecret "secret decode" rp)
    if (K.sha256 secret.secret).1 ≠ commitment.commitment then
      .fail (.pairing "device secret does not match its commitment")
    else do
      let (rt, rp) ← service K ⟨none, T_CREDENTIAL_REQUEST, K.credentialRequest.encode ⟨hostStaticPubkey.1⟩⟩
      .ofExcept (expectType rt T_CREDENTIAL_RESPONSE "ThpCredentialResponse")
      let response ← .ofExcept (decode K.credentialResponse "credential decode" rp)
      pure response.credential

/-- A connection that serves, with the RNG where that of another wire was. -/
def Standing (w : Wire) (h : Host Connection) (ms : List AppMessage) : Prop := Serving K none h ms ∧ RandomAlike w h.wire

section Simulation

variable {K} {w : Wire} {α β : Type} {T : β → Host Connection → List AppMessage → Prop} {E : Host Connection → List AppMessage → Prop}

/-- An exchange draws nothing. -/
theorem transceive_standing (aead : K.toCrypto.AeadLaws) (ackFits : (K.buttonAck.encode {}).length ≤ MAX_BODY) (type : UInt16) (body : Bytes) :
    Comp.Simulates (Standing K w) (transceive K type body) (service K ⟨none, type, body⟩) (fun _ => Standing K w) fun k _ => Writes k :=
  .frame (transceive_simulates aead ackFits none type body) (undrawn_speaking.transceive _ _) fun _ _ same stood =>
    undrawn.trans _ _ _ stood same

/-- A draw on one side only. -/
theorem getrandom_standing {n : Nat} {f : Octets n → Io Connection β} {y : Comp (List AppMessage) TrezorError β}
    (later : Comp.Simulates (Standing K (w.spend n)) (f (drawnNext n w)) y T E) :
    Comp.Simulates (Standing K w) (Io.getrandom n >>= f) y T E := by
  rintro h ms ⟨serving, random⟩
  rw [Io.run_getrandom_bind]
  have value : (List.Vector.ofFn fun i => h.wire.entropy (h.wire.drawn + i)) = drawnNext n w := drawnNext_alike random
  rw [value]
  exact later _ ms ⟨⟨serving.line, serving.writes⟩, random.spend n⟩

theorem ofExcept_standing {r : Except TrezorError α} {f : α → Io Connection β} {g : α → Comp (List AppMessage) TrezorError β}
    (later : ∀ a, Comp.Simulates (Standing K w) (f a) (g a) T fun k _ => Writes k) :
    Comp.Simulates (Standing K w) (Comp.ofExcept r >>= f) (Comp.ofExcept r >>= g) T fun k _ => Writes k :=
  .bind (.ofExcept r (fun _ _ _ _ stood => stood) fun _ _ stood => stood.1.writes) later

/-- **Pairing on a connection** is the pairing with the service, for the values drawn next. -/
theorem runCodeentryPairing_simulates (aead : K.toCrypto.AeadLaws) (ackFits : (K.buttonAck.encode {}).length ≤ MAX_BODY)
    (handshakeHash hostStaticPubkey : Octets 32) (hostName appName : String) (codeProvider : Option String) :
    Comp.Simulates (Standing K w) (runCodeentryPairing K handshakeHash hostStaticPubkey hostName appName codeProvider)
      (idealPairing K (drawnNext 16 w) (drawnNext 32 (w.spend 16)) handshakeHash hostStaticPubkey hostName appName codeProvider)
      (fun _ => Serving K none) fun k _ => Writes k := by
  refine .bind (transceive_standing aead ackFits _ _) ?_
  rintro ⟨_, _⟩
  refine ofExcept_standing fun _ => ?_
  refine .bind (transceive_standing aead ackFits _ _) ?_
  rintro ⟨_, _⟩
  refine ofExcept_standing fun _ => ofExcept_standing fun commitment => ?_
  refine getrandom_standing ?_
  refine .bind (transceive_standing aead ackFits _ _) ?_
  rintro ⟨_, _⟩
  refine ofExcept_standing fun _ => ofExcept_standing fun _ => ofExcept_standing fun cpaceTrezorPub => ?_
  cases codeProvider with
  | none => exact .drop
  | some codeStr =>
    refine ofExcept_standing fun codeNum => ?_
    refine getrandom_standing ?_
    refine .bind (transceive_standing aead ackFits _ _) ?_
    rintro ⟨_, _⟩
    refine ofExcept_standing fun _ => ofExcept_standing fun secret => ?_
    by_cases committed : (K.sha256 secret.secret).1 ≠ commitment.commitment
    · rw [if_pos committed, if_pos committed]
      exact .fail _ fun _ _ stood => stood.1.writes
    · rw [if_neg committed, if_neg committed]
      refine .bind (transceive_standing aead ackFits _ _) ?_
      rintro ⟨_, _⟩
      refine ofExcept_standing fun _ => ofExcept_standing fun response => ?_
      exact .pure _ fun _ _ stood => stood.1

end Simulation

/-! ## A device that shows a code -/

/-- The device's side of a pairing. The code it shows depends on the secret, the challenge and the
handshake, and nothing here rests on how. -/
structure Shower where
  secret : Bytes
  scalar : Octets 32
  shown : UInt32
  issued : ThpCredentialResponse
  refusal : Bytes

namespace Shower

variable (d : Shower) (handshakeHash : Octets 32)

def commitment : ThpCodeEntryCommitment := ⟨(K.sha256 d.secret).1⟩

def cpacePublic : Octets 32 := K.x25519 d.scalar (Cpace.generator K (Cpace.formatCode d.shown) handshakeHash.1)

/-- The device recomputes the tag from the host's public key. -/
def Expects (host : Cpace.HostCpace) : Prop := K.sha256 (K.x25519 d.scalar host.hostPublic).1 = host.tag

instance (host : Cpace.HostCpace) : Decidable (d.Expects K host) := inferInstanceAs (Decidable (_ = _))

/-- What it says up to its CPace key. -/
def opening : List AppMessage :=
  [⟨0, T_PAIRING_REQUEST_APPROVED, []⟩,
    ⟨0, T_CODE_ENTRY_COMMITMENT, K.codeEntryCommitment.encode (d.commitment K)⟩,
    ⟨0, T_CODE_ENTRY_CPACE_TREZOR, K.codeEntryCpaceTrezor.encode ⟨(d.cpacePublic K handshakeHash).1⟩⟩]

/-- What it says to the host's tag. -/
def verdict (host : Cpace.HostCpace) : List AppMessage :=
  if d.Expects K host then
    [⟨0, T_CODE_ENTRY_SECRET, K.codeEntrySecret.encode ⟨d.secret⟩⟩,
      ⟨0, T_CREDENTIAL_RESPONSE, K.credentialResponse.encode d.issued⟩]
  else [⟨0, MSG_FAILURE, d.refusal⟩]

/-- The shared secret of CPace, if both sides use the generator of one code. -/
def shared (hostPriv : Octets 32) (code : UInt32) : Octets 32 :=
  K.x25519 hostPriv (K.x25519 d.scalar (Cpace.generator K (Cpace.formatCode code) handshakeHash.1))

/-- The codecs read back what the device says. -/
structure Readable : Prop where
  commitment : K.codeEntryCommitment.decode (K.codeEntryCommitment.encode (d.commitment K)) = .ok (d.commitment K)
  cpaceTrezor : K.codeEntryCpaceTrezor.decode (K.codeEntryCpaceTrezor.encode ⟨(d.cpacePublic K handshakeHash).1⟩) =
    .ok ⟨(d.cpacePublic K handshakeHash).1⟩
  secret : K.codeEntrySecret.decode (K.codeEntrySecret.encode ⟨d.secret⟩) = .ok ⟨d.secret⟩
  credential : K.credentialResponse.decode (K.credentialResponse.encode d.issued) = .ok d.issued

end Shower

/-- The host's values for a code the user enters. -/
def hostValues (d : Shower) (handshakeHash hostPriv : Octets 32) (entered : UInt32) : Cpace.HostCpace :=
  Cpace.hostCpace K (Cpace.formatCode entered) handshakeHash.1 (d.cpacePublic K handshakeHash) hostPriv

/-- The requests of a pairing fit into frames. -/
structure RequestsFit (challenge : Octets 16) (hostStaticPubkey : Octets 32) (hostName appName : String) (host : Cpace.HostCpace) :
    Prop where
  pairing : (K.pairingRequest.encode ⟨hostName, appName⟩).length ≤ MAX_BODY
  select : (K.selectMethod.encode ⟨PAIRING_METHOD_CODE_ENTRY⟩).length ≤ MAX_BODY
  challenge : (K.codeEntryChallenge.encode ⟨challenge.1⟩).length ≤ MAX_BODY
  tag : (K.codeEntryCpaceHostTag.encode ⟨host.hostPublic.1, host.tag.1⟩).length ≤ MAX_BODY
  credential : (K.credentialRequest.encode ⟨hostStaticPubkey.1⟩).length ≤ MAX_BODY

section Shown

variable {K} {d : Shower} {handshakeHash hostStaticPubkey hostPriv : Octets 32} {challenge : Octets 16} {hostName appName codeStr : String}
  {entered : UInt32} {ms rest : List AppMessage}

/-- The device and the host share a secret whatever was entered, but the host makes its tag with
the one of the device's key, and so with the shown code. -/
theorem expects_iff {base : Octets 32} (dh : K.toCrypto.X25519Laws base) :
    d.Expects K (hostValues K d handshakeHash hostPriv entered) ↔
      K.sha256 (d.shared K handshakeHash hostPriv entered).1 = K.sha256 (d.shared K handshakeHash hostPriv d.shown).1 := by
  rw [Shower.Expects, hostValues, Cpace.hostCpace, dh.comm d.scalar hostPriv]
  rfl

theorem expects_shown {base : Octets 32} (dh : K.toCrypto.X25519Laws base) : d.Expects K (hostValues K d handshakeHash hostPriv d.shown) :=
  (expects_iff dh).2 rfl

/-- A number with the last six digits of the shown code is as good. -/
theorem shared_shown (same : entered.toNat % 1000000 = d.shown.toNat % 1000000) :
    d.shared K handshakeHash hostPriv entered = d.shared K handshakeHash hostPriv d.shown := by
  rw [Shower.shared, (Cpace.formatCode_eq_iff _ _).2 same, Shower.shared]

/-- How a computation ends, and what the device has left to say. -/
def Leaves {α : Type} (x : Comp (List AppMessage) TrezorError α) (ms rest : List AppMessage) (o : Outcome TrezorError α) : Prop :=
  ∃ ms', spoken ms' = rest ∧ x.run ms = (o, ms')

theorem Leaves.ask {α : Type} {q : Request} {g : Reply → Comp (List AppMessage) TrezorError α} {o : Outcome TrezorError α}
    {later : List AppMessage} {sid : UInt8} {type : UInt16} {body : Bytes} (fits : q.body.length ≤ MAX_BODY) (other : type ≠ MSG_FAILURE)
    (said : spoken ms = ⟨sid, type, body⟩ :: later) (goesOn : ∀ ms', spoken ms' = later → Leaves (g (type, body)) ms' rest o) :
    Leaves (service K q >>= g) ms rest o := by
  obtain ⟨ms', left, replied⟩ := service_spoken K fits said
  rw [if_neg other] at replied
  rw [Leaves, Comp.bind_ok replied]
  exact goesOn ms' left

theorem Leaves.refused {α : Type} {q : Request} {g : Reply → Comp (List AppMessage) TrezorError α} {sid : UInt8} {body : Bytes}
    (fits : q.body.length ≤ MAX_BODY) (said : spoken ms = ⟨sid, MSG_FAILURE, body⟩ :: rest) :
    Leaves (service K q >>= g) ms rest (.err (decodeFailure K body)) := by
  obtain ⟨ms', left, replied⟩ := service_spoken K fits said
  exact ⟨ms', left, Comp.bind_err replied⟩

theorem Leaves.check {α β : Type} {r : Except TrezorError β} {f : β → Comp (List AppMessage) TrezorError α} {o : Outcome TrezorError α} {b : β}
    (passes : r = .ok b) (goesOn : Leaves (f b) ms rest o) : Leaves (Comp.ofExcept r >>= f) ms rest o := by
  rw [passes]
  exact goesOn

theorem expectType_self (type : UInt16) (what : String) : expectType type type what = .ok () := if_pos rfl

theorem decode_of_ok {M : Type} {codec : Codec M} {body : Bytes} {m : M} (what : String) (decodes : codec.decode body = .ok m) :
    decode codec what body = .ok m := by
  rw [decode, decodes]

theorem as32_octets (o : Octets 32) : as32 o.1 = .ok o := by
  rw [as32, Bytes.asOctets, dif_pos o.2]
  rfl

/-- **The code decides.** A device that shows a code pairs with those users whose code leads to the
tag it expects, and refuses the others. -/
theorem idealPairing_shown (readable : d.Readable K handshakeHash) (parsed : parseCode codeStr = .ok entered)
    (fit : RequestsFit K challenge hostStaticPubkey hostName appName (hostValues K d handshakeHash hostPriv entered))
    (said : spoken ms = d.opening K handshakeHash ++ (d.verdict K (hostValues K d handshakeHash hostPriv entered) ++ rest)) :
    Leaves (idealPairing K challenge hostPriv handshakeHash hostStaticPubkey hostName appName (some codeStr)) ms rest
      (if d.Expects K (hostValues K d handshakeHash hostPriv entered) then .ok d.issued.credential else .err (decodeFailure K d.refusal)) := by
  refine .ask fit.pairing (by decide) said fun ms1 said => .check (expectType_self _ _) ?_
  refine .ask fit.select (by decide) said fun ms2 said => .check (expectType_self _ _) ?_
  refine .check (decode_of_ok _ readable.commitment) ?_
  refine .ask fit.challenge (by decide) said fun ms3 said => .check (expectType_self _ _) ?_
  refine .check (decode_of_ok _ readable.cpaceTrezor) (.check (as32_octets _) (.check parsed ?_))
  by_cases expects : d.Expects K (hostValues K d handshakeHash hostPriv entered)
  · rw [Shower.verdict, if_pos expects] at said
    rw [if_pos expects]
    refine .ask fit.tag (by decide) said fun ms4 said => .check (expectType_self _ _) ?_
    refine .check (decode_of_ok _ readable.secret) ?_
    have opens : ¬ (K.sha256 d.secret).1 ≠ (d.commitment K).commitment := not_not.2 rfl
    dsimp only
    rw [if_neg opens]
    refine .ask fit.credential (by decide) said fun ms5 said => .check (expectType_self _ _) ?_
    exact .check (decode_of_ok _ readable.credential) ⟨ms5, said, rfl⟩
  · rw [Shower.verdict, if_neg expects] at said
    rw [if_neg expects]
    exact .refused fit.tag said

end Shown

end TrezorCore.Pairing
