import TrezorCore.Lib.Text
import TrezorCore.Thp.Chat
import TrezorCore.Thp.Cpace
import TrezorCore.Thp.Dialogue
import TrezorCore.Thp.Wires

/-!
# CodeEntry pairing

`thp/pairing.rs`: the choreography that brings a handshaked channel to encrypted transport.
The code the user enters goes into the CPace generator and nowhere else; what the host
itself checks is that the secret revealed at the end opens the commitment from the start.
-/

namespace TrezorCore.Pairing

open Connection

variable (K : Crates)

def T_PAIRING_REQUEST : UInt16 := 1008
def T_PAIRING_REQUEST_APPROVED : UInt16 := 1009
def T_SELECT_METHOD : UInt16 := 1010
def T_CREDENTIAL_REQUEST : UInt16 := 1016
def T_CREDENTIAL_RESPONSE : UInt16 := 1017
def T_END_REQUEST : UInt16 := 1018
def T_END_RESPONSE : UInt16 := 1019
def T_CODE_ENTRY_COMMITMENT : UInt16 := 1024
def T_CODE_ENTRY_CHALLENGE : UInt16 := 1025
def T_CODE_ENTRY_CPACE_TREZOR : UInt16 := 1026
def T_CODE_ENTRY_CPACE_HOST_TAG : UInt16 := 1027
def T_CODE_ENTRY_SECRET : UInt16 := 1028
def MGMT_GET_FEATURES : UInt16 := 55
def MGMT_FEATURES : UInt16 := 17

def PAIRING_METHOD_CODE_ENTRY : Int := 2

def as32 (v : Bytes) : Except TrezorError (Octets 32) :=
  match Bytes.asOctets 32 v with
  | some octets => .ok octets
  | none => .error (.thp "expected a 32-byte field from device")

def expectType (actual expected : UInt16) (what : String) : Except TrezorError Unit :=
  if actual = expected then .ok ()
  else .error (.thp s!"expected {what} ({expected}), got message type {actual}")

/-- `M::decode(..).map_err(..)`, with the text in front of prost's. -/
def decode {M : Type} (codec : Codec M) (what : String) (body : Bytes) : Except TrezorError M :=
  match codec.decode body with
  | .ok m => .ok m
  | .error e => .error (.thp s!"{what}: {e}")

/-- `PairingCodeProvider::request_code`; the host UI may never answer. -/
def requestCode (provider : Option String) : Io Connection String :=
  match provider with
  | some code => pure code
  | none => .drop

/-- The code the user entered, as a number. -/
def parseCode (code : String) : Except TrezorError UInt32 :=
  match Text.parseU32 (Text.trim code.toList) with
  | some n => .ok n
  | none => .error (.pairing "no valid pairing code was entered")

/-- Run CodeEntry pairing on a handshaked connection; returns the reconnection credential. -/
def runCodeentryPairing (handshakeHash hostStaticPubkey : Octets 32) (hostName appName : String)
    (codeProvider : Option String) : Io Connection Bytes := do
  let (rt, _) ← transceive K T_PAIRING_REQUEST (K.pairingRequest.encode ⟨hostName, appName⟩)
  .ofExcept (expectType rt T_PAIRING_REQUEST_APPROVED "ThpPairingRequestApproved")
  let (rt, rp) ← transceive K T_SELECT_METHOD (K.selectMethod.encode ⟨PAIRING_METHOD_CODE_ENTRY⟩)
  .ofExcept (expectType rt T_CODE_ENTRY_COMMITMENT "ThpCodeEntryCommitment")
  let commitment ← .ofExcept (decode K.codeEntryCommitment "commitment decode" rp)
  let challenge ← Io.getrandom 16
  let (rt, rp) ← transceive K T_CODE_ENTRY_CHALLENGE (K.codeEntryChallenge.encode ⟨challenge.1⟩)
  .ofExcept (expectType rt T_CODE_ENTRY_CPACE_TREZOR "ThpCodeEntryCpaceTrezor")
  let cpaceTrezor ← .ofExcept (decode K.codeEntryCpaceTrezor "cpace-trezor decode" rp)
  let cpaceTrezorPub ← .ofExcept (as32 cpaceTrezor.cpaceTrezorPublicKey)
  let codeStr ← requestCode codeProvider
  let codeNum ← .ofExcept (parseCode codeStr)
  let code := Cpace.formatCode codeNum
  let hostPriv ← Io.getrandom 32
  let host := Cpace.hostCpace K code handshakeHash.1 cpaceTrezorPub hostPriv
  let (rt, rp) ← transceive K T_CODE_ENTRY_CPACE_HOST_TAG
    (K.codeEntryCpaceHostTag.encode ⟨host.hostPublic.1, host.tag.1⟩)
  .ofExcept (expectType rt T_CODE_ENTRY_SECRET "ThpCodeEntrySecret")
  let secret ← .ofExcept (decode K.codeEntrySecret "secret decode" rp)
  if (K.sha256 secret.secret).1 ≠ commitment.commitment then
    .fail (.pairing "device secret does not match its commitment")
  else do
    let (rt, rp) ← transceive K T_CREDENTIAL_REQUEST (K.credentialRequest.encode ⟨hostStaticPubkey.1⟩)
    .ofExcept (expectType rt T_CREDENTIAL_RESPONSE "ThpCredentialResponse")
    let response ← .ofExcept (decode K.credentialResponse "credential decode" rp)
    pure response.credential

/-- Move the channel into encrypted transport. -/
def endRequest : Io Connection Unit := do
  let (rt, _) ← transceive K T_END_REQUEST []
  .ofExcept (expectType rt T_END_RESPONSE "ThpEndResponse")

/-- Read the device's `Features`, on the management session. -/
def getFeatures : Chat Features := do
  let (rt, rp) ← Chat.transceiveOn 0 MGMT_GET_FEATURES (K.getFeatures.encode {})
  .ofExcept (expectType rt MGMT_FEATURES "Features")
  .ofExcept (decode K.features "features decode" rp)

/-- The checks that the chains make on a reply: its type, then its body. -/
def expect {M : Type} (reply : Reply) (expected : UInt16) (what : String) (codec : Codec M) : Chat M := do
  .ofExcept (expectType reply.1 expected what)
  .ofExcept (decode codec s!"{what} decode" reply.2)

/-- The checks ask nothing. -/
theorem expect_eq {M : Type} (reply : Reply) (expected : UInt16) (what : String) (codec : Codec M) :
    expect reply expected what codec =
      .ofExcept (expectType reply.1 expected what >>= fun _ => decode codec s!"{what} decode" reply.2) := by
  unfold expect
  cases expectType reply.1 expected what <;> rfl

/-! ## What an accepted pairing shows -/

theorem expectType_ok {actual expected : UInt16} {what : String} {u : Unit}
    (h : expectType actual expected what = .ok u) : actual = expected := by
  rw [expectType] at h
  split at h
  · assumption
  · exact absurd h nofun

theorem expectType_error {actual expected : UInt16} {what : String} {e : TrezorError}
    (h : expectType actual expected what = .error e) : actual ≠ expected := by
  rintro rfl
  rw [expectType, if_pos rfl] at h
  cases h

theorem decode_ok {M : Type} {codec : Codec M} {what : String} {body : Bytes} {m : M}
    (h : decode codec what body = .ok m) : codec.decode body = .ok m := by
  rw [decode] at h
  split at h
  · next decoded => rw [decoded, Except.ok.inj h]
  · exact absurd h nofun

theorem decode_error {M : Type} {codec : Codec M} {what : String} {body : Bytes} {e : TrezorError}
    (h : decode codec what body = .error e) (m : M) : codec.decode body ≠ .ok m := by
  intro decoded
  rw [decode, decoded] at h
  cases h

theorem as32_ok {v : Bytes} {octets : Octets 32} (h : as32 v = .ok octets) : v = octets.1 := by
  rw [as32, Bytes.asOctets] at h
  split at h
  · next o some =>
    split at some
    · rw [← Except.ok.inj h, ← Option.some.inj some]
    · exact absurd some nofun
  · exact absurd h nofun

/-- The values of a pairing's rounds. -/
structure Rounds where
  approval : Bytes
  commitmentBody : Bytes
  commitment : Bytes
  challenge : Octets 16
  cpaceBody : Bytes
  cpaceTrezorPub : Octets 32
  code : UInt32
  hostPriv : Octets 32
  secretBody : Bytes
  secret : Bytes
  credentialBody : Bytes

/-- The messages of an accepted pairing, in order, and what ties their values together. -/
structure Accepted (who : Speaker) (handshakeHash hostStaticPubkey : Octets 32) (hostName appName codeStr : String)
    (credential : Bytes) (r : Rounds) (es : List Event) : Prop where
  /-- Five exchanges, each reply before the next request. -/
  inOrder : ∃ s1 s2 s3 s4 s5, es = s1 ++ s2 ++ s3 ++ s4 ++ s5 ∧
    Exchange K who.id ⟨who.activeSessionId, T_PAIRING_REQUEST, K.pairingRequest.encode ⟨hostName, appName⟩⟩
      (T_PAIRING_REQUEST_APPROVED, r.approval) s1 ∧
    Exchange K who.id ⟨who.activeSessionId, T_SELECT_METHOD, K.selectMethod.encode ⟨PAIRING_METHOD_CODE_ENTRY⟩⟩
      (T_CODE_ENTRY_COMMITMENT, r.commitmentBody) s2 ∧
    Exchange K who.id ⟨who.activeSessionId, T_CODE_ENTRY_CHALLENGE, K.codeEntryChallenge.encode ⟨r.challenge.1⟩⟩
      (T_CODE_ENTRY_CPACE_TREZOR, r.cpaceBody) s3 ∧
    Exchange K who.id ⟨who.activeSessionId, T_CODE_ENTRY_CPACE_HOST_TAG, K.codeEntryCpaceHostTag.encode
        ⟨(Cpace.hostCpace K (Cpace.formatCode r.code) handshakeHash.1 r.cpaceTrezorPub r.hostPriv).hostPublic.1,
          (Cpace.hostCpace K (Cpace.formatCode r.code) handshakeHash.1 r.cpaceTrezorPub r.hostPriv).tag.1⟩⟩
      (T_CODE_ENTRY_SECRET, r.secretBody) s4 ∧
    Exchange K who.id ⟨who.activeSessionId, T_CREDENTIAL_REQUEST, K.credentialRequest.encode ⟨hostStaticPubkey.1⟩⟩
      (T_CREDENTIAL_RESPONSE, r.credentialBody) s5
  commitment : K.codeEntryCommitment.decode r.commitmentBody = .ok ⟨r.commitment⟩
  cpaceTrezor : K.codeEntryCpaceTrezor.decode r.cpaceBody = .ok ⟨r.cpaceTrezorPub.1⟩
  code : parseCode codeStr = .ok r.code
  secret : K.codeEntrySecret.decode r.secretBody = .ok ⟨r.secret⟩
  committed : (K.sha256 r.secret).1 = r.commitment
  credential : ∃ response, K.credentialResponse.decode r.credentialBody = .ok response ∧ response.credential = credential

variable {K} {t : List Event} {who : Speaker} {w : Wire} {Φ : List Event → Prop} {B : Host Connection → Prop}

/-- Since `t`, the connection has added messages with `Φ`, and the RNG is where it is on `w`. -/
def Spoken (t : List Event) (who : Speaker) (w : Wire) (Φ : List Event → Prop) (h : Host Connection) : Prop :=
  Since t who Φ h ∧ RandomAlike w h.wire

/-- An exchange draws nothing. -/
theorem transceive_spoken (type : UInt16) (body : Bytes)
    (early : ∀ h, Since t who (After Φ (Unanswered K who.id ⟨who.activeSessionId, type, body⟩)) h → B h) :
    Comp.Triple (Spoken t who w Φ) (transceive K type body)
      (fun r => Spoken t who w (After Φ (Exchange K who.id ⟨who.activeSessionId, type, body⟩ r))) B := by
  apply ((transceive_since type body early).frame (F := fun h => RandomAlike w h.wire) (undrawn_speaking.transceive _ _) ?_).conseq
  · exact fun _ spoken => spoken
  · exact fun _ _ spoken => spoken
  · exact fun _ ended => ended.1
  · exact fun _ _ same drawn => undrawn.trans _ _ _ drawn same

/-- Drawing random bytes says nothing. -/
theorem getrandom_spoken {β : Type} {n : Nat} {f : Octets n → Io Connection β} {Q : β → Host Connection → Prop}
    (later : Comp.Triple (Spoken t who (w.spend n) Φ) (f (drawnNext n w)) Q B) :
    Comp.Triple (Spoken t who w Φ) (Io.getrandom n >>= f) Q B := by
  rintro h ⟨since, random⟩
  rw [Io.run_getrandom_bind]
  have value : (List.Vector.ofFn fun i => h.wire.entropy (h.wire.drawn + i)) = drawnNext n w := drawnNext_alike random
  rw [value]
  exact later _ ⟨since, random.spend n⟩

/-- Behind the check of a reply, its type is the expected one. -/
theorem checked_spoken {α : Type} {rt : UInt16} {expected : UInt16} {what : String} {f : Unit → Io Connection α}
    {request : AppMessage} {rp : Bytes} {Q : α → Host Connection → Prop}
    (later : Comp.Triple (Spoken t who w (After Φ (Exchange K who.id request (expected, rp)))) (f ()) Q fun _ => True) :
    Comp.Triple (Spoken t who w (After Φ (Exchange K who.id request (rt, rp)))) (.ofExcept (expectType rt expected what) >>= f) Q
      fun _ => True := by
  refine .ofExcept_bind (fun _ checked => ?_) fun _ _ => trivial
  obtain rfl := expectType_ok checked
  exact later

/-- A run that returns a credential went through all the rounds, with the challenge and the CPace
key that were drawn in it. -/
theorem runCodeentryPairing_spoken (handshakeHash hostStaticPubkey : Octets 32) (hostName appName : String)
    (codeProvider : Option String) :
    Comp.Triple (Spoken t who w (· = [])) (runCodeentryPairing K handshakeHash hostStaticPubkey hostName appName codeProvider)
      (fun credential => Since t who fun es => ∃ codeStr r, codeProvider = some codeStr ∧
        r.challenge = drawnNext 16 w ∧ r.hostPriv = drawnNext 32 (w.spend 16) ∧
        Accepted K who handshakeHash hostStaticPubkey hostName appName codeStr credential r es)
      fun _ => True := by
  have trivially : ∀ {P : Host Connection → Prop} (h : Host Connection), P h → True := fun _ _ => trivial
  refine .bind (transceive_spoken _ _ fun _ _ => trivial) ?_
  rintro ⟨_, approval⟩
  refine checked_spoken ?_
  refine .bind (transceive_spoken _ _ fun _ _ => trivial) ?_
  rintro ⟨_, commitmentBody⟩
  refine checked_spoken ?_
  refine .ofExcept_bind (fun commitment decoded => ?_) trivially
  have commitmentDecoded := decode_ok decoded
  refine getrandom_spoken ?_
  refine .bind (transceive_spoken _ _ fun _ _ => trivial) ?_
  rintro ⟨_, cpaceBody⟩
  refine checked_spoken ?_
  refine .ofExcept_bind (fun cpaceTrezor decoded => ?_) trivially
  have cpaceDecoded := decode_ok decoded
  refine .ofExcept_bind (fun cpaceTrezorPub key => ?_) trivially
  have key := as32_ok key
  rcases codeProvider with _ | codeStr
  · exact fun _ _ => trivial
  change Comp.Triple _ (Comp.ofExcept (parseCode codeStr) >>= _) _ _
  refine .ofExcept_bind (fun code parsed => ?_) trivially
  refine getrandom_spoken ?_
  refine .bind (transceive_spoken _ _ fun _ _ => trivial) ?_
  rintro ⟨_, secretBody⟩
  refine checked_spoken ?_
  refine .ofExcept_bind (fun secret decoded => ?_) trivially
  have secretDecoded := decode_ok decoded
  by_cases committed : (K.sha256 secret.secret).1 ≠ commitment.commitment
  · simp only [if_pos committed]
    exact .fail _ trivially
  · simp only [if_neg committed]
    refine .bind (transceive_spoken _ _ fun _ _ => trivial) ?_
    rintro ⟨_, credentialBody⟩
    refine checked_spoken ?_
    refine .ofExcept_bind (fun response decoded => ?_) trivially
    have credentialDecoded := decode_ok decoded
    refine .pure _ fun h spoken => spoken.1.mono ?_
    rintro es ⟨_, s5, ⟨_, s4, ⟨_, s3, ⟨s1, s2, ⟨_, _, rfl, e1, rfl⟩, e2, rfl⟩, e3, rfl⟩, e4, rfl⟩, e5, rfl⟩
    exact ⟨codeStr, ⟨approval, commitmentBody, commitment.commitment, drawnNext 16 w, cpaceBody, cpaceTrezorPub, code,
        drawnNext 32 (w.spend 16), secretBody, secret.secret, credentialBody⟩, rfl, rfl, rfl,
      ⟨s1, s2, s3, s4, s5, rfl, e1, e2, e3, e4, e5⟩, commitmentDecoded,
      key ▸ cpaceDecoded, parsed, secretDecoded, not_not.1 committed, response, credentialDecoded, rfl⟩

/-- **An accepted pairing is tied to its commitment.** Whatever the device replies, whatever
the user enters: a credential comes back only after all five rounds, the secret of the
fourth opens the commitment of the second, which came before the challenge was sent, and
the code that was entered is a number that went, with the handshake hash, into the CPace
key and tag for which the secret was revealed. -/
theorem accepted_pairing_committed (handshakeHash hostStaticPubkey : Octets 32) (hostName appName : String)
    (codeProvider : Option String) (h h' : Host Connection) (credential : Bytes)
    (ok : (runCodeentryPairing K handshakeHash hostStaticPubkey hostName appName codeProvider).run h =
      (.ok credential, h')) :
    ∃ codeStr r es, codeProvider = some codeStr ∧ h'.wire.trace = h.wire.trace ++ es ∧
      r.challenge = drawnNext 16 h.wire ∧ r.hostPriv = drawnNext 32 (h.wire.spend 16) ∧
      Accepted K h.own.speaker handshakeHash hostStaticPubkey hostName appName codeStr credential r (appEvents es) := by
  have start : Spoken h.wire.trace h.own.speaker h.wire (· = []) h :=
    ⟨⟨rfl, [], (List.append_nil _).symm, rfl⟩, undrawn.refl h.wire⟩
  have ends := runCodeentryPairing_spoken (K := K) handshakeHash hostStaticPubkey hostName appName codeProvider h start
  rw [ok] at ends
  obtain ⟨-, es, trace, codeStr, r, entered, challenge, key, accepted⟩ := ends
  exact ⟨codeStr, r, es, entered, trace, challenge, key, accepted⟩

end TrezorCore.Pairing
