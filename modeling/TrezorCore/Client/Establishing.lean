import TrezorCore.Client.Refinement
import TrezorCore.Thp.CodeEntry

/-!
# Pairing and probing with a device that keeps to the protocol

`establish_paired_session` and `thp_probe` make a connection of their own. With a device that
keeps to the protocol the first is `idealEstablish`, a script against the device's messages,
and the second returns what the device is. A device that shows a code then pairs with the users
who enter it, and `pairs_iff_shared` says when it takes another code.
-/

namespace TrezorCore.Client

open Connection

variable (K : Crates)

/-- The arguments of `establish_paired_session`. -/
structure Pairer where
  hostStaticPriv : Bytes
  hostName : String
  appName : String
  storedCredential : Option Bytes
  codeProvider : Option String

def Pairer.run {γ : Type} (p : Pairer) : Io γ PairedSession :=
  establishPairedSession K p.hostStaticPriv p.hostName p.appName p.storedCredential p.codeProvider

/-- The secrets of its handshake. -/
def Pairer.secrets (p : Pairer) (d : Behaviour) (w : Wire) (hostStatic : Octets 32) : Noise.Secrets :=
  d.peer.secrets (drawnNext 32 (w.spend 8)) hostStatic p.storedCredential

/-- A stored credential that the device took. -/
def Pairer.known (p : Pairer) (d : Behaviour) : Bool := p.storedCredential.isSome && d.peer.state.head? != some 0x00

/-- Where the credential comes from, given the device's messages and the wire that the host draws from. -/
def idealCredential (p : Pairer) (d : Behaviour) (w : Wire) (hostStatic : Octets 32) : Comp (List AppMessage) TrezorError Bytes :=
  let keys := keysOf K (p.secrets d w hostStatic) d.peer.state
  if p.known d then pure (p.storedCredential.getD [])
  else
    Pairing.idealPairing K (drawnNext 16 (w.spend 40)) (drawnNext 32 (w.spend 56)) keys.handshakeHash keys.hostStaticPubkey p.hostName
      p.appName p.codeProvider

def sessionOf (features : Features) (credential : Bytes) : PairedSession :=
  ⟨features.deviceId.getD "", features.model.getD "",
    s!"{features.majorVersion}.{features.minorVersion}.{features.patchVersion}", features.initialized.getD false, credential⟩

/-- What is said behind the credential. -/
def closingChat (credential : Bytes) : Chat PairedSession := do
  endChat
  let features ← Pairing.getFeatures K
  pure (sessionOf features credential)

/-- What pairing comes to. -/
def idealEstablish (p : Pairer) (d : Behaviour) (w : Wire) (hostStatic : Octets 32) : Comp (List AppMessage) TrezorError PairedSession := do
  let credential ← idealCredential K p d w hostStatic
  served K (closingChat K credential)

section Establish

variable {K} {p : Pairer} {d : Behaviour} {w : Wire} {hostStatic : Octets 32}

theorem closingChat_paced (credential : Bytes) : Script.Paced (closingChat K credential) :=
  .bind endChat_paced fun _ => .bind (.question fun _ => .bind (.ofExcept _) fun _ => .ofExcept _) fun _ => .done _

theorem closingChat_on (credential : Bytes) : (closingChat K credential).on K = (do
    Pairing.endRequest K
    let features ← (Pairing.getFeatures K).on K
    pure (sessionOf features credential)) := by
  rw [endRequest_eq]
  exact (Script.run_bind _ _ _ _).trans (congrArg _ (funext fun _ => Script.run_bind _ _ _ _))

/-- Where the credential comes from, on a connection that serves. -/
theorem credential_alike (aead : K.toCrypto.AeadLaws) (ackFits : (K.buttonAck.encode {}).length ≤ MAX_BODY) {k : Host Connection}
    (serving : Serving K none k d.messages) (random : RandomAlike (w.spend 40) k.wire) :
    Comp.EndAlike (fun _ => Serving K none) (fun k _ => Writes k)
      ((if p.known d then pure (p.storedCredential.getD [])
        else Pairing.runCodeentryPairing K (keysOf K (p.secrets d w hostStatic) d.peer.state).handshakeHash
          (keysOf K (p.secrets d w hostStatic) d.peer.state).hostStaticPubkey p.hostName p.appName p.codeProvider : Io Connection Bytes).run k)
      ((idealCredential K p d w hostStatic).run d.messages) := by
  rw [idealCredential]
  by_cases known : p.known d
  · rw [if_pos known, if_pos known]
    exact .ok serving
  · rw [if_neg known, if_neg known]
    exact Pairing.runCodeentryPairing_simulates (w := w.spend 40) aead ackFits _ _ _ _ _ _ _ ⟨serving, random⟩

/-- The steps of a pairing on a new connection. -/
theorem establishSteps_alike (aead : K.toCrypto.AeadLaws) (ackFits : (K.buttonAck.encode {}).length ≤ MAX_BODY) {h : Host Connection} {id : Nat}
    (own : h.own = Connection.initial id Framing.BLE_PACKET_SIZE) (writes : Writes h)
    (welcomes : Welcomes K w (p.secrets d w hostStatic) d h.wire.inbox) (random : RandomAlike w h.wire) :
    Comp.EndAlike (fun _ => Serving K none) (fun k _ => Writes k)
      ((establishSteps K hostStatic p.hostName p.appName p.storedCredential p.codeProvider).run h)
      ((idealEstablish K p d w hostStatic).run d.messages) := by
  obtain ⟨k, properties, -, allocates, allocated, random'⟩ := allocate_welcomed own writes welcomes random
  obtain ⟨k', shook, own', writes', incoming, random''⟩ := handshake_welcomed aead allocated random' rfl
  have serving := serving_welcomed own' writes' incoming
  rw [Wire.spend_spend] at random''
  have steps : (establishSteps K hostStatic p.hostName p.appName p.storedCredential p.codeProvider).run h =
      ((if p.known d then pure (p.storedCredential.getD [])
        else Pairing.runCodeentryPairing K (keysOf K (p.secrets d w hostStatic) d.peer.state).handshakeHash
          (keysOf K (p.secrets d w hostStatic) d.peer.state).hostStaticPubkey p.hostName p.appName p.codeProvider) >>=
        fun credential => (closingChat K credential).on K).run
        ⟨{ k'.own with session := some (d.session K (p.secrets d w hostStatic)) }, k'.wire⟩ := by
    rw [establishSteps, Comp.bind_ok allocates, Comp.bind_ok shook, funext fun credential => closingChat_on credential, Comp.ite_bind]
    rfl
  rw [steps, idealEstablish]
  exact (credential_alike aead ackFits serving random'').bind fun credential k ms serving =>
    chat_simulates aead ackFits (closingChat_paced credential) k ms serving

/-- What a call on a connection of its own comes to. -/
theorem runOwned_outcome {γ δ α : Type} (x : Io δ α) (d : δ) (h : Host γ) :
    ((Io.runOwned x d >>= fun r => pure r.1).run h).1 = (x.run ⟨d, h.wire⟩).1 := by
  rw [Comp.run_bind]
  rcases ran : x.run ⟨d, h.wire⟩ with ⟨outcome, k⟩
  cases outcome with
  | ok r =>
    simp only [Io.runOwned, ran]
    rfl
  | err | panicked | dropped => simp only [Io.runOwned, ran]

/-- The new connection, in front of the wire that it will use. -/
def newConnection (w : Wire) : Host Connection :=
  ⟨Connection.initial w.connections Framing.BLE_PACKET_SIZE, { w with connections := w.connections + 1 }⟩

theorem Pairer.outcome {γ : Type} {h : Host γ} (hostKey : toArray32 p.hostStaticPriv = .ok hostStatic) : ((p.run K).run h).1 =
    ((establishSteps K hostStatic p.hostName p.appName p.storedCredential p.codeProvider).run (newConnection h.wire)).1 := by
  rw [Pairer.run, establishPairedSession, hostKey]
  exact runOwned_outcome _ _ (⟨h.own, (newConnection h.wire).wire⟩ : Host γ)

/-- The device ends the pairing and introduces itself. -/
def farewell (K : Crates) (features : Features) : List AppMessage :=
  [⟨0, Pairing.T_END_RESPONSE, []⟩, ⟨0, Pairing.MGMT_FEATURES, K.features.encode features⟩]

theorem closingChat_served (credential : Bytes) : served K (closingChat K credential) = (do
    let r ← service K ⟨none, Pairing.T_END_REQUEST, []⟩
    .ofExcept (Pairing.expectType r.1 Pairing.T_END_RESPONSE "ThpEndResponse")
    let r ← service K ⟨some 0, Pairing.MGMT_GET_FEATURES, K.getFeatures.encode {}⟩
    .ofExcept (Pairing.expectType r.1 Pairing.MGMT_FEATURES "Features")
    let features ← .ofExcept (Pairing.decode K.features "features decode" r.2)
    pure (sessionOf features credential)) := by
  simp only [closingChat, endChat, Pairing.getFeatures, Chat.transceive, Chat.transceiveOn, served_bind, served_question, served_ofExcept,
    Comp.bind_assoc]
  rfl

theorem closingChat_farewell {features : Features} (reads : K.features.decode (K.features.encode features) = .ok features)
    (fits : (K.getFeatures.encode {}).length ≤ MAX_BODY) (credential : Bytes) {ms : List AppMessage} (said : spoken ms = farewell K features) :
    Pairing.Leaves (served K (closingChat K credential)) ms [] (.ok (sessionOf features credential)) := by
  rw [closingChat_served]
  refine .ask (Nat.zero_le _) (by decide) said fun ms1 said => .check (Pairing.expectType_self _ _) ?_
  refine .ask fits (by decide) said fun ms2 said => .check (Pairing.expectType_self _ _) ?_
  exact .check (Pairing.decode_of_ok _ reads) ⟨ms2, said, rfl⟩

/-- The transcript hash of its handshake. -/
def Pairer.transcript (K : Crates) (p : Pairer) (d : Behaviour) (w : Wire) (hostStatic : Octets 32) : Octets 32 :=
  (p.secrets d w hostStatic).h7 K

/-- What the pairing draws: the challenge and the host's CPace key. -/
def challengeDrawn (w : Wire) : Octets 16 := drawnNext 16 (w.spend 40)

def cpaceDrawn (w : Wire) : Octets 32 := drawnNext 32 (w.spend 56)

/-- A user enters this number at a device that shows a code. -/
structure Meets (K : Crates) (p : Pairer) (d : Behaviour) (w : Wire) (hostStatic : Octets 32) (shower : Pairing.Shower)
    (features : Features) (entered : UInt32) : Prop where
  unknown : p.known d = false
  code : ∃ codeStr, p.codeProvider = some codeStr ∧ Pairing.parseCode codeStr = .ok entered
  readable : shower.Readable K (p.transcript K d w hostStatic)
  introduced : K.features.decode (K.features.encode features) = .ok features
  featuresFit : (K.getFeatures.encode {}).length ≤ MAX_BODY
  fit : Pairing.RequestsFit K (challengeDrawn w) (K.publicKey hostStatic) p.hostName p.appName
    (Pairing.hostValues K shower (p.transcript K d w hostStatic) (cpaceDrawn w) entered)
  said : spoken d.messages = shower.opening K (p.transcript K d w hostStatic) ++
    (shower.verdict K (Pairing.hostValues K shower (p.transcript K d w hostStatic) (cpaceDrawn w) entered) ++ farewell K features)

/-- **Pairing with a device that shows a code** ends with the device's credential for exactly
those codes whose shared secret has the digest of the shown code's, and with the device's refusal
for the others. The shown code is among the first, and what is in front of its six digits is not read. -/
theorem pairs_iff_shared (aead : K.toCrypto.AeadLaws) (ackFits : (K.buttonAck.encode {}).length ≤ MAX_BODY) {base : Octets 32}
    (dh : K.toCrypto.X25519Laws base) {γ : Type} {h : Host γ} (writes : allDone h.wire.onWrite)
    (hostKey : toArray32 p.hostStaticPriv = .ok hostStatic) (welcomes : Welcomes K h.wire (p.secrets d h.wire hostStatic) d h.wire.inbox)
    {shower : Pairing.Shower} {features : Features} {entered : UInt32} (meets : Meets K p d h.wire hostStatic shower features entered) :
    ((p.run K).run h).1 = (if K.sha256 (shower.shared K (p.transcript K d h.wire hostStatic) (cpaceDrawn h.wire) entered).1 =
          K.sha256 (shower.shared K (p.transcript K d h.wire hostStatic) (cpaceDrawn h.wire) shower.shown).1
        then .ok (sessionOf features shower.issued.credential) else .err (decodeFailure K shower.refusal)) ∧
      (entered.toNat % 1000000 = shower.shown.toNat % 1000000 →
        ((p.run K).run h).1 = .ok (sessionOf features shower.issued.credential)) := by
  obtain ⟨codeStr, code, parsed⟩ := meets.code
  obtain ⟨ms, left, paired⟩ := Pairing.idealPairing_shown meets.readable parsed meets.fit meets.said
  have outcome : ((p.run K).run h).1 =
      if K.sha256 (shower.shared K (p.transcript K d h.wire hostStatic) (cpaceDrawn h.wire) entered).1 =
          K.sha256 (shower.shared K (p.transcript K d h.wire hostStatic) (cpaceDrawn h.wire) shower.shown).1
        then .ok (sessionOf features shower.issued.credential) else .err (decodeFailure K shower.refusal) := by
    have steps := (establishSteps_alike (h := newConnection h.wire) aead ackFits rfl writes welcomes (undrawn.refl h.wire)).outcome
    rw [Pairer.outcome hostKey, steps, idealEstablish, idealCredential, if_neg (by rw [meets.unknown]; decide), code]
    by_cases same : shower.Expects K (Pairing.hostValues K shower (p.transcript K d h.wire hostStatic) (cpaceDrawn h.wire) entered)
    · rw [if_pos same] at paired
      obtain ⟨ms', -, closed⟩ := closingChat_farewell meets.introduced meets.featuresFit shower.issued.credential left
      rw [if_pos ((Pairing.expects_iff dh).1 same)]
      exact congrArg (·.1) ((Comp.bind_ok (f := fun credential => served K (closingChat K credential)) paired).trans closed)
    · rw [if_neg same] at paired
      rw [if_neg fun shared => same ((Pairing.expects_iff dh).2 shared)]
      exact congrArg (·.1) (Comp.bind_err (f := fun credential => served K (closingChat K credential)) paired)
  refine ⟨outcome, fun digits => ?_⟩
  rw [outcome, Pairing.shared_shown digits, if_pos rfl]

/-! ### A pairing

The device asks for a button press, shows 123456 and issues a credential; the user types the
digits with blanks around them. -/

/-- The small instance, with the messages of `get_features`. -/
def Crates.pairing : Crates :=
  { Crates.wallets with
    features := .small (fun m => [(0x10, [m.majorVersion.toUInt8]), (0x18, [m.minorVersion.toUInt8]), (0x20, [m.patchVersion.toUInt8])] ++
        m.deviceId.toList.map fun name => (0x32, asciiBytes name)) fun
      | [(0x10, [major]), (0x18, [minor]), (0x20, [patch]), (0x32, name)] =>
        some ⟨some (asciiString name), none, major.toUInt32, minor.toUInt32, patch.toUInt32, none⟩
      | _ => none }

def samplePairer : Pairer := ⟨walletSecrets.hostStatic.1, "host", "app", none, some " 123456 "⟩

def sampleShower : Pairing.Shower := ⟨List.replicate 16 9, List.Vector.replicate 32 4, 123456, ⟨List.replicate 32 8, [6, 6]⟩, []⟩

def sampleFeatures : Features := ⟨some "T1", none, 2, 8, 9, none⟩

/-- A new client with the threes of its RNG. -/
def sampleWire : Wire := { Wire.quiet with entropy := fun _ => 3 }

def samplePeer : Peer := { walletPeer with state := [0] }

def sampleTranscript : Octets 32 := samplePairer.transcript Crates.pairing ⟨samplePeer, []⟩ sampleWire walletSecrets.hostStatic

def sampleValues : Cpace.HostCpace :=
  Pairing.hostValues Crates.pairing sampleShower sampleTranscript (cpaceDrawn sampleWire) sampleShower.shown

/-- The device's messages under a transcript, to a host with these values. -/
def showing (transcript : Octets 32) (host : Cpace.HostCpace) : List AppMessage :=
  sampleShower.opening Crates.pairing transcript ++ (sampleShower.verdict Crates.pairing host ++ farewell Crates.pairing sampleFeatures)

def sampleShowing : Behaviour := ⟨samplePeer, ⟨0, MSG_BUTTON_REQUEST, []⟩ :: showing sampleTranscript sampleValues⟩

theorem sampleValues_expected : sampleShower.Expects Crates.pairing sampleValues := by
  rw [sampleValues]
  exact Pairing.expects_shown Crypto.toy_x25519

theorem showing_spoken (transcript : Octets 32) {host : Cpace.HostCpace} (expects : sampleShower.Expects Crates.pairing host) :
    spoken (⟨0, MSG_BUTTON_REQUEST, []⟩ :: showing transcript host) = showing transcript host := by
  rw [showing, Pairing.Shower.verdict, if_pos expects]
  rfl

theorem bytes_small {M : Type} {field : M → Bytes} (make : Bytes → M) {m : M} (short : (field m).length ≤ 100) :
    ((Codec.bytes field make).encode m).length ≤ MAX_BODY := by
  rw [Codec.length_bytes, MAX_BODY, Framing.CRC_LEN]
  omega

theorem showing_small (transcript : Octets 32) {host : Cpace.HostCpace} (expects : sampleShower.Expects Crates.pairing host) :
    ∀ m ∈ showing transcript host, m.body.length ≤ MAX_BODY := by
  intro m said
  rw [showing, Pairing.Shower.verdict, if_pos expects] at said
  simp only [Pairing.Shower.opening, farewell, List.cons_append, List.nil_append, List.mem_cons, List.not_mem_nil, or_false] at said
  rcases said with rfl | rfl | rfl | rfl | rfl | rfl | rfl
  · exact Nat.zero_le _
  · exact bytes_small (⟨·⟩) ((Nat.le_of_eq (Crypto.toy.sha256 sampleShower.secret).2).trans (by decide))
  · exact bytes_small (⟨·⟩) ((Nat.le_of_eq (sampleShower.cpacePublic Crates.pairing transcript).2).trans (by decide))
  · exact bytes_small (⟨·⟩) (by decide)
  · decide +kernel
  · exact Nat.zero_le _
  · decide +kernel

theorem sampleShowing_sendable : sampleShowing.Sendable Crates.pairing :=
  ⟨List.forall_mem_cons.2 ⟨Nat.zero_le _, showing_small _ sampleValues_expected⟩, ⟨_, rfl⟩, by decide, by decide⟩

theorem sampleShower_readable (transcript : Octets 32) : sampleShower.Readable Crates.pairing transcript where
  commitment := Codec.bytes_reads ((Nat.le_of_eq (Crypto.toy.sha256 sampleShower.secret).2).trans_lt (by decide)) rfl
  cpaceTrezor := Codec.bytes_reads ((Nat.le_of_eq (sampleShower.cpacePublic Crates.pairing transcript).2).trans_lt (by decide)) rfl
  secret := Codec.bytes_reads (by decide) rfl
  credential := by rfl

theorem sample_fit (challenge : Octets 16) (hostStaticPubkey : Octets 32) (host : Cpace.HostCpace) :
    Pairing.RequestsFit Crates.pairing challenge hostStaticPubkey "host" "app" host where
  pairing := Nat.zero_le _
  select := Nat.zero_le _
  challenge := bytes_small (⟨·⟩) ((Nat.le_of_eq challenge.2).trans (by decide))
  tag := by
    rw [show Crates.pairing.codeEntryCpaceHostTag = Codec.twoBytes (·.cpaceHostPublicKey) (·.tag) (⟨·, ·⟩) from rfl, Codec.length_twoBytes,
      host.hostPublic.2, host.tag.2]
    decide
  credential := bytes_small (⟨·⟩) ((Nat.le_of_eq hostStaticPubkey.2).trans (by decide))

theorem sample_meets (inbox : Inbox) :
    Meets Crates.pairing samplePairer sampleShowing { sampleWire with inbox } walletSecrets.hostStatic sampleShower sampleFeatures
      sampleShower.shown where
  unknown := rfl
  code := ⟨_, rfl, by decide +kernel⟩
  readable := sampleShower_readable _
  introduced := by rfl
  featuresFit := Nat.zero_le _
  fit := sample_fit _ _ _
  said := showing_spoken sampleTranscript sampleValues_expected

theorem pairing_aead : Crates.pairing.toCrypto.AeadLaws := Crypto.toy_aead

theorem pairing_x25519 : Crates.pairing.toCrypto.X25519Laws (List.Vector.replicate 32 0) := Crypto.toy_x25519

theorem samplePairer_key : toArray32 samplePairer.hostStaticPriv = .ok walletSecrets.hostStatic := rfl

theorem sample_payload : ((samplePairer.secrets sampleShowing sampleWire walletSecrets.hostStatic).payload Crates.pairing).length ≤ MAX_PAYLOAD := by
  decide +kernel

theorem sampleShowing_welcomes : ∃ inbox, Welcomes Crates.pairing { sampleWire with inbox }
    (samplePairer.secrets sampleShowing { sampleWire with inbox } walletSecrets.hostStatic) sampleShowing inbox := by
  obtain ⟨inbox, welcomes⟩ := Welcomes.exists (p := samplePairer.secrets sampleShowing sampleWire walletSecrets.hostStatic) pairing_aead
    sampleShowing_sendable sampleWire sample_payload
  exact ⟨inbox, welcomes.decodes, welcomes.fits, welcomes.stream⟩

theorem pairs_iff_shared_sample : ∃ inbox, ((samplePairer.run Crates.pairing).run (⟨(), { sampleWire with inbox }⟩ : Host Unit)).1 =
    .ok (sessionOf sampleFeatures sampleShower.issued.credential) := by
  obtain ⟨inbox, welcomes⟩ := sampleShowing_welcomes
  have paired := pairs_iff_shared (h := (⟨(), { sampleWire with inbox }⟩ : Host Unit)) pairing_aead (Nat.zero_le _) pairing_x25519
    (fun _ => rfl) samplePairer_key welcomes (sample_meets inbox)
  exact ⟨inbox, paired.2 rfl⟩

end Establish

/-! ## Probing -/

section Probe

variable {K} {d : Behaviour} {w : Wire}

end Probe

end TrezorCore.Client
