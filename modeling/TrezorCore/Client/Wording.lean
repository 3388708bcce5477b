import TrezorCore.Client.Establishing
import TrezorCore.Client.Requests

/-!
# What a method says

The messages a method may send, with the session each of them goes to, as its arguments and the
random bytes it draws determine them. What the device contributes to them is its CPace key and
its part of the handshake; for the rest its replies choose only which message is sent, and when.
-/

namespace TrezorCore.Client

open Connection

/-! ## Vocabularies -/

section Vocabularies

variable (K : Crates)

/-- The session an operation asks on. -/
def Operation.sessionId : Operation → UInt8
  | .identifyPaired => MANAGEMENT_SESSION_ID
  | _ => SEEDED_SESSION_ID

/-- The messages of a call: those that open a connection for its wallet, the questions of its
operation, and confirmations of button requests on the session of one of these. -/
inductive Call.Says (c : Call) : AppMessage → Prop where
  | endRequest : Says c endMessage
  | createNewSession : Says c (createMessage K c.op.spec.walletKey)
  | request {addressN : List UInt32} {q : Request} : c.op.addressN = .ok addressN → c.op.Requests K addressN q →
      Says c ⟨c.op.sessionId, q.type, q.body⟩
  | buttonAck {m : AppMessage} : Says c m → Says c ⟨m.sessionId, MSG_BUTTON_ACK, K.buttonAck.encode {}⟩

/-- The messages of `establish_paired_session`, for a host with this static key, on a wire that
stands here. The challenge and the CPace key are random bytes of the call; the tag is that of the
entered code; the key to be certified is the host's. -/
inductive PairingSays (w : Wire) (hostStatic : Octets 32) (hostName appName : String) (codeProvider : Option String) :
    AppMessage → Prop where
  | pairingRequest : PairingSays w hostStatic hostName appName codeProvider
      ⟨MANAGEMENT_SESSION_ID, Pairing.T_PAIRING_REQUEST, K.pairingRequest.encode ⟨hostName, appName⟩⟩
  | selectMethod : PairingSays w hostStatic hostName appName codeProvider
      ⟨MANAGEMENT_SESSION_ID, Pairing.T_SELECT_METHOD, K.selectMethod.encode ⟨Pairing.PAIRING_METHOD_CODE_ENTRY⟩⟩
  | challenge : PairingSays w hostStatic hostName appName codeProvider
      ⟨MANAGEMENT_SESSION_ID, Pairing.T_CODE_ENTRY_CHALLENGE, K.codeEntryChallenge.encode ⟨(challengeDrawn w).1⟩⟩
  | hostTag {codeStr : String} {code : UInt32} (handshakeHash cpaceTrezorPub : Octets 32) {host : Cpace.HostCpace} :
      codeProvider = some codeStr → Pairing.parseCode codeStr = .ok code →
      host = Cpace.hostCpace K (Cpace.formatCode code) handshakeHash.1 cpaceTrezorPub (cpaceDrawn w) →
      PairingSays w hostStatic hostName appName codeProvider ⟨MANAGEMENT_SESSION_ID, Pairing.T_CODE_ENTRY_CPACE_HOST_TAG,
        K.codeEntryCpaceHostTag.encode ⟨host.hostPublic.1, host.tag.1⟩⟩
  | credentialRequest : PairingSays w hostStatic hostName appName codeProvider
      ⟨MANAGEMENT_SESSION_ID, Pairing.T_CREDENTIAL_REQUEST, K.credentialRequest.encode ⟨(K.publicKey hostStatic).1⟩⟩
  | endRequest : PairingSays w hostStatic hostName appName codeProvider endMessage
  | getFeatures : PairingSays w hostStatic hostName appName codeProvider
      ⟨MANAGEMENT_SESSION_ID, Pairing.MGMT_GET_FEATURES, K.getFeatures.encode {}⟩
  | buttonAck {m : AppMessage} : PairingSays w hostStatic hostName appName codeProvider m →
      PairingSays w hostStatic hostName appName codeProvider ⟨m.sessionId, MSG_BUTTON_ACK, K.buttonAck.encode {}⟩

/-- The messages of a method that is called on a wire. A probe has none. -/
def Method.Says (w : Wire) : Method → AppMessage → Prop
  | .pinned c, m => c.Says K m
  | .establishPairedSession hostStaticPriv hostName appName _ codeProvider, m =>
    ∃ hostStatic, toArray32 hostStaticPriv = .ok hostStatic ∧ PairingSays K w hostStatic hostName appName codeProvider m
  | .thpProbe, _ | .notImplemented _, _ => False

end Vocabularies

/-! ## The questions of an operation and their session -/

section Sessions

variable {K : Crates}

theorem Operation.Requests.sessionId {op : Operation} {addressN : List UInt32} {q : Request} (asked : op.Requests K addressN q)
    {sid : UInt8} (named : q.sessionId = some sid) : sid = op.sessionId := by
  cases op with
  | signPsbt =>
    obtain ⟨psbt, -, rfl | ⟨req, ack, -, rfl⟩⟩ := asked
    · cases named
      rfl
    · cases named
  | signEthereumTx =>
    obtain ⟨tx, -, rfl⟩ := asked
    cases named
    rfl
  | signTronTx =>
    obtain ⟨raw, contract, rest, m, -, -, -, rfl | rfl⟩ := asked
    · cases named
      rfl
    · cases named
  | _ =>
    obtain rfl := asked
    cases named
    rfl

/-- An operation names its session at once. -/
theorem Operation.chat_begins (op : Operation) (addressN : List UInt32) :
    Script.Begins (fun q => q.sessionId = some op.sessionId) (op.chat K addressN) := by
  cases op with
  | signPsbt passphrase psbtBase64 coinType =>
    refine .bind ?_ fun _ => .done _
    rw [Bitcoin.signPsbt]
    cases K.psbtFromStr psbtBase64 with
    | error e => exact .fail _
    | ok psbt => exact .ask rfl
  | signEthereumTx passphrase envelope account path => exact .bind (.ofExcept_bind fun tx => .ask rfl) fun _ => .done _
  | signTronTx passphrase rawTxProto account path =>
    refine .bind (.ofExcept_bind fun raw => ?_) fun _ => .done _
    cases raw.contract with
    | nil => exact .fail _
    | cons contract rest => exact .ofExcept_bind fun m => .ask rfl
  | _ => exact .ask rfl

end Sessions

/-! ## Exchanges in a vocabulary -/

/-- Each message of the host's is of a vocabulary. -/
def Worded (S : AppMessage → Prop) (es : List Event) : Prop := ∀ conn m, Event.appOut conn m ∈ es → S m

section Wording

variable {K : Crates} {S : AppMessage → Prop} {t es : List Event} {w : Wire} {id : Nat} {key : Option WalletKey} {who : Speaker} {m : AppMessage}

theorem Worded.nil : Worded S [] := nofun

theorem Worded.append {a b : List Event} (ha : Worded S a) (hb : Worded S b) : Worded S (a ++ b) :=
  fun conn m mem => (List.mem_append.1 mem).elim (ha conn m) (hb conn m)

theorem Worded.after {Φ : List Event → Prop} (later : ∀ es, Φ es → Worded S es) (said : After (Worded S) Φ es) : Worded S es := by
  obtain ⟨a, b, ha, hb, rfl⟩ := said
  exact ha.append (later b hb)

/-- A vocabulary with the confirmations of button requests. -/
def Confirms (K : Crates) (S : AppMessage → Prop) : Prop := ∀ m, S m → S ⟨m.sessionId, MSG_BUTTON_ACK, K.buttonAck.encode {}⟩

variable (confirms : Confirms K S)

include confirms

theorem Asked.worded (allowed : S m) (asked : Asked K id m es) : Worded S es := by
  obtain ⟨buttons, pressed, rfl⟩ := asked
  induction pressed with
  | nil =>
    intro conn m' mem
    cases List.mem_singleton.1 mem
    exact allowed
  | more _ _ ih =>
    refine ih.append fun conn m' mem => ?_
    obtain later := List.mem_singleton.1 ((List.mem_cons.1 mem).resolve_left nofun)
    cases later
    exact confirms m allowed

theorem Exchange.worded {r : Reply} (allowed : S m) (exchange : Exchange K id m r es) : Worded S es := by
  obtain ⟨-, -, asked, n, sid, hAsked, rfl⟩ := exchange
  exact (Asked.worded confirms allowed hAsked).append (by simp [Worded])

theorem Unanswered.worded (allowed : S m) (unanswered : Unanswered K id m es) : Worded S es := by
  rcases unanswered with rfl | asked | ⟨asked, n, m', hAsked, rfl⟩
  · exact .nil
  · exact Asked.worded confirms allowed asked
  · exact (Asked.worded confirms allowed hAsked).append (by simp [Worded])

theorem Begun.worded (allowed : S m) (begun : Begun K id m es) : Worded S es := by
  rcases begun with unanswered | ⟨r, exchange⟩
  · exact Unanswered.worded confirms allowed unanswered
  · exact Exchange.worded confirms allowed exchange

theorem transceive_worded {type : UInt16} {body : Bytes} (allowed : S ⟨who.activeSessionId, type, body⟩) :
    Comp.Triple (Since t who (Worded S)) (transceive K type body) (fun _ => Since t who (Worded S)) (Heard t (Worded S)) := by
  refine (transceive_since type body fun h since => since.heard fun es => ?_).conseq (fun _ since => since)
    (fun r h since => since.mono fun es => ?_) fun _ heard => heard
  · exact Worded.after fun _ => Unanswered.worded confirms allowed
  · exact Worded.after fun _ => Exchange.worded confirms allowed

/-- A question that names its session goes there. -/
theorem ask_worded_first {q : Request} {sid : UInt8} (named : q.sessionId = some sid) (allowed : S ⟨sid, q.type, q.body⟩) :
    Comp.Triple (Saying t id key (Worded S)) (Chat.ask K q) (fun _ => Since t ⟨id, sid, key⟩ (Worded S)) (Heard t (Worded S)) := by
  rintro h ⟨before, same, said⟩
  rw [Chat.ask, named]
  simp only [transceiveOn, Io.run_modifyOwn_bind]
  refine transceive_worded confirms allowed _ ⟨?_, said⟩
  rw [speaker] at same ⊢
  simp only [Speaker.mk.injEq, true_and] at same ⊢
  exact ⟨same.1, same.2.2⟩

/-- One that names none goes to the session of the one before. -/
theorem ask_worded {q : Request} {sid : UInt8} (on : ∀ s, q.sessionId = some s → s = sid) (allowed : S ⟨sid, q.type, q.body⟩) :
    Comp.Triple (Since t ⟨id, sid, key⟩ (Worded S)) (Chat.ask K q) (fun _ => Since t ⟨id, sid, key⟩ (Worded S)) (Heard t (Worded S)) := by
  intro h since
  rcases named : q.sessionId with _ | s
  · rw [Chat.ask, named]
    exact transceive_worded confirms allowed h since
  · obtain rfl := on s named
    exact ask_worded_first confirms named allowed h ⟨s, since⟩

theorem chat_worded {α : Type} {chat : Chat α} {P : Request → Prop} (sid : UInt8) (asks : Script.Asks P chat)
    (begins : Script.Begins (fun q => q.sessionId = some sid) chat) (on : ∀ q, P q → ∀ s, q.sessionId = some s → s = sid)
    (allowed : ∀ q, P q → S ⟨sid, q.type, q.body⟩) :
    Comp.Triple (Saying t id key (Worded S)) (chat.on K) (fun _ => Saying t id key (Worded S)) (Heard t (Worded S)) := by
  refine begins.run_invariant asks ?_ (fun _ since => ⟨sid, since⟩) (fun q asked named => ask_worded_first confirms named (allowed q asked))
    fun q asked => ask_worded confirms (on q asked) (allowed q asked)
  rintro h ⟨_, since⟩
  exact since.heard fun _ said => said

/-! ## The operations -/

section Pinned

variable {h0 : Host Slot} {spec : PassphraseSpec} (ends : S endMessage) (creates : S (createMessage K spec.walletKey))

include ends creates

theorem Abandoned.worded {h : Host Slot} (abandoned : Abandoned K h0.wire spec.walletKey h) : Heard h0.wire.trace (Worded S) h := by
  obtain ⟨-, unsaid | ⟨-, es, trace, a, b, ended, created, said⟩⟩ := abandoned
  · exact ⟨[], by rw [unsaid, List.append_nil], .nil⟩
  · exact ⟨es, trace, said ▸ (Begun.worded confirms ends ended).append (Begun.worded confirms creates created)⟩

theorem Running.worded {c : Connection} {w : Wire} (running : Running K h0 spec.walletKey (fun _ es => es = []) c w) :
    Saying h0.wire.trace c.id (some spec.walletKey) (Worded S) ⟨c, w⟩ := by
  obtain ⟨n, -, saying⟩ := running
  refine saying.mono ?_
  rintro es ⟨a, _, began, rfl, rfl⟩
  rw [List.append_nil]
  generalize c.id = id at began
  cases began with
  | reused => exact .nil
  | opened _ opened =>
    obtain ⟨x, y, ⟨r, ended⟩, ⟨body, created⟩, rfl⟩ := opened
    exact (Exchange.worded confirms ends ended).append (Exchange.worded confirms creates created)

/-- A chat on the pinned connection, with the opening that it may need. -/
theorem pinned_worded {α : Type} {chat : Chat α} (hostStaticPriv credential : Bytes)
    (chats : ∀ id, Comp.Triple (Saying h0.wire.trace id (some spec.walletKey) (Worded S)) (chat.on K)
      (fun _ => Saying h0.wire.trace id (some spec.walletKey) (Worded S)) (Heard h0.wire.trace (Worded S))) :
    Comp.Triple (fun h => h = h0) (pinned K hostStaticPriv credential spec (chat.on K)) (fun _ => Heard h0.wire.trace (Worded S))
      (Heard h0.wire.trace (Worded S)) := by
  have ensured : Comp.Triple (fun h => h = h0) (ensureConn K hostStaticPriv credential spec)
      (fun _ h => ∃ c, h.own = some c ∧ ∃ id, Saying h0.wire.trace id (some spec.walletKey) (Worded S) ⟨c, h.wire⟩)
      (Heard h0.wire.trace (Worded S)) := by
    refine ensureConn_told.conseq (fun _ same => same) ?_ fun h ended => Abandoned.worded confirms ends creates ended.2
    rintro _ h ⟨c, slot, running⟩
    exact ⟨c, slot, c.id, Running.worded confirms ends creates running⟩
  have talked : Comp.Triple (fun s : Host Connection => ∃ id, Saying h0.wire.trace id (some spec.walletKey) (Worded S) ⟨s.own, s.wire⟩)
      (chat.on K) (fun _ s => Heard h0.wire.trace (Worded S) ⟨s.own, s.wire⟩) fun s => Heard h0.wire.trace (Worded S) ⟨s.own, s.wire⟩ := by
    rintro s ⟨id, saying⟩
    refine (chats id).conseq (fun _ h => h) (fun _ h => ?_) (fun _ h => h) s saying
    rintro ⟨_, since⟩
    exact since.heard fun _ said => said
  refine .bind (clearing_triple ensured fun h heard => heard) fun _ => clearing_triple ?_ fun h heard => heard
  refine (inSlot_told (P := fun c w => ∃ id, Saying h0.wire.trace id (some spec.walletKey) (Worded S) ⟨c, w⟩)
    (Q := fun _ c w => Heard h0.wire.trace (Worded S) (⟨c, w⟩ : Host Connection))
    (B := fun c w => Heard h0.wire.trace (Worded S) (⟨c, w⟩ : Host Connection)) talked).conseq (fun _ h => h) ?_ ?_
  · rintro _ h ⟨c, -, heard⟩
    exact heard
  · rintro h ⟨c, -, heard⟩
    exact heard

end Pinned

omit confirms in
/-- A call says what its operation asks. -/
theorem call_worded (c : Call) (h0 : Host Slot) :
    Comp.Triple (fun h => h = h0) (c.run K) (fun _ => Heard h0.wire.trace (Worded (c.Says K))) (Heard h0.wire.trace (Worded (c.Says K))) := by
  have confirms : Confirms K (c.Says K) := fun _ => .buttonAck
  rw [Call.run_eq]
  refine .ofExcept_bind (fun addressN parses => ?_) fun h same => ⟨[], by rw [same, List.append_nil], .nil⟩
  refine .bind (pinned_worded confirms .endRequest .createNewSession _ _ fun id => ?_)
    fun _ => .ofExcept _ (fun _ _ _ heard => heard) fun _ heard => heard
  exact chat_worded confirms _ (c.op.chat_requests addressN) (c.op.chat_begins addressN)
    (fun _ asked _ named => asked.sessionId named) fun _ asked => .request parses asked

/-! ## Pairing -/

omit confirms in
/-- A call that says nothing and draws some bytes. -/
theorem Silent.spoken {α : Type} {x : Io Connection α} {n : Nat} {Φ : List Event → Prop} (silent : Comp.Keeps Silent x)
    (draws : ∀ h, RandomAlike (h.wire.spend n) (x.run h).2.wire) :
    Comp.Triple (Pairing.Spoken t who w Φ) x (fun _ => Pairing.Spoken t who (w.spend n) Φ) (Heard t Φ) := by
  rintro h ⟨since, random⟩
  have said := Silent.triple silent (fun h (since : Since t who Φ h) => since.heard fun _ said => said) h since
  have spent := undrawn.trans _ _ _ (random.spend n) (draws h)
  rcases ran : x.run h with ⟨_ | _ | _ | _, h'⟩ <;> rw [ran] at said spent
  · exact ⟨said, spent⟩
  all_goals exact said

theorem spoken_worded {type : UInt16} {body : Bytes} (allowed : S ⟨who.activeSessionId, type, body⟩) :
    Comp.Triple (Pairing.Spoken t who w (Worded S)) (transceive K type body) (fun _ => Pairing.Spoken t who w (Worded S))
      (Heard t (Worded S)) := by
  refine (Pairing.transceive_spoken type body fun h since => since.heard fun es => ?_).conseq (fun _ spoken => spoken)
    (fun r h spoken => ⟨spoken.1.mono fun es => ?_, spoken.2⟩) fun _ heard => heard
  · exact Worded.after fun _ => Unanswered.worded confirms allowed
  · exact Worded.after fun _ => Exchange.worded confirms allowed

end Wording

section Establishing

variable {K : Crates} {t : List Event} {w : Wire} {id : Nat} {hostStatic : Octets 32} {hostName appName : String} {codeProvider : Option String}

/-- What is said on the connection of the call, with the RNG where it is on `w'`. -/
abbrev PairingSaid (K : Crates) (t : List Event) (id : Nat) (w : Wire) (hostStatic : Octets 32) (hostName appName : String)
    (codeProvider : Option String) (w' : Wire) : Host Connection → Prop :=
  Pairing.Spoken t ⟨id, MANAGEMENT_SESSION_ID, none⟩ w' (Worded (PairingSays K w hostStatic hostName appName codeProvider))

theorem runCodeentryPairing_worded (handshakeHash : Octets 32) :
    Comp.Triple (PairingSaid K t id w hostStatic hostName appName codeProvider (w.spend 40))
      (Pairing.runCodeentryPairing K handshakeHash (K.publicKey hostStatic) hostName appName codeProvider)
      (fun _ => Since t ⟨id, MANAGEMENT_SESSION_ID, none⟩ (Worded (PairingSays K w hostStatic hostName appName codeProvider)))
      (Heard t (Worded (PairingSays K w hostStatic hostName appName codeProvider))) := by
  have confirms : Confirms K (PairingSays K w hostStatic hostName appName codeProvider) := fun _ => .buttonAck
  have heard : ∀ w' h, PairingSaid K t id w hostStatic hostName appName codeProvider w' h →
      Heard t (Worded (PairingSays K w hostStatic hostName appName codeProvider)) h := fun _ _ spoken => spoken.1.heard fun _ said => said
  refine .bind (spoken_worded confirms .pairingRequest) fun _ => .ofExcept_bind (fun _ _ => ?_) (heard _)
  refine .bind (spoken_worded confirms .selectMethod) fun _ => .ofExcept_bind (fun _ _ => ?_) (heard _)
  refine .ofExcept_bind (fun commitment _ => Pairing.getrandom_spoken ?_) (heard _)
  refine .bind (spoken_worded confirms .challenge) fun _ => .ofExcept_bind (fun _ _ => ?_) (heard _)
  refine .ofExcept_bind (fun _ _ => .ofExcept_bind (fun cpaceTrezorPub _ => ?_) (heard _)) (heard _)
  rcases codeProvider with _ | codeStr
  · exact fun h spoken => heard _ h spoken
  change Comp.Triple _ (Comp.ofExcept (Pairing.parseCode codeStr) >>= _) _ _
  refine .ofExcept_bind (fun code parsed => Pairing.getrandom_spoken ?_) (heard _)
  rw [Wire.spend_spend]
  refine .bind (spoken_worded confirms (.hostTag handshakeHash cpaceTrezorPub rfl parsed rfl)) fun _ => .ofExcept_bind (fun _ _ => ?_) (heard _)
  refine .ofExcept_bind (fun secret _ => ?_) (heard _)
  dsimp only
  split
  · exact .fail _ (heard _)
  · refine .bind (spoken_worded confirms .credentialRequest) fun _ => .ofExcept_bind (fun _ _ => ?_) (heard _)
    exact .ofExcept_bind (fun _ _ => .pure _ fun _ spoken => spoken.1) (heard _)

theorem establishSteps_worded (storedCredential : Option Bytes) :
    Comp.Triple (PairingSaid K t id w hostStatic hostName appName codeProvider w)
      (establishSteps K hostStatic hostName appName storedCredential codeProvider)
      (fun _ => Heard t (Worded (PairingSays K w hostStatic hostName appName codeProvider)))
      (Heard t (Worded (PairingSays K w hostStatic hostName appName codeProvider))) := by
  have confirms : Confirms K (PairingSays K w hostStatic hostName appName codeProvider) := fun _ => .buttonAck
  have closes : ∀ credential : Bytes, Comp.Triple
      (Since t ⟨id, MANAGEMENT_SESSION_ID, none⟩ (Worded (PairingSays K w hostStatic hostName appName codeProvider))) (do
        Pairing.endRequest K
        let features ← (Pairing.getFeatures K).on K
        pure ⟨features.deviceId.getD "", features.model.getD "",
          s!"{features.majorVersion}.{features.minorVersion}.{features.patchVersion}", features.initialized.getD false, credential⟩ :
          Io Connection PairedSession)
      (fun _ => Heard t (Worded (PairingSays K w hostStatic hostName appName codeProvider)))
      (Heard t (Worded (PairingSays K w hostStatic hostName appName codeProvider))) := by
    intro credential
    refine .bind (.bind (transceive_worded confirms .endRequest) fun _ => .ofExcept _ (fun _ _ _ since => since)
      fun _ since => since.heard fun _ said => said) fun _ => ?_
    have features : Script.Asks (· = ⟨some MANAGEMENT_SESSION_ID, Pairing.MGMT_GET_FEATURES, K.getFeatures.encode {}⟩) (Pairing.getFeatures K) :=
      single rfl fun _ => .bind (.ofExcept _) fun _ => .ofExcept _
    refine .bind ((chat_worded confirms MANAGEMENT_SESSION_ID features (.ask rfl) ?_ ?_).conseq (fun _ since => ⟨_, since⟩)
      (fun _ _ said => said) fun _ heard => heard) fun _ => .pure _ fun h said => ?_
    · rintro _ rfl s named
      exact (Option.some.inj named).symm
    · rintro _ rfl
      exact .getFeatures
    · obtain ⟨_, since⟩ := said
      exact since.heard fun _ said => said
  refine .bind (Silent.spoken Silent.allocate allocate_draws) fun allocation => ?_
  have spoken : Comp.Triple (Pairing.Spoken t ⟨id, MANAGEMENT_SESSION_ID, none⟩ (w.spend 8)
      (Worded (PairingSays K w hostStatic hostName appName codeProvider))) _ _ _ :=
    Silent.spoken (Silent.handshake (K := K) allocation.devicePropertiesRaw hostStatic storedCredential) (handshake_draws _ _ _)
  have shaken := spoken.and
    ((handshake_keys allocation.devicePropertiesRaw hostStatic storedCredential).conseq (fun _ _ => trivial) (fun _ _ keys => keys.1)
      fun _ _ => trivial)
  refine .bind (shaken.conseq (fun _ spoken => spoken) (fun _ _ both => both) fun _ ended => ended.1) fun keys => ?_
  rintro h ⟨spoken, static⟩
  rw [Wire.spend_spend] at spoken
  dsimp only
  rw [static]
  refine Comp.Triple.bind (Q := fun _ => PairingSaid K t id w hostStatic hostName appName codeProvider (w.spend 40))
    (fun _ spoken => spoken) (fun _ => ?_) h spoken
  split
  · exact .bind (.pure _ fun _ spoken => spoken.1) closes
  · exact .bind (runCodeentryPairing_worded keys.handshakeHash) closes

end Establishing

/-! ## Every method -/

section Methods

variable {K : Crates}

/-- A call on a new connection, which the method drops at the end. -/
theorem runNew_heard {α : Type} {x : Io Connection α} {Φ : List Event → Prop} (h0 : Host Slot)
    (call : Comp.Triple (Pairing.Spoken h0.wire.trace ⟨h0.wire.connections, MANAGEMENT_SESSION_ID, none⟩ h0.wire (· = [])) x
      (fun _ => Heard h0.wire.trace Φ) (Heard h0.wire.trace Φ)) :
    Comp.Triple (fun h => h = h0) (do
        let conn ← Connection.new Framing.BLE_PACKET_SIZE
        let ended ← Io.runOwned x conn
        pure ended.1 : Io Slot α) (fun _ => Heard h0.wire.trace Φ) (Heard h0.wire.trace Φ) := by
  refine .bind (Q := fun conn h => conn = initial h0.wire.connections Framing.BLE_PACKET_SIZE ∧ h.wire.trace = h0.wire.trace ∧
    RandomAlike h0.wire h.wire) ?_ fun conn => ?_
  · rintro h rfl
    exact ⟨rfl, rfl, rfl, rfl⟩
  refine .bind (Io.runOwned_triple call ?_ (fun _ _ _ _ heard => heard) fun _ _ _ heard => heard) fun _ => .pure _ fun _ heard => heard
  rintro h ⟨rfl, trace, random⟩
  exact ⟨⟨rfl, [], by rw [trace, List.append_nil], rfl⟩, random⟩

theorem thpProbe_silent : Comp.Keeps Silent (probeSteps K) :=
  .bind Silent.trans Silent.allocate fun _ => .bind Silent.trans (Silent.getrandom 32) fun _ =>
    .bind Silent.trans (Silent.handshake _ _ _) fun _ => .pure Silent.refl _

theorem method_worded (m : Method) (h0 : Host Slot) :
    Comp.Triple (fun h => h = h0) (m.run K) (fun _ => Heard h0.wire.trace (Worded (m.Says K h0.wire)))
      (Heard h0.wire.trace (Worded (m.Says K h0.wire))) := by
  cases m with
  | pinned c => exact .bind (call_worded c h0) fun _ => .pure _ fun _ heard => heard
  | thpProbe =>
    have unsaid : ∀ {who : Speaker} (h : Host Connection), Since h0.wire.trace who (· = []) h →
        Heard h0.wire.trace (Worded (Method.thpProbe.Says K h0.wire)) h := fun h since => since.heard fun es none => none ▸ .nil
    refine .bind (runNew_heard h0 ?_) fun _ => .pure _ fun _ heard => heard
    exact (Silent.triple thpProbe_silent unsaid).conseq (fun _ spoken => spoken.1) (fun _ => unsaid) fun _ heard => heard
  | establishPairedSession hostStaticPriv hostName appName storedCredential codeProvider =>
    refine .bind (.ofExcept_bind (fun hostStatic array => runNew_heard h0 ?_) fun h same => ⟨[], by rw [same, List.append_nil], .nil⟩)
      fun _ => .pure _ fun _ heard => heard
    have said : ∀ h : Host Connection, Heard h0.wire.trace (Worded (PairingSays K h0.wire hostStatic hostName appName codeProvider)) h →
        Heard h0.wire.trace
          (Worded ((Method.establishPairedSession hostStaticPriv hostName appName storedCredential codeProvider).Says K h0.wire)) h := by
      rintro h ⟨es, trace, worded⟩
      exact ⟨es, trace, fun conn m mem => ⟨hostStatic, array, worded conn m mem⟩⟩
    exact (establishSteps_worded storedCredential).conseq (fun _ spoken => ⟨spoken.1.mono fun es none => none ▸ .nil, spoken.2⟩) (fun _ => said) said
  | notImplemented feature => exact .fail _ fun h same => ⟨[], by rw [same, List.append_nil], .nil⟩

/-- **A method says nothing else.** Whatever the device and the transport do, and wherever the
method is cut short, each message it sends is one that its own arguments and the random bytes it
draws call for, on the session it is for. -/
theorem says_only_its_own (K : Crates) (m : Method) (h : Host Slot) :
    ∃ es, ((m.run K).run h).2.wire.trace = h.wire.trace ++ es ∧
      ∀ conn message, Event.appOut conn message ∈ es → m.Says K h.wire message := by
  obtain ⟨es, trace, worded⟩ := (method_worded (K := K) m h).after rfl
  exact ⟨es, trace, fun conn message mem => worded conn message (List.mem_filter.2 ⟨mem, rfl⟩)⟩

end Methods

end TrezorCore.Client
