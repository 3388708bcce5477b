import TrezorCore.Chains.SignTx
import TrezorCore.Client.Visits
import TrezorCore.Client.Welcome

/-!
# The client refines a service

What the fifteen operations are for, without a transport: a call is a script run against the
messages of the device, and all that one call leaves to the next is which wallet the pinned
connection serves. `idealCall` is that client. `call_refines` says that the client with its
frames, keys and counters does the same whenever the device keeps to the protocol, and
`run_refines` that it does so over any run of calls, errors and reconnections included.
-/

namespace TrezorCore.Client

open Connection

variable (K : Crates)

/-! ## The scripts have no idle loops -/

section Paced

variable {K}

theorem expect_paced {M : Type} (reply : Reply) (expected : UInt16) (what : String) (codec : Codec M) :
    Script.Paced (Pairing.expect reply expected what codec) :=
  .bind (.ofExcept _) fun _ => .ofExcept _

theorem answered_paced {α : Type} {make : α → Value} {chat : Chat α} (h : Script.Paced chat) :
    Script.Paced (answered make chat) := .bind h fun _ => .done _

/-- A question whose reply is decoded and then looked at. -/
theorem lookup_paced {α M : Type} {q : Request} {expected : UInt16} {what : String} {codec : Codec M} {f : M → Chat α}
    (later : ∀ m, Script.Paced (f m)) :
    Script.Paced (Script.question q >>= fun reply => Pairing.expect reply expected what codec >>= f) :=
  .question fun _ => .bind (expect_paced _ _ _ _) later

theorem tronSignTx_paced (sessionId : UInt8) (path : List UInt32) (rawTxProto : Bytes) :
    Script.Paced (Tron.signTx K sessionId path rawTxProto) := by
  refine .bind (.ofExcept _) fun raw => ?_
  rcases raw.contract with _ | ⟨contract, _⟩
  · exact .fail _
  · refine .bind (.ofExcept _) fun m => .question fun _ => .bind (.ofExcept _) fun _ => lookup_paced fun msg => ?_
    show Script.Paced (if msg.signature.length ≠ 65 then _ else _)
    split
    · exact .fail _
    · exact .done _

theorem Operation.chat_paced (op : Operation) (addressN : List UInt32) : Script.Paced (op.chat K addressN) := by
  cases op with
  | identifyPaired => exact .bind (.question fun _ => .bind (.ofExcept _) fun _ => .ofExcept _) fun _ => .done _
  | getAttestorPubkey => exact answered_paced (lookup_paced fun _ => .done _)
  | signMessageEth _ =>
    refine answered_paced (lookup_paced fun msg => ?_)
    split
    · exact .fail _
    · exact .done _
  | getBitcoinAccountXpub _ _ _ _ =>
    refine answered_paced (lookup_paced fun pk => ?_)
    split
    · exact .fail _
    · exact .done _
  | getBitcoinMasterFingerprint _ =>
    refine answered_paced (lookup_paced fun pk => ?_)
    split
    · exact .done _
    · exact .fail _
  | signPsbt _ _ _ => exact answered_paced (Bitcoin.signPsbt_paced _ _ _)
  | signBitcoinMessage _ _ _ _ => exact answered_paced (lookup_paced fun _ => .done _)
  | getEthereumAddress _ _ _ =>
    refine answered_paced (lookup_paced fun msg => ?_)
    split
    · exact .done _
    · exact .fail _
  | signEthereumTx _ _ _ _ =>
    refine answered_paced (.bind (.ofExcept _) fun tx => lookup_paced fun req => ?_)
    split
    · exact .done _
    · exact .fail _
  | signEthereumMessage _ _ _ _ =>
    refine answered_paced (lookup_paced fun msg => ?_)
    split
    · exact .fail _
    · exact .done _
  | getSolanaAddress _ _ _ =>
    refine answered_paced (lookup_paced fun msg => ?_)
    split
    · exact .fail _
    · exact .done _
  | signSolanaTx _ _ _ _ => exact answered_paced (lookup_paced fun _ => .ofExcept _)
  | signSolanaMessage _ _ _ _ => exact answered_paced (lookup_paced fun _ => .ofExcept _)
  | getTronAddress _ _ _ =>
    refine answered_paced (lookup_paced fun msg => ?_)
    split
    · exact .fail _
    · exact .done _
  | signTronTx _ _ _ _ => exact answered_paced (tronSignTx_paced _ _ _)

end Paced

/-! ## The client without a transport -/

/-- What `end_request` says. -/
def endChat : Chat Unit := do
  let (rt, _) ← Chat.transceive Pairing.T_END_REQUEST []
  .ofExcept (Pairing.expectType rt Pairing.T_END_RESPONSE "ThpEndResponse")

/-- What `create_seeded_session` says. -/
def createChat (key : WalletKey) : Chat Unit := do
  let (rt, _) ← Chat.transceiveOn SEEDED_SESSION_ID MSG_CREATE_NEW_SESSION
    (K.createNewSession.encode ⟨key.1, some key.2, some false⟩)
  if rt ≠ MSG_SUCCESS then .fail (.thp s!"expected Success after ThpCreateNewSession, got message type {rt}")
  else pure ()

/-- What is said on a new channel, if the device took the credential. -/
def openingChat (peer : Peer) (key : WalletKey) : Chat Unit :=
  if peer.state.head? = some 0x00 then .fail (.pairing "stored credential was rejected; re-pair the Trezor")
  else do
    endChat
    createChat K key

/-- A call as a script. -/
def Call.script (c : Call) (d : Behaviour) (pinned : Option WalletKey) (addressN : List UInt32) :
    Chat (Except TrezorError Value) :=
  if pinned = some c.op.spec.walletKey then c.op.chat K addressN
  else do
    let _ ← .ofExcept (toArray32 c.hostStaticPriv)
    openingChat K d.peer c.op.spec.walletKey
    c.op.chat K addressN

/-- **The ideal client.** Its state is the wallet of the pinned connection. -/
def idealCall (c : Call) (d : Behaviour) : Comp (Option WalletKey) TrezorError Value := ⟨fun pinned =>
  match c.op.addressN with
  | .error e => (.err e, pinned)
  | .ok addressN =>
    match ((served K (c.script K d pinned addressN)).run d.messages).1 with
    | .ok x => (Outcome.ofExcept x, some c.op.spec.walletKey)
    | .err e => (.err e, none)
    | .panicked => (.panicked, none)
    | .dropped => (.dropped, none)⟩

/-- The state of the ideal client that a slot stands for. -/
inductive Holds : Slot → Option WalletKey → Prop
  | empty : Holds none none
  | pinned {l : Line} {s : Session} {id : Nat} {sid : UInt8} {key : WalletKey} :
      Holds (some (l.connection (some s) ⟨id, sid, some key⟩)) (some key)

/-- A client between two calls, as its slot says, on a transport that loses no write. -/
structure Stands (h : Host Slot) (pinned : Option WalletKey) : Prop where
  holds : Holds h.own pinned
  writes : allDone h.wire.onWrite

/-- The secrets of a handshake on this wire. -/
def Behaviour.secrets (d : Behaviour) (w : Wire) (hostStatic : Octets 32) (credential : Bytes) : Noise.Secrets :=
  d.peer.secrets (drawnNext 32 (w.spend 8)) hostStatic (some credential)

/-- **A device that keeps to the protocol** in a call. When the call opens a channel the device
welcomes the host. When the call finds its wallet pinned, the device goes on where it was. -/
inductive Attends (h : Host Slot) (c : Call) (d : Behaviour) : Inbox → Prop
  | refused {e : TrezorError} {inbox : Inbox} : c.op.addressN = .error e → Attends h c d inbox
  | badKey {e : TrezorError} {inbox : Inbox} : reusable h.own c.op.spec.walletKey = none →
      toArray32 c.hostStaticPriv = .error e → Attends h c d inbox
  | answers {l : Line} {s : Session} {id : Nat} {sid : UInt8} {inbox : Inbox} :
      h.own = some (l.connection (some s) ⟨id, sid, some c.op.spec.walletKey⟩) → Incoming K l s d.messages inbox →
      Attends h c d inbox
  | opens {hsp : Octets 32} {inbox : Inbox} : reusable h.own c.op.spec.walletKey = none → toArray32 c.hostStaticPriv = .ok hsp →
      Welcomes K h.wire (d.secrets h.wire hsp c.credential) d inbox → Attends h c d inbox

/-! ## Opening a channel -/

section Opening

variable {K}

theorem endRequest_eq : Pairing.endRequest K = endChat.on K :=
  congrArg (transceive K Pairing.T_END_REQUEST [] >>= ·) (funext fun _ => (Script.run_ofExcept _ _ _).symm)

theorem createSeededSession_eq (passphrase : Option String) (onDevice : Bool) :
    createSeededSession K passphrase onDevice =
      (createChat K (passphrase, onDevice)).on K >>= fun _ =>
        Io.modifyOwn fun c => { c with seededWith := some (passphrase, onDevice) } := by
  rw [createSeededSession, Chat.on, createChat, Chat.transceiveOn, Script.run_question, Chat.ask]
  simp only [transceiveOn, Comp.bind_assoc]
  refine congrArg _ (funext fun _ => congrArg _ (funext fun r => ?_))
  by_cases refused : r.1 ≠ MSG_SUCCESS
  · simp only [if_pos refused]
    rfl
  · simp only [if_neg refused]
    rfl

theorem endChat_paced : Script.Paced endChat := .question fun _ => .ofExcept _

theorem createChat_paced (key : WalletKey) : Script.Paced (createChat K key) := by
  refine .question fun r => ?_
  show Script.Paced (if r.1 ≠ MSG_SUCCESS then _ else _)
  split
  · exact .fail _
  · exact .done _

/-- A call on a value of one's own, and what comes after it. -/
theorem runOwned_bind_alike {γ δ τ α β : Type} {x : Io δ α} {d : δ} {f : α × δ → Io γ β} {h : Host γ} {t : τ}
    {y : Comp τ TrezorError α} {g : α → Comp τ TrezorError β} {T : α → Host δ → τ → Prop} {E : Host δ → τ → Prop}
    {T' : β → Host γ → τ → Prop} {E' : Host γ → τ → Prop} (call : Comp.EndAlike T E (x.run ⟨d, h.wire⟩) (y.run t))
    (later : ∀ a k t', T a k t' → Comp.EndAlike T' E' ((f (a, k.own)).run ⟨h.own, k.wire⟩) ((g a).run t'))
    (error : ∀ k t', E k t' → E' ⟨h.own, k.wire⟩ t') : Comp.EndAlike T' E' ((Io.runOwned x d >>= f).run h) ((y >>= g).run t) := by
  rw [Comp.run_bind, Comp.run_bind]
  rcases hx : x.run ⟨d, h.wire⟩ with ⟨o, k⟩
  rcases hy : y.run t with ⟨o', t'⟩
  rw [hx, hy] at call
  simp only [Io.runOwned, hx]
  cases call with
  | ok rel => exact later _ _ _ rel
  | err rel => exact .err (error _ _ rel)
  | panicked => exact .panicked
  | dropped => exact .dropped

variable {d : Behaviour} {hsp : Octets 32} {credential : Bytes} {w : Wire}

/-- The steps of `open_paired_connection` with a device that keeps to the protocol. -/
theorem pairedSteps_alike (aead : K.toCrypto.AeadLaws) (ackFits : (K.buttonAck.encode {}).length ≤ MAX_BODY) {h : Host Connection} {id : Nat}
    (own : h.own = Connection.initial id Framing.BLE_PACKET_SIZE) (writes : Writes h)
    (welcomes : Welcomes K w (d.secrets w hsp credential) d h.wire.inbox) (random : RandomAlike w h.wire) :
    Comp.EndAlike (fun _ => Serving K none) (fun k _ => Writes k) ((pairedSteps K hsp credential).run h)
      ((served K (if d.peer.state.head? = some 0x00 then
          .fail (.pairing "stored credential was rejected; re-pair the Trezor") else endChat)).run d.messages) := by
  obtain ⟨k, properties, -, allocates, allocated, random'⟩ := allocate_welcomed own writes welcomes random
  obtain ⟨k', shook, own', writes', incoming, -⟩ := handshake_welcomed aead allocated random' rfl
  have steps : (pairedSteps K hsp credential).run h =
      (if d.peer.state.head? = some 0x00 then .fail (.pairing "stored credential was rejected; re-pair the Trezor")
      else do
        setSession (d.session K (d.secrets w hsp credential))
        Pairing.endRequest K : Io Connection Unit).run k' := by
    rw [pairedSteps, Comp.bind_ok allocates]
    exact Comp.bind_ok shook
  rw [steps]
  by_cases rejected : d.peer.state.head? = some 0x00
  · rw [if_pos rejected, if_pos rejected]
    exact .err writes'
  · rw [if_neg rejected, if_neg rejected, setSession, Io.run_modifyOwn_bind, endRequest_eq]
    exact chat_simulates aead ackFits endChat_paced _ _ (serving_welcomed own' writes' incoming)

/-- Opening a connection and seeding its session. -/
theorem openInto_alike (aead : K.toCrypto.AeadLaws) (ackFits : (K.buttonAck.encode {}).length ≤ MAX_BODY)
    {hostStaticPriv : Bytes} (key : WalletKey) (hostKey : toArray32 hostStaticPriv = .ok hsp) (writes : allDone w.onWrite)
    (welcomes : Welcomes K w (d.secrets w hsp credential) d w.inbox) :
    Comp.EndAlike (fun _ h ms => ∃ c, h.own = some c ∧ Serving K (some key) ⟨c, h.wire⟩ ms) (fun k _ => allDone k.wire.onWrite)
      ((openInto K hostStaticPriv credential key).run ⟨none, w⟩) ((served K (openingChat K d.peer key)).run d.messages) := by
  have said : served K (openingChat K d.peer key) = served K (if d.peer.state.head? = some 0x00 then
      .fail (.pairing "stored credential was rejected; re-pair the Trezor") else endChat) >>= fun _ =>
        served K (createChat K key) := by
    rw [openingChat, ← served_bind]
    by_cases rejected : d.peer.state.head? = some 0x00
    · rw [if_pos rejected, if_pos rejected]
      rfl
    · rw [if_neg rejected, if_neg rejected]
  have new : (Connection.new Framing.BLE_PACKET_SIZE : Io Slot Connection).run ⟨none, w⟩ =
      (.ok (Connection.initial w.connections Framing.BLE_PACKET_SIZE), ⟨none, { w with connections := w.connections + 1 }⟩) := rfl
  rw [openInto, hostKey, Comp.ofExcept_ok, Comp.pure_bind, openPairedConnection, said]
  simp only [Comp.bind_assoc, Comp.pure_bind]
  rw [Comp.bind_ok new]
  refine runOwned_bind_alike (pairedSteps_alike (h := ⟨_, { w with connections := w.connections + 1 }⟩) aead ackFits rfl
    writes welcomes (undrawn.refl w)) (fun _ k ms serving => ?_) fun _ _ writes => writes
  rw [createSeededSession_eq, ← Comp.bind_pure (served K (createChat K key))]
  have created : Comp.Simulates (Serving K none)
      ((createChat K (key.1, key.2)).on K >>= fun _ => Io.modifyOwn fun c => { c with seededWith := some (key.1, key.2) })
      (served K (createChat K key) >>= pure) (fun _ => Serving K (some key)) fun k _ => Writes k := by
    refine .bind (chat_simulates aead ackFits (createChat_paced key)) fun _ => ?_
    rintro h ms ⟨⟨l, s, id, sid, own, incoming⟩, writes⟩
    refine .ok ⟨⟨l, s, id, sid, ?_, incoming⟩, writes⟩
    simp only [own]
    rfl
  have call := created k ms serving
  rw [Comp.bind_pure] at call
  exact runOwned_bind_alike (h := ⟨none, k.wire⟩) call (fun _ k' ms' serving' => .ok ⟨k'.own, rfl, serving'⟩)
    fun _ _ writes => writes

end Opening

/-! ## One call -/

section Calls

variable {K} {h : Host Slot} {pinned : Option WalletKey} {c : Call} {d : Behaviour} {inbox : Inbox}

theorem Holds.wallet {slot : Slot} (holds : Holds slot pinned) : pinned = slot.bind fun conn => conn.seededWith := by
  cases holds <;> rfl

/-- The connection of a state of the ideal client is reused exactly for its wallet. -/
theorem Holds.reusable_none {slot : Slot} {key : WalletKey} (holds : Holds slot pinned) :
    reusable slot key = none ↔ pinned ≠ some key := by
  cases holds with
  | empty => simp [reusable]
  | pinned =>
    simp only [reusable, Option.filter_some, Line.connection, decide_eq_true_eq, ne_eq, Option.some.injEq]
    split <;> simp_all

theorem Holds.of_serving {conn : Connection} {w : Wire} {key : WalletKey} {ms : List AppMessage}
    (serving : Serving K (some key) ⟨conn, w⟩ ms) : Holds (some conn) (some key) := by
  obtain ⟨⟨l, s, id, sid, own, -⟩, -⟩ := serving
  obtain rfl : conn = _ := own
  exact .pinned

/-- What a call says before its own script. -/
def Call.prelude (K : Crates) (c : Call) (d : Behaviour) (pinned : Option WalletKey) : Chat Unit :=
  if pinned = some c.op.spec.walletKey then pure ()
  else do
    let _ ← .ofExcept (toArray32 c.hostStaticPriv)
    openingChat K d.peer c.op.spec.walletKey

theorem Call.script_eq (addressN : List UInt32) :
    c.script K d pinned addressN = c.prelude K d pinned >>= fun _ => c.op.chat K addressN := by
  rw [Call.script, Call.prelude]
  by_cases same : pinned = some c.op.spec.walletKey
  · rw [if_pos same, if_pos same]
    rfl
  · rw [if_neg same, if_neg same]
    cases toArray32 c.hostStaticPriv <;> rfl

/-- Ensuring a connection is the prelude. -/
theorem ensureConn_alike (aead : K.toCrypto.AeadLaws) (ackFits : (K.buttonAck.encode {}).length ≤ MAX_BODY)
    {addressN : List UInt32} (parses : c.op.addressN = .ok addressN) (holds : Holds h.own pinned) (writes : allDone h.wire.onWrite)
    (attends : Attends K h c d inbox) :
    Comp.EndAlike (fun _ k ms => ∃ conn, k.own = some conn ∧ Serving K (some c.op.spec.walletKey) ⟨conn, k.wire⟩ ms)
      (fun k _ => allDone k.wire.onWrite) ((ensureConn K c.hostStaticPriv c.credential c.op.spec).run (facing inbox h))
      ((served K (c.prelude K d pinned)).run d.messages) := by
  rw [Call.prelude]
  cases attends with
  | refused fails =>
    rw [parses] at fails
    cases fails
  | badKey other noKey =>
    rw [ensureConn_open (h := facing inbox h) other, if_neg (holds.reusable_none.1 other), openInto, noKey]
    exact .err writes
  | @answers l s id sid _ own incoming =>
    have same : pinned = some c.op.spec.walletKey := by
      rw [holds.wallet, own]
      rfl
    have reuse : reusable (facing inbox h).own c.op.spec.walletKey =
        some (l.connection (some s) ⟨id, sid, some c.op.spec.walletKey⟩) := by
      show reusable h.own _ = _
      rw [own, reusable, Option.filter_some, if_pos]
      simp [Line.connection]
    rw [ensureConn_reuse reuse, if_pos same]
    exact .ok ⟨_, own, ⟨_, _, id, sid, rfl, incoming⟩, writes⟩
  | opens other hostKey welcomes =>
    rw [ensureConn_open (h := facing inbox h) other, if_neg (holds.reusable_none.1 other), hostKey]
    exact openInto_alike (w := (facing inbox h).wire) aead ackFits c.op.spec.walletKey hostKey writes
      ⟨welcomes.decodes, welcomes.fits, welcomes.stream⟩

/-- A call on the pinned connection. -/
theorem inSlot_alike {α τ : Type} {x : Io Connection α} {conn : Connection} {k : Host Slot} {r : Outcome TrezorError α × τ}
    {T : α → Host Connection → τ → Prop} {E : Host Connection → τ → Prop} (slot : k.own = some conn)
    (call : Comp.EndAlike T E (x.run ⟨conn, k.wire⟩) r) :
    Comp.EndAlike (fun a k' t => ∃ conn', k'.own = some conn' ∧ T a ⟨conn', k'.wire⟩ t)
      (fun k' t => ∃ conn', E ⟨conn', k'.wire⟩ t) ((Io.inSlot x).run k) r := by
  rcases hx : x.run ⟨conn, k.wire⟩ with ⟨o, k'⟩
  rw [hx] at call
  simp only [Io.inSlot, slot, hx]
  cases call with
  | ok rel => exact .ok ⟨k'.own, rfl, rel⟩
  | err rel => exact .err ⟨k'.own, rel⟩
  | panicked => exact .panicked
  | dropped => exact .dropped

/-- The part of a call that an error of it clears the slot after. -/
theorem pinned_alike (aead : K.toCrypto.AeadLaws) (ackFits : (K.buttonAck.encode {}).length ≤ MAX_BODY) {α : Type}
    {addressN : List UInt32} (parses : c.op.addressN = .ok addressN) (holds : Holds h.own pinned) (writes : allDone h.wire.onWrite)
    (attends : Attends K h c d inbox) {chat : Chat α} (paced : Script.Paced chat) :
    Comp.EndAlike (fun _ k ms => ∃ conn, k.own = some conn ∧ Serving K (some c.op.spec.walletKey) ⟨conn, k.wire⟩ ms)
      (fun k _ => k.own = none ∧ allDone k.wire.onWrite) ((Client.pinned K c.hostStaticPriv c.credential c.op.spec (chat.on K)).run (facing inbox h))
      ((served K (c.prelude K d pinned >>= fun _ => chat)).run d.messages) := by
  rw [Client.pinned, served_bind]
  have ensured := ensureConn_alike aead ackFits parses holds writes attends
  refine .bind (.onErr ensured fun _ _ writes => ⟨rfl, writes⟩) ?_
  rintro _ k ms ⟨conn, slot, serving⟩
  refine .onErr (inSlot_alike slot (chat_simulates aead ackFits paced _ ms serving)) ?_
  rintro _ _ ⟨_, writes⟩
  exact ⟨rfl, writes⟩

/-- **One call refines the ideal client**, and the slot stands for its state again. -/
theorem call_refines (aead : K.toCrypto.AeadLaws) (ackFits : (K.buttonAck.encode {}).length ≤ MAX_BODY)
    (stands : Stands h pinned) (attends : Attends K h c d inbox) :
    Comp.EndAlike (fun _ => Stands) Stands
      ((c.run K).run (facing inbox h)) ((idealCall K c d).run pinned) := by
  rw [Call.run_eq, idealCall]
  rcases parses : c.op.addressN with e | addressN
  · exact .err ⟨stands.holds, stands.writes⟩
  · have alike := pinned_alike aead ackFits parses stands.holds stands.writes attends (c.op.chat_paced (K := K) addressN)
    simp only [Comp.ofExcept_ok, Comp.pure_bind, Call.script_eq]
    rw [Comp.run_bind]
    rcases called : (Client.pinned K c.hostStaticPriv c.credential c.op.spec ((c.op.chat K addressN).on K)).run (facing inbox h) with
      ⟨o, k⟩
    rcases asked : (served K (c.prelude K d pinned >>= fun _ => c.op.chat K addressN)).run d.messages with ⟨o', ms⟩
    rw [called, asked] at alike
    cases alike with
    | @ok x _ _ rel =>
      obtain ⟨conn, slot, serving⟩ := rel
      have stands' : Stands k (some c.op.spec.walletKey) := by
        refine ⟨?_, serving.writes⟩
        rw [slot]
        exact .of_serving serving
      -- the late check of `identify_paired` fails without touching the slot
      cases x with
      | ok v => exact .ok stands'
      | error e => exact .err stands'
    | err rel =>
      refine .err ⟨?_, rel.2⟩
      rw [rel.1]
      exact .empty
    | panicked => exact .panicked
    | dropped => exact .dropped

end Calls

/-! ## Runs -/

section Runs

variable {K} {h : Host Slot} {pinned : Option WalletKey}

/-- A device whose messages fit into frames, as the call's own do. -/
structure Behaviour.Fits (K : Crates) (d : Behaviour) (c : Call) : Prop where
  sendable : d.Sendable K
  credential : (K.completionPayload.encode ⟨some c.credential⟩).length ≤ MAX_PAYLOAD

/-- Such a device can attend to any call on any state of the client. -/
theorem Attends.exists (aead : K.toCrypto.AeadLaws) (holds : Holds h.own pinned) {c : Call} {d : Behaviour} (fits : d.Fits K c) :
    ∃ inbox, Attends K h c d inbox := by
  by_cases same : pinned = some c.op.spec.walletKey
  · generalize slot : h.own = own at holds
    cases holds with
    | empty => cases same
    | @pinned l s id sid key =>
      obtain rfl := Option.some.inj same
      obtain ⟨inbox, incoming⟩ := Incoming.exists aead d.messages fits.sendable.messages l s
      exact ⟨inbox, .answers slot incoming⟩
  · have other := holds.reusable_none.2 same
    rcases hostKey : toArray32 c.hostStaticPriv with e | hsp
    · exact ⟨[], .badKey other hostKey⟩
    · obtain ⟨inbox, welcomes⟩ := Welcomes.exists aead fits.sendable h.wire (p := d.secrets h.wire hsp c.credential) fits.credential
      exact ⟨inbox, .opens other hostKey welcomes⟩

/-- A run of calls, the device attending to each of them. A call that does not return is the last. -/
inductive Attended (K : Crates) : Host Slot → List (Call × Behaviour) → List (Outcome TrezorError Value) → Prop
  | done {h : Host Slot} : Attended K h [] []
  | call {h : Host Slot} {c : Call} {d : Behaviour} {inbox : Inbox} {visits : List (Call × Behaviour)}
      {ends : List (Outcome TrezorError Value)} : Attends K h c d inbox →
      (visits ≠ [] → returns K c (facing inbox h)) → Attended K ((c.run K).run (facing inbox h)).2 visits ends →
      Attended K h ((c, d) :: visits) (((c.run K).run (facing inbox h)).1 :: ends)

/-- The run of the ideal client. -/
def idealRun (K : Crates) : List (Call × Behaviour) → Option WalletKey → List (Outcome TrezorError Value)
  | [], _ => []
  | (c, d) :: visits, pinned => ((idealCall K c d).run pinned).1 :: idealRun K visits ((idealCall K c d).run pinned).2

/-- Whatever such devices do, as long as no call waits for ever, there is a run in which they do it. -/
theorem Attended.exists (aead : K.toCrypto.AeadLaws) (ackFits : (K.buttonAck.encode {}).length ≤ MAX_BODY)
    {visits : List (Call × Behaviour)} (fits : ∀ v ∈ visits, v.2.Fits K v.1) (stands : Stands h pinned)
    (prompt : ∀ r ∈ idealRun K visits pinned, r ≠ .dropped ∧ r ≠ .panicked) : ∃ ends, Attended K h visits ends := by
  induction visits generalizing h pinned with
  | nil => exact ⟨[], .done⟩
  | cons visit visits ih =>
    obtain ⟨c, d⟩ := visit
    obtain ⟨inbox, attends⟩ := Attends.exists aead stands.holds (fits _ (List.mem_cons_self ..))
    have alike := call_refines aead ackFits stands attends
    obtain ⟨noDrop, noPanic⟩ := prompt ((idealCall K c d).run pinned).1 (List.mem_cons_self ..)
    have later : ∀ r ∈ idealRun K visits ((idealCall K c d).run pinned).2, r ≠ .dropped ∧ r ≠ .panicked :=
      fun r hr => prompt r (List.mem_cons_of_mem _ hr)
    rcases called : (c.run K).run (facing inbox h) with ⟨o, k⟩
    rcases asked : (idealCall K c d).run pinned with ⟨o', pinned'⟩
    rw [called, asked] at alike
    rw [asked] at noDrop noPanic later
    obtain ⟨returned, stands'⟩ : returns K c (facing inbox h) ∧ Stands k pinned' := by
      rw [returns, called]
      cases alike with
      | ok stands' => exact ⟨.inl ⟨_, rfl⟩, stands'⟩
      | err stands' => exact ⟨.inr ⟨_, rfl⟩, stands'⟩
      | panicked => exact absurd rfl noPanic
      | dropped => exact absurd rfl noDrop
    obtain ⟨ends, attended⟩ := ih (fun v hv => fits v (List.mem_cons_of_mem _ hv)) stands' later
    have after : ((c.run K).run (facing inbox h)).2 = k := by
      rw [called]
    exact ⟨_, .call attends (fun _ => returned) (after ▸ attended)⟩

end Runs

/-! ### Three calls

The device asks for a button press and answers, then refuses, then answers on a new channel. -/

def walletPeer : Peer :=
  ⟨0x1234, walletSecrets.deviceProperties, walletSecrets.deviceEphemeral, walletSecrets.deviceStatic, [2]⟩

end TrezorCore.Client
