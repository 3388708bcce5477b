import TrezorCore.Client.Interleaving
import TrezorCore.Thp.Receipts

/-!
# What a client accepts

Whatever the device and the transport do, and however calls end, all that a client ever takes from
a connection are messages that were opened on it, in the order of their nonces and none of them
twice. A connection in the slot keeps its count from call to call.
-/

namespace TrezorCore.Client

open Connection

variable {K : Crates} {slot : Slot} {α : Type}

/-! ## A connection of a call's own -/

/-- The slot and all that was accepted so far, whatever became of a call's own connection. -/
def Undisturbed (K : Crates) (slot : Slot) (h : Host Connection) : Prop := Receipts K h.wire ∧ Pinned K slot h.wire

theorem Undisturbed.of_beside {P : Connection → Wire → Prop} {h : Host Connection} (beside : Beside K slot P h) : Undisturbed K slot h :=
  ⟨beside.receipts, beside.pinned⟩

theorem receives_triple {x : Io Connection α} (receives : Comp.Keeps (Receives K slot) x) :
    Comp.Triple (Beside K slot (Counting K)) x (fun _ => Beside K slot (Counting K)) (Undisturbed K slot) :=
  .of_keeps receives (fun _ _ kept beside _ => kept beside) fun _ _ kept beside => .of_beside (kept beside)

/-- The handshake's keys come with a receive nonce of one, and nothing was accepted before. -/
theorem bringUp_unheard {rest : Channel.ChannelAllocation → Noise.SessionKeys → Io Connection α} {hostStaticPriv : Octets 32}
    {credential : Option Bytes} {Q : α → Host Connection → Prop}
    (later : ∀ allocation keys, keys.nonceResponse = 1 → Comp.Triple (Beside K slot Unheard) (rest allocation keys) Q (Undisturbed K slot)) :
    Comp.Triple (Beside K slot Unheard) (do
      let allocation ← allocate K
      let keys ← handshake K allocation.devicePropertiesRaw hostStaticPriv credential
      rest allocation keys) Q (Undisturbed K slot) := by
  have closed : ∀ h h' : Host Connection, Silent h h' → Beside K slot Unheard h → Beside K slot Unheard h' :=
    fun _ _ silent beside => beside.silent silent
  have allocates := (allocate_even (K := K)).frame Silent.allocate closed
  have shakes := fun raw => (handshake_even (K := K) raw hostStaticPriv credential).frame (Silent.handshake _ _ _) closed
  refine .bind (allocates.conseq (fun _ beside => ⟨trivial, beside⟩) (fun _ _ ends => ends) fun _ early => .of_beside early.2) fun allocation => ?_
  refine .bind ((shakes _).conseq (fun _ ends => ends) (fun _ _ ends => ends) fun _ early => .of_beside early.2) fun keys => ?_
  rintro h ⟨⟨-, -, response⟩, beside⟩
  exact later allocation keys response h beside

/-- The session starts to count. -/
theorem setSession_counting {keys : Noise.SessionKeys} (response : keys.nonceResponse = 1) {B : Host Connection → Prop} :
    Comp.Triple (Beside K slot Unheard) (setSession (Session.fromHandshake keys)) (fun _ => Beside K slot (Counting K)) B := by
  intro h beside
  refine beside.mutely (.of_events [] (List.append_nil _).symm rfl rfl) rfl fun unheard => ?_
  refine ⟨_, 0, rfl, Nat.zero_le _, response, ?_⟩
  rw [unheard]
  exact .nil

theorem pairedSteps_receives (hsp : Octets 32) (credential : Bytes) :
    Comp.Triple (Beside K slot Unheard) (pairedSteps K hsp credential) (fun _ => Beside K slot (Counting K)) (Undisturbed K slot) := by
  refine bringUp_unheard fun allocation keys response => ?_
  split
  · exact .fail _ fun _ => .of_beside
  · exact .bind (setSession_counting response) fun _ => receives_triple .endRequest

theorem getrandom_receives (n : Nat) : Comp.Keeps (Receives K slot) (Io.getrandom n) := fun _ beside =>
  beside.stays (.of_events [] (List.append_nil _).symm rfl rfl) rfl fun s same => ⟨s, same, rfl, rfl⟩

theorem runCodeentryPairing_receives (handshakeHash hostStaticPubkey : Octets 32) (hostName appName : String) (codeProvider : Option String) :
    Comp.Keeps (Receives K slot) (Pairing.runCodeentryPairing K handshakeHash hostStaticPubkey hostName appName codeProvider) := by
  have checked : ∀ {β : Type} (x : Except TrezorError β), Comp.Keeps (Receives K slot) (Comp.ofExcept x) := fun x => .ofExcept Receives.refl x
  have asked : Comp.Keeps (Receives K slot) (Pairing.requestCode codeProvider) := by
    cases codeProvider <;> exact Receives.refl
  refine .bind Receives.trans (Receives.transceive _ _) fun _ => .bind Receives.trans (checked _) fun _ =>
    .bind Receives.trans (Receives.transceive _ _) fun _ => .bind Receives.trans (checked _) fun _ => .bind Receives.trans (checked _) fun _ =>
    .bind Receives.trans (getrandom_receives 16) fun _ => .bind Receives.trans (Receives.transceive _ _) fun _ =>
    .bind Receives.trans (checked _) fun _ => .bind Receives.trans (checked _) fun _ => .bind Receives.trans (checked _) fun _ =>
    .bind Receives.trans asked fun _ => .bind Receives.trans (checked _) fun _ => .bind Receives.trans (getrandom_receives 32) fun _ =>
    .bind Receives.trans (Receives.transceive _ _) fun _ => .bind Receives.trans (checked _) fun _ => .bind Receives.trans (checked _) fun _ => ?_
  split
  · exact .fail Receives.refl _
  · exact .bind Receives.trans (Receives.transceive _ _) fun _ => .bind Receives.trans (checked _) fun _ =>
      .bind Receives.trans (checked _) fun _ => .pure Receives.refl _

theorem establishSteps_receives (hostStatic : Octets 32) (hostName appName : String) (storedCredential : Option Bytes) (codeProvider : Option String) :
    Comp.Triple (Beside K slot Unheard) (establishSteps K hostStatic hostName appName storedCredential codeProvider)
      (fun _ => Undisturbed K slot) (Undisturbed K slot) := by
  refine bringUp_unheard fun allocation keys response => .bind (setSession_counting response) fun _ => ?_
  have ends : ∀ {x : Io Connection PairedSession}, Comp.Keeps (Receives K slot) x →
      Comp.Triple (Beside K slot (Counting K)) x (fun _ => Undisturbed K slot) (Undisturbed K slot) := fun receives =>
    (receives_triple receives).conseq (fun _ beside => beside) (fun _ _ => .of_beside) fun _ early => early
  have closes : ∀ credential : Bytes, Comp.Keeps (Receives K slot) (do
      Pairing.endRequest K
      let features ← (Pairing.getFeatures K).on K
      pure ⟨features.deviceId.getD "", features.model.getD "",
        s!"{features.majorVersion}.{features.minorVersion}.{features.patchVersion}", features.initialized.getD false, credential⟩ :
        Io Connection PairedSession) :=
    fun _ => .bind Receives.trans Receives.endRequest fun _ => .bind Receives.trans (Receives.chat _) fun _ => .pure Receives.refl _
  split
  · exact ends (.bind Receives.trans (.pure Receives.refl _) closes)
  · exact ends (.bind Receives.trans (runCodeentryPairing_receives _ _ _ _ _) closes)

theorem probeSteps_receives : Comp.Triple (Beside K slot Unheard) (probeSteps K) (fun _ => Undisturbed K slot) (Undisturbed K slot) := by
  have silent : Comp.Keeps Silent (probeSteps K) :=
    .bind Silent.trans Silent.allocate fun _ => .bind Silent.trans (Silent.getrandom 32) fun _ =>
      .bind Silent.trans (Silent.handshake _ _ _) fun _ => .pure Silent.refl _
  exact .of_keeps silent (fun _ _ kept beside _ => .of_beside (beside.silent kept)) fun _ _ kept beside => .of_beside (beside.silent kept)

/-! ## The slot -/

/-- All that was accepted is in order, and the pinned connection keeps count. -/
def Sound (K : Crates) (h : Host Slot) : Prop := Receipts K h.wire ∧ Pinned K h.own h.wire

theorem newborn_unheard {w : Wire} {slot : Slot} (receipts : Receipts K w) (pinned : Pinned K slot w) (packetSize : Nat) :
    Beside K slot Unheard ⟨initial w.connections packetSize, { w with connections := w.connections + 1 }⟩ where
  receipts := ⟨receipts.every, fun id unborn => receipts.unborn id (Nat.le_of_succ_le unborn)⟩
  pinned c here := ⟨Nat.lt_succ_of_lt (pinned c here).1, (pinned c here).2⟩
  apart c here := Nat.ne_of_lt (pinned c here).1
  born := Nat.lt_succ_self _
  own := receipts.unborn _ le_rfl

/-- A call on a connection that nobody keeps. -/
theorem ownConnection_sound {x : Io Connection α} (steps : ∀ slot, Comp.Triple (Beside K slot Unheard) x (fun _ => Undisturbed K slot) (Undisturbed K slot)) :
    Comp.Triple (Sound K) (do
      let conn ← Connection.new Framing.BLE_PACKET_SIZE
      let (result, _) ← Io.runOwned x conn
      pure result : Io Slot α) (fun _ => Sound K) (Sound K) := by
  rintro ⟨slot, w⟩ ⟨receipts, pinned⟩
  have newborn := newborn_unheard receipts pinned Framing.BLE_PACKET_SIZE
  have call : Comp.Triple (fun h : Host Slot => h = ⟨slot, { w with connections := w.connections + 1 }⟩)
      (Io.runOwned x (initial w.connections Framing.BLE_PACKET_SIZE)) (fun _ => Sound K) (Sound K) := by
    refine Io.runOwned_triple (steps slot) ?_ ?_ ?_
    · rintro h rfl
      exact newborn
    · rintro h _ h' rfl kept
      exact kept
    · rintro h h' rfl kept
      exact kept
  exact Comp.Triple.bind call (fun r => .pure r.1 fun _ sound => sound) _ rfl

/-- No connection is left in the slot. -/
def Emptied (K : Crates) (h : Host Slot) : Prop := h.own = none ∧ Receipts K h.wire

theorem Emptied.sound {h : Host Slot} (emptied : Emptied K h) : Sound K h :=
  ⟨emptied.2, fun _ here => absurd (emptied.1.symm.trans here) nofun⟩

theorem openPairedConnection_receives (hsp : Octets 32) (credential : Bytes) :
    Comp.Triple (Emptied K) (openPairedConnection K hsp credential)
      (fun conn h => h.own = none ∧ Beside K none (Counting K) ⟨conn, h.wire⟩) (Emptied K) := by
  rintro ⟨_, w⟩ ⟨rfl, receipts⟩
  have empty : Pinned K none w := nofun
  have newborn := newborn_unheard receipts empty Framing.BLE_PACKET_SIZE
  have steps : Comp.Triple (Beside K none Unheard) _ _ _ := pairedSteps_receives hsp credential
  have call : Comp.Triple (fun h : Host Slot => h = ⟨none, { w with connections := w.connections + 1 }⟩)
      (Io.runOwned (pairedSteps K hsp credential) (initial w.connections Framing.BLE_PACKET_SIZE))
      (fun r h => h.own = none ∧ Beside K none (Counting K) ⟨r.2, h.wire⟩) (Emptied K) := by
    refine Io.runOwned_triple steps ?_ ?_ ?_
    · rintro h rfl
      exact newborn
    · rintro h _ h' rfl kept
      exact ⟨rfl, kept⟩
    · rintro h h' rfl kept
      exact ⟨rfl, kept.1⟩
  exact Comp.Triple.bind call (fun r => .pure r.2 fun _ kept => kept) _ rfl

theorem openInto_receives (hostStaticPriv credential : Bytes) (key : WalletKey) :
    Comp.Triple (Emptied K) (openInto K hostStaticPriv credential key) (fun _ => Sound K) (Emptied K) := by
  refine .ofExcept_bind (fun hsp _ => ?_) fun _ emptied => emptied
  refine .bind (openPairedConnection_receives hsp credential) fun conn => ?_
  refine .bind (Q := fun r h => h.own = none ∧ Beside K none (Counting K) ⟨r.2, h.wire⟩) ?_ fun r => ?_
  · exact Io.runOwned_triple (receives_triple (Receives.createSeededSession _ _)) (fun _ kept => kept.2)
      (fun _ _ _ kept seeded => ⟨kept.1, seeded⟩) fun _ _ kept early => ⟨kept.1, early.1⟩
  · rintro h ⟨-, beside⟩
    refine ⟨beside.receipts, fun c here => ?_⟩
    cases here
    exact ⟨beside.born, beside.own⟩

theorem ensureConn_sound (hostStaticPriv credential : Bytes) (spec : PassphraseSpec) :
    Comp.Triple (Sound K) (ensureConn K hostStaticPriv credential spec) (fun _ => Sound K) (Sound K) := by
  intro h sound
  rcases reuse : reusable h.own spec.walletKey with _ | c
  · rw [ensureConn_open reuse]
    exact (openInto_receives hostStaticPriv credential spec.walletKey).conseq (fun _ emptied => emptied) (fun _ _ sound => sound)
      (fun _ => Emptied.sound) _ ⟨rfl, sound.1⟩
  · rw [ensureConn_reuse reuse]
    exact sound

theorem inSlot_sound (chat : Chat α) : Comp.Triple (Sound K) (Io.inSlot (chat.on K)) (fun _ => Sound K) (Sound K) := by
  rintro ⟨slot, w⟩ ⟨receipts, pinned⟩
  rcases slot with _ | c
  · exact ⟨receipts, pinned⟩
  · obtain ⟨born, counting⟩ := pinned c rfl
    have beside : Beside K none (Counting K) ⟨c, w⟩ := ⟨receipts, nofun, nofun, born, counting⟩
    have receives : Receives K none ⟨c, w⟩ _ := Receives.chat chat ⟨c, w⟩
    have kept := receives beside
    have sound : Sound K ⟨some ((chat.on K).run ⟨c, w⟩).2.own, ((chat.on K).run ⟨c, w⟩).2.wire⟩ := by
      refine ⟨kept.receipts, fun c' here => ?_⟩
      cases here
      exact ⟨kept.born, kept.own⟩
    simp only [Io.inSlot]
    rcases ran : (chat.on K).run ⟨c, w⟩ with ⟨_ | _ | _ | _, h'⟩ <;> rw [ran] at sound <;> exact sound

theorem call_sound (c : Call) : Comp.Triple (Sound K) (c.run K) (fun _ => Sound K) (Sound K) := by
  have cleared : ∀ h : Host Slot, Sound K h → Sound K { h with own := none } := fun h sound => Emptied.sound ⟨rfl, sound.1⟩
  rw [Call.run_eq]
  refine .ofExcept_bind (fun addressN _ => ?_) fun _ sound => sound
  refine .bind (.bind (clearing_triple (ensureConn_sound _ _ _) cleared) fun _ => clearing_triple (inSlot_sound _) cleared) fun x => ?_
  exact .ofExcept _ (fun _ _ _ sound => sound) fun _ sound => sound

/-- **The step**: a method, however it ends. -/
theorem method_sound (m : Method) : Comp.Triple (Sound K) (m.run K) (fun _ => Sound K) (Sound K) := by
  cases m with
  | pinned c => exact .bind (call_sound c) fun _ => .pure _ fun _ sound => sound
  | thpProbe => exact .bind (ownConnection_sound fun _ => probeSteps_receives) fun _ => .pure _ fun _ sound => sound
  | establishPairedSession hostStaticPriv hostName appName storedCredential codeProvider =>
    refine .bind (.ofExcept_bind (fun hostStatic _ => ?_) fun _ sound => sound) fun _ => .pure _ fun _ sound => sound
    exact ownConnection_sound fun _ => establishSteps_receives hostStatic hostName appName storedCredential codeProvider
  | notImplemented feature => exact .fail _ fun _ sound => sound

/-! ## Every run -/

/-- The states of a client between two methods, over all methods and all that the transport may bring. -/
inductive Used (K : Crates) : Host Slot → Prop where
  | start {h : Host Slot} : h.own = none → h.wire.trace = [] → Used K h
  | method {h : Host Slot} (m : Method) (inbox : List (Except TrezorTransportError Bytes)) : Used K h →
      Used K ((m.run K).run (facing inbox h)).2

theorem Sound.facing {h : Host Slot} (sound : Sound K h) (inbox : List (Except TrezorTransportError Bytes)) : Sound K (facing inbox h) := by
  have mutely : Mutely h.wire (Client.facing inbox h).wire := .of_events [] (List.append_nil _).symm rfl rfl
  exact ⟨mutely.receipts sound.1, mutely.pinned sound.2⟩

theorem Used.sound {h : Host Slot} (used : Used K h) : Sound K h := by
  induction used with
  | start empty fresh =>
    refine Emptied.sound ⟨empty, fun id => ⟨⟨List.replicate 32 0, rfl⟩, 0, Nat.zero_le _, ?_⟩, fun id _ => ?_⟩
    · rw [fresh]
      exact .nil
    · rw [fresh]
      rfl
  | method m inbox _ ih => exact (method_sound m).after (ih.facing inbox)

theorem Used.call {h : Host Slot} (used : Used K h) (c : Call) (inbox : List (Except TrezorTransportError Bytes)) :
    Used K ((c.run K).run (Client.facing inbox h)).2 := by
  have after := used.method (.pinned c) inbox
  rw [Method.run, Comp.run_bind] at after
  rcases ran : (c.run K).run (Client.facing inbox h) with ⟨_ | _ | _ | _, h'⟩ <;> rw [ran] at after <;> exact after

end TrezorCore.Client
