import TrezorCore.Client.Establishing
import TrezorCore.Client.Pinned
import TrezorCore.Thp.Counters

/-!
# The counters of a client

No operation, no pairing and no probe uses a counter at its maximum, if the counters of the pinned
session are further below it than there are chunks to come. So these calls do the same in a build
with overflow checks.
-/

namespace TrezorCore.Client

open Connection
open Session (MAX_NONCE)

variable {K : Crates} {t : List Event} {γ : Type}

/-- Fewer chunks arrive than a counter can count. -/
def FewArrive (w : Wire) : Prop := w.inbox.length + 1 < MAX_NONCE.toNat

/-- The counters of the pinned session are further below their maximum than there are chunks to come. -/
structure Spare (h : Host Slot) : Prop where
  few : FewArrive h.wire
  send : ∀ c s, h.own = some c → c.session = some s → s.nonceSend.toNat + h.wire.inbox.length < MAX_NONCE.toNat
  recv : ∀ c s, h.own = some c → c.session = some s → s.nonceRecv.toNat + h.wire.inbox.length < MAX_NONCE.toNat

theorem Spare.room {h : Host Slot} (spare : Spare h) {c : Connection} (slot : h.own = some c) : Room h.wire.trace 0 ⟨c, h.wire⟩ :=
  ⟨.refl h.wire, spare.few, fun s => spare.send c s slot, fun s => spare.recv c s slot⟩

/-- A new connection has room. -/
theorem initial_room {w : Wire} (unspent : Unspent t w) (few : FewArrive w) (id packetSize : Nat) : Room t 0 ⟨initial id packetSize, w⟩ :=
  have none : ∀ {s : Session} {P : Prop}, (initial id packetSize).session = some s → P := nofun
  ⟨unspent, few, fun _ is => none is, fun _ is => none is⟩

/-- So a call on a new connection stays below the maximum if it does with room. -/
theorem runNew_room {α β : Type} {x : Io Connection α} {f : α × Connection → Io γ β} {Q : β → Host γ → Prop} {packetSize : Nat}
    (call : Comp.Triple (Room t 0) x (fun _ => Room t 0) fun h => Unspent t h.wire)
    (later : ∀ a, Comp.Triple (fun h => Room t 0 ⟨a.2, h.wire⟩) (f a) Q fun h => Unspent t h.wire) :
    Comp.Triple (fun h => Unspent t h.wire ∧ FewArrive h.wire) (Connection.new packetSize >>= fun conn => Io.runOwned x conn >>= f) Q
      fun h => Unspent t h.wire := by
  refine .bind (Q := fun conn h => Room t 0 ⟨conn, h.wire⟩) ?_ fun conn => .bind (Io.runOwned_triple call (fun _ room => room)
    (fun _ _ _ _ room => room) fun _ _ _ unspent => unspent) later
  rintro h ⟨unspent, few⟩
  exact initial_room (w := { h.wire with connections := h.wire.connections + 1 }) unspent few h.wire.connections packetSize

/-! ## The parts -/

theorem handshake_room (devicePropertiesRaw : Bytes) (hostStaticPriv : Octets 32) (credential : Option Bytes) :
    Comp.Triple (Room t 0) (handshake K devicePropertiesRaw hostStaticPriv credential)
      (fun keys h => Room t 0 h ∧ keys.nonceRequest = 0 ∧ keys.nonceResponse = 1) fun h => Unspent t h.wire := by
  have keys : Comp.Triple (Room t 0) (handshake K devicePropertiesRaw hostStaticPriv credential)
      (fun keys _ => keys.nonceRequest = 0 ∧ keys.nonceResponse = 1) fun _ => True :=
    (handshake_keys devicePropertiesRaw hostStaticPriv credential).conseq (fun _ _ => trivial) (fun _ _ keys => keys.2) fun _ _ => trivial
  exact ((Calm.triple (Calm.handshake _ _ _)).and keys).conseq (fun _ room => room) (fun _ _ both => both) fun _ ended => ended.1

/-- The session that a handshake opens, and what is done with it. -/
theorem bringUp_room {α : Type} {hostStaticPriv : Octets 32} {credential : Option Bytes}
    {rest : Channel.ChannelAllocation → Noise.SessionKeys → Io Connection α}
    (later : ∀ allocation keys, keys.nonceRequest = 0 → keys.nonceResponse = 1 →
      Comp.Triple (Room t 0) (rest allocation keys) (fun _ => Room t 0) fun h => Unspent t h.wire) :
    Comp.Triple (Room t 0) (do
      let allocation ← allocate K
      let keys ← handshake K allocation.devicePropertiesRaw hostStaticPriv credential
      rest allocation keys) (fun _ => Room t 0) fun h => Unspent t h.wire := by
  refine .bind (Calm.triple Calm.allocate) fun allocation => .bind (handshake_room _ _ _) fun keys => ?_
  rintro h ⟨room, request, response⟩
  exact later allocation keys request response h room

theorem endRequest_room : Comp.Triple (Room t 0) (Pairing.endRequest K) (fun _ => Room t 0) fun h => Unspent t h.wire :=
  .bind (transceive_room _ _) fun _ => .ofExcept _ (fun _ _ _ room => room) fun _ room => room.unspent

theorem createSeededSession_room (key : WalletKey) :
    Comp.Triple (Room t 0) (createSeededSession K key.1 key.2) (fun _ => Room t 0) fun h => Unspent t h.wire := by
  refine .bind (modifyOwn_room fun _ => rfl) fun _ => .bind (transceive_room _ _) fun _ => ?_
  split
  split
  · exact .fail _ fun _ room => room.unspent
  · exact modifyOwn_room fun _ => rfl

theorem pairedSteps_room (hsp : Octets 32) (credential : Bytes) :
    Comp.Triple (Room t 0) (pairedSteps K hsp credential) (fun _ => Room t 0) fun h => Unspent t h.wire := by
  refine bringUp_room fun allocation keys request response => ?_
  split
  · exact .fail _ fun _ room => room.unspent
  · exact .bind (setSession_room request response) fun _ => endRequest_room

theorem runCodeentryPairing_room (handshakeHash hostStaticPubkey : Octets 32) (hostName appName : String) (codeProvider : Option String) :
    Comp.Triple (Room t 0) (Pairing.runCodeentryPairing K handshakeHash hostStaticPubkey hostName appName codeProvider)
      (fun _ => Room t 0) fun h => Unspent t h.wire := by
  have unspent : ∀ h, Room t 0 h → Unspent t h.wire := fun _ room => room.unspent
  have asked : Comp.Triple (Room t 0) (Pairing.requestCode codeProvider) (fun _ => Room t 0) fun h => Unspent t h.wire := by
    cases codeProvider with
    | some code => exact .pure code fun _ room => room
    | none => exact unspent
  refine .bind (transceive_room _ _) fun _ => .ofExcept_bind (fun _ _ => ?_) unspent
  refine .bind (transceive_room _ _) fun _ => .ofExcept_bind (fun _ _ => .ofExcept_bind (fun _ _ => ?_) unspent) unspent
  refine .bind (Calm.triple (Calm.getrandom 16)) fun _ => .bind (transceive_room _ _) fun _ => .ofExcept_bind (fun _ _ => ?_) unspent
  refine .ofExcept_bind (fun _ _ => .ofExcept_bind (fun _ _ => .bind asked fun _ => ?_) unspent) unspent
  refine .ofExcept_bind (fun _ _ => .bind (Calm.triple (Calm.getrandom 32)) fun _ => ?_) unspent
  refine .bind (transceive_room _ _) fun _ => .ofExcept_bind (fun _ _ => .ofExcept_bind (fun _ _ => ?_) unspent) unspent
  split
  · exact .fail _ unspent
  · exact .bind (transceive_room _ _) fun _ => .ofExcept_bind (fun _ _ => .ofExcept_bind (fun _ _ => .pure _ fun _ room => room) unspent) unspent

theorem establishSteps_room (hostStatic : Octets 32) (hostName appName : String) (storedCredential : Option Bytes)
    (codeProvider : Option String) :
    Comp.Triple (Room t 0) (establishSteps K hostStatic hostName appName storedCredential codeProvider) (fun _ => Room t 0)
      fun h => Unspent t h.wire := by
  have closes : ∀ credential : Bytes, Comp.Triple (Room t 0) (do
      Pairing.endRequest K
      let features ← (Pairing.getFeatures K).on K
      pure (sessionOf features credential)) (fun _ => Room t 0) fun h => Unspent t h.wire :=
    fun _ => .bind endRequest_room fun _ => .bind (chat_room _) fun _ => .pure _ fun _ room => room
  refine bringUp_room fun allocation keys request response => .bind (setSession_room request response) fun _ => ?_
  split
  · exact .bind (.pure _ fun _ room => room) closes
  · exact .bind (runCodeentryPairing_room _ _ _ _ _) closes

theorem probeSteps_room : Comp.Triple (Room t 0) (probeSteps K) (fun _ => Room t 0) fun h => Unspent t h.wire :=
  .bind (Calm.triple Calm.allocate) fun _ => .bind (Calm.triple (Calm.getrandom 32)) fun _ =>
    .bind (Calm.triple (Calm.handshake _ _ _)) fun _ => .pure _ fun _ room => room

/-! ## Every call -/

theorem openInto_room (hostStaticPriv credential : Bytes) (key : WalletKey) :
    Comp.Triple (fun h : Host Slot => Unspent t h.wire ∧ FewArrive h.wire) (openInto K hostStaticPriv credential key)
      (fun _ h => ∃ c, h.own = some c ∧ Room t 0 ⟨c, h.wire⟩) fun h => Unspent t h.wire := by
  refine .ofExcept_bind (fun hsp _ => ?_) fun _ start => start.1
  refine .bind (Q := fun conn h => Room t 0 ⟨conn, h.wire⟩)
    (runNew_room (pairedSteps_room hsp credential) fun a => .pure a.2 fun _ room => room) fun conn => ?_
  refine .bind (Q := fun seeded h => Room t 0 ⟨seeded.2, h.wire⟩) (Io.runOwned_triple (createSeededSession_room key)
    (fun _ room => room) (fun _ _ _ _ room => room) fun _ _ _ unspent => unspent) fun seeded h room => ?_
  exact ⟨seeded.2, rfl, room⟩

/-- **A call** with room uses no counter at its maximum, -/
theorem call_unspent (c : Call) {h : Host Slot} (spare : Spare h) : Unspent h.wire.trace ((c.run K).run h).2.wire := by
  have ensured : Comp.Triple (· = h) (ensureConn K c.hostStaticPriv c.credential c.op.spec)
      (fun _ k => ∃ conn, k.own = some conn ∧ Room h.wire.trace 0 ⟨conn, k.wire⟩) fun k => Unspent h.wire.trace k.wire := by
    intro k same
    rw [same]
    rcases reuse : reusable h.own c.op.spec.walletKey with _ | conn
    · rw [ensureConn_open reuse]
      exact openInto_room _ _ _ ⟨none, h.wire⟩ ⟨.refl h.wire, spare.few⟩
    · rw [ensureConn_reuse reuse]
      obtain ⟨slot, -⟩ := reusable_eq_some reuse
      exact ⟨conn, slot, spare.room slot⟩
  have talked : ∀ addressN, Comp.Triple (fun k : Host Slot => ∃ conn, k.own = some conn ∧ Room h.wire.trace 0 ⟨conn, k.wire⟩)
      (Io.inSlot ((c.op.chat K addressN).on K)) (fun _ k => Unspent h.wire.trace k.wire) fun k => Unspent h.wire.trace k.wire := fun addressN =>
    (inSlot_told (P := fun conn w => Room h.wire.trace 0 ⟨conn, w⟩) (Q := fun _ _ w => Unspent h.wire.trace w)
      (B := fun _ w => Unspent h.wire.trace w) ((chat_room _).conseq (fun _ room => room) (fun _ _ room => room.unspent)
        fun _ unspent => unspent)).conseq (fun _ room => room) (fun _ _ ⟨_, _, unspent⟩ => unspent) fun _ ⟨_, _, unspent⟩ => unspent
  have triple : Comp.Triple (· = h) (c.run K) (fun _ k => Unspent h.wire.trace k.wire) fun k => Unspent h.wire.trace k.wire := by
    rw [Call.run_eq]
    refine .ofExcept_bind (fun addressN _ => ?_) fun k same => same ▸ .refl h.wire
    refine .bind (.bind (clearing_triple ensured fun _ unspent => unspent) fun _ => clearing_triple (talked addressN) fun _ unspent => unspent)
      fun _ => .ofExcept _ (fun _ _ _ unspent => unspent) fun _ unspent => unspent
  exact triple.after rfl

/-- nor does a pairing, -/
theorem establish_unspent (p : Pairer) {h : Host γ} (few : FewArrive h.wire) : Unspent h.wire.trace ((p.run K).run h).2.wire := by
  have triple : Comp.Triple (fun k : Host γ => Unspent h.wire.trace k.wire ∧ FewArrive k.wire) (p.run K)
      (fun _ k => Unspent h.wire.trace k.wire) fun k => Unspent h.wire.trace k.wire :=
    .ofExcept_bind (fun hostStatic _ => runNew_room (establishSteps_room _ _ _ _ _) fun _ => .pure _ fun _ room => room.unspent)
      fun _ start => start.1
  exact triple.after ⟨.refl h.wire, few⟩

/-- nor a probe. -/
theorem probe_unspent {h : Host γ} (few : FewArrive h.wire) :
    Unspent h.wire.trace ((thpProbe K : Io γ ThpProbeResult).run h).2.wire := by
  have triple : Comp.Triple (fun k : Host γ => Unspent h.wire.trace k.wire ∧ FewArrive k.wire) (thpProbe K : Io γ ThpProbeResult)
      (fun _ k => Unspent h.wire.trace k.wire) fun k => Unspent h.wire.trace k.wire :=
    runNew_room probeSteps_room fun _ => .pure _ fun _ room => room.unspent
  exact triple.after ⟨.refl h.wire, few⟩

end TrezorCore.Client
