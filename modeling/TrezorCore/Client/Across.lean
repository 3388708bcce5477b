import TrezorCore.Client.Interleaving
import TrezorCore.Thp.Wires

/-!
# What every method keeps

A relation between the wire before and after that messages keep, and bringing a channel up, is
kept by every method, however it ends.
-/

namespace TrezorCore

variable {K : Crates} {Q : Wire → Wire → Prop} {γ δ α : Type}

/-- A relation that all that a method is made of keeps. -/
structure Enduring (K : Crates) (Q : Wire → Wire → Prop) : Prop extends Speaking K Q where
  draw : ∀ w n, Q w { w with drawn := w.drawn + n }
  create : ∀ w, Q w { w with connections := w.connections + 1 }
  allocate : Comp.Keeps (OnWire Q) (Connection.allocate K)
  handshake : ∀ raw hostStaticPriv credential, Comp.Keeps (OnWire Q) (Connection.handshake K raw hostStaticPriv credential)

namespace Enduring

variable (r : Enduring K Q)

include r

theorem getrandom (n : Nat) : Comp.Keeps (OnWire Q) (Io.getrandom n : Io γ (Octets n)) := fun h => r.draw h.wire n

theorem new (packetSize : Nat) : Comp.Keeps (OnWire Q) (Connection.new packetSize : Io γ Connection) := fun h => r.create h.wire

theorem endRequest : Comp.Keeps (OnWire Q) (Pairing.endRequest K) := r.bind (r.transceive _ _) fun _ => r.ofExcept _

theorem bringUp {rest : Channel.ChannelAllocation → Noise.SessionKeys → Io Connection α} {hostStaticPriv : Octets 32}
    {credential : Option Bytes} (later : ∀ allocation keys, Comp.Keeps (OnWire Q) (rest allocation keys)) :
    Comp.Keeps (OnWire Q) (do
      let allocation ← Connection.allocate K
      let keys ← Connection.handshake K allocation.devicePropertiesRaw hostStaticPriv credential
      rest allocation keys) :=
  r.bind r.allocate fun allocation => r.bind (r.handshake _ _ _) fun keys => later allocation keys

/-! ## The operations -/

theorem createSeededSession (passphrase : Option String) (onDevice : Bool) :
    Comp.Keeps (OnWire Q) (Connection.createSeededSession K passphrase onDevice) := by
  refine r.bind (r.modifyOwn _) fun _ => r.bind (r.transceive _ _) fun _ => ?_
  split
  split
  · exact r.fail _
  · exact r.modifyOwn _

theorem openPairedConnection (hostStaticPriv : Octets 32) (credential : Bytes) :
    Comp.Keeps (OnWire Q) (Client.openPairedConnection K hostStaticPriv credential : Io γ Connection) := by
  refine r.bind (r.new _) fun _ => r.bind (Acking.runOwned (r.bringUp fun _ keys => ?_) _) fun _ => r.pure _
  split
  · exact r.fail _
  · exact r.bind (r.modifyOwn _) fun _ => r.endRequest

theorem ensureConn (hostStaticPriv credential : Bytes) (spec : PassphraseSpec) :
    Comp.Keeps (OnWire Q) (Client.ensureConn K hostStaticPriv credential spec) := by
  have opened : Comp.Keeps (OnWire Q) (do
      let slot ← Io.own
      if slot.isNone then do
        let hsp ← .ofExcept (Client.toArray32 hostStaticPriv)
        let conn ← Client.openPairedConnection K hsp credential
        let conn ← Io.runOwned (Connection.createSeededSession K spec.walletKey.1 spec.walletKey.2) conn
        Io.modifyOwn fun _ => some conn.2 : Io Client.Slot Unit) := by
    refine r.bind r.own fun slot => ?_
    split
    · exact r.bind (r.ofExcept _) fun _ => r.bind (r.openPairedConnection _ _) fun _ =>
        r.bind (Acking.runOwned (r.createSeededSession _ _) _) fun _ => r.modifyOwn _
    · exact r.pure _
  refine r.bind r.own fun slot => ?_
  split
  · exact r.bind (r.modifyOwn _) fun _ => opened
  · exact opened

omit r in
theorem clearing {x : Io Client.Slot α} (hx : Comp.Keeps (OnWire Q) x) : Comp.Keeps (OnWire Q) (Client.clearing x) := by
  intro h
  have kept := hx h
  rcases ran : x.run h with ⟨_ | _ | _ | _, h'⟩ <;> rw [ran] at kept <;> simp only [Client.clearing, Comp.onErr, ran] <;> exact kept

theorem call (c : Client.Call) : Comp.Keeps (OnWire Q) (c.run K) := by
  rw [Client.Call.run_eq]
  exact r.bind (r.ofExcept _) fun addressN => r.bind (r.bind (clearing (r.ensureConn _ _ _)) fun _ =>
    clearing (r.inSlot (r.chat _))) fun _ => r.ofExcept _

/-! ## Pairing and probing -/

theorem runCodeentryPairing (handshakeHash hostStaticPubkey : Octets 32) (hostName appName : String) (codeProvider : Option String) :
    Comp.Keeps (OnWire Q) (Pairing.runCodeentryPairing K handshakeHash hostStaticPubkey hostName appName codeProvider) := by
  have asked : Comp.Keeps (OnWire Q) (Pairing.requestCode codeProvider) := by
    cases codeProvider with
    | some code => exact r.pure code
    | none => exact r.refl'
  refine r.bind (r.transceive _ _) fun _ => r.bind (r.ofExcept _) fun _ => r.bind (r.transceive _ _) fun _ => r.bind (r.ofExcept _) fun _ =>
    r.bind (r.ofExcept _) fun _ => r.bind (r.getrandom 16) fun _ => r.bind (r.transceive _ _) fun _ => r.bind (r.ofExcept _) fun _ =>
    r.bind (r.ofExcept _) fun _ => r.bind (r.ofExcept _) fun _ => r.bind asked fun _ => r.bind (r.ofExcept _) fun _ =>
    r.bind (r.getrandom 32) fun _ => r.bind (r.transceive _ _) fun _ => r.bind (r.ofExcept _) fun _ => r.bind (r.ofExcept _) fun _ => ?_
  split
  · exact r.fail _
  · exact r.bind (r.transceive _ _) fun _ => r.bind (r.ofExcept _) fun _ => r.bind (r.ofExcept _) fun _ => r.pure _

theorem establishPairedSession (hostStaticPriv : Bytes) (hostName appName : String) (storedCredential : Option Bytes)
    (codeProvider : Option String) :
    Comp.Keeps (OnWire Q) (Client.establishPairedSession K hostStaticPriv hostName appName storedCredential codeProvider : Io γ _) := by
  refine r.bind (r.ofExcept _) fun _ => r.bind (r.new _) fun _ => r.bind (Acking.runOwned (r.bringUp fun _ keys => ?_) _) fun _ => r.pure _
  have closes : ∀ credential : Bytes, Comp.Keeps (OnWire Q) (do
      Pairing.endRequest K
      let features ← (Pairing.getFeatures K).on K
      pure ⟨features.deviceId.getD "", features.model.getD "",
        s!"{features.majorVersion}.{features.minorVersion}.{features.patchVersion}", features.initialized.getD false, credential⟩ :
        Io Connection Client.PairedSession) :=
    fun _ => r.bind r.endRequest fun _ => r.bind (r.chat _) fun _ => r.pure _
  refine r.bind (r.modifyOwn _) fun _ => ?_
  split
  · exact r.bind (r.pure _) closes
  · exact r.bind (r.runCodeentryPairing _ _ _ _ _) closes

theorem thpProbe : Comp.Keeps (OnWire Q) (Client.thpProbe K : Io γ Client.ThpProbeResult) :=
  r.bind (r.new _) fun _ => r.bind (Acking.runOwned (r.bind r.allocate fun _ => r.bind (r.getrandom 32) fun _ =>
    r.bind (r.handshake _ _ _) fun _ => r.pure _) _) fun _ => r.pure _

/-- **A method keeps it.** -/
theorem method (m : Client.Method) : Comp.Keeps (OnWire Q) (m.run K) := by
  cases m with
  | pinned c => exact r.bind (r.call c) fun _ => r.pure _
  | thpProbe => exact r.bind r.thpProbe fun _ => r.pure _
  | establishPairedSession hostStaticPriv hostName appName storedCredential codeProvider =>
    exact r.bind (r.establishPairedSession _ _ _ _ _) fun _ => r.pure _
  | notImplemented feature => exact r.fail _

end Enduring

/-- A relation that every frame, every draw and the record of messages keep. -/
theorem Across.enduring (r : Across Q) (said : ∀ w conn m, Q w (w.log (.appOut conn m)))
    (draw : ∀ w n, Q w { w with drawn := w.drawn + n }) (create : ∀ w, Q w { w with connections := w.connections + 1 }) :
    Enduring K Q where
  toSpeaking := r.speaking said
  draw
  create
  allocate := r.bind (fun h => draw h.wire 8) fun nonce => r.bind (r.modifyOwn _) fun _ => r.bind (r.writeFramed _ _) fun _ =>
    r.awaitAllocation nonce _
  handshake _ _ _ := r.bind (r.bind (fun h => draw h.wire 32) fun _ => r.pure _) fun _ => r.bind (r.sendData _ _) fun _ =>
    r.bind r.recvData fun _ => r.bind (Acking.runOwned (Noise.readInitResponse_across (.of_crypto r.crypto) (fun _ _ _ => r.modifyOwn _) _) _) fun _ =>
      r.bind (r.sendData _ _) fun _ => r.bind r.recvData fun _ =>
        r.bind (Acking.runOwned (Noise.readCompletionResponse_across (.of_crypto r.crypto) _) _) fun _ => r.pure _

end TrezorCore
