import TrezorCore.Thp.Allocation
import TrezorCore.Thp.Answering
import TrezorCore.Thp.Handshake
import TrezorCore.Thp.Wires

/-!
# Bringing a channel up

Allocation and handshake against a device that answers. The frames of the device depend on
what the host draws, the allocation nonce and its ephemeral key, and on the static key and
the credential that the caller brings along; `Granted` and `Shakes` say which streams are an
honest device's for a given host, with whatever else the transport carries in between.
`allocate_granted` and `handshake_answered` say that the host then is on the device's channel
and ends up with the device's keys.
-/

namespace TrezorCore.Connection

open Framing Link Noise

variable (K : Crates)

/-- The device's side of a new channel. -/
structure Peer where
  cid : UInt16
  deviceProperties : Bytes
  ephemeral : Octets 32
  static : Octets 32
  state : Bytes

/-- The secrets of both sides. -/
def Peer.secrets (d : Peer) (hostEphemeral hostStatic : Octets 32) (credential : Option Bytes) : Secrets where
  deviceProperties := d.deviceProperties
  tryToUnlock := 0
  hostEphemeral
  hostStatic
  deviceEphemeral := d.ephemeral
  deviceStatic := d.static
  credential

/-- What the handshake leaves, the state of the device included. -/
def keysOf (p : Secrets) (state : Bytes) : SessionKeys where
  keyRequest := (p.step4 K).1
  keyResponse := (p.step4 K).2
  nonceRequest := 0
  nonceResponse := 1
  trezorState := state
  trezorMaskedStaticPubkey := p.maskedStatic K
  handshakeHash := p.h7 K
  hostStaticPubkey := K.publicKey p.hostStatic

/-- The response to an allocation request with this nonce. -/
def Peer.grant (d : Peer) (nonce : Octets 8) : Frame :=
  ⟨BROADCAST_CID, Control.CHANNEL_ALLOCATION_RESPONSE, nonce.1 ++ Bytes.toBe 2 d.cid.toNat ++ d.deviceProperties⟩

/-- TH1, as a frame. -/
def initFrame (l : Line) (p : Secrets) : Frame :=
  l.data Control.HANDSHAKE_INIT_RESPONSE ((K.publicKey p.deviceEphemeral).1 ++ p.encStatic K ++ p.tag K)

/-- TH2, with the device's state in it. -/
def completionFrame (l : Line) (p : Secrets) (state : Bytes) : Frame :=
  l.data Control.HANDSHAKE_COMPLETION_RESPONSE (K.aesGcmEncrypt (p.step4 K).2 IV_ZERO [] state)

/-- The longest completion payload that fits a frame, behind the sealed static key. -/
def MAX_PAYLOAD : Nat := 65535 - CRC_LEN - 16 - 48

/-! ## Allocation -/

section Allocate

variable {K} {nonce : Octets 8} {a : Channel.ChannelAllocation} {packetSize : Nat} {rest : Inbox}

/-- The wait passes over frames that do not answer and takes the first that does. -/
theorem awaitAllocation_stream (big : INIT_HEADER < packetSize) {grant : Leg}
    (grants : Grants K nonce (grant.frame.ctrl, grant.frame.payload) a) :
    ∀ (others : List Leg) (n : Nat), others.length ≤ n → (∀ g ∈ others, g.frame.ctrl ≠ Control.TRANSPORT_ERROR ∧
        ∀ b, ¬ Grants K nonce (g.frame.ctrl, g.frame.payload) b) →
      ∀ h : Host Connection, h.wire.inbox = stream packetSize rest (others ++ [grant]) →
        ∃ k, (awaitAllocation K nonce (n + 1)).run h = (.ok a, onChannel a.cid k) ∧ k.own = h.own ∧ k.wire.inbox = rest ∧
          k.wire.onWrite = h.wire.onWrite ∧ RandomAlike h.wire k.wire
  | [], n, _, _, h, hin => by
    have noError : grant.frame.ctrl ≠ Control.TRANSPORT_ERROR := by
      rw [show grant.frame.ctrl = _ from grants.ctrl]
      decide
    have next : h.wire.inbox = arriving (grant.chunks packetSize) ++ rest := hin
    have read := readFramed_leg big grant next
    rw [received, if_neg noError] at read
    obtain ⟨b, answers, run⟩ | ⟨skipped, -⟩ := awaitAllocation_frame (K := K) nonce n read
    · obtain rfl := answers.unique grants
      exact ⟨_, run, rfl, rfl, rfl, undrawn.refl _⟩
    · exact absurd grants (skipped a)
  | g :: others, n + 1, few, passed, h, hin => by
    obtain ⟨noError, other⟩ := passed g (List.mem_cons_self ..)
    have next : h.wire.inbox = arriving (g.chunks packetSize) ++ stream packetSize rest (others ++ [grant]) := hin
    have read := readFramed_leg big g next
    rw [received, if_neg noError] at read
    obtain ⟨b, answers, -⟩ | ⟨-, run⟩ := awaitAllocation_frame (K := K) nonce (n + 1) read
    · exact absurd answers (other b)
    · obtain ⟨k, later, ends⟩ := awaitAllocation_stream big grants others n (Nat.le_of_succ_le_succ few)
        (fun g' hg => passed g' (List.mem_cons_of_mem _ hg))
        (afterFrame h g.frame.ctrl g.frame.payload (stream packetSize rest (others ++ [grant]))) rfl
      exact ⟨k, run.trans later, ends⟩

/-- An allocation draws its nonce and nothing else. -/
theorem allocate_draws (h : Host Connection) : RandomAlike (h.wire.spend 8) ((allocate K).run h).2.wire := by
  rw [allocate, Io.run_getrandom_bind, Io.run_modifyOwn_bind]
  have rest : ∀ nonce : Octets 8, Comp.Keeps (OnWire RandomAlike) (do
      writeFramed Control.CHANNEL_ALLOCATION_REQUEST (Channel.buildAllocationRequest nonce)
      awaitAllocation K nonce MAX_ALLOC_READS) := fun nonce => undrawn.bind (undrawn.writeFramed _ _) fun _ => undrawn.awaitAllocation nonce _
  exact rest _ _

/-- The device's response answers the request with its nonce. -/
theorem grant_grants {d : Peer} {properties : ThpDeviceProperties}
    (decodes : K.deviceProperties.decode d.deviceProperties = .ok properties) (nonce : Octets 8) :
    Grants K nonce ((d.grant nonce).ctrl, (d.grant nonce).payload) ⟨d.cid, d.deviceProperties, properties⟩ := by
  have payload : (d.grant nonce).payload = nonce.1 ++ (Bytes.toBe 2 d.cid.toNat ++ d.deviceProperties) := by
    simp only [Peer.grant, List.append_assoc]
  have nonceLen : nonce.1.length = 8 := nonce.2
  have cidLen : (Bytes.toBe 2 d.cid.toNat).length = 2 := Bytes.length_toBe _ _
  have behind : (d.grant nonce).payload.drop 8 = Bytes.toBe 2 d.cid.toNat ++ d.deviceProperties := by
    rw [payload, List.drop_left' nonceLen]
  have raw : (d.grant nonce).payload.drop 10 = d.deviceProperties := by
    have two := congrArg (List.drop 2) behind
    rwa [List.drop_drop, List.drop_left' cidLen] at two
  constructor
  · rfl
  · rw [payload, List.length_append, List.length_append, nonceLen, cidLen]
    omega
  · rw [payload, List.take_left' nonceLen]
  · rw [behind, List.take_left' cidLen, Bytes.beNat_toBe, Nat.mod_eq_of_lt (show d.cid.toNat < 256 ^ 2 from d.cid.toNat_lt),
      UInt16.ofNat_toNat]
  · exact raw.symm
  · rw [raw]
    exact decodes

/-- What the device sends for a request: other frames first, none of them an answer, then its response. -/
inductive Granted (K : Crates) (packetSize : Nat) (d : Peer) (nonce : Octets 8) (rest : Inbox) : Inbox → Prop
  | intro {others : List Leg} {grant : Leg} : others.length < MAX_ALLOC_READS →
      (∀ g ∈ others, g.frame.ctrl ≠ Control.TRANSPORT_ERROR ∧ ∀ b, ¬ Grants K nonce (g.frame.ctrl, g.frame.payload) b) →
      grant.frame = d.grant nonce → Granted K packetSize d nonce rest (stream packetSize rest (others ++ [grant]))

theorem Granted.exists (packetSize : Nat) {d : Peer} (fits : d.deviceProperties.length + 10 + CRC_LEN ≤ 65535) (nonce : Octets 8)
    (rest : Inbox) : ∃ inbox, Granted K packetSize d nonce rest inbox := by
  have sendable : Sendable (d.grant nonce) := by
    refine ⟨show isContinuation Control.CHANNEL_ALLOCATION_RESPONSE = false by decide, ?_⟩
    simp only [Peer.grant, List.length_append, nonce.2, Bytes.length_toBe]
    omega
  exact ⟨_, @Granted.intro K packetSize d nonce rest [] (.plain _ sendable) (by decide) nofun rfl⟩

/-- **Allocation** from a device that answers. -/
theorem allocate_granted {d : Peer} {properties : ThpDeviceProperties}
    (decodes : K.deviceProperties.decode d.deviceProperties = .ok properties) {h : Host Connection}
    (big : INIT_HEADER < h.own.packetSize) (writes : Writes h) (granted : Granted K h.own.packetSize d (drawnNext 8 h.wire) rest h.wire.inbox) :
    ∃ k, (allocate K).run h = (.ok ⟨d.cid, d.deviceProperties, properties⟩, k) ∧
      k.own = Line.connection ⟨h.own.packetSize, big, d.cid, 0, 0⟩ h.own.session h.own.speaker ∧ k.wire.inbox = rest ∧ Writes k ∧
      k.wire.entropy = h.wire.entropy ∧ k.wire.drawn = h.wire.drawn + 8 := by
  generalize hin : h.wire.inbox = inbox at granted
  obtain @⟨others, grant, few, passed, isGrant⟩ := granted
  obtain ⟨w, wrote, onWrite, unread⟩ := writeFramed_done (h := requesting h) Control.CHANNEL_ALLOCATION_REQUEST (drawnNonce h).1
    writes big (by rw [(drawnNonce h).2]; decide)
  have random := undrawn.writeFramed Control.CHANNEL_ALLOCATION_REQUEST (drawnNonce h).1 (requesting h)
  rw [wrote] at random
  have grants := grant_grants decodes (drawnNonce h)
  rw [show d.grant (drawnNonce h) = grant.frame from isGrant.symm] at grants
  obtain ⟨k, run, own, left, onWrite', random'⟩ := awaitAllocation_stream big grants others (MAX_ALLOC_READS - 1)
    (Nat.le_sub_one_of_lt few) passed ⟨(requesting h).own, w⟩ (unread.trans hin)
  refine ⟨onChannel d.cid k, ?_, ?_, left, ?_, random'.1.trans random.1, random'.2.trans random.2⟩
  · rw [allocate_run, Comp.bind_ok wrote]
    exact run
  · simp only [onChannel, own]
    rfl
  · show allDone k.wire.onWrite
    rw [onWrite', onWrite]
    exact writes

end Allocate

/-! ## The handshake -/

section Handshake

variable {K} {p : Secrets} {state : Bytes} {l : Line} {session : Option Session} {who : Speaker} {rest : Inbox}

/-- HH2 and HH3, whatever the state. -/
theorem readCompletionResponse_state (aead : K.toCrypto.AeadLaws) (state : Bytes) (w : Wire) :
    ∃ w', (HostHandshake.readCompletionResponse K (K.aesGcmEncrypt (p.step4 K).2 IV_ZERO [] state)).run ⟨p.hostMiddle K, w⟩ =
      (.ok (keysOf K p state), ⟨p.hostMiddle K, w'⟩) ∧ w'.inbox = w.inbox ∧ w'.onWrite = w.onWrite := by
  have openState : K.aesGcmDecrypt (p.step4 K).2 IV_ZERO [] (K.aesGcmEncrypt (p.step4 K).2 IV_ZERO [] state) = some state :=
    aead.decrypt_encrypt _ _ _ _
  refine ⟨(w.log (.derived (p.step4 K).1 (p.step4 K).2)).log
    (.opened (p.step4 K).2 IV_ZERO [] (K.aesGcmEncrypt (p.step4 K).2 IV_ZERO [] state) (some state)), ?_, rfl, rfl⟩
  simp only [HostHandshake.readCompletionResponse, Io.run_own_bind, run_hkdf_bind]
  refine (run_aeadOpen_bind openState _ _).trans ?_
  rfl

theorem dataFrame_fresh {base : UInt8} (data : IsData base) (zero : Control.withSeq base 0 ≠ Control.TRANSPORT_ERROR)
    (one : Control.withSeq base 1 ≠ Control.TRANSPORT_ERROR) (payload : Bytes) : l.Fresh (l.data base payload) where
  data := isAck_withSeq data _
  noError := by
    show Control.withSeq base (bit l.receives) ≠ _
    rcases bit_cases l.receives with ⟨even, -⟩ | ⟨odd, -⟩
    · rw [even]
      exact zero
    · rw [odd]
      exact one
  seq := seqOf_withSeq _ _

theorem initFrame_fresh : l.Fresh (initFrame K l p) := dataFrame_fresh (by decide) (by decide) (by decide) _

theorem completionFrame_fresh : l.Fresh (completionFrame K l p state) := dataFrame_fresh (by decide) (by decide) (by decide) _

/-- The device answers both messages of the host. -/
def Shakes (K : Crates) (l : Line) (p : Secrets) (state : Bytes) (rest inbox : Inbox) : Prop :=
  ∃ middle, l.Answered (initFrame K l p) middle inbox ∧ l.next.Answered (completionFrame K l.next p state) rest middle

/-- A device can answer both. -/
theorem Shakes.exists (aead : K.toCrypto.AeadLaws) (l : Line) (p : Secrets) (fits : state.length + 16 + CRC_LEN ≤ 65535) (rest : Inbox) :
    ∃ inbox, Shakes K l p state rest inbox := by
  have init : Sendable (initFrame K l p) := by
    refine ⟨withSeq_initiation (by decide) (by decide) _, ?_⟩
    simp only [initFrame, Line.data, List.length_append, Secrets.encStatic, Secrets.tag, aead.length_encrypt,
      (K.publicKey p.deviceEphemeral).2, (p.maskedStatic K).2]
    decide
  have completion : Sendable (completionFrame K l.next p state) := by
    refine ⟨withSeq_initiation (by decide) (by decide) _, ?_⟩
    simp only [completionFrame, Line.data, aead.length_encrypt]
    exact fits
  obtain ⟨middle, second⟩ := Line.Answered.exists l.next completion rest
  obtain ⟨inbox, first⟩ := Line.Answered.exists l init middle
  exact ⟨inbox, middle, first, second⟩

/-- The handshake draws the host's ephemeral key and nothing else. -/
theorem handshake_draws (devicePropertiesRaw : Bytes) (hostStaticPriv : Octets 32) (credential : Option Bytes) (h : Host Connection) :
    RandomAlike (h.wire.spend 32) ((handshake K devicePropertiesRaw hostStaticPriv credential).run h).2.wire := by
  rw [handshake, HostHandshake.new, randomScalar]
  simp only [Comp.bind_assoc, Io.run_getrandom_bind, Comp.pure_bind]
  have exchanges : ∀ hs : HostHandshake, Comp.Keeps (OnWire RandomAlike) (do
      sendData Control.HANDSHAKE_INIT_REQUEST hs.initRequestPayload
      let initResp ← recvData
      let completion ← Io.runOwned (HostHandshake.readInitResponse K initResp.2) hs
      sendData Control.HANDSHAKE_COMPLETION_REQUEST completion.1
      let compResp ← recvData
      let keys ← Io.runOwned (HostHandshake.readCompletionResponse K compResp.2) completion.2
      pure keys.1 : Io Connection SessionKeys) := fun hs =>
    undrawn.bind (undrawn.sendData _ _) fun _ => undrawn.bind undrawn.recvData fun _ =>
      undrawn.bind (Acking.runOwned (readInitResponse_across (.of_crypto undrawn.crypto) (fun _ _ _ => undrawn.modifyOwn _) _) _) fun _ =>
        undrawn.bind (undrawn.sendData _ _) fun _ => undrawn.bind undrawn.recvData fun _ =>
          undrawn.bind (Acking.runOwned (readCompletionResponse_across (.of_crypto undrawn.crypto) _) _) fun _ => undrawn.pure _
  exact exchanges _ _

/-- The key that a handshake ends with for the host is that of its static private key, and the counters
start at zero and one. -/
theorem handshake_keys (devicePropertiesRaw : Bytes) (hostStaticPriv : Octets 32) (credential : Option Bytes) :
    Comp.Triple (fun _ => True) (handshake K devicePropertiesRaw hostStaticPriv credential)
      (fun keys _ => keys.hostStaticPubkey = K.publicKey hostStaticPriv ∧ keys.nonceRequest = 0 ∧ keys.nonceResponse = 1)
      fun _ => True := by
  refine .bind (Q := fun hs _ => hs.staticPub = K.publicKey hostStaticPriv)
    (.bind (.any _) fun _ => .pure _ fun _ _ => rfl) fun hs => .bind (.constant _) fun _ => .bind (.constant _) fun initResp => ?_
  refine .bind (Q := fun completion _ => completion.2.staticPub = K.publicKey hostStaticPriv) ?_ fun completion => ?_
  · intro h static
    have read : Comp.Triple (fun h => h.own = hs) (HostHandshake.readInitResponse K initResp.2)
        (fun _ h => h.own.staticPub = K.publicKey hostStaticPriv) fun _ => True := by
      refine .of_keeps (readInitResponse_static initResp.2) (fun h h' same own _ => ?_) fun _ _ _ _ => trivial
      rw [same, own, static]
    exact Io.runOwned_triple (P := fun _ => True) read (fun _ _ => rfl) (fun _ _ _ _ same => same) (fun _ _ _ _ => trivial) h trivial
  refine .bind (.constant _) fun _ => .bind (.constant _) fun compResp => ?_
  refine .bind (Io.runOwned_triple (readCompletionResponse_keys compResp.2 (K.publicKey hostStaticPriv)) (fun _ static => static)
    (fun _ _ _ _ keys => keys) fun _ _ _ _ => trivial) fun keys => .pure _ fun _ told => told

/-- **The handshake** with a device that answers. -/
theorem handshake_answered (aead : K.toCrypto.AeadLaws) (locked : p.tryToUnlock = 0) (fits : (p.payload K).length ≤ MAX_PAYLOAD) :
    Comp.Triple (fun h => h.own = l.connection session who ∧ Writes h ∧ drawnNext 32 h.wire = p.hostEphemeral ∧
        Shakes K l p state rest h.wire.inbox)
      (handshake K p.deviceProperties p.hostStatic p.credential)
      (fun keys h => keys = keysOf K p state ∧ h.own = l.next.next.connection session who ∧ h.wire.inbox = rest ∧ Writes h)
      fun _ => False := by
  rintro h ⟨own, writes, drawn, middle, first, second⟩
  have start : (HostHandshake.new K p.deviceProperties 0 p.hostStatic p.credential).run h =
      (.ok (p.hostStart K), ⟨h.own, { h.wire with drawn := h.wire.drawn + 32 }⟩) := by
    rw [HostHandshake.new, randomScalar, Io.run_getrandom_bind]
    rw [drawnNext] at drawn
    rw [drawn, Secrets.hostStart, locked]
    rfl
  have initFits : (p.hostStart K).initRequestPayload.length + CRC_LEN ≤ 65535 := by
    rw [HostHandshake.initRequestPayload, List.length_append, (p.hostStart K).ephemeralPub.2]
    show 32 + 1 + CRC_LEN ≤ 65535
    decide
  have completionFits : (p.encHostStatic K ++ p.encPayload K).length + CRC_LEN ≤ 65535 := by
    rw [List.length_append, Secrets.encHostStatic, Secrets.encPayload, aead.length_encrypt, aead.length_encrypt,
      (K.publicKey p.hostStatic).2]
    simp only [MAX_PAYLOAD, CRC_LEN] at fits ⊢
    omega
  obtain ⟨_, h1, sent, due, writes1⟩ := (sendData_answered initFrame_fresh
    Control.HANDSHAKE_INIT_REQUEST initFits).returns (s := ⟨h.own, { h.wire with drawn := h.wire.drawn + 32 }⟩) ⟨own, writes, first⟩
  obtain ⟨_, h2, received, rfl, own2, inbox2, writes2⟩ := (recvData_due initFrame_fresh).returns ⟨due, writes1⟩
  have read : (Io.runOwned (HostHandshake.readInitResponse K (initFrame K l p).payload) (p.hostStart K)).run h2 =
      (.ok (p.encHostStatic K ++ p.encPayload K, p.hostMiddle K), ⟨h2.own, h2.wire.logAll (p.hostInitEvents K)⟩) := by
    have run := readInitResponse_run (p := p) aead h2.wire
    simp only [Io.runOwned, initFrame, Line.data, run]
  obtain ⟨_, h3, sent', due', writes3⟩ := (sendData_answered (l := l.next) completionFrame_fresh
    Control.HANDSHAKE_COMPLETION_REQUEST completionFits).returns (s := ⟨h2.own, h2.wire.logAll (p.hostInitEvents K)⟩)
    ⟨own2, writes2, show l.next.Answered _ rest h2.wire.inbox from inbox2 ▸ second⟩
  obtain ⟨_, h4, received', rfl, own4, inbox4, writes4⟩ :=
    (recvData_due completionFrame_fresh).returns ⟨due', writes3⟩
  obtain ⟨w, derived, unread, onWrite⟩ := readCompletionResponse_state (p := p) aead state h4.wire
  have read' : (Io.runOwned (HostHandshake.readCompletionResponse K (completionFrame K l.next p state).payload)
      (p.hostMiddle K)).run h4 = (.ok (keysOf K p state, p.hostMiddle K), ⟨h4.own, w⟩) := by
    simp only [Io.runOwned, completionFrame, Line.data, derived]
  have run : (handshake K p.deviceProperties p.hostStatic p.credential).run h = (.ok (keysOf K p state), ⟨h4.own, w⟩) := by
    rw [handshake, Comp.bind_ok start, Comp.bind_ok sent, Comp.bind_ok received]
    simp only
    rw [Comp.bind_ok read]
    simp only
    rw [Comp.bind_ok sent', Comp.bind_ok received']
    simp only
    rw [Comp.bind_ok read']
    rfl
  rw [run]
  refine ⟨rfl, own4, unread.trans inbox4, ?_⟩
  show allDone w.onWrite
  rw [onWrite]
  exact writes4

end Handshake

end TrezorCore.Connection
