import TrezorCore.Lib.Justified
import TrezorCore.Thp.History
import TrezorCore.Thp.Wires

/-!
# What leaves the host

Everything the host writes is a packet of a frame, and there are five kinds of frames. Three are
public: the request for a channel, the ACKs and the ephemeral key that opens the handshake, which
show nothing but random bytes drawn for them. The other two hold ciphertexts only, which the AEAD has made just for them: the completion of the
handshake, with the host's static key and its credential, and the application messages.
-/

namespace TrezorCore

open Framing Noise

variable (K : Crates)

/-- These bytes are some that have been drawn from the RNG, one after another. -/
def Drawn (random : Nat → UInt8) (drawn : Nat) {n : Nat} (bytes : Octets n) : Prop :=
  ∃ k, k + n ≤ drawn ∧ bytes = List.Vector.ofFn fun i => random (k + i)

/-- The frames the host may send after these events, with these bytes drawn from the RNG. -/
inductive MayLeave (random : Nat → UInt8) (drawn : Nat) (t : List Event) : Frame → Prop where
  | allocation {nonce : Octets 8} : Drawn random drawn nonce →
      MayLeave random drawn t ⟨BROADCAST_CID, Control.CHANNEL_ALLOCATION_REQUEST, Channel.buildAllocationRequest nonce⟩
  | ack (cid : UInt16) (seq : UInt8) : MayLeave random drawn t ⟨cid, Control.ackFor seq, []⟩
  | opening (cid : UInt16) (seq : UInt8) {ephemeralPriv : Octets 32} : Drawn random drawn ephemeralPriv →
      MayLeave random drawn t ⟨cid, Control.withSeq Control.HANDSHAKE_INIT_REQUEST seq, (K.publicKey ephemeralPriv).1 ++ [0]⟩
  | completion (cid : UInt16) (seq : UInt8) {staticPriv key key' : Octets 32} {aad aad' encStatic encPayload : Bytes}
      {credential : Option Bytes} : Event.sealed key IV_ONE aad (K.publicKey staticPriv).1 encStatic ∈ t →
      Event.sealed key' IV_ZERO aad' (K.completionPayload.encode ⟨credential⟩) encPayload ∈ t →
      MayLeave random drawn t ⟨cid, Control.withSeq Control.HANDSHAKE_COMPLETION_REQUEST seq, encStatic ++ encPayload⟩
  | message (cid : UInt16) (seq : UInt8) {conn : Nat} {key : Octets 32} {iv : Octets 12} {m : AppMessage} {ct : Bytes} :
      Event.appOut conn m ∈ t → Event.sealed key iv [] (encodeAppMessage m) ct ∈ t →
      MayLeave random drawn t ⟨cid, Control.withSeq Control.ENCRYPTED_TRANSPORT seq, ct⟩

/-- What an event asks of those before it: a frame may leave, and a packet is one of a frame's. -/
def Backed (random : Nat → UInt8) (drawn : Nat) (t : List Event) : Event → Prop
  | .frameOut frame => MayLeave K random drawn t frame
  | .wrote packet => ∃ frame size packets, Event.frameOut frame ∈ t ∧
      segment size frame.cid frame.ctrl frame.payload = .ok packets ∧ packet ∈ packets
  | _ => True

variable {K} {γ δ α : Type} {random : Nat → UInt8} {drawn : Nat}

theorem Drawn.more {n : Nat} {bytes : Octets n} {drawn' : Nat} (were : Drawn random drawn bytes) (later : drawn ≤ drawn') :
    Drawn random drawn' bytes := by
  obtain ⟨k, inside, same⟩ := were
  exact ⟨k, inside.trans later, same⟩

theorem MayLeave.mono {t t' : List Event} {drawn' : Nat} {frame : Frame} (may : MayLeave K random drawn t frame)
    (more : ∀ e ∈ t, e ∈ t') (later : drawn ≤ drawn') : MayLeave K random drawn' t' frame := by
  cases may with
  | allocation nonce => exact .allocation (nonce.more later)
  | ack cid seq => exact .ack cid seq
  | opening cid seq ephemeral => exact .opening cid seq (ephemeral.more later)
  | completion cid seq static payload => exact .completion cid seq (more _ static) (more _ payload)
  | message cid seq out ct => exact .message cid seq (more _ out) (more _ ct)

theorem Backed.more {t : List Event} {e : Event} {drawn' : Nat} (backed : Backed K random drawn t e) (later : drawn ≤ drawn') :
    Backed K random drawn' t e := by
  cases e with
  | frameOut frame => exact MayLeave.mono backed (fun _ mem => mem) later
  | _ => exact backed

theorem Backed.of_stays {t : List Event} {e : Event} (stays : e.leaves = false) : Backed K random drawn t e := by
  cases e with
  | frameOut frame => cases stays
  | wrote packet => cases stays
  | appOut conn m => cases stays
  | _ => trivial

/-- A packet in a justified history is one of a frame that might leave by then. -/
theorem Justified.packet {t pre post : List Event} {packet : Bytes} (justified : Justified (Backed K random drawn) t)
    (parts : t = pre ++ .wrote packet :: post) :
    ∃ frame size packets, MayLeave K random drawn pre frame ∧ segment size frame.cid frame.ctrl frame.payload = .ok packets ∧ packet ∈ packets := by
  obtain ⟨frame, size, packets, announced, segments, mem⟩ := justified _ _ _ parts
  obtain ⟨pre', post', rfl⟩ := List.append_of_mem announced
  have may : MayLeave K random drawn pre' frame := justified pre' (.frameOut frame) (post' ++ .wrote packet :: post) (by simp [parts])
  exact ⟨frame, size, packets, may.mono (fun e mem => List.mem_append_left _ mem) (Nat.le_refl _), segments, mem⟩

variable (K) in
/-- All that left the host so far might. -/
def Covered (w : Wire) : Prop := Justified (Backed K w.entropy w.drawn) w.trace

variable (K) in
/-- It stays so. -/
def Covering (w w' : Wire) : Prop := Covered K w → Covered K w'

theorem Covered.log {w : Wire} {e : Event} (covered : Covered K w) (stays : e.leaves = false) : Covered K (w.log e) :=
  covered.snoc (.of_stays stays)

/-- A relation kept is a condition kept. -/
theorem Covered.triple {x : Io γ α} (keeps : Comp.Keeps (OnWire (Covering K)) x) :
    Comp.Triple (fun h => Covered K h.wire) x (fun _ h => Covered K h.wire) fun h => Covered K h.wire :=
  .of_keeps keeps (fun _ _ covering covered _ => covering covered) fun _ _ covering covered => covering covered

theorem Covered.keeps {x : Io γ α}
    (triple : Comp.Triple (fun h => Covered K h.wire) x (fun _ h => Covered K h.wire) fun h => Covered K h.wire) :
    Comp.Keeps (OnWire (Covering K)) x := fun _ covered => triple.after covered

namespace Connection

/-- The packets of an announced frame go out, all or some. -/
theorem writePackets_covered : ∀ packets : List Bytes,
    Comp.Triple (fun h : Host Connection => Covered K h.wire ∧ ∀ packet ∈ packets, Backed K h.wire.entropy h.wire.drawn h.wire.trace (.wrote packet))
      (writePackets packets) (fun _ h => Covered K h.wire) fun h => Covered K h.wire
  | [] => .pure () fun _ pre => pre.1
  | packet :: rest => by
    refine .bind (Q := fun _ h => Covered K h.wire ∧ ∀ packet ∈ rest,
      Backed K h.wire.entropy h.wire.drawn h.wire.trace (.wrote packet)) ?_
      fun _ => writePackets_covered rest
    rintro h ⟨covered, backed⟩
    have next : Covered K (h.wire.log (.wrote packet)) := covered.snoc (backed packet List.mem_cons_self)
    have later : ∀ packet' ∈ rest, Backed K h.wire.entropy h.wire.drawn (h.wire.log (.wrote packet)).trace (.wrote packet') := by
      intro packet' mem
      obtain ⟨frame, size, packets, announced, segments⟩ := backed packet' (List.mem_cons_of_mem _ mem)
      exact ⟨frame, size, packets, List.mem_append_left _ announced, segments⟩
    simp only [Io.writeChunk]
    split
    · next ok =>
      split at ok <;> cases ok
      exact ⟨next, later⟩
    · next notOk =>
      split at notOk <;> cases notOk
      all_goals exact next

/-- A frame that may leave leaves the history justified. -/
theorem writeFramed_covered (ctrl : UInt8) (payload : Bytes) :
    Comp.Triple (fun h : Host Connection => Covered K h.wire ∧
        MayLeave K h.wire.entropy h.wire.drawn h.wire.trace ⟨h.own.cid, ctrl, payload⟩)
      (writeFramed ctrl payload) (fun _ h => Covered K h.wire) fun h => Covered K h.wire := by
  rintro h ⟨covered, may⟩
  rw [writeFramed, Io.run_own_bind]
  rcases segments : segment h.own.packetSize h.own.cid ctrl payload with e | packets
  · exact covered
  · refine writePackets_covered packets _ ⟨covered.snoc may, fun packet mem => ?_⟩
    exact ⟨_, _, packets, List.mem_append_right _ List.mem_cons_self, segments, mem⟩

end Connection

/-- Reading, recording and acknowledging are harmless. -/
theorem covering_acking : Acking (Covering K) where
  refl _ := id
  trans _ _ _ h1 h2 := h2 ∘ h1
  log _ _ stays covered := covered.log stays
  read _ _ _ _ := id
  ack seq h covered := (Connection.writeFramed_covered _ []).after ⟨covered, .ack h.own.cid seq⟩

namespace Connection

theorem sendData_covered (base : UInt8) (payload : Bytes) :
    Comp.Triple (fun h : Host Connection => Covered K h.wire ∧
        MayLeave K h.wire.entropy h.wire.drawn h.wire.trace ⟨h.own.cid, Control.withSeq base h.own.sendSeq, payload⟩)
      (sendData base payload) (fun _ h => Covered K h.wire) fun h => Covered K h.wire := by
  rintro h ⟨covered, may⟩
  rw [sendData, Io.run_own_bind, Io.run_note_bind]
  have rest : Comp.Keeps (OnWire (Covering K)) (awaitFrame sendDataStep >>= fun _ =>
      Io.note (.sent (Control.withSeq base h.own.sendSeq) payload)) :=
    covering_acking.bind (covering_acking.awaitFrame covering_acking.sendDataStep) fun _ => covering_acking.note rfl
  exact Comp.Triple.bind (writeFramed_covered _ _) (fun _ => Covered.triple rest) _
    ⟨covered.log rfl, may.mono (fun _ mem => List.mem_append_left _ mem) (Nat.le_refl _)⟩

/-- A message leaves as the ciphertext that was made of it. -/
theorem sendApp_covered (type : UInt16) (body : Bytes) : Comp.Keeps (OnWire (Covering K)) (sendApp K type body) := by
  intro h covered
  rcases established : h.own.session with _ | session
  · rw [sendApp_none established]
    exact covered
  · rw [sendApp_run established]
    have said : Covered K (h.wire.log (.appOut h.own.id ⟨h.own.activeSessionId, type, body⟩)) :=
      covered.snoc (by trivial)
    have sealing : Covered K (afterSeal K h session ⟨h.own.activeSessionId, type, body⟩).wire := said.log rfl
    refine (sendData_covered _ _).after ⟨sealing, .message _ _
      (List.mem_append_left _ (List.mem_append_right _ List.mem_cons_self)) (List.mem_append_right _ List.mem_cons_self)⟩

end Connection

theorem covering : Speaking K (Covering K) := ⟨covering_acking, Connection.sendApp_covered⟩

/-! ## The handshake -/

/-- Drawing from the RNG tells the wire nothing. -/
theorem Covered.draw {w : Wire} (covered : Covered K w) (n : Nat) : Covered K { w with drawn := w.drawn + n } :=
  Justified.mono covered fun _ _ backed => backed.more (Nat.le_add_right _ n)

/-- What is drawn next was drawn then. -/
theorem drawn_next (w : Wire) (n : Nat) : Drawn w.entropy (w.drawn + n) (drawnNext n w) := ⟨w.drawn, Nat.le_refl _, rfl⟩

theorem readInitResponse_covered (hs : HostHandshake) (resp : Bytes) :
    Comp.Triple (fun h => Covered K h.wire ∧ h.own = hs) (HostHandshake.readInitResponse K resp)
      (fun completion h => Covered K h.wire ∧ ∃ key key' aad aad' encStatic encPayload, completion = encStatic ++ encPayload ∧
        Event.sealed key IV_ONE aad hs.staticPub.1 encStatic ∈ h.wire.trace ∧
        Event.sealed key' IV_ZERO aad' (K.completionPayload.encode ⟨hs.hostPairingCredential⟩) encPayload ∈ h.wire.trace)
      fun h => Covered K h.wire := by
  have stay : ∀ h : Host HostHandshake, Covered K h.wire → Covered K h.wire := fun _ => id
  have keys : ∀ ck input, Comp.Triple (fun h : Host HostHandshake => Covered K h.wire) (hkdf K ck input) (fun _ h => Covered K h.wire)
      fun h => Covered K h.wire := fun _ _ => Covered.triple (hkdf_across (.of_crypto covering_acking.crypto) _ _)
  have arrays : ∀ bytes, Comp.Triple (fun h : Host HostHandshake => Covered K h.wire) (asArray32 bytes) (fun _ h => Covered K h.wire)
      fun h => Covered K h.wire := fun _ => Covered.triple (asArray32_across (.of_crypto covering_acking.crypto) _)
  have opens : ∀ key iv aad ct, Comp.Triple (fun h : Host HostHandshake => Covered K h.wire) (aeadOpen K key iv aad ct)
      (fun _ h => Covered K h.wire) fun h => Covered K h.wire := fun _ _ _ _ => Covered.triple (covering_acking.crypto.aeadOpen _ _ _ _)
  rintro h ⟨covered, rfl⟩
  rw [HostHandshake.readInitResponse]
  by_cases size : resp.length ≠ INIT_RESPONSE_LEN
  · rw [if_pos size]
    exact covered
  rw [if_neg size, Io.run_own_bind]
  refine Comp.Triple.bind (arrays _) (fun ephemeral => .bind (keys _ _) fun k1 => .bind (opens _ _ _ _) fun masked =>
    .bind (arrays _) fun masked => .bind (keys _ _) fun k2 => .bind (opens _ _ _ _) fun empty => ?_) h covered
  by_cases notEmpty : empty ≠ []
  · rw [if_pos notEmpty]
    exact .fail _ stay
  rw [if_neg notEmpty]
  -- the two seals with the key derivation between them
  intro h' covered'
  simp only [run_aeadSeal_bind, run_hkdf_bind, Io.run_modifyOwn_bind, Comp.run_pure]
  exact ⟨((covered'.log rfl).log rfl).log rfl, _, _, _, _, _, _, rfl,
    List.mem_append_left _ (List.mem_append_left _ (List.mem_append_right _ List.mem_cons_self)),
    List.mem_append_right _ List.mem_cons_self⟩

/-- The handshake sends its ephemeral key in the clear and nothing else. -/
theorem handshake_covered (devicePropertiesRaw : Bytes) (hostStaticPriv : Octets 32) (credential : Option Bytes) :
    Comp.Keeps (OnWire (Covering K)) (Connection.handshake K devicePropertiesRaw hostStaticPriv credential) := by
  refine Covered.keeps (.bind (Q := fun hs h => Covered K h.wire ∧ ∃ ephemeralPriv, Drawn h.wire.entropy h.wire.drawn ephemeralPriv ∧
    hs = HostHandshake.withEphemeral K devicePropertiesRaw 0 hostStaticPriv credential ephemeralPriv) (fun h covered => ?_) fun hs => ?_)
  · exact ⟨covered.draw 32, _, drawn_next h.wire 32, rfl⟩
  rintro h ⟨covered, ephemeralPriv, random, rfl⟩
  generalize drawn : HostHandshake.withEphemeral K devicePropertiesRaw 0 hostStaticPriv credential ephemeralPriv = hs
  have static : hs.staticPub = K.publicKey hostStaticPriv := drawn ▸ rfl
  have opening : MayLeave K h.wire.entropy h.wire.drawn h.wire.trace
      ⟨h.own.cid, Control.withSeq Control.HANDSHAKE_INIT_REQUEST h.own.sendSeq, hs.initRequestPayload⟩ :=
    drawn ▸ .opening _ _ random
  refine Comp.Triple.bind (Connection.sendData_covered _ _) (fun _ => .bind (Covered.triple covering_acking.recvData) fun initResp => ?_)
    h ⟨covered, opening⟩
  refine .bind (Io.runOwned_triple (readInitResponse_covered hs initResp.2) (fun _ covered => ⟨covered, rfl⟩)
    (Q := fun out h => Covered K h.wire ∧ ∃ key key' aad aad' encStatic encPayload, out.1 = encStatic ++ encPayload ∧
      Event.sealed key IV_ONE aad hs.staticPub.1 encStatic ∈ h.wire.trace ∧
      Event.sealed key' IV_ZERO aad' (K.completionPayload.encode ⟨hs.hostPairingCredential⟩) encPayload ∈ h.wire.trace)
    (fun _ _ _ _ done => done) fun _ _ _ covered => covered) fun out => ?_
  rintro h1 ⟨covered1, key, key', aad, aad', encStatic, encPayload, parts, static', payload⟩
  rw [static] at static'
  have completing : MayLeave K h1.wire.entropy h1.wire.drawn h1.wire.trace
      ⟨h1.own.cid, Control.withSeq Control.HANDSHAKE_COMPLETION_REQUEST h1.own.sendSeq, out.1⟩ :=
    parts ▸ .completion _ _ static' payload
  refine Comp.Triple.bind (Connection.sendData_covered _ _) (fun _ => Covered.triple ?_) h1 ⟨covered1, completing⟩
  exact covering_acking.bind covering_acking.recvData fun compResp => covering_acking.bind
    (Acking.runOwned (readCompletionResponse_across (.of_crypto covering_acking.crypto) _) _) fun _ => covering_acking.pure _

/-! ## The rest of bringing a channel up -/

theorem allocate_covered : Comp.Keeps (OnWire (Covering K)) (Connection.allocate K) := by
  intro h covered
  rw [Connection.allocate, Io.run_getrandom_bind, Io.run_modifyOwn_bind]
  refine Comp.Triple.after (.bind (Connection.writeFramed_covered (K := K) _ _) fun _ => Covered.triple (covering_acking.awaitAllocation _ _))
    ⟨covered.draw 8, ?_⟩
  exact .allocation (drawn_next h.wire 8)

end TrezorCore
