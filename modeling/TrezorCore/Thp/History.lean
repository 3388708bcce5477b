import TrezorCore.Thp.FrameLoop

/-!
# What the link layer leaves alone

`send_data` and `recv_data` record link-level events only, and of the connection they touch
the two sequence bits and the stash. Everything above them, the session, the seeded wallet
and the history of messages and keys, is theirs to carry and not to change.
-/

namespace TrezorCore

/-- Events below the application layer: packets, frames and the alternating-bit exchange. -/
def Event.isLink : Event → Bool
  | .wrote _ | .frameOut _ | .frameIn _ _ | .sendBegins _ | .implicitAck _ | .sent _ _ | .delivered _ _ => true
  | _ => false

namespace Connection

/-- The protocol state taken out of a connection. -/
def aboveLink (c : Connection) : Connection := { c with sendSeq := 0, recvSeq := 0, pendingData := none }

/-- Link-level events at most, and nothing but the protocol state changed. -/
structure LinkOnly (h h' : Host Connection) : Prop where
  own : h'.own.aboveLink = h.own.aboveLink
  events : ∃ es, h'.wire.trace = h.wire.trace ++ es ∧ ∀ e ∈ es, e.isLink = true
  connections : h'.wire.connections = h.wire.connections

namespace LinkOnly

theorem refl (h : Host Connection) : LinkOnly h h := ⟨rfl, ⟨[], by simp, by simp⟩, rfl⟩

theorem trans (a b c : Host Connection) (h1 : LinkOnly a b) (h2 : LinkOnly b c) : LinkOnly a c := by
  obtain ⟨es1, t1, l1⟩ := h1.events
  obtain ⟨es2, t2, l2⟩ := h2.events
  refine ⟨h2.own.trans h1.own, ⟨es1 ++ es2, by rw [t2, t1, List.append_assoc], fun e he => ?_⟩,
    h2.connections.trans h1.connections⟩
  rcases List.mem_append.1 he with h | h
  · exact l1 e h
  · exact l2 e h

theorem note {e : Event} (link : e.isLink = true) : Comp.Keeps LinkOnly (Io.note e) := by
  intro h
  refine ⟨rfl, ⟨[e], rfl, fun e' he' => ?_⟩, rfl⟩
  rw [List.mem_singleton.1 he']
  exact link

theorem modifyOwn {f : Connection → Connection} (same : ∀ c, (f c).aboveLink = c.aboveLink) :
    Comp.Keeps LinkOnly (Io.modifyOwn f) := by
  intro h
  exact ⟨same h.own, ⟨[], (List.append_nil _).symm, fun _ he => absurd he List.not_mem_nil⟩, rfl⟩

theorem readChunk : Comp.Keeps LinkOnly (Io.readChunk : Io Connection Bytes) := by
  intro h
  simp only [Io.readChunk]
  split <;> exact ⟨rfl, ⟨[], by simp, by simp⟩, rfl⟩

theorem writeChunk (packet : Bytes) : Comp.Keeps LinkOnly (Io.writeChunk packet : Io Connection Unit) := by
  intro h
  simp only [Io.writeChunk]
  split <;> exact ⟨rfl, ⟨[.wrote packet], rfl, by simp [Event.isLink]⟩, rfl⟩

theorem writePackets (packets : List Bytes) : Comp.Keeps LinkOnly (writePackets packets) :=
  writePackets_keeps refl trans writeChunk packets

theorem writeFramed (ctrl : UInt8) (payload : Bytes) : Comp.Keeps LinkOnly (writeFramed ctrl payload) :=
  .bind trans refl fun _ => .bind trans (.ofExcept refl _) fun packets =>
    .bind trans (note rfl) fun _ => writePackets packets

theorem absorbChunk (reasm : Framing.Reassembler) (ctrl : UInt8) (chunk : Bytes) :
    Comp.Keeps LinkOnly (absorbChunk reasm ctrl chunk) := by
  cases chunk with
  | nil => exact refl
  | cons first rest =>
    refine .bind trans (.runLocal refl _ _) fun r => ?_
    obtain ⟨done, reasm⟩ := r
    cases done with
    | none => exact refl
    | some payload =>
      refine .bind trans (note rfl) fun _ => ?_
      generalize (if first &&& CONTINUATION_BIT = 0 then first else ctrl) = c
      by_cases hc : c = Framing.Control.TRANSPORT_ERROR
      · exact (if_pos hc).symm ▸ refl
      · exact (if_neg hc).symm ▸ refl

theorem readFramedTurn (b : Framing.Reassembler × UInt8) : Comp.Keeps LinkOnly (readFramedTurn b) :=
  .bind trans readChunk fun chunk => absorbChunk b.1 b.2 chunk

theorem readFramed : Comp.Keeps LinkOnly readFramed := .loop refl trans readFramedTurn _

theorem awaitFrame {α : Type} {step : UInt8 → Bytes → Io Connection (Unit ⊕ α)}
    (each : ∀ ctrl payload, Comp.Keeps LinkOnly (step ctrl payload)) : Comp.Keeps LinkOnly (awaitFrame step) :=
  .loop refl trans (fun _ => .bind trans readFramed fun f => each f.1 f.2) _

theorem sendDataStep (ctrl : UInt8) (payload : Bytes) : Comp.Keeps LinkOnly (sendDataStep ctrl payload) := by
  refine .bind trans refl fun c => ?_
  by_cases ack : Framing.Control.isAck ctrl
  · rw [if_pos ack]
    by_cases current : Framing.Control.ackSeqOf ctrl = c.sendSeq
    · rw [if_pos current]
      exact .bind trans (modifyOwn fun _ => rfl) fun _ => refl
    · rw [if_neg current]
      exact refl
  · rw [if_neg ack]
    refine .bind trans (modifyOwn fun _ => rfl) fun _ => .bind trans (note rfl) fun _ =>
      .bind trans (writeFramed _ _) fun _ => ?_
    by_cases fresh : Framing.Control.seqOf ctrl = c.recvSeq
    · rw [if_pos fresh]
      exact .bind trans (modifyOwn fun _ => rfl) fun _ => refl
    · rw [if_neg fresh]
      exact refl

theorem recvDataStep (ctrl : UInt8) (payload : Bytes) : Comp.Keeps LinkOnly (recvDataStep ctrl payload) := by
  by_cases ack : Framing.Control.isAck ctrl
  · rw [Connection.recvDataStep, if_pos ack]
    exact refl
  · rw [Connection.recvDataStep, if_neg ack]
    refine .bind trans (writeFramed _ _) fun _ => .bind trans refl fun c => ?_
    by_cases fresh : Framing.Control.seqOf ctrl = c.recvSeq
    · rw [if_pos fresh]
      exact .bind trans (modifyOwn fun _ => rfl) fun _ => refl
    · rw [if_neg fresh]
      exact refl

theorem sendData (baseCtrl : UInt8) (payload : Bytes) : Comp.Keeps LinkOnly (sendData baseCtrl payload) :=
  .bind trans refl fun _ => .bind trans (note rfl) fun _ => .bind trans (writeFramed _ _) fun _ =>
    .bind trans (awaitFrame sendDataStep) fun _ => note rfl

theorem recvData : Comp.Keeps LinkOnly recvData := by
  refine .bind trans refl fun c => ?_
  cases c.pendingData with
  | some frame => exact .bind trans (modifyOwn fun _ => rfl) fun _ => .bind trans (note rfl) fun _ => refl
  | none => exact .bind trans (awaitFrame recvDataStep) fun frame => .bind trans (note rfl) fun _ => refl

/-- What the link layer cannot change holds after it, too. -/
theorem triple {α : Type} {x : Io Connection α} {P B : Host Connection → Prop} (keeps : Comp.Keeps LinkOnly x)
    (closed : ∀ {h h'}, P h → LinkOnly h h' → P h') (early : ∀ h, P h → B h) :
    Comp.Triple P x (fun _ => P) B :=
  .of_keeps keeps (fun _ _ l hP _ => closed hP l) fun _ _ l hP => early _ (closed hP l)

/-- The fields that stay. -/
theorem session {h h' : Host Connection} (l : LinkOnly h h') : h'.own.session = h.own.session := by
  have := congrArg Connection.session l.own
  exact this

end LinkOnly

/-! ## Application messages on the link -/

variable {K : Crates}

/-- The connection and the wire once an application message has been sealed. -/
def afterSeal (K : Crates) (h : Host Connection) (session : Session) (message : AppMessage) : Host Connection :=
  let iv := ivFromNonce session.nonceSend
  ⟨{ h.own with session := some { session with nonceSend := session.nonceSend + 1 } },
    (h.wire.log (.appOut h.own.id message)).log (.sealed session.keySend iv [] (encodeAppMessage message)
      (K.aesGcmEncrypt session.keySend iv [] (encodeAppMessage message)))⟩

/-- The ciphertext of that message. -/
def appCiphertext (K : Crates) (session : Session) (message : AppMessage) : Bytes :=
  K.aesGcmEncrypt session.keySend (ivFromNonce session.nonceSend) [] (encodeAppMessage message)

/-- `send_app` seals, then hands the ciphertext to `send_data`. -/
theorem sendApp_run {h : Host Connection} {session : Session} (established : h.own.session = some session)
    (messageType : UInt16) (protobuf : Bytes) :
    (sendApp K messageType protobuf).run h =
      (sendData Framing.Control.ENCRYPTED_TRANSPORT
        (appCiphertext K session ⟨h.own.activeSessionId, messageType, protobuf⟩)).run
        (afterSeal K h session ⟨h.own.activeSessionId, messageType, protobuf⟩) := by
  simp only [sendApp, Io.run_own_bind]
  refine Comp.bind_ok ?_
  simp only [onSession, established]
  rfl

theorem sendApp_none {h : Host Connection} (none : h.own.session = none) (messageType : UInt16) (protobuf : Bytes) :
    (sendApp K messageType protobuf).run h = (.err (.thp "no encrypted session established"), h) := by
  simp only [sendApp, Io.run_own_bind]
  exact Comp.bind_err (by simp only [onSession, none])

/-- The connection and the wire after the AEAD's verdict on a ciphertext. -/
def afterOpen (h : Host Connection) (session : Session) (ct : Bytes) (plaintext : Option Bytes) : Host Connection :=
  let advanced := if plaintext.isSome then { session with nonceRecv := session.nonceRecv + 1 } else session
  ⟨{ h.own with session := some advanced },
    h.wire.log (.opened session.keyRecv (ivFromNonce session.nonceRecv) [] ct plaintext)⟩

/-- The three ways in which opening a ciphertext ends, once there is a session. -/
theorem openApp_run {h : Host Connection} {session : Session} (established : h.own.session = some session) (ct : Bytes) :
    (openApp K ct).run h =
      match K.aesGcmDecrypt session.keyRecv (ivFromNonce session.nonceRecv) [] ct with
      | none => (.err (.thp "AES-GCM authentication failed"), afterOpen h session ct none)
      | some pt =>
        match decodeAppMessage pt with
        | .error e => (.err e, afterOpen h session ct (some pt))
        | .ok message =>
          (.ok message, { afterOpen h session ct (some pt) with
            wire := (afterOpen h session ct (some pt)).wire.log (.appIn h.own.id session.nonceRecv message) }) := by
  simp only [openApp, Io.run_own_bind, onSession, established, Session.openPayload, Comp.bind_assoc]
  rcases opens : K.aesGcmDecrypt session.keyRecv (ivFromNonce session.nonceRecv) [] ct with _ | pt
  · rw [run_aeadOpen_bind_none opens]
    rfl
  · rw [run_aeadOpen_bind opens, Io.run_modifyOwn_bind, Comp.pure_bind]
    rcases decoded : decodeAppMessage pt with e | message
    · simp only [decoded]
      rfl
    · simp only [decoded]
      rfl

theorem openApp_none {h : Host Connection} (none : h.own.session = none) (ct : Bytes) :
    (openApp K ct).run h = (.err (.thp "no encrypted session established"), h) := by
  simp only [openApp, Io.run_own_bind, onSession, none]

end Connection

end TrezorCore
