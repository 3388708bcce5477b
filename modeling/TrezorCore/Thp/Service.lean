import TrezorCore.Thp.Answering
import TrezorCore.Thp.Desync
import TrezorCore.Thp.SecureChannel
import TrezorCore.Thp.Wires

/-!
# The service an honest device gives

What is left of the connection when the device keeps to the protocol: a list of messages to
come. An exchange passes over the button requests and returns the next other message, or the
failure that it is. `ask_simulates` says that an exchange on the connection, with its frames,
acknowledgements, nonces and button acknowledgements, is that and nothing else, and
`chat_simulates` extends it to everything an operation does.
-/

namespace TrezorCore

/-- A message further in each direction. -/
def Session.next (s : Session) : Session := { s with nonceSend := s.nonceSend + 1, nonceRecv := s.nonceRecv + 1 }

/-- Once a message is sealed. -/
def Session.sealed (s : Session) : Session := { s with nonceSend := s.nonceSend + 1 }

namespace Connection

open Framing Link

variable (K : Crates)

/-! ## The service -/

/-- The longest body that fits a frame, with the session id and type, the tag and the CRC. -/
def MAX_BODY : Nat := 65535 - CRC_LEN - 16 - 3

def bodyTooLong : TrezorError := .thp "transport payload exceeds the 16-bit length field"

/-- The next message that is not a button request, as `transceive` reports it. -/
def nextReply : List AppMessage → Outcome TrezorError Reply × List AppMessage
  | [] => (.dropped, [])
  | m :: ms =>
    if m.type = MSG_BUTTON_REQUEST then nextReply ms
    else if m.type = MSG_FAILURE then (.err (decodeFailure K m.body), ms)
    else (.ok (m.type, m.body), ms)

/-- What the device says besides asking for button presses. -/
def spoken (ms : List AppMessage) : List AppMessage := ms.filter fun m => m.type ≠ MSG_BUTTON_REQUEST

/-- An exchange, given the messages the device will send. -/
def service (q : Request) : Comp (List AppMessage) TrezorError Reply := ⟨fun ms =>
  if MAX_BODY < q.body.length then (.err bodyTooLong, ms) else nextReply K ms⟩

/-- An exchange takes the first thing that the device says. -/
theorem nextReply_spoken {m : AppMessage} {ms rest : List AppMessage} (said : spoken ms = m :: rest) :
    ∃ ms', spoken ms' = rest ∧ nextReply K ms =
      (if m.type = MSG_FAILURE then .err (decodeFailure K m.body) else .ok (m.type, m.body), ms') := by
  induction ms with
  | nil => cases said
  | cons m' ms ih =>
    rw [nextReply]
    by_cases button : m'.type = MSG_BUTTON_REQUEST
    · rw [spoken, List.filter_cons_of_neg (by simpa using button)] at said
      rw [if_pos button]
      exact ih said
    · rw [spoken, List.filter_cons_of_pos (by simpa using button)] at said
      obtain ⟨rfl, rfl⟩ := List.cons.inj said
      rw [if_neg button]
      refine ⟨ms, rfl, ?_⟩
      split <;> rfl

theorem service_spoken {q : Request} (fits : q.body.length ≤ MAX_BODY) {m : AppMessage} {ms rest : List AppMessage}
    (said : spoken ms = m :: rest) : ∃ ms', spoken ms' = rest ∧ (service K q).run ms =
      (if m.type = MSG_FAILURE then .err (decodeFailure K m.body) else .ok (m.type, m.body), ms') := by
  simp only [service, if_neg (Nat.not_lt_of_le fits)]
  exact nextReply_spoken K said

/-- The frame of a message of the device. -/
def replyFrame (l : Line) (s : Session) (m : AppMessage) : Frame :=
  l.data Control.ENCRYPTED_TRANSPORT (K.aesGcmEncrypt s.keyRecv (ivFromNonce s.nonceRecv) [] (encodeAppMessage m))

/-- The device answers the messages to come with these, and then falls silent. -/
inductive Incoming : Line → Session → List AppMessage → Inbox → Prop
  | silent {l : Line} {s : Session} : Incoming l s [] []
  | answers {l : Line} {s : Session} {m : AppMessage} {ms : List AppMessage} {rest inbox : Inbox} :
      l.Answered (replyFrame K l s m) rest inbox → Incoming l.next s.next ms rest → Incoming l s (m :: ms) inbox

/-- A connection between two exchanges, for a wallet, with a device that has these messages to send. -/
structure Serving (wallet : Option WalletKey) (h : Host Connection) (ms : List AppMessage) : Prop where
  line : ∃ l s id sid, h.own = Line.connection l (some s) ⟨id, sid, wallet⟩ ∧ Incoming K l s ms h.wire.inbox
  writes : Writes h

/-! ## One message -/

section Message

variable {K} {l : Line} {s : Session} {who : Speaker} {m : AppMessage} {f : Frame} {rest : Inbox}

theorem replyFrame_fresh : l.Fresh (replyFrame K l s m) where
  data := isAck_withSeq (by decide) _
  noError := by
    have base : ∀ n, Control.withSeq Control.ENCRYPTED_TRANSPORT (bit n) ≠ Control.TRANSPORT_ERROR := by
      intro n
      rcases bit_cases n with ⟨even, -⟩ | ⟨odd, -⟩
      · rw [even]
        decide
      · rw [odd]
        decide
    exact base l.receives
  seq := seqOf_withSeq _ _

/-- Messages that fit can come. -/
theorem Incoming.exists (aead : K.toCrypto.AeadLaws) (ms : List AppMessage) (fit : ∀ m ∈ ms, m.body.length ≤ MAX_BODY)
    (l : Line) (s : Session) : ∃ inbox, Incoming K l s ms inbox := by
  induction ms generalizing l s with
  | nil => exact ⟨[], .silent⟩
  | cons m ms ih =>
    obtain ⟨rest, later⟩ := ih (fun m' hm => fit m' (List.mem_cons_of_mem _ hm)) l.next s.next
    have sendable : Sendable (replyFrame K l s m) := by
      refine ⟨withSeq_initiation (by decide) (by decide) _, ?_⟩
      have short := fit m (List.mem_cons_self ..)
      simp only [replyFrame, Line.data, aead.length_encrypt, length_encodeAppMessage]
      simp only [MAX_BODY, CRC_LEN] at short ⊢
      omega
    obtain ⟨inbox, answered⟩ := Line.Answered.exists l sendable rest
    exact ⟨inbox, .answers answered later⟩

/-- Sending an application message to a device that answers it. -/
theorem sendApp_answered (aead : K.toCrypto.AeadLaws) (fresh : l.Fresh f) (type : UInt16) {body : Bytes}
    (fits : body.length ≤ MAX_BODY) :
    Comp.Triple (fun h => h.own = l.connection (some s) who ∧ Writes h ∧ l.Answered f rest h.wire.inbox)
      (sendApp K type body) (fun _ h => l.Due (some s.sealed) who f rest h.own h.wire.inbox ∧ Writes h) fun _ => False := by
  rintro h ⟨own, writes, answered⟩
  have established : h.own.session = some s := by
    rw [own]
    rfl
  have short : (appCiphertext K s ⟨h.own.activeSessionId, type, body⟩).length + CRC_LEN ≤ 65535 := by
    rw [appCiphertext, aead.length_encrypt, length_encodeAppMessage]
    simp only [MAX_BODY, CRC_LEN] at fits ⊢
    omega
  rw [sendApp_run established]
  refine sendData_answered (l := l) fresh _ short _ ⟨?_, writes, answered⟩
  simp only [afterSeal, own]
  rfl

/-- Receiving one. -/
theorem recvApp_due (aead : K.toCrypto.AeadLaws) :
    Comp.Triple (fun h => l.Due (some s.sealed) who (replyFrame K l s m) rest h.own h.wire.inbox ∧ Writes h) (recvApp K)
      (fun r h => r = (m.type, m.body) ∧ h.own = l.next.connection (some s.next) who ∧ h.wire.inbox = rest ∧ Writes h)
      fun _ => False := by
  refine .bind (recvData_due replyFrame_fresh) fun frame => ?_
  rintro h ⟨rfl, own, inbox, writes⟩
  have established : h.own.session = some s.sealed := by
    rw [own]
    rfl
  have opens : K.aesGcmDecrypt s.sealed.keyRecv (ivFromNonce s.sealed.nonceRecv) [] (replyFrame K l s m).payload =
      some (encodeAppMessage m) := aead.decrypt_encrypt _ _ _ _
  have opened := openApp_run (K := K) established (replyFrame K l s m).payload
  simp only [opens, decodeAppMessage_encode] at opened
  simp only
  rw [Comp.bind_ok opened]
  refine ⟨rfl, ?_, inbox, writes⟩
  simp only [afterOpen, own]
  rfl

end Message

/-! ## An exchange -/

section Exchange

variable {K} {wallet : Option WalletKey}

/-! ### How much of the inbox is left -/

/-- `send_data` does not return before it has read. -/
theorem sendData_lowers (base : UInt8) (payload : Bytes) {h h' : Host Connection}
    (run : (sendData base payload).run h = (.ok (), h')) : h'.wire.inbox.length < h.wire.inbox.length := by
  rw [sendData, Io.run_own_bind, Io.run_note_bind] at run
  obtain ⟨_, h1, wrote, run⟩ := Comp.bind_eq_ok run
  obtain ⟨_, h2, waited, noted⟩ := Comp.bind_eq_ok run
  obtain rfl := (Prod.mk.inj noted).2
  have same := (writeFramed_quiet (Control.withSeq base h.own.sendSeq) payload
    ⟨h.own, h.wire.log (.sendBegins h.own.pendingData.isSome)⟩).inbox
  rw [wrote] at same
  have unread : h1.wire.inbox = h.wire.inbox := same
  rw [awaitFrame_eq sendDataStep_quiet] at waited
  obtain ⟨f, h3, read, later⟩ := Comp.bind_eq_ok waited
  have fewer := readFramed_lowers read
  have consumes : Comp.Keeps (OnWire LeftOf) (sendDataStep f.1 f.2 >>= Sum.elim (fun _ => awaitFrame sendDataStep) pure) := by
    refine consuming.bind (consuming.sendDataStep _ _) fun r => ?_
    cases r with
    | inl _ => exact consuming.awaitFrame consuming.sendDataStep
    | inr a => exact consuming.pure a
  have left := (consumes h3).length_le
  rw [later] at left
  rw [← unread]
  exact Nat.lt_of_le_of_lt left fewer

theorem sendApp_lowers (type : UInt16) (body : Bytes) {h h' : Host Connection}
    (run : (sendApp K type body).run h = (.ok (), h')) : h'.wire.inbox.length < h.wire.inbox.length := by
  rcases session : h.own.session with _ | s
  · rw [sendApp_none session] at run
    cases run
  · rw [sendApp_run session] at run
    exact sendData_lowers _ _ (h := afterSeal K h s ⟨h.own.activeSessionId, type, body⟩) run

/-- A turn that goes on has read the acknowledgement of its `ButtonAck`, -/
theorem transceiveTurn_lowers (u : Unit) (h : Host Connection) (u' : Unit) (h' : Host Connection)
    (run : (transceiveTurn K u).run h = (.ok (.inl u'), h')) : h'.wire.inbox.length < h.wire.inbox.length := by
  obtain ⟨⟨rt, rp⟩, h1, received, run⟩ := Comp.bind_eq_ok run
  have left := (consuming.recvApp (K := K) h).length_le
  rw [received] at left
  simp only at run
  by_cases button : rt = MSG_BUTTON_REQUEST
  · rw [if_pos button] at run
    obtain ⟨_, h2, acked, rest⟩ := Comp.bind_eq_ok run
    obtain rfl := (Prod.mk.inj rest).2
    exact Nat.lt_of_lt_of_le (sendApp_lowers _ _ acked) left
  · rw [if_neg button] at run
    by_cases failure : rt = MSG_FAILURE
    · rw [if_pos failure] at run
      cases run
    · rw [if_neg failure] at run
      cases run

/-- and an exchange that of its request. -/
theorem transceive_lowers (type : UInt16) (body : Bytes) {h h' : Host Connection} {r : Reply}
    (run : (transceive K type body).run h = (.ok r, h')) : h'.wire.inbox.length < h.wire.inbox.length := by
  obtain ⟨_, h1, sent, run⟩ := Comp.bind_eq_ok run
  obtain ⟨reply, h2, replied, run⟩ := Comp.bind_eq_ok run
  rw [Io.run_own_bind, Io.run_note_bind] at run
  obtain rfl := (Prod.mk.inj run).2
  have left := (consuming.loop (consuming_speaking (K := K)).transceiveTurn () h1).length_le
  rw [replied] at left
  exact Nat.lt_of_le_of_lt left (sendApp_lowers _ _ sent)

/-! ### The exchange is the service -/

section Simulation

variable {l : Line} {s : Session} {who : Speaker} {h : Host Connection}

/-- A message that does not fit a frame never leaves. -/
theorem sendApp_tooLong (aead : K.toCrypto.AeadLaws) (own : h.own = l.connection (some s) who) (writes : Writes h) (type : UInt16)
    {body : Bytes} (long : MAX_BODY < body.length) : ∃ k, (sendApp K type body).run h = (.err bodyTooLong, k) ∧ Writes k := by
  have established : h.own.session = some s := by
    rw [own]
    rfl
  have big : ¬ (afterSeal K h s ⟨h.own.activeSessionId, type, body⟩).own.packetSize ≤ INIT_HEADER := by
    simp only [afterSeal, own, Line.connection]
    exact Nat.not_le_of_lt l.big
  have tooLarge : 65535 < (appCiphertext K s ⟨h.own.activeSessionId, type, body⟩).length + CRC_LEN := by
    rw [appCiphertext, aead.length_encrypt, length_encodeAppMessage]
    simp only [MAX_BODY, CRC_LEN] at long ⊢
    omega
  have refused : segment (afterSeal K h s ⟨h.own.activeSessionId, type, body⟩).own.packetSize
      (afterSeal K h s ⟨h.own.activeSessionId, type, body⟩).own.cid
      (Control.withSeq Control.ENCRYPTED_TRANSPORT (afterSeal K h s ⟨h.own.activeSessionId, type, body⟩).own.sendSeq)
      (appCiphertext K s ⟨h.own.activeSessionId, type, body⟩) = .error bodyTooLong := by
    simp only [Framing.segment, if_neg big, if_pos tooLarge]
    rfl
  exact ⟨_, (sendApp_run established type body).trans (sendData_refused refused), writes⟩

/-- When the device says nothing more, the host waits. -/
theorem sendApp_silent (aead : K.toCrypto.AeadLaws) (own : h.own = l.connection (some s) who) (writes : Writes h)
    (silent : h.wire.inbox = []) (type : UInt16) {body : Bytes} (fits : body.length ≤ MAX_BODY) :
    ((sendApp K type body).run h).1 = .dropped := by
  have established : h.own.session = some s := by
    rw [own]
    rfl
  have short : (appCiphertext K s ⟨h.own.activeSessionId, type, body⟩).length + CRC_LEN ≤ 65535 := by
    rw [appCiphertext, aead.length_encrypt, length_encodeAppMessage]
    simp only [MAX_BODY, CRC_LEN] at fits ⊢
    omega
  rw [sendApp_run established]
  obtain ⟨w, e, sent, done, unread⟩ := sendData_written (h := afterSeal K h s ⟨h.own.activeSessionId, type, body⟩) writes
    (by simp only [afterSeal, own, Line.connection]; exact l.big) Control.ENCRYPTED_TRANSPORT _ short
  rw [sent, Comp.run_bind, awaitFrame_nil sendDataStep (unread.trans silent)]

/-- A turn that has been answered. -/
theorem transceiveTurn_due (aead : K.toCrypto.AeadLaws) {m : AppMessage} {rest : Inbox}
    (due : l.Due (some s.sealed) who (replyFrame K l s m) rest h.own h.wire.inbox) (writes : Writes h) :
    ∃ k : Host Connection, k.own = l.next.connection (some s.next) who ∧ k.wire.inbox = rest ∧ Writes k ∧
      (Io.loop (transceiveTurn K) ()).run h =
        if m.type = MSG_BUTTON_REQUEST then
          (sendApp K MSG_BUTTON_ACK (K.buttonAck.encode {}) >>= fun _ => Io.loop (transceiveTurn K) ()).run k
        else if m.type = MSG_FAILURE then (.err (decodeFailure K m.body), k)
        else (.ok (m.type, m.body), k) := by
  obtain ⟨r, k, received, rfl, own, inbox, writes⟩ := (recvApp_due aead).returns ⟨due, writes⟩
  refine ⟨k, own, inbox, writes, ?_⟩
  have turn : (transceiveTurn K ()).run h = (if m.type = MSG_BUTTON_REQUEST then do
      sendApp K MSG_BUTTON_ACK (K.buttonAck.encode {})
      pure (.inl ())
    else if m.type = MSG_FAILURE then .fail (decodeFailure K m.body)
    else pure (.inr (m.type, m.body)) : Io Connection (Unit ⊕ (UInt16 × Bytes))).run k := Comp.bind_ok received
  have loops : (Io.loop (transceiveTurn K) ()).run h = (transceiveTurn K () >>= Sum.elim (Io.loop (transceiveTurn K)) pure).run h :=
    congrArg (fun x => x.run h) (Comp.loop_eq transceiveTurn_lowers ())
  rw [loops, Comp.run_bind, turn, ← Comp.run_bind]
  by_cases button : m.type = MSG_BUTTON_REQUEST
  · rw [if_pos button, if_pos button, Comp.bind_assoc]
    rfl
  · rw [if_neg button, if_neg button]
    by_cases failure : m.type = MSG_FAILURE
    · rw [if_pos failure, if_pos failure]
      rfl
    · rw [if_neg failure, if_neg failure]
      rfl

/-- The answers to an exchange, from the first of them on. -/
theorem replies_simulate (aead : K.toCrypto.AeadLaws) (ackFits : (K.buttonAck.encode {}).length ≤ MAX_BODY)
    (ms : List AppMessage) (m : AppMessage) {rest : Inbox} (due : l.Due (some s.sealed) who (replyFrame K l s m) rest h.own h.wire.inbox)
    (writes : Writes h) (later : Incoming K l.next s.next ms rest) :
    Comp.EndAlike (fun _ => Serving K who.seededWith) (fun k _ => Writes k) ((Io.loop (transceiveTurn K) ()).run h)
      (nextReply K (m :: ms)) := by
  induction ms generalizing m l s h rest with
  | nil =>
    obtain ⟨k, own, inbox, writes, turn⟩ := transceiveTurn_due aead due writes
    rw [turn, nextReply]
    cases later
    by_cases button : m.type = MSG_BUTTON_REQUEST
    · have waits := sendApp_silent aead own writes inbox MSG_BUTTON_ACK ackFits
      rw [if_pos button, if_pos button, Comp.run_bind, Comp.run_of_outcome waits]
      exact .dropped
    · rw [if_neg button, if_neg button]
      by_cases failure : m.type = MSG_FAILURE
      · rw [if_pos failure, if_pos failure]
        exact .err writes
      · rw [if_neg failure, if_neg failure]
        exact .ok ⟨⟨_, _, who.id, who.activeSessionId, own, inbox ▸ .silent⟩, writes⟩
  | cons m' ms ih =>
    obtain ⟨k, own, inbox, writes, turn⟩ := transceiveTurn_due aead due writes
    rw [turn, nextReply]
    by_cases button : m.type = MSG_BUTTON_REQUEST
    · cases later with
      | answers answered more =>
        -- the button's acknowledgement is answered like any other message
        obtain ⟨_, k', acked, due', writes'⟩ := (sendApp_answered aead replyFrame_fresh MSG_BUTTON_ACK ackFits).returns
          ⟨own, writes, inbox ▸ answered⟩
        rw [if_pos button, if_pos button, Comp.bind_ok acked]
        exact ih m' due' writes' more
    · rw [if_neg button, if_neg button]
      by_cases failure : m.type = MSG_FAILURE
      · rw [if_pos failure, if_pos failure]
        exact .err writes
      · rw [if_neg failure, if_neg failure]
        exact .ok ⟨⟨_, _, who.id, who.activeSessionId, own, inbox ▸ later⟩, writes⟩

end Simulation

/-- **An exchange on the connection is the service.** -/
theorem transceive_simulates (aead : K.toCrypto.AeadLaws) (ackFits : (K.buttonAck.encode {}).length ≤ MAX_BODY)
    (sid : Option UInt8) (type : UInt16) (body : Bytes) :
    Comp.Simulates (Serving K wallet) (transceive K type body) (service K ⟨sid, type, body⟩) (fun _ => Serving K wallet)
      fun k _ => Writes k := by
  rintro h ms ⟨⟨l, s, id, active, own, incoming⟩, writes⟩
  rw [transceive, service]
  by_cases long : MAX_BODY < body.length
  · obtain ⟨k, refused, writes'⟩ := sendApp_tooLong aead own writes type long
    rw [Comp.bind_err refused]
    simp only [if_pos long]
    exact .err writes'
  · simp only [if_neg long]
    generalize hin : h.wire.inbox = inbox at incoming
    cases incoming with
    | silent =>
      rw [Comp.run_bind, Comp.run_of_outcome (sendApp_silent aead own writes hin type (Nat.le_of_not_lt long))]
      exact .dropped
    | answers answered later =>
      obtain ⟨_, k, sent, due, writes'⟩ := (sendApp_answered aead replyFrame_fresh type (Nat.le_of_not_lt long)).returns
        ⟨own, writes, hin ▸ answered⟩
      have ends := replies_simulate aead ackFits _ _ due writes' later
      rw [Comp.bind_ok sent, Comp.run_bind]
      rcases replied : (Io.loop (transceiveTurn K) ()).run k with ⟨o, k'⟩
      rcases asked : nextReply K _ with ⟨o', ms'⟩
      rw [replied, asked] at ends
      cases ends with
      | ok serving =>
        obtain ⟨⟨l', s', id', active', own', incoming'⟩, writes''⟩ := serving
        exact .ok ⟨⟨l', s', id', active', own', incoming'⟩, writes''⟩
      | err writes'' => exact .err writes''
      | panicked => exact .panicked
      | dropped => exact .dropped

/-- So is a call of `transceive_on`. -/
theorem ask_simulates (aead : K.toCrypto.AeadLaws) (ackFits : (K.buttonAck.encode {}).length ≤ MAX_BODY) (q : Request) :
    Comp.Simulates (Serving K wallet) (Chat.ask K q) (service K q) (fun _ => Serving K wallet) fun k _ => Writes k := by
  obtain ⟨_ | sid, type, body⟩ := q
  · exact transceive_simulates aead ackFits none type body
  · rintro h ms ⟨⟨l, s, id, active, own, incoming⟩, writes⟩
    have switched : (⟨{ h.own with activeSessionId := sid }, h.wire⟩ : Host Connection).own =
        l.connection (some s) ⟨id, sid, wallet⟩ := by
      simp only [own]
      rfl
    exact transceive_simulates aead ackFits (some sid) type body _ ms ⟨⟨l, s, id, sid, switched, incoming⟩, writes⟩

end Exchange

/-! ## Whole chats -/

section Chats

variable {K} {wallet : Option WalletKey} {α : Type}

theorem ask_lowers (q : Request) (h : Host Connection) (r : Reply) (h' : Host Connection)
    (run : (Chat.ask K q).run h = (.ok r, h')) : h'.wire.inbox.length < h.wire.inbox.length := by
  obtain ⟨_ | sid, type, body⟩ := q
  · exact transceive_lowers type body run
  · exact transceive_lowers type body (h := ⟨{ h.own with activeSessionId := sid }, h.wire⟩) run

/-- **On a connection** a chat is what it is against the replies it got there, up to a request that
ended the call. -/
theorem chat_against {chat : Chat α} (paced : Script.Paced chat) (h : Host Connection) :
    ∃ tr : List (Request × Reply), chat.against (tr.map (·.2)) = (((chat.on K).run h).1, tr.map (·.1)) ∨
      ∃ q k, chat.against (tr.map (·.2)) = (.dropped, tr.map (·.1) ++ [q]) ∧
        Script.Broken ((Chat.ask K q).run k) ((chat.on K).run h) :=
  Script.run_against ask_lowers paced h

theorem nextReply_lowers (ms : List AppMessage) (r : Reply) (ms' : List AppMessage)
    (run : nextReply K ms = (.ok r, ms')) : ms'.length < ms.length := by
  induction ms with
  | nil => cases run
  | cons m ms ih =>
    rw [nextReply] at run
    rw [List.length_cons]
    by_cases button : m.type = MSG_BUTTON_REQUEST
    · rw [if_pos button] at run
      have := ih run
      omega
    · rw [if_neg button] at run
      by_cases failure : m.type = MSG_FAILURE
      · rw [if_pos failure] at run
        cases run
      · rw [if_neg failure] at run
        cases run
        omega

theorem service_lowers (q : Request) (ms : List AppMessage) (r : Reply) (ms' : List AppMessage)
    (run : (service K q).run ms = (.ok r, ms')) : ms'.length < ms.length := by
  rw [service] at run
  by_cases long : MAX_BODY < q.body.length
  · simp only [if_pos long] at run
    cases run
  · simp only [if_neg long] at run
    exact nextReply_lowers ms r ms' run

/-- What a chat comes to when the device will send these messages. -/
def served (K : Crates) (chat : Chat α) : Comp (List AppMessage) TrezorError α := chat.run (service K) List.length

theorem served_bind {β : Type} (x : Chat α) (f : α → Chat β) :
    served K (x >>= f) = served K x >>= fun a => served K (f a) := Script.run_bind _ _ _ _

theorem served_question (q : Request) : served K (Script.question q) = service K q := Comp.bind_pure _

theorem served_ofExcept (r : Except TrezorError α) : served K (Script.ofExcept r) = Comp.ofExcept r :=
  Script.run_ofExcept _ _ _

/-- **A chat on a connection with an honest device** is the chat with the service. -/
theorem chat_simulates (aead : K.toCrypto.AeadLaws) (ackFits : (K.buttonAck.encode {}).length ≤ MAX_BODY) {chat : Chat α}
    (paced : Script.Paced chat) :
    Comp.Simulates (Serving K wallet) (chat.on K) (served K chat) (fun _ => Serving K wallet) fun k _ => Writes k :=
  Script.run_simulates ask_lowers service_lowers (ask_simulates aead ackFits) (fun _ _ serving => serving.writes) paced

end Chats

end Connection

end TrezorCore
