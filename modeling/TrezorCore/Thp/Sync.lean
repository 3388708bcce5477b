import TrezorCore.Thp.Conversation
import TrezorCore.Thp.Desync
import TrezorCore.Thp.SecureChannel

/-!
# Bits and counters in step

The alternating bits of a connection and the AEAD counters of its session are advanced at
different moments, but a call that returns has advanced them together. Between two exchanges
nothing is stashed and each bit is the parity of its counter; inside one, after the request
and before the reply, the reply may already be in the stash with its bit flipped.
-/

namespace TrezorCore.Connection

open Framing

variable {K : Crates}

/-- Nothing is stashed, and the bits are the parities of the session's counters. -/
def InSync (c : Connection) : Prop :=
  c.pendingData = none ∧ ∃ session, c.session = some session ∧
    c.sendSeq.toNat = session.nonceSend.toNat % 2 ∧ c.recvSeq.toNat = (session.nonceRecv.toNat + 1) % 2

/-- In sync but for the reply to come, which may have been stashed. -/
def Awaiting (c : Connection) : Prop :=
  ∃ session, c.session = some session ∧ c.sendSeq.toNat = session.nonceSend.toNat % 2 ∧
    (c.pendingData = none ∧ c.recvSeq.toNat = (session.nonceRecv.toNat + 1) % 2 ∨
      c.pendingData.isSome ∧ c.recvSeq.toNat = session.nonceRecv.toNat % 2)

/-! ## Parity -/

theorem parity_succ (n : UInt64) : (n + 1).toNat % 2 = (n.toNat + 1) % 2 := by
  rw [UInt64.toNat_add]
  have one : (1 : UInt64).toNat = 1 := rfl
  omega

theorem flip_parity {b : UInt8} {n : Nat} (h : b.toNat = n % 2) : (b ^^^ 1).toNat = (n + 1) % 2 := by
  rcases Nat.mod_two_eq_zero_or_one n with zero | one
  · have : b = 0 := UInt8.toNat_inj.1 (by rw [h, zero]; rfl)
    subst this
    rw [Nat.add_mod, zero]
    rfl
  · have : b = 1 := UInt8.toNat_inj.1 (by rw [h, one]; rfl)
    subst this
    rw [Nat.add_mod, one]
    rfl

/-! ## The link layer -/

/-- A connection after `send_data`: its send bit flipped, and perhaps a frame stashed. -/
def Sent (c c' : Connection) : Prop :=
  c' = { c with sendSeq := c.sendSeq ^^^ 1 } ∨
    ∃ frame, c' = { c with sendSeq := c.sendSeq ^^^ 1, recvSeq := c.recvSeq ^^^ 1, pendingData := some frame }

/-- `send_data` ends its wait at an ACK or at a data frame. -/
theorem sendDataStep_ends {ctrl : UInt8} {payload : Bytes} {h h' : Host Connection}
    (run : (sendDataStep ctrl payload).run h = (.ok (.inr ()), h')) : Sent h.own h'.own := by
  rw [sendDataStep, Io.run_own_bind] at run
  by_cases ack : Control.isAck ctrl
  · rw [if_pos ack] at run
    by_cases current : Control.ackSeqOf ctrl = h.own.sendSeq
    · rw [if_pos current] at run
      cases run
      exact .inl rfl
    · rw [if_neg current] at run
      simp at run
  · rw [if_neg ack] at run
    simp only [Io.run_modifyOwn_bind, Io.run_note_bind] at run
    obtain ⟨_, k, wrote, rest⟩ := Comp.bind_eq_ok run
    have own := writeFramed_own (Control.ackFor (Control.seqOf ctrl)) []
      ⟨{ h.own with sendSeq := h.own.sendSeq ^^^ 1 }, h.wire.log (.implicitAck (Control.seqOf ctrl = h.own.recvSeq))⟩
    rw [show (writeFramed _ _).run _ = (.ok _, k) from wrote] at own
    have same : k.own = { h.own with sendSeq := h.own.sendSeq ^^^ 1 } := own
    by_cases fresh : Control.seqOf ctrl = h.own.recvSeq
    · rw [if_pos fresh] at rest
      cases rest
      exact .inr ⟨(ctrl, payload), by simp only [same]⟩
    · rw [if_neg fresh] at rest
      cases rest
      exact .inl same

theorem sendData_sent (c : Connection) (baseCtrl : UInt8) (payload : Bytes) :
    Comp.Triple (fun h => h.own = c) (sendData baseCtrl payload) (fun _ h => Sent c h.own) fun _ => True := by
  have wait : Comp.Triple (fun h => h.own = c) (awaitFrame sendDataStep) (fun _ h => Sent c h.own) fun _ => True := by
    unfold awaitFrame Io.loop
    suffices turn : ∀ u : Unit, Comp.Triple (fun s : Host Connection => s.own = c) _ (Sum.elim (fun _ s => s.own = c) _) fun _ => True
      from Comp.Triple.loop (fun _ _ _ => trivial) turn ()
    intro u
    have read : Comp.Triple (fun s : Host Connection => s.own = c) readFramed (fun _ s => s.own = c) fun _ => True :=
      .of_keeps readFramed_own (fun s s' same own _ => Eq.trans same own) fun _ _ _ _ => trivial
    refine .bind read fun f => ?_
    intro s own
    rcases hx : (sendDataStep f.1 f.2).run s with ⟨(_ | _) | _ | _ | _, s'⟩
    · obtain ⟨-, -, same⟩ := sendDataStep_waits hx
      rw [same]
      exact own
    · rw [← own]
      exact sendDataStep_ends hx
    all_goals trivial
  have write : ∀ ctrl, Comp.Triple (fun s : Host Connection => s.own = c) (writeFramed ctrl payload) (fun _ s => s.own = c) fun _ => True :=
    fun ctrl => .of_keeps (writeFramed_own ctrl payload) (fun s s' same own _ => Eq.trans same own) fun _ _ _ _ => trivial
  intro h own
  rw [sendData, Io.run_own_bind, Io.run_note_bind]
  exact Comp.Triple.bind (write _) (fun _ => .bind wait fun _ => fun _ sent => sent) _ own

/-- A connection after `recv_data`: the stash taken, or the awaited bit flipped. -/
def Taken (c c' : Connection) : Prop :=
  c.pendingData.isSome ∧ c' = { c with pendingData := none } ∨
    c.pendingData = none ∧ c' = { c with recvSeq := c.recvSeq ^^^ 1 }

theorem recvData_taken (c : Connection) :
    Comp.Triple (fun h => h.own = c) recvData (fun _ h => Taken c h.own) fun _ => True := by
  rintro h rfl
  rcases hx : recvData.run h with ⟨frame | _ | _ | _, h'⟩
  · obtain ⟨-, ⟨stash, own⟩ | ⟨none, -, own⟩⟩ := recvData_ok hx
    · exact .inl ⟨by rw [stash]; rfl, own⟩
    · exact .inr ⟨none, own⟩
  all_goals trivial

/-! ## Application messages -/

/-- A request leaves a reply to come. -/
theorem sendApp_awaiting (messageType : UInt16) (protobuf : Bytes) :
    Comp.Triple (fun h => InSync h.own) (sendApp K messageType protobuf) (fun _ h => Awaiting h.own) fun _ => True := by
  rintro h ⟨empty, session, established, send, recv⟩
  rw [sendApp_run established]
  have send' := flip_parity send
  rw [← parity_succ] at send'
  refine ((sendData_sent _ _ _).conseq (fun _ own => own) (fun _ h' sent => ?_) fun _ early => early) _ rfl
  rcases sent with same | ⟨frame, same⟩
  · rw [same]
    exact ⟨_, rfl, send', .inl ⟨empty, recv⟩⟩
  · rw [same]
    refine ⟨_, rfl, send', .inr ⟨rfl, ?_⟩⟩
    rw [show ((afterSeal K h session _).own.recvSeq ^^^ 1).toNat = _ from flip_parity recv]
    show (session.nonceRecv.toNat + 1 + 1) % 2 = session.nonceRecv.toNat % 2
    omega

/-- The reply brings everything back into sync. -/
theorem recvApp_inSync :
    Comp.Triple (fun h => Awaiting h.own) (recvApp K) (fun _ h => InSync h.own) fun _ => True := by
  rintro h ⟨session, established, send, bits⟩
  -- the link hands over a frame; the receive bit is then ahead of the receive counter
  have taken : Comp.Triple (fun s => s.own = h.own) recvData
      (fun _ s => s.own.pendingData = none ∧ s.own.session = some session ∧
        s.own.sendSeq.toNat = session.nonceSend.toNat % 2 ∧ s.own.recvSeq.toNat = session.nonceRecv.toNat % 2)
      fun _ => True := by
    refine (recvData_taken h.own).conseq (fun _ own => own) (fun _ s taken => ?_) fun _ early => early
    rcases taken with ⟨stash, same⟩ | ⟨none, same⟩
    · rcases bits with ⟨none, -⟩ | ⟨-, recv⟩
      · rw [none] at stash
        cases stash
      · rw [same]
        exact ⟨rfl, established, send, recv⟩
    · rcases bits with ⟨-, recv⟩ | ⟨stash, -⟩
      · rw [same]
        refine ⟨none, established, send, (flip_parity recv).trans ?_⟩
        omega
      · rw [none] at stash
        cases stash
  refine Comp.Triple.bind taken (fun frame => .bind (Q := fun _ s => InSync s.own) ?_ fun _ => fun _ sync => sync) h rfl
  rintro s ⟨none, open', send, recv⟩
  rw [openApp_run open']
  rcases K.aesGcmDecrypt session.keyRecv (ivFromNonce session.nonceRecv) [] frame.2 with _ | pt
  · trivial
  · rcases decoded : decodeAppMessage pt with e | message
    · simp only [decoded]
    · simp only [decoded]
      refine ⟨none, { session with nonceRecv := session.nonceRecv + 1 }, rfl, send, recv.trans ?_⟩
      show session.nonceRecv.toNat % 2 = ((session.nonceRecv + 1).toNat + 1) % 2
      have := parity_succ session.nonceRecv
      omega

/-- **An exchange** leaves the connection in sync. -/
theorem transceive_inSync (messageType : UInt16) (protobuf : Bytes) :
    Comp.Triple (fun h => InSync h.own) (transceive K messageType protobuf) (fun _ h => InSync h.own) fun _ => True := by
  refine .bind (sendApp_awaiting _ _) fun _ => ?_
  have reply : Comp.Triple (fun h => Awaiting h.own) (Io.loop (transceiveTurn K) ()) (fun _ h => InSync h.own) fun _ => True := by
    suffices turn : ∀ u, Comp.Triple (fun h : Host Connection => Awaiting h.own) (transceiveTurn K u)
        (Sum.elim (fun _ h => Awaiting h.own) fun _ h => InSync h.own) fun _ => True
      from Comp.Triple.loop (fun _ _ _ => trivial) turn ()
    intro u
    refine .bind recvApp_inSync fun r => ?_
    by_cases button : r.1 = MSG_BUTTON_REQUEST
    · simp only [if_pos button]
      exact .bind (sendApp_awaiting _ _) fun _ => .pure _ fun _ awaiting => awaiting
    · simp only [if_neg button]
      by_cases failed : r.1 = MSG_FAILURE
      · simp only [if_pos failed]
        exact .fail _ fun _ _ => trivial
      · simp only [if_neg failed]
        exact .pure _ fun _ sync => sync
  exact .bind reply fun _ => fun _ sync => sync

/-! ## A new connection -/

/-- Both bits at one value and nothing stashed, as between two messages of the handshake. -/
def Even (b : UInt8) (c : Connection) : Prop := c.sendSeq = b ∧ c.recvSeq = b ∧ c.pendingData = none

/-- The same after a message went out. -/
def Owed (b : UInt8) (c : Connection) : Prop :=
  c.sendSeq = b ^^^ 1 ∧ (c.recvSeq = b ∧ c.pendingData = none ∨ c.recvSeq = b ^^^ 1 ∧ c.pendingData.isSome)

theorem awaitAllocation_even (nonce : Octets 8) : ∀ reads,
    Comp.Triple (fun _ => True) (awaitAllocation K nonce reads) (fun _ h => Even 0 h.own) fun _ => True
  | 0 => .fail _ fun _ _ => trivial
  | reads + 1 => by
    refine .bind (.any readFramed) fun f => ?_
    by_cases response : f.1 = Control.CHANNEL_ALLOCATION_RESPONSE
    · simp only [if_pos response]
      cases Channel.parseAllocationResponse K nonce f.2 with
      | ok allocation => exact fun _ _ => ⟨rfl, rfl, rfl⟩
      | error e => exact awaitAllocation_even nonce reads
    · simp only [if_neg response]
      exact awaitAllocation_even nonce reads

theorem allocate_even : Comp.Triple (fun _ => True) (allocate K) (fun _ h => Even 0 h.own) fun _ => True :=
  .bind (.any _) fun nonce => .bind (.any _) fun _ => .bind (.any _) fun _ => awaitAllocation_even nonce _

theorem sendData_owed {b : UInt8} (baseCtrl : UInt8) (payload : Bytes) :
    Comp.Triple (fun h => Even b h.own) (sendData baseCtrl payload) (fun _ h => Owed b h.own) fun _ => True := by
  rintro h ⟨send, recv, empty⟩
  refine ((sendData_sent h.own baseCtrl payload).conseq (fun _ own => own) (fun _ s sent => ?_) fun _ early => early) h rfl
  rcases sent with same | ⟨frame, same⟩
  · rw [same]
    exact ⟨by rw [send], .inl ⟨recv, empty⟩⟩
  · rw [same]
    exact ⟨by rw [send], .inr ⟨by rw [recv], rfl⟩⟩

theorem recvData_even {b : UInt8} :
    Comp.Triple (fun h => Owed b h.own) recvData (fun _ h => Even (b ^^^ 1) h.own) fun _ => True := by
  rintro h ⟨send, bits⟩
  refine ((recvData_taken h.own).conseq (fun _ own => own) (fun _ s taken => ?_) fun _ early => early) h rfl
  rcases bits with ⟨recv, empty⟩ | ⟨recv, stash⟩ <;> rcases taken with ⟨stashed, same⟩ | ⟨none, same⟩
  · rw [empty] at stashed
    cases stashed
  · rw [same]
    exact ⟨send, by rw [recv], none⟩
  · rw [same]
    exact ⟨send, recv, rfl⟩
  · rw [none] at stash
    cases stash

/-- Two messages each way bring the bits back. -/
theorem handshake_even (devicePropertiesRaw : Bytes) (hostStaticPriv : Octets 32) (credential : Option Bytes) :
    Comp.Triple (fun h => Even 0 h.own) (handshake K devicePropertiesRaw hostStaticPriv credential)
      (fun keys h => Even 0 h.own ∧ keys.nonceRequest = 0 ∧ keys.nonceResponse = 1) fun _ => True := by
  have completes : ∀ resp, Comp.Triple (fun _ => True) (Noise.HostHandshake.readCompletionResponse K resp)
      (fun keys _ => keys.nonceRequest = 0 ∧ keys.nonceResponse = 1) fun _ => True := by
    intro resp h _
    rcases hx : (Noise.HostHandshake.readCompletionResponse K resp).run h with ⟨keys | _ | _ | _, h'⟩
    · exact SecureChannel.FromHandshake.nonces ⟨resp, h, h', hx⟩
    all_goals trivial
  refine .bind (Q := fun _ (h : Host Connection) => Even 0 h.own) (fun _ even => even) fun hs => ?_
  refine .bind (sendData_owed _ _) fun _ => .bind recvData_even fun init => ?_
  refine .bind (Q := fun _ h => Even (0 ^^^ 1) h.own) ?_ fun completion => ?_
  · exact Io.runOwned_triple (.any _) (fun _ _ => trivial) (fun _ _ _ even _ => even) fun _ _ _ _ => trivial
  refine .bind (sendData_owed _ _) fun _ => .bind recvData_even fun response => ?_
  refine .bind (Q := fun r h => Even 0 h.own ∧ r.1.nonceRequest = 0 ∧ r.1.nonceResponse = 1) ?_ fun _ => fun _ ends => ends
  exact Io.runOwned_triple (completes _) (fun _ _ => trivial) (fun _ _ _ even nonces => ⟨even, nonces⟩) fun _ _ _ _ => trivial

/-- The session starts in sync with the bits the handshake left. -/
theorem setSession_inSync {keys : Noise.SessionKeys} (request : keys.nonceRequest = 0) (response : keys.nonceResponse = 1) :
    Comp.Triple (fun h => Even 0 h.own) (setSession (Session.fromHandshake keys)) (fun _ h => InSync h.own)
      fun _ => True := by
  rintro h ⟨send, recv, empty⟩
  refine ⟨empty, _, rfl, ?_, ?_⟩
  · show h.own.sendSeq.toNat = keys.nonceRequest.toNat % 2
    rw [send, request]
    rfl
  · show h.own.recvSeq.toNat = (keys.nonceResponse.toNat + 1) % 2
    rw [recv, response]
    rfl

/-! ## Chats -/

theorem endRequest_inSync :
    Comp.Triple (fun h => InSync h.own) (Pairing.endRequest K) (fun _ h => InSync h.own) fun _ => True :=
  .bind (transceive_inSync _ _) fun _ => .ofExcept _ (fun _ _ _ sync => sync) fun _ _ => trivial

theorem createSeededSession_inSync (passphrase : Option String) (onDevice : Bool) :
    Comp.Triple (fun h => InSync h.own) (createSeededSession K passphrase onDevice) (fun _ h => InSync h.own)
      fun _ => True := by
  refine .bind (Q := fun _ (h : Host Connection) => InSync h.own) (fun _ sync => sync) fun _ => .bind (transceive_inSync _ _) fun r => ?_
  by_cases success : r.1 = MSG_SUCCESS
  · simp only [success, ne_eq, not_true_eq_false, if_false]
    exact fun _ sync => sync
  · simp only [ne_eq, success, not_false_eq_true, if_true]
    exact .fail _ fun _ _ => trivial

theorem ask_inSync (q : Request) :
    Comp.Triple (fun h => InSync h.own) (Chat.ask K q) (fun _ h => InSync h.own) fun _ => True := by
  rw [Chat.ask]
  cases q.sessionId with
  | some sessionId => exact .bind (Q := fun _ (h : Host Connection) => InSync h.own) (fun _ sync => sync) fun _ => transceive_inSync _ _
  | none => exact transceive_inSync _ _

/-- **A chat** leaves the connection in sync. -/
theorem chat_inSync {α : Type} (chat : Chat α) :
    Comp.Triple (fun h => InSync h.own) (chat.on K) (fun _ h => InSync h.own) fun _ => True :=
  Script.run_invariant ask_inSync chat

/-- Look at the connection before each exchange, and panic if it is out of sync. -/
noncomputable def watchedAsk (K : Crates) (q : Request) : Io Connection Reply :=
  open Classical in Io.own >>= fun c => if InSync c then Chat.ask K q else .panic

/-- A chat that is watched. -/
noncomputable def watched (K : Crates) {α : Type} (chat : Chat α) : Io Connection α :=
  chat.run (watchedAsk K) fun h => h.wire.inbox.length

/-- **Every exchange of a chat** starts in sync, if the chat does: the watch changes nothing. -/
theorem watched_agree {α : Type} (chat : Chat α) : Comp.Agree (fun h => InSync h.own) (watched K chat) (chat.on K) := by
  refine Script.run_agree (fun q h sync => ?_) ask_inSync chat
  rw [watchedAsk, Io.run_own_bind, if_pos sync]

end TrezorCore.Connection
