import TrezorCore.Thp.History

/-!
# Dialogues

The history of application messages on a connection, with everything below it left out.
One rule for each of `send_app`, `recv_app` and `transceive` says what the call adds to
that history, whatever the device and the transport do: a request is followed by answered
button requests, then by the reply or by an early end.
-/

namespace TrezorCore

/-- Events of the application layer. -/
def Event.isApp : Event → Bool
  | .appOut _ _ | .appIn _ _ _ | .exchanged _ _ _ => true
  | _ => false

/-- The connection of an application message. -/
def Event.conn? : Event → Option Nat
  | .appOut id _ | .appIn id _ _ | .exchanged id _ _ => some id
  | _ => none

def appEvents (es : List Event) : List Event := es.filter Event.isApp

@[simp] theorem appEvents_append (a b : List Event) : appEvents (a ++ b) = appEvents a ++ appEvents b :=
  List.filter_append a b

theorem appEvents_link {es : List Event} (link : ∀ e ∈ es, e.isLink = true) : appEvents es = [] := by
  refine List.filter_eq_nil_iff.2 fun e he app => ?_
  have := link e he
  cases e <;> first | exact absurd this Bool.false_ne_true | exact absurd app Bool.false_ne_true

namespace Connection

variable (K : Crates)

/-- What the application layer reads of a connection. -/
structure Speaker where
  id : Nat
  activeSessionId : UInt8
  seededWith : Option WalletKey

def speaker (c : Connection) : Speaker := ⟨c.id, c.activeSessionId, c.seededWith⟩

/-- Answered button requests. -/
inductive Buttons (id : Nat) (sid : UInt8) : List Event → Prop where
  | nil : Buttons id sid []
  | more {es : List Event} {n : UInt64} {m : AppMessage} : Buttons id sid es → m.type = MSG_BUTTON_REQUEST →
      Buttons id sid (es ++ [.appIn id n m, .appOut id ⟨sid, MSG_BUTTON_ACK, K.buttonAck.encode {}⟩])

/-- A request and its answered button requests. -/
def Asked (id : Nat) (message : AppMessage) (es : List Event) : Prop :=
  ∃ buttons, Buttons K id message.sessionId buttons ∧ es = .appOut id message :: buttons

/-- A request with its final reply. -/
def Exchange (id : Nat) (message : AppMessage) (reply : UInt16 × Bytes) (es : List Event) : Prop :=
  reply.1 ≠ MSG_BUTTON_REQUEST ∧ reply.1 ≠ MSG_FAILURE ∧ ∃ asked n sid, Asked K id message asked ∧
    es = asked ++ [.appIn id n ⟨sid, reply.1, reply.2⟩, .exchanged id reply.1 reply.2]

/-- A request, or the beginning of one, without a reply. -/
def Unanswered (id : Nat) (message : AppMessage) (es : List Event) : Prop :=
  es = [] ∨ Asked K id message es ∨ ∃ asked n m, Asked K id message asked ∧ es = asked ++ [.appIn id n m]

variable {K} {t : List Event} {who : Speaker} {Φ Ψ : List Event → Prop}

/-- Since `t`, the connection of `who` has added messages with `Φ`. -/
def Since (t : List Event) (who : Speaker) (Φ : List Event → Prop) (h : Host Connection) : Prop :=
  h.own.speaker = who ∧ ∃ es, h.wire.trace = t ++ es ∧ Φ (appEvents es)

namespace Since

theorem mono {h : Host Connection} (since : Since t who Φ h) (imp : ∀ es, Φ es → Ψ es) : Since t who Ψ h := by
  obtain ⟨same, es, trace, holds⟩ := since
  exact ⟨same, es, trace, imp _ holds⟩

/-- The link layer adds nothing. -/
theorem linkOnly {h h' : Host Connection} (since : Since t who Φ h) (l : LinkOnly h h') : Since t who Φ h' := by
  obtain ⟨same, es, trace, holds⟩ := since
  obtain ⟨more, trace', link⟩ := l.events
  refine ⟨?_, es ++ more, by rw [trace', trace, List.append_assoc], ?_⟩
  · rw [← same]
    exact (congrArg speaker l.own : h'.own.aboveLink.speaker = h.own.aboveLink.speaker)
  · rwa [appEvents_append, appEvents_link link, List.append_nil]

/-- Some events, of which the application's are these. -/
theorem logAll {h : Host Connection} (since : Since t who Φ h) {c : Connection} {w : Wire} (new : List Event)
    (same : c.speaker = h.own.speaker) (trace : w.trace = h.wire.trace ++ new)
    (imp : ∀ es, Φ es → Ψ (es ++ appEvents new)) : Since t who Ψ ⟨c, w⟩ := by
  obtain ⟨who', es, before, holds⟩ := since
  refine ⟨same.trans who', es ++ new, by rw [trace, before, List.append_assoc], ?_⟩
  rw [appEvents_append]
  exact imp _ holds

end Since

/-- One more message. -/
def Then (Φ : List Event → Prop) (e : Event) (es : List Event) : Prop := ∃ before, Φ before ∧ es = before ++ [e]

/-- The rule of `send_app` on a connection with a session: the message is said, however the link takes
it. -/
theorem sendApp_established {B : Host Connection → Prop} (messageType : UInt16) (protobuf : Bytes)
    (after : ∀ h, Since t who (Then Φ (.appOut who.id ⟨who.activeSessionId, messageType, protobuf⟩)) h → B h) :
    Comp.Triple (fun h => Since t who Φ h ∧ h.own.session.isSome) (sendApp K messageType protobuf)
      (fun _ => Since t who (Then Φ (.appOut who.id ⟨who.activeSessionId, messageType, protobuf⟩))) B := by
  rintro h ⟨since, some_session⟩
  obtain ⟨session, established⟩ := Option.isSome_iff_exists.1 some_session
  rw [sendApp_run established]
  have sealed : Since t who (Then Φ (.appOut who.id ⟨who.activeSessionId, messageType, protobuf⟩))
      (afterSeal K h session ⟨h.own.activeSessionId, messageType, protobuf⟩) := by
    refine since.logAll [_, _] rfl (by simp only [Wire.log_trace, List.append_assoc]; rfl) fun es holds => ?_
    refine ⟨es, holds, ?_⟩
    rw [← since.1]
    rfl
  exact LinkOnly.triple (LinkOnly.sendData _ _) Since.linkOnly after _ sealed

/-- The rule of `send_app`. -/
theorem sendApp_since {B : Host Connection → Prop} (messageType : UInt16) (protobuf : Bytes)
    (before : ∀ h, Since t who Φ h → B h)
    (after : ∀ h, Since t who (Then Φ (.appOut who.id ⟨who.activeSessionId, messageType, protobuf⟩)) h → B h) :
    Comp.Triple (Since t who Φ) (sendApp K messageType protobuf)
      (fun _ => Since t who (Then Φ (.appOut who.id ⟨who.activeSessionId, messageType, protobuf⟩))) B := by
  intro h since
  rcases established : h.own.session with _ | session
  · rw [sendApp_none established]
    exact before h since
  · exact sendApp_established messageType protobuf after h ⟨since, Option.isSome_iff_exists.2 ⟨session, established⟩⟩

/-- The rule of `recv_app`. -/
theorem recvApp_since {B : Host Connection → Prop} (before : ∀ h, Since t who Φ h → B h) :
    Comp.Triple (Since t who Φ) (recvApp K)
      (fun r => Since t who fun es => ∃ n sid, Then Φ (.appIn who.id n ⟨sid, r.1, r.2⟩) es) B := by
  refine .bind (LinkOnly.triple LinkOnly.recvData Since.linkOnly before) fun f => ?_
  refine .bind (Q := fun m => Since t who fun es => ∃ n, Then Φ (.appIn who.id n m) es) ?_ fun m => ?_
  · intro h since
    rcases established : h.own.session with _ | session
    · rw [openApp_none established]
      exact before h since
    · rw [openApp_run established]
      have opened : ∀ plaintext, Since t who Φ (afterOpen h session f.2 plaintext) := fun plaintext =>
        since.logAll [_] rfl rfl fun es holds => by rwa [show appEvents _ = [] from rfl, List.append_nil]
      rcases K.aesGcmDecrypt session.keyRecv (ivFromNonce session.nonceRecv) [] f.2 with _ | pt
      · exact before _ (opened none)
      · simp only
        rcases decodeAppMessage pt with e | m
        · exact before _ (opened (some pt))
        · refine (opened (some pt)).logAll [.appIn h.own.id session.nonceRecv m] rfl rfl fun es holds => ?_
          refine ⟨session.nonceRecv, es, holds, ?_⟩
          rw [← since.1]
          rfl
  · exact .pure _ fun h since => since.mono fun es ⟨n, holds⟩ => ⟨n, m.sessionId, holds⟩

/-- A message comes out of a session only. -/
theorem recvApp_established {P : Host Connection → Prop} :
    Comp.Triple P (recvApp K) (fun _ h => h.own.session.isSome) fun _ => True := by
  have opened : ∀ ct, Comp.Triple (fun _ : Host Connection => True) (openApp K ct) (fun _ h => h.own.session.isSome)
      fun _ => True := by
    intro ct h _
    rcases established : h.own.session with _ | session
    · rw [openApp_none established]
      trivial
    · rw [openApp_run established]
      rcases K.aesGcmDecrypt session.keyRecv (ivFromNonce session.nonceRecv) [] ct with _ | pt
      · trivial
      · simp only
        rcases decodeAppMessage pt with e | m
        · trivial
        · rfl
  refine .bind ((Comp.Triple.any recvData).conseq (fun _ _ => trivial) (fun _ _ _ => trivial) fun _ _ => trivial) fun f => ?_
  exact .bind (opened f.2) fun m => .pure _ fun _ some_session => some_session

/-- One part of a history after another. -/
def After (Φ Ψ : List Event → Prop) (es : List Event) : Prop := ∃ a b, Φ a ∧ Ψ b ∧ es = a ++ b

/-- One turn of `transceive`. -/
theorem transceiveTurn_since {B : Host Connection → Prop} {message : AppMessage} (sid : who.activeSessionId = message.sessionId)
    (early : ∀ h, Since t who (After Φ (Unanswered K who.id message)) h → B h) (u : Unit) :
    Comp.Triple (Since t who (After Φ (Asked K who.id message))) (transceiveTurn K u)
      (Sum.elim (fun _ => Since t who (After Φ (Asked K who.id message))) fun r =>
        Since t who fun es => r.1 ≠ MSG_BUTTON_REQUEST ∧ r.1 ≠ MSG_FAILURE ∧
          ∃ n s, Then (After Φ (Asked K who.id message)) (.appIn who.id n ⟨s, r.1, r.2⟩) es) B := by
  have heard : ∀ {h : Host Connection} {n : UInt64} {m : AppMessage},
      Since t who (Then (After Φ (Asked K who.id message)) (.appIn who.id n m)) h → B h := by
    intro h n m since
    refine early h (since.mono ?_)
    rintro es ⟨before, ⟨a, b, ha, hb, rfl⟩, rfl⟩
    exact ⟨a, b ++ [.appIn who.id n m], ha, .inr (.inr ⟨b, n, m, hb, rfl⟩), by rw [List.append_assoc]⟩
  refine .bind (recvApp_since fun h since => early h (since.mono ?_)) fun r => ?_
  · rintro es ⟨a, b, ha, hb, rfl⟩
    exact ⟨a, b, ha, .inr (.inl hb), rfl⟩
  rintro h ⟨same, es, trace, n, s, spoken⟩
  have since : Since t who (Then (After Φ (Asked K who.id message)) (.appIn who.id n ⟨s, r.1, r.2⟩)) h :=
    ⟨same, es, trace, spoken⟩
  by_cases button : r.1 = MSG_BUTTON_REQUEST
  · simp only [if_pos button]
    -- the button request is answered: one more of them
    have answered : ∀ es, Then (Then (After Φ (Asked K who.id message)) (.appIn who.id n ⟨s, r.1, r.2⟩))
        (.appOut who.id ⟨who.activeSessionId, MSG_BUTTON_ACK, K.buttonAck.encode {}⟩) es →
        After Φ (Asked K who.id message) es := by
      rintro es ⟨_, ⟨_, ⟨a, b, ha, ⟨bs, buttons, rfl⟩, rfl⟩, rfl⟩, rfl⟩
      refine ⟨a, _, ha, ⟨_, buttons.more (n := n) (m := ⟨s, r.1, r.2⟩) button, rfl⟩, ?_⟩
      simp [sid]
    have acked : Comp.Triple (Since t who (Then (After Φ (Asked K who.id message)) (.appIn who.id n ⟨s, r.1, r.2⟩)))
        (sendApp K MSG_BUTTON_ACK (K.buttonAck.encode {})) (fun _ => Since t who (After Φ (Asked K who.id message))) B := by
      refine (sendApp_since _ _ (fun h since => heard since) fun h since => early h (since.mono fun es holds => ?_)).conseq
        (fun _ since => since) (fun _ h since => since.mono answered) fun _ b => b
      obtain ⟨a, b, ha, hb, rfl⟩ := answered es holds
      exact ⟨a, b, ha, .inr (.inl hb), rfl⟩
    refine Comp.Triple.bind acked (fun _ => ?_) h since
    exact .pure (Sum.inl ()) fun _ since => since
  · simp only [if_neg button]
    by_cases failed : r.1 = MSG_FAILURE
    · simp only [if_pos failed]
      exact heard since
    · simp only [if_neg failed]
      exact ⟨same, es, trace, button, failed, n, s, spoken⟩

/-- **The rule of `transceive`**: a request and its final reply, or an early end. -/
theorem transceive_since {B : Host Connection → Prop} (messageType : UInt16) (protobuf : Bytes)
    (early : ∀ h, Since t who (After Φ (Unanswered K who.id ⟨who.activeSessionId, messageType, protobuf⟩)) h → B h) :
    Comp.Triple (Since t who Φ) (transceive K messageType protobuf)
      (fun r => Since t who (After Φ (Exchange K who.id ⟨who.activeSessionId, messageType, protobuf⟩ r))) B := by
  have asked : ∀ es, Then Φ (.appOut who.id ⟨who.activeSessionId, messageType, protobuf⟩) es →
      After Φ (Asked K who.id ⟨who.activeSessionId, messageType, protobuf⟩) es := by
    rintro es ⟨a, ha, rfl⟩
    exact ⟨a, _, ha, ⟨[], .nil, rfl⟩, rfl⟩
  have waiting : ∀ h, Since t who (After Φ (Asked K who.id ⟨who.activeSessionId, messageType, protobuf⟩)) h → B h := by
    intro h since
    refine early h (since.mono ?_)
    rintro es ⟨a, b, ha, hb, rfl⟩
    exact ⟨a, b, ha, .inr (.inl hb), rfl⟩
  refine .bind ((sendApp_since messageType protobuf (fun h since => early h (since.mono fun es ha => ?_)) fun h since =>
    waiting h (since.mono asked)).conseq (fun _ since => since) (fun _ h since => since.mono asked) fun _ b => b) fun _ => ?_
  · exact ⟨es, [], ha, .inl rfl, (List.append_nil es).symm⟩
  refine .bind (Comp.Triple.loop (fun _ => waiting) (transceiveTurn_since rfl early) ()) fun r => ?_
  rintro h ⟨same, es, trace, button, failed, n, s, spoken⟩
  rw [Io.run_own_bind, Io.run_note_bind]
  refine Since.logAll (Φ := Then (After Φ (Asked K who.id _)) (.appIn who.id n ⟨s, r.1, r.2⟩)) ⟨same, es, trace, spoken⟩
    [.exchanged h.own.id r.1 r.2] rfl rfl ?_
  rintro es ⟨_, ⟨a, b, ha, hb, rfl⟩, rfl⟩
  refine ⟨a, _, ha, ⟨button, failed, b, n, s, hb, rfl⟩, ?_⟩
  rw [← same]
  simp [appEvents, Event.isApp, speaker]

end Connection

end TrezorCore
