import TrezorCore.Thp.Pairing

/-!
# Conversations

What the calls above `transceive` say on a connection. Allocation and the handshake say
nothing; `end_request`, `create_seeded_session` and every chat are sequences of exchanges,
each a request with its reply, and a call that ends early leaves at most one request
without one. The rules here say so for each of them, whatever the device does.
-/

namespace TrezorCore.Connection

variable {K : Crates}

/-! ## Calls that say nothing -/

/-- No application message, the same speaker and no new connection. -/
structure Silent (h h' : Host Connection) : Prop where
  speaker : h'.own.speaker = h.own.speaker
  events : ∃ es, h'.wire.trace = h.wire.trace ++ es ∧ appEvents es = []
  connections : h'.wire.connections = h.wire.connections

/-- The same of the wire alone. -/
structure Mute {γ : Type} (h h' : Host γ) : Prop where
  events : ∃ es, h'.wire.trace = h.wire.trace ++ es ∧ appEvents es = []
  connections : h'.wire.connections = h.wire.connections

namespace Mute

variable {γ : Type}

theorem refl (h : Host γ) : Mute h h := ⟨⟨[], by simp, rfl⟩, rfl⟩

theorem trans (a b c : Host γ) (h1 : Mute a b) (h2 : Mute b c) : Mute a c := by
  obtain ⟨es1, t1, m1⟩ := h1.events
  obtain ⟨es2, t2, m2⟩ := h2.events
  refine ⟨⟨es1 ++ es2, by rw [t2, t1, List.append_assoc], ?_⟩, h2.connections.trans h1.connections⟩
  rw [appEvents_append, m1, m2]
  rfl

theorem across : AcrossCrypto (Mute (γ := γ)) where
  refl := refl
  trans := trans
  note e crypto h := by
    refine ⟨⟨[e], rfl, ?_⟩, rfl⟩
    cases e <;> first | exact absurd crypto Bool.false_ne_true | rfl

theorem modifyOwn (f : γ → γ) : Comp.Keeps Mute (Io.modifyOwn f) :=
  fun _ => ⟨⟨[], (List.append_nil _).symm, rfl⟩, rfl⟩

end Mute

namespace Silent

theorem refl (h : Host Connection) : Silent h h := ⟨rfl, ⟨[], by simp, rfl⟩, rfl⟩

theorem trans (a b c : Host Connection) (h1 : Silent a b) (h2 : Silent b c) : Silent a c :=
  have both := Mute.trans a b c ⟨h1.events, h1.connections⟩ ⟨h2.events, h2.connections⟩
  ⟨h2.speaker.trans h1.speaker, both.events, both.connections⟩

theorem ofLinkOnly {h h' : Host Connection} (l : LinkOnly h h') : Silent h h' := by
  obtain ⟨es, trace, link⟩ := l.events
  exact ⟨(congrArg Connection.speaker l.own : h'.own.aboveLink.speaker = h.own.aboveLink.speaker),
    ⟨es, trace, appEvents_link link⟩, l.connections⟩

theorem modifyOwn {f : Connection → Connection} (same : ∀ c, (f c).speaker = c.speaker) :
    Comp.Keeps Silent (Io.modifyOwn f) :=
  fun h => ⟨same h.own, ⟨[], (List.append_nil _).symm, rfl⟩, rfl⟩

theorem link {α : Type} {x : Io Connection α} (l : Comp.Keeps LinkOnly x) : Comp.Keeps Silent x :=
  l.mono fun _ _ => ofLinkOnly

theorem getrandom (n : Nat) : Comp.Keeps Silent (Io.getrandom n : Io Connection _) :=
  fun _ => ⟨rfl, ⟨[], (List.append_nil _).symm, rfl⟩, rfl⟩

/-- A call on a local value that leaves the wire mute. -/
theorem runOwned {δ α : Type} {x : Io δ α} (mute : Comp.Keeps Mute x) (d : δ) :
    Comp.Keeps Silent (Io.runOwned x d : Io Connection _) := by
  intro h
  have quiet := mute ⟨d, h.wire⟩
  rcases hx : x.run ⟨d, h.wire⟩ with ⟨_ | _ | _ | _, h'⟩ <;> rw [hx] at quiet <;> simp only [Io.runOwned, hx]
  all_goals exact ⟨rfl, quiet.events, quiet.connections⟩

theorem awaitAllocation (nonce : Octets 8) : ∀ reads, Comp.Keeps Silent (awaitAllocation K nonce reads)
  | 0 => .fail refl _
  | reads + 1 => by
    refine .bind trans (link LinkOnly.readFramed) fun f => ?_
    by_cases response : f.1 = Framing.Control.CHANNEL_ALLOCATION_RESPONSE
    · simp only [if_pos response]
      cases Channel.parseAllocationResponse K nonce f.2 with
      | ok allocation => exact .bind trans (modifyOwn fun _ => rfl) fun _ => .pure refl _
      | error e => exact awaitAllocation nonce reads
    · simp only [if_neg response]
      exact awaitAllocation nonce reads

theorem allocate : Comp.Keeps Silent (allocate K) :=
  .bind trans (getrandom 8) fun nonce => .bind trans (modifyOwn fun _ => rfl) fun _ =>
    .bind trans (link (LinkOnly.writeFramed _ _)) fun _ => awaitAllocation nonce _

theorem handshake (devicePropertiesRaw : Bytes) (hostStaticPriv : Octets 32) (credential : Option Bytes) :
    Comp.Keeps Silent (handshake K devicePropertiesRaw hostStaticPriv credential) :=
  .bind trans (.bind trans (getrandom 32) fun _ => .pure refl _) fun _ =>
    .bind trans (link (LinkOnly.sendData _ _)) fun _ => .bind trans (link LinkOnly.recvData) fun _ =>
    .bind trans (runOwned (Noise.readInitResponse_across (.of_crypto Mute.across) (fun _ _ _ => Mute.modifyOwn _) _) _) fun _ =>
    .bind trans (link (LinkOnly.sendData _ _)) fun _ => .bind trans (link LinkOnly.recvData) fun _ =>
    .bind trans (runOwned (Noise.readCompletionResponse_across (.of_crypto Mute.across) _) _) fun _ => .pure refl _

theorem setSession (session : Session) : Comp.Keeps Silent (setSession session) := modifyOwn fun _ => rfl

end Silent

/-! ## No call makes a connection of its own -/

/-- The run has as many connections as before. -/
def Counted {γ : Type} (h h' : Host γ) : Prop := h'.wire.connections = h.wire.connections

namespace Counted

variable {γ : Type}

theorem refl (h : Host γ) : Counted h h := rfl

theorem trans (a b c : Host γ) (h1 : Counted a b) (h2 : Counted b c) : Counted a c := Eq.trans h2 h1

theorem across : AcrossCrypto (Counted (γ := γ)) := ⟨refl, trans, fun _ _ => refl⟩

theorem link {α : Type} {x : Io Connection α} (l : Comp.Keeps LinkOnly x) : Comp.Keeps Counted x :=
  l.mono fun _ _ only => only.connections

theorem onSession {α : Type} {x : Io Session α} (keeps : Comp.Keeps Counted x) : Comp.Keeps Counted (onSession x) := by
  intro h
  rcases established : h.own.session with _ | session
  · simp only [Connection.onSession, established]
    exact refl h
  · simp only [Connection.onSession, established]
    exact keeps ⟨session, h.wire⟩

theorem sendApp (messageType : UInt16) (protobuf : Bytes) : Comp.Keeps Counted (sendApp K messageType protobuf) :=
  .bind trans refl fun _ => .bind trans
    (onSession (.bind trans refl fun _ => .bind trans refl fun _ => .bind trans (across.aeadSeal _ _ _ _) fun _ =>
      .bind trans refl fun _ => refl))
    fun _ => link (LinkOnly.sendData _ _)

theorem recvApp : Comp.Keeps Counted (recvApp K) :=
  .bind trans (link LinkOnly.recvData) fun _ => .bind trans
    (.bind trans refl fun _ => onSession (.bind trans refl fun _ =>
      .bind trans (.bind trans refl fun _ => .bind trans (across.aeadOpen _ _ _ _) fun _ => .bind trans refl fun _ => refl)
        fun _ => .bind trans (.ofExcept refl _) fun _ => .bind trans refl fun _ => refl))
    fun _ => refl

theorem transceive (messageType : UInt16) (protobuf : Bytes) : Comp.Keeps Counted (transceive K messageType protobuf) := by
  refine .bind trans (sendApp _ _) fun _ => .bind trans (.loop refl trans (fun u => ?_) ()) fun _ => fun _ => rfl
  refine .bind trans recvApp fun r => ?_
  by_cases button : r.1 = MSG_BUTTON_REQUEST
  · simp only [if_pos button]
    exact .bind trans (sendApp _ _) fun _ => refl
  · simp only [if_neg button]
    by_cases failed : r.1 = MSG_FAILURE
    · simp only [if_pos failed]
      exact refl
    · simp only [if_neg failed]
      exact refl

theorem silent {α : Type} {x : Io Connection α} (s : Comp.Keeps Silent x) : Comp.Keeps Counted x :=
  s.mono fun _ _ silent => silent.connections

theorem endRequest : Comp.Keeps Counted (Pairing.endRequest K) :=
  .bind trans (transceive _ _) fun _ => .ofExcept refl _

theorem createSeededSession (passphrase : Option String) (onDevice : Bool) :
    Comp.Keeps Counted (createSeededSession K passphrase onDevice) := by
  refine .bind trans refl fun _ => .bind trans (transceive _ _) fun r => ?_
  by_cases success : r.1 = MSG_SUCCESS
  · simp only [success, ne_eq, not_true_eq_false, if_false]
    exact refl
  · simp only [ne_eq, success, not_false_eq_true, if_true]
    exact refl

theorem ask (q : Request) : Comp.Keeps Counted (Chat.ask K q) := by
  rw [Chat.ask]
  cases q.sessionId with
  | some sessionId => exact .bind trans refl fun _ => transceive _ _
  | none => exact transceive _ _

theorem chat {α : Type} (chat : Chat α) : Comp.Keeps Counted (chat.on K) := Script.run_keeps refl trans ask chat

end Counted

/-! ## Exchanges -/

/-- A chat's questions and answers, as exchanges on a connection. A question that names no
session goes to the one before. -/
inductive Told (K : Crates) (id : Nat) : List (Request × Reply) → List Event → Prop where
  | nil : Told K id [] []
  | more {tr : List (Request × Reply)} {es ex : List Event} {q : Request} {r : Reply} {sid : UInt8} : Told K id tr es →
      (∀ s, q.sessionId = some s → sid = s) → Exchange K id ⟨sid, q.type, q.body⟩ r ex →
      Told K id (tr ++ [(q, r)]) (es ++ ex)

/-- Exchanges, the last of them without a reply. -/
def ToldInPart (K : Crates) (id : Nat) (es : List Event) : Prop :=
  ∃ tr m a b, Told K id tr a ∧ Unanswered K id m b ∧ es = a ++ b

section Rules

variable {t : List Event} {id : Nat} {key : Option WalletKey} {Φ : List Event → Prop} {B : Host Connection → Prop}

/-- The connection `id` has said `Φ` since `t`, on whatever session. -/
def Saying (t : List Event) (id : Nat) (key : Option WalletKey) (Φ : List Event → Prop) (h : Host Connection) : Prop :=
  ∃ sid, Since t ⟨id, sid, key⟩ Φ h

theorem Saying.mono {Ψ : List Event → Prop} {h : Host Connection} (saying : Saying t id key Φ h)
    (imp : ∀ es, Φ es → Ψ es) : Saying t id key Ψ h := by
  obtain ⟨sid, since⟩ := saying
  exact ⟨sid, since.mono imp⟩

theorem Saying.own_id {h : Host Connection} (saying : Saying t id key Φ h) : h.own.id = id := by
  obtain ⟨sid, who, -⟩ := saying
  exact congrArg Speaker.id who

theorem Saying.seeded {h : Host Connection} (saying : Saying t id key Φ h) : h.own.seededWith = key := by
  obtain ⟨sid, who, -⟩ := saying
  exact congrArg Speaker.seededWith who

/-- A question of a chat. -/
theorem ask_saying {tr : List (Request × Reply)} (q : Request)
    (early : ∀ h, Saying t id key (After Φ (ToldInPart K id)) h → B h) :
    Comp.Triple (Saying t id key (After Φ (Told K id tr))) (Chat.ask K q)
      (fun r => Saying t id key (After Φ (Told K id (tr ++ [(q, r)])))) B := by
  -- one exchange on a session that is known
  have exchange : ∀ sid, (∀ s, q.sessionId = some s → sid = s) →
      Comp.Triple (Since t ⟨id, sid, key⟩ (After Φ (Told K id tr))) (transceive K q.type q.body)
        (fun r => Saying t id key (After Φ (Told K id (tr ++ [(q, r)])))) B := by
    intro sid named
    have rule : Comp.Triple (Since t ⟨id, sid, key⟩ (After Φ (Told K id tr))) (transceive K q.type q.body)
        (fun r => Since t ⟨id, sid, key⟩ (After (After Φ (Told K id tr)) (Exchange K id ⟨sid, q.type, q.body⟩ r))) B := by
      refine transceive_since q.type q.body fun h since => early h ⟨sid, since.mono ?_⟩
      rintro es ⟨_, b, ⟨a, told, ha, hTold, rfl⟩, unanswered, rfl⟩
      exact ⟨a, told ++ b, ha, ⟨tr, _, told, b, hTold, unanswered, rfl⟩, by rw [List.append_assoc]⟩
    refine rule.conseq (fun _ since => since) (fun r h since => ⟨sid, since.mono ?_⟩) fun _ b => b
    rintro es ⟨_, ex, ⟨a, told, ha, hTold, rfl⟩, exchange, rfl⟩
    exact ⟨a, told ++ ex, ha, hTold.more named exchange, by rw [List.append_assoc]⟩
  rintro h ⟨sid, since⟩
  rw [Chat.ask]
  rcases named : q.sessionId with _ | s
  · exact exchange sid (fun s hs => by rw [named] at hs; cases hs) h since
  · simp only [transceiveOn, Io.run_modifyOwn_bind]
    obtain ⟨who, es, trace, holds⟩ := since
    refine exchange s (fun s' hs => by rw [named] at hs; exact Option.some.inj hs) _ ⟨?_, es, trace, holds⟩
    rw [speaker] at who ⊢
    simp only [Speaker.mk.injEq, true_and] at who ⊢
    exact ⟨who.1, who.2.2⟩

/-- **The rule of chats**: a chat that returns was told as its meaning says. -/
theorem chat_saying {α : Type} (chat : Chat α) (early : ∀ h, Saying t id key (After Φ (ToldInPart K id)) h → B h) :
    Comp.Triple (Saying t id key Φ) (chat.on K)
      (fun a h => ∃ tr, Script.Plays chat tr a ∧ Saying t id key (After Φ (Told K id tr)) h) B := by
  have stop : ∀ tr h, Saying t id key (After Φ (Told K id tr)) h → B h := by
    intro tr h saying
    refine early h (saying.mono ?_)
    rintro es ⟨a, b, ha, told, rfl⟩
    exact ⟨a, b, ha, ⟨tr, ⟨0, 0, []⟩, b, [], told, .inl rfl, (List.append_nil b).symm⟩, rfl⟩
  refine (Script.run_triple (P := fun tr => Saying t id key (After Φ (Told K id tr))) stop
    (fun tr q => ask_saying q early) chat []).conseq ?_ (fun a h => ?_) fun _ b => b
  · intro h saying
    exact saying.mono fun es ha => ⟨es, [], ha, .nil, (List.append_nil es).symm⟩
  · rintro ⟨tr, plays, saying⟩
    exact ⟨tr, plays, saying⟩

/-! ### Opening a connection -/

/-- A call that says nothing leaves what was said. -/
theorem Silent.triple {α : Type} {x : Io Connection α} {who : Speaker} (silent : Comp.Keeps Silent x)
    (early : ∀ h, Since t who Φ h → B h) : Comp.Triple (Since t who Φ) x (fun _ => Since t who Φ) B := by
  have same : ∀ {h h'}, Silent h h' → Since t who Φ h → Since t who Φ h' := by
    rintro h h' s ⟨spoke, es, trace, holds⟩
    obtain ⟨more, trace', mute⟩ := s.events
    refine ⟨s.speaker.trans spoke, es ++ more, by rw [trace', trace, List.append_assoc], ?_⟩
    rwa [appEvents_append, mute, List.append_nil]
  exact .of_keeps silent (fun _ _ s since _ => same s since) fun _ _ s since => early _ (same s since)

/-- A request that may have been sent, and may have been answered. -/
def Begun (K : Crates) (id : Nat) (m : AppMessage) (es : List Event) : Prop :=
  Unanswered K id m es ∨ ∃ r, Exchange K id m r es

theorem Begun.nil (m : AppMessage) : Begun K id m [] := .inl (.inl rfl)

/-- Since `t`, these messages, whoever is speaking. -/
def Heard {γ : Type} (t : List Event) (Φ : List Event → Prop) (h : Host γ) : Prop :=
  ∃ es, h.wire.trace = t ++ es ∧ Φ (appEvents es)

theorem Since.heard {who : Speaker} {Ψ : List Event → Prop} {h : Host Connection} (since : Since t who Φ h)
    (imp : ∀ es, Φ es → Ψ es) : Heard t Ψ h := by
  obtain ⟨_, es, trace, holds⟩ := since
  exact ⟨es, trace, imp _ holds⟩

/-- `end_request`, on the management session. -/
def endMessage : AppMessage := ⟨MANAGEMENT_SESSION_ID, Pairing.T_END_REQUEST, []⟩

theorem endRequest_since :
    Comp.Triple (Since t ⟨id, MANAGEMENT_SESSION_ID, key⟩ Φ) (Pairing.endRequest K)
      (fun _ => Since t ⟨id, MANAGEMENT_SESSION_ID, key⟩ (After Φ fun es => ∃ r, Exchange K id endMessage r es))
      (Heard t (After Φ (Begun K id endMessage))) := by
  refine .bind (transceive_since _ _ fun h since => since.heard ?_) fun r => .ofExcept _ (fun _ _ h since => ?_) fun h since => ?_
  · rintro es ⟨a, b, ha, hb, rfl⟩
    exact ⟨a, b, ha, .inl hb, rfl⟩
  · refine since.mono ?_
    rintro es ⟨a, b, ha, hb, rfl⟩
    exact ⟨a, b, ha, ⟨r, hb⟩, rfl⟩
  · refine since.heard ?_
    rintro es ⟨a, b, ha, hb, rfl⟩
    exact ⟨a, b, ha, .inr ⟨r, hb⟩, rfl⟩

/-- The `ThpCreateNewSession` that selects a wallet. -/
def createMessage (K : Crates) (key : WalletKey) : AppMessage :=
  ⟨SEEDED_SESSION_ID, MSG_CREATE_NEW_SESSION, K.createNewSession.encode ⟨key.1, some key.2, some false⟩⟩

/-- The device acknowledged the wallet. -/
def Acknowledged (K : Crates) (id : Nat) (key : WalletKey) (es : List Event) : Prop :=
  ∃ body, Exchange K id (createMessage K key) (MSG_SUCCESS, body) es

theorem createSeededSession_since (wallet : WalletKey) (sid : UInt8) :
    Comp.Triple (Since t ⟨id, sid, key⟩ Φ) (createSeededSession K wallet.1 wallet.2)
      (fun _ => Since t ⟨id, SEEDED_SESSION_ID, some wallet⟩ (After Φ (Acknowledged K id wallet)))
      (Heard t (After Φ (Begun K id (createMessage K wallet)))) := by
  have exchange : Comp.Triple (Since t ⟨id, SEEDED_SESSION_ID, key⟩ Φ)
      (transceive K MSG_CREATE_NEW_SESSION (K.createNewSession.encode ⟨wallet.1, some wallet.2, some false⟩))
      (fun r => Since t ⟨id, SEEDED_SESSION_ID, key⟩ (After Φ (Exchange K id (createMessage K wallet) r)))
      (Heard t (After Φ (Begun K id (createMessage K wallet)))) := by
    refine transceive_since _ _ fun h since => since.heard ?_
    rintro es ⟨a, b, ha, hb, rfl⟩
    exact ⟨a, b, ha, .inl hb, rfl⟩
  rintro h ⟨who, es, trace, holds⟩
  rw [createSeededSession, Io.run_modifyOwn_bind]
  refine Comp.Triple.bind exchange (fun r => ?_) _ ⟨?_, es, trace, holds⟩
  · by_cases success : r.1 = MSG_SUCCESS
    · simp only [success, ne_eq, not_true_eq_false, if_false]
      rintro h ⟨who, es, trace, a, b, ha, hb, said⟩
      refine ⟨?_, es, trace, a, b, ha, ⟨r.2, ?_⟩, said⟩
      · simp only [speaker, Speaker.mk.injEq] at who ⊢
        exact ⟨who.1, who.2.1, trivial⟩
      · rw [← success]
        exact hb
    · simp only [ne_eq, success, not_false_eq_true, if_true]
      refine .fail _ fun h since => since.heard ?_
      rintro es ⟨a, b, ha, hb, rfl⟩
      exact ⟨a, b, ha, .inr ⟨r, hb⟩, rfl⟩
  · simp only [speaker, Speaker.mk.injEq] at who ⊢
    exact ⟨who.1, trivial, who.2.2⟩

end Rules

/-! ## Who speaks -/

section Speakers

variable {id : Nat} {es a b : List Event}

/-- Every message is one of the connection's. -/
def OnlyOn (id : Nat) (es : List Event) : Prop := ∀ e ∈ es, e.conn? = some id

theorem OnlyOn.append (ha : OnlyOn id a) (hb : OnlyOn id b) : OnlyOn id (a ++ b) := by
  intro e member
  rcases List.mem_append.1 member with h | h
  · exact ha e h
  · exact hb e h

theorem Asked.onlyOn {m : AppMessage} (asked : Asked K id m es) : OnlyOn id es := by
  obtain ⟨buttons, pressed, rfl⟩ := asked
  have confirmed : OnlyOn id buttons := by
    induction pressed with
    | nil => exact fun _ h => absurd h List.not_mem_nil
    | more _ _ ih => exact ih.append (by simp [OnlyOn, Event.conn?])
  intro e member
  rcases List.mem_cons.1 member with rfl | later
  · rfl
  · exact confirmed e later

theorem Exchange.onlyOn {m : AppMessage} {r : Reply} (exchange : Exchange K id m r es) : OnlyOn id es := by
  obtain ⟨-, -, asked, n, sid, hAsked, rfl⟩ := exchange
  exact (Asked.onlyOn hAsked).append (by simp [OnlyOn, Event.conn?])

theorem Unanswered.onlyOn {m : AppMessage} (unanswered : Unanswered K id m es) : OnlyOn id es := by
  rcases unanswered with rfl | asked | ⟨asked, n, m', hAsked, rfl⟩
  · exact fun _ h => absurd h List.not_mem_nil
  · exact Asked.onlyOn asked
  · exact (Asked.onlyOn hAsked).append (by simp [OnlyOn, Event.conn?])

theorem Begun.onlyOn {m : AppMessage} (begun : Begun K id m es) : OnlyOn id es := by
  rcases begun with unanswered | ⟨r, exchange⟩
  · exact Unanswered.onlyOn unanswered
  · exact Exchange.onlyOn exchange

theorem Told.onlyOn {tr : List (Request × Reply)} (told : Told K id tr es) : OnlyOn id es := by
  induction told with
  | nil => exact fun _ h => absurd h List.not_mem_nil
  | more _ _ exchange ih => exact ih.append (Exchange.onlyOn exchange)

theorem ToldInPart.onlyOn (told : ToldInPart K id es) : OnlyOn id es := by
  obtain ⟨tr, m, a, b, hTold, unanswered, rfl⟩ := told
  exact (Told.onlyOn hTold).append (Unanswered.onlyOn unanswered)

end Speakers

end TrezorCore.Connection
