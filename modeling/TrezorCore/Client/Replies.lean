import TrezorCore.Client.Visits

/-!
# Replies and the requests they answer

The channel delivers the device's messages in order, so a reply is known by its place only:
the device's `j`-th final reply on a connection answers the `j`-th request. A call takes the
next reply for its own. That is right as long as every earlier request on the connection has
had its reply, and a call that is abandoned while it waits leaves one that has not.
-/

namespace TrezorCore.Client

open Connection

variable {K : Crates}

/-! ## Requests of the operations -/

/-- A request, as opposed to the confirmation of a button request. -/
def IsRequest (q : Request) : Prop := q.type ≠ MSG_BUTTON_ACK

theorem transceiveOn_asks {sessionId : UInt8} {messageType : UInt16} {protobuf : Bytes} (h : messageType ≠ MSG_BUTTON_ACK) :
    Script.Asks IsRequest (Chat.transceiveOn sessionId messageType protobuf) := .ask h fun _ => .done _

theorem expect_asks {M : Type} (reply : Reply) (expected : UInt16) (what : String) (codec : Codec M) :
    Script.Asks IsRequest (Pairing.expect reply expected what codec) :=
  .bind (.ofExcept _) fun _ => .ofExcept _

theorem signPsbtTurn_asks (psbt : Psbt) (network : Network) (s : Reply × Bitcoin.Signatures) :
    Script.Asks IsRequest (Bitcoin.signPsbtTurn K psbt network s) := by
  refine .bind (expect_asks _ _ _ _) fun req => .bind (.ofExcept _) fun ack => ?_
  cases ack with
  | none => exact .done _
  | some ack => exact .bind (.ask (show Bitcoin.BTC_TX_ACK ≠ MSG_BUTTON_ACK by decide) fun _ => .done _) fun _ => .done _

theorem signPsbt_asks (sessionId : UInt8) (psbtBase64 : String) (coinType : UInt32) :
    Script.Asks IsRequest (Bitcoin.signPsbt K sessionId psbtBase64 coinType) := by
  rw [Bitcoin.signPsbt]
  rcases K.psbtFromStr psbtBase64 with e | psbt
  · exact .fail _
  · exact .bind (.done psbt) fun psbt => .bind (transceiveOn_asks (by decide)) fun reply =>
      .bind (.loop (signPsbtTurn_asks _ _) fun _ => .done _) fun sigs => .bind (.ofExcept _) fun _ => .done _

theorem contractMessage_type {contract : TronRawContract} {m : UInt16 × Bytes} (h : Tron.contractMessage K contract = .ok m) :
    m.1 = Tron.TRON_TRANSFER_CONTRACT ∨ m.1 = Tron.TRON_TRIGGER_SMART_CONTRACT := by
  rw [Tron.contractMessage] at h
  split at h
  · generalize Pairing.decode _ _ _ = d at h
    cases d with
    | ok c =>
      cases h
      exact .inl rfl
    | error e => cases h
  · generalize Pairing.decode _ _ _ = d at h
    cases d with
    | ok c =>
      cases h
      exact .inr rfl
    | error e => cases h
  · cases h

theorem tronSignTx_asks (sessionId : UInt8) (path : List UInt32) (rawTxProto : Bytes) :
    Script.Asks IsRequest (Tron.signTx K sessionId path rawTxProto) := by
  refine .bind (.ofExcept _) fun raw => ?_
  rcases raw.contract with _ | ⟨contract, _⟩
  · exact .fail _
  · refine .ofExcept_bind fun m contracted => .bind (transceiveOn_asks (by decide)) fun _ => .bind (.ofExcept _) fun _ =>
      .bind (.ask ?_ fun _ => .done _) fun _ => .bind (expect_asks _ _ _ _) fun msg => ?_
    · rcases contractMessage_type contracted with h | h <;> simp only [IsRequest, h] <;> decide
    · show Script.Asks IsRequest (if msg.signature.length ≠ 65 then _ else _)
      split
      · exact .fail _
      · exact .done _

theorem answered_asks {α : Type} {make : α → Value} {chat : Chat α} (h : Script.Asks IsRequest chat) :
    Script.Asks IsRequest (answered make chat) := .bind h fun _ => .done _

/-- One question, and a check of the reply. -/
theorem question_asks {α : Type} {sessionId : UInt8} {messageType : UInt16} {protobuf : Bytes} {f : Reply → Chat α}
    (h : messageType ≠ MSG_BUTTON_ACK) (later : ∀ r, Script.Asks IsRequest (f r)) :
    Script.Asks IsRequest (Chat.transceiveOn sessionId messageType protobuf >>= f) := .bind (transceiveOn_asks h) later

theorem Operation.chat_asks (op : Operation) (addressN : List UInt32) : Script.Asks IsRequest (op.chat K addressN) := by
  cases op with
  | identifyPaired =>
    exact .bind (question_asks (by decide) fun _ => .bind (.ofExcept _) fun _ => .ofExcept _) fun _ => .done _
  | getAttestorPubkey => exact answered_asks (question_asks (by decide) fun _ => .bind (expect_asks _ _ _ _) fun _ => .done _)
  | signMessageEth _ =>
    refine answered_asks (question_asks (by decide) fun _ => .bind (expect_asks _ _ _ _) fun msg => ?_)
    split
    · exact .fail _
    · exact .done _
  | getBitcoinAccountXpub _ _ _ _ =>
    refine answered_asks (question_asks (by decide) fun _ => .bind (expect_asks _ _ _ _) fun pk => ?_)
    split
    · exact .fail _
    · exact .done _
  | getBitcoinMasterFingerprint _ =>
    refine answered_asks (question_asks (by decide) fun _ => .bind (expect_asks _ _ _ _) fun pk => ?_)
    split
    · exact .done _
    · exact .fail _
  | signPsbt _ _ _ => exact answered_asks (signPsbt_asks _ _ _)
  | signBitcoinMessage _ _ _ _ =>
    exact answered_asks (question_asks (by decide) fun _ => .bind (expect_asks _ _ _ _) fun _ => .done _)
  | getEthereumAddress _ _ _ =>
    refine answered_asks (question_asks (by decide) fun _ => .bind (expect_asks _ _ _ _) fun msg => ?_)
    split
    · exact .done _
    · exact .fail _
  | signEthereumTx _ _ _ _ =>
    refine answered_asks (.bind (.ofExcept _) fun tx => question_asks (by decide) fun _ => .bind (expect_asks _ _ _ _) fun req => ?_)
    split
    · exact .done _
    · exact .fail _
  | signEthereumMessage _ _ _ _ =>
    refine answered_asks (question_asks (by decide) fun _ => .bind (expect_asks _ _ _ _) fun msg => ?_)
    split
    · exact .fail _
    · exact .done _
  | getSolanaAddress _ _ _ =>
    refine answered_asks (question_asks (by decide) fun _ => .bind (expect_asks _ _ _ _) fun msg => ?_)
    split
    · exact .fail _
    · exact .done _
  | signSolanaTx _ _ _ _ =>
    exact answered_asks (question_asks (by decide) fun _ => .bind (expect_asks _ _ _ _) fun _ => .ofExcept _)
  | signSolanaMessage _ _ _ _ =>
    exact answered_asks (question_asks (by decide) fun _ => .bind (expect_asks _ _ _ _) fun _ => .ofExcept _)
  | getTronAddress _ _ _ =>
    refine answered_asks (question_asks (by decide) fun _ => .bind (expect_asks _ _ _ _) fun msg => ?_)
    split
    · exact .fail _
    · exact .done _
  | signTronTx _ _ _ _ => exact answered_asks (tronSignTx_asks _ _ _)

/-! ## Requests and final replies in a history -/

/-- The requests on a connection; confirmations of button requests are none. -/
def requests (id : Nat) (es : List Event) : List AppMessage := es.filterMap fun
  | .appOut id' m => if id' = id ∧ m.type ≠ MSG_BUTTON_ACK then some m else none
  | _ => none

/-- The final replies on a connection; button requests are none. -/
def finals (id : Nat) (es : List Event) : List AppMessage := es.filterMap fun
  | .appIn id' _ m => if id' = id ∧ m.type ≠ MSG_BUTTON_REQUEST then some m else none
  | _ => none

/-- A device: its final reply to a request, given the requests up to that one. -/
abbrev Device := Nat → List AppMessage → AppMessage

/-- Every final reply is the device's to the request in its place. -/
def Honest (device : Device) (t : List Event) : Prop :=
  ∀ pre id n m post, t = pre ++ .appIn id n m :: post → m.type ≠ MSG_BUTTON_REQUEST →
    (finals id pre).length < (requests id pre).length ∧ m = device id ((requests id pre).take ((finals id pre).length + 1))

/-- The reply is the device's to this very request, which is one of `es`, after `t`. -/
def OwnReply (device : Device) (id : Nat) (t es : List Event) (q : Request) (r : Reply) : Prop :=
  ∃ pre m post, es = pre ++ .appOut id m :: post ∧ m.type = q.type ∧ m.body = q.body ∧
    r = ((device id (requests id (t ++ pre) ++ [m])).type, (device id (requests id (t ++ pre) ++ [m])).body)

/-- The value comes from the replies to the call's own requests. -/
def FromOwnReplies (K : Crates) (device : Device) (c : Call) (h0 h : Host Slot) (v : Value) : Prop :=
  ∃ addressN tr id es, c.op.addressN = .ok addressN ∧ Script.Plays (c.op.chat K addressN) tr (.ok v) ∧
    h.wire.trace = h0.wire.trace ++ es ∧ ∀ p ∈ tr, OwnReply device id h0.wire.trace es p.1 p.2

section History

variable {device : Device} {id : Nat} {t es a b : List Event}

@[simp] theorem requests_append (id : Nat) (a b : List Event) : requests id (a ++ b) = requests id a ++ requests id b :=
  List.filterMap_append

@[simp] theorem finals_append (id : Nat) (a b : List Event) : finals id (a ++ b) = finals id a ++ finals id b :=
  List.filterMap_append

@[simp] theorem requests_appEvents (id : Nat) (es : List Event) : requests id (appEvents es) = requests id es := by
  rw [requests, appEvents, List.filterMap_filter]
  refine List.filterMap_congr fun e _ => ?_
  cases e <;> rfl

@[simp] theorem finals_appEvents (id : Nat) (es : List Event) : finals id (appEvents es) = finals id es := by
  rw [finals, appEvents, List.filterMap_filter]
  refine List.filterMap_congr fun e _ => ?_
  cases e <;> rfl

/-- A message in the history of messages is one of the whole history. -/
theorem split_appEvents {pre post : List Event} {e : Event} (said : appEvents es = pre ++ e :: post) :
    ∃ pre' post', es = pre' ++ e :: post' ∧ appEvents pre' = pre := by
  obtain ⟨first, later, rfl, before, rest⟩ := List.filter_eq_append_iff.1 said
  obtain ⟨skipped, post', rfl, quiet, -, -⟩ := List.filter_eq_cons_iff.1 rest
  refine ⟨first ++ skipped, post', by rw [List.append_assoc], ?_⟩
  have none : appEvents skipped = [] := List.filter_eq_nil_iff.2 quiet
  rw [appEvents_append, none, List.append_nil]
  exact before

theorem honest_appEvents : Honest device (appEvents t) ↔ Honest device t := by
  constructor
  · rintro honest pre id n m post rfl final
    have place := honest (appEvents pre) id n m (appEvents post) (by rw [appEvents_append]; rfl) final
    rwa [requests_appEvents, finals_appEvents] at place
  · intro honest pre id n m post said final
    obtain ⟨pre', post', rfl, rfl⟩ := split_appEvents said
    rw [requests_appEvents, finals_appEvents]
    exact honest pre' id n m post' rfl final

theorem Honest.of_append (honest : Honest device (a ++ b)) : Honest device a := by
  rintro pre id n m post rfl final
  exact honest pre id n m (post ++ b) (by simp) final

/-- Every request so far has had its final reply. -/
def Balanced (id : Nat) (t : List Event) : Prop := (requests id t).length = (finals id t).length

/-- A request with its confirmations is one request. -/
theorem Asked.counts {m : AppMessage} (request : m.type ≠ MSG_BUTTON_ACK) (asked : Asked K id m es) :
    requests id es = [m] ∧ finals id es = [] := by
  obtain ⟨buttons, pressed, rfl⟩ := asked
  have quiet : requests id buttons = [] ∧ finals id buttons = [] := by
    induction pressed with
    | nil => exact ⟨rfl, rfl⟩
    | more _ button ih =>
      rw [requests_append, finals_append, ih.1, ih.2]
      simp [requests, finals, button]
  constructor
  · show requests id ([_] ++ buttons) = _
    rw [requests_append, quiet.1]
    simp [requests, request]
  · show finals id ([_] ++ buttons) = _
    rw [finals_append, quiet.2]
    rfl

/-- An exchange is one request and one final reply. -/
theorem Exchange.counts {m : AppMessage} {r : Reply} (request : m.type ≠ MSG_BUTTON_ACK) (exchange : Exchange K id m r es) :
    requests id es = [m] ∧ (finals id es).length = 1 := by
  obtain ⟨button, -, asked, n, sid, hAsked, rfl⟩ := exchange
  obtain ⟨one, none⟩ := Asked.counts request hAsked
  rw [requests_append, finals_append, one, none]
  simp [requests, finals, button]

theorem Balanced.exchange {m : AppMessage} {r : Reply} (balanced : Balanced id t) (request : m.type ≠ MSG_BUTTON_ACK)
    (exchange : Exchange K id m r es) : Balanced id (t ++ es) := by
  obtain ⟨one, final⟩ := Exchange.counts request exchange
  rw [Balanced, requests_append, finals_append, List.length_append, List.length_append, one, final, balanced]
  rfl

theorem Balanced.told {tr : List (Request × Reply)} (balanced : Balanced id t) (told : Told K id tr es)
    (asks : ∀ p ∈ tr, IsRequest p.1) : Balanced id (t ++ es) := by
  induction told with
  | nil => rwa [List.append_nil]
  | more _ _ exchange ih =>
    rw [← List.append_assoc]
    refine (ih fun p hp => asks p (List.mem_append_left _ hp)).exchange ?_ exchange
    exact asks _ (List.mem_append_right _ List.mem_cons_self)

theorem OwnReply.append {q : Request} {r : Reply} (own : OwnReply device id t es q r) (more : List Event) :
    OwnReply device id t (es ++ more) q r := by
  obtain ⟨pre, m, post, rfl, type, body, reply⟩ := own
  exact ⟨pre, m, post ++ more, by simp, type, body, reply⟩

/-- The reply of an exchange is to its own request, if all earlier requests have had theirs. -/
theorem Exchange.own {q : Request} {r : Reply} {sid : UInt8} {ex : List Event} (request : IsRequest q)
    (balanced : Balanced id (t ++ es)) (exchange : Exchange K id ⟨sid, q.type, q.body⟩ r ex)
    (honest : Honest device (t ++ (es ++ ex))) : OwnReply device id t (es ++ ex) q r := by
  obtain ⟨button, -, asked, n, sid', hAsked, rfl⟩ := exchange
  obtain ⟨one, none⟩ := Asked.counts (show (⟨sid, q.type, q.body⟩ : AppMessage).type ≠ MSG_BUTTON_ACK from request) hAsked
  have place := (honest (t ++ es ++ asked) id n ⟨sid', r.1, r.2⟩ [.exchanged id r.1 r.2] (by simp) button).2
  rw [requests_append id (t ++ es), finals_append id (t ++ es), one, none, List.append_nil, ← balanced,
    List.take_of_length_le (by rw [List.length_append]; rfl)] at place
  obtain ⟨buttons, -, rfl⟩ := hAsked
  refine ⟨es, ⟨sid, q.type, q.body⟩, buttons ++ [.appIn id n ⟨sid', r.1, r.2⟩, .exchanged id r.1 r.2], by simp, rfl, rfl, ?_⟩
  rw [← place]

/-- So every reply of a chat is. -/
theorem Told.own {tr : List (Request × Reply)} (balanced : Balanced id t) (told : Told K id tr es)
    (asks : ∀ p ∈ tr, IsRequest p.1) (honest : Honest device (t ++ es)) :
    ∀ p ∈ tr, OwnReply device id t es p.1 p.2 := by
  induction told with
  | nil => exact fun _ h => absurd h List.not_mem_nil
  | @more tr es ex q r sid told _ exchange ih =>
    have before : ∀ p ∈ tr, IsRequest p.1 := fun p hp => asks p (List.mem_append_left _ hp)
    intro p hp
    rcases List.mem_append.1 hp with hp | hp
    · rw [← List.append_assoc] at honest
      exact (ih before honest.of_append p hp).append ex
    · cases List.mem_singleton.1 hp
      exact Exchange.own (asks (q, r) (List.mem_append_right _ List.mem_cons_self)) (balanced.told told before) exchange honest

end History

/-! ## The slot between two calls -/

/-- The connections in the history are known, and every request on the pinned one has had its
final reply. -/
structure Settled (h : Host Slot) : Prop where
  known : ∀ e ∈ h.wire.trace, ∀ id, e.conn? = some id → id < h.wire.connections
  slot : ∀ conn, h.own = some conn → conn.id < h.wire.connections ∧ Balanced conn.id h.wire.trace

/-- The call is not abandoned on a pinned connection: it returns, or it ends while it is still
opening its connection, which is then in no slot. -/
def settles (K : Crates) (c : Call) (h : Host Slot) : Prop :=
  returns K c h ∨ ∀ h', (ensureConn K c.hostStaticPriv c.credential c.op.spec).run h ≠ (.ok (), h')

section Visit

variable {h0 : Host Slot} {key : WalletKey} {id n : Nat} {es a : List Event}

/-- Nothing has been said on a connection to come. -/
theorem Settled.unheard (settled : Settled h0) :
    requests h0.wire.connections h0.wire.trace = [] ∧ finals h0.wire.connections h0.wire.trace = [] := by
  constructor
  · refine List.filterMap_eq_nil_iff.2 fun e member => ?_
    cases e with
    | appOut id m =>
      have older : id < h0.wire.connections := settled.known _ member id rfl
      simp [Nat.ne_of_lt older]
    | _ => rfl
  · refine List.filterMap_eq_nil_iff.2 fun e member => ?_
    cases e with
    | appIn id _ m =>
      have older : id < h0.wire.connections := settled.known _ member id rfl
      simp [Nat.ne_of_lt older]
    | _ => rfl

/-- The connection a call runs on has had all its replies when the call's own chat begins. -/
theorem Began.balanced (settled : Settled h0) (began : Began K h0 key id n a) :
    Balanced id (appEvents h0.wire.trace ++ a) ∧ OnlyOn id a ∧ id < n ∧ h0.wire.connections ≤ n := by
  cases began with
  | @reused conn slot seeded =>
    obtain ⟨older, balanced⟩ := settled.slot conn slot
    refine ⟨?_, fun _ h => absurd h List.not_mem_nil, older, le_rfl⟩
    rwa [List.append_nil, Balanced, requests_appEvents, finals_appEvents]
  | opened _ opened =>
    obtain ⟨noRequest, noFinal⟩ := settled.unheard
    have fresh : Balanced h0.wire.connections (appEvents h0.wire.trace) := by
      rw [Balanced, requests_appEvents, finals_appEvents, noRequest, noFinal]
    refine ⟨?_, opened.inPart.onlyOn, Nat.lt_succ_self _, Nat.le_succ _⟩
    obtain ⟨ended, created, ⟨r, exchange⟩, ⟨body, acknowledged⟩, rfl⟩ := opened
    rw [← List.append_assoc]
    refine (fresh.exchange ?_ exchange).exchange ?_ acknowledged
    · show Pairing.T_END_REQUEST ≠ MSG_BUTTON_ACK
      decide
    · show MSG_CREATE_NEW_SESSION ≠ MSG_BUTTON_ACK
      decide

/-- Messages on a known connection leave the connections known. -/
theorem known_append (known : ∀ e ∈ h0.wire.trace, ∀ id, e.conn? = some id → id < h0.wire.connections)
    (grows : h0.wire.connections ≤ n) (own : OnlyOn id (appEvents es)) (new : id < n) :
    ∀ e ∈ h0.wire.trace ++ es, ∀ id, e.conn? = some id → id < n := by
  intro e member id' conn
  rcases List.mem_append.1 member with before | later
  · exact lt_of_lt_of_le (known e before id' conn) grows
  · have app : e.isApp = true := by cases e <;> first | rfl | cases conn
    rw [own e (List.mem_filter.2 ⟨later, app⟩)] at conn
    cases conn
    exact new

theorem Running.known {Φ : Nat → List Event → Prop} {conn : Connection} {w : Wire} (settled : Settled h0)
    (speaks : ∀ id es, Φ id es → OnlyOn id es) (running : Running K h0 key Φ conn w) :
    conn.id < w.connections ∧ ∀ e ∈ w.trace, ∀ id, e.conn? = some id → id < w.connections := by
  obtain ⟨n, rfl, sid, -, es, trace, a, b, began, told, said⟩ := running
  obtain ⟨-, own, new, grows⟩ := began.balanced settled
  refine ⟨new, ?_⟩
  rw [show w.trace = h0.wire.trace ++ es from trace]
  exact known_append settled.known grows (said ▸ own.append (speaks _ _ told)) new

/-- A connection that was never opened is in no slot. -/
theorem unfinished_none {c : Call} {addressN : List UInt32} (parses : c.op.addressN = .ok addressN)
    (unfinished : ∀ h', (ensureConn K c.hostStaticPriv c.credential c.op.spec).run h0 ≠ (.ok (), h')) :
    ((c.run K).run h0).2.own = none := by
  rcases reuse : reusable h0.own c.op.spec.walletKey with _ | conn
  · have opening := openInto_told (K := K) c.op.spec.walletKey c.hostStaticPriv c.credential h0.wire ⟨none, h0.wire⟩ rfl
    rw [ensureConn_open reuse] at unfinished
    rw [Call.run_eq, parses, Comp.ofExcept_ok, Comp.pure_bind, pinned, Comp.bind_assoc]
    simp only [Comp.run_bind, clearing, Comp.onErr, ensureConn_open reuse]
    rcases ended : (openInto K c.hostStaticPriv c.credential c.op.spec.walletKey).run ⟨none, h0.wire⟩ with
      ⟨_ | _ | _ | _, h'⟩ <;> rw [ended] at opening
    · exact absurd ended (unfinished h')
    · exact opening.1
    · exact opening.1
  · exact absurd (ensureConn_reuse reuse) (unfinished h0)

/-- **One call** that is not abandoned on the pinned connection settles the slot. -/
theorem visit_settled {c : Call} (settled : Settled h0) (allowed : settles K c h0) : Settled ((c.run K).run h0).2 := by
  have ended := visited K c h0
  have empty : ∀ addressN, c.op.addressN = .ok addressN → ¬ returns K c h0 → ((c.run K).run h0).2.own = none := by
    intro addressN parses notReturned
    exact unfinished_none parses (allowed.resolve_left notReturned)
  rw [returns] at empty
  generalize (c.run K).run h0 = r at ended empty ⊢
  cases ended with
  | refused e _ => exact settled
  | @told addressN conn tr x h parses plays slot running =>
    have same : ((Comp.ofExcept x : Io Slot Value).run h).2 = h := by cases x <;> rfl
    rw [same]
    obtain ⟨new, known⟩ := running.known settled fun _ _ => Told.onlyOn
    refine ⟨known, fun conn' slot' => ?_⟩
    rw [slot] at slot'
    cases slot'
    refine ⟨new, ?_⟩
    obtain ⟨n, -, sid, -, es, trace, a, b, began, told, said⟩ := running
    have balanced := (began.balanced settled).1.told told ((c.op.chat_asks addressN).of_plays plays)
    rw [List.append_assoc, ← said, ← appEvents_append, ← trace, Balanced, requests_appEvents, finals_appEvents] at balanced
    exact balanced
  | @cut addressN r h parses cut noValue onErr =>
    have none : h.own = none := by
      cases r with
      | ok v => cases noValue
      | err e => exact onErr e rfl
      | panicked => exact empty addressN parses (by simp)
      | dropped => exact empty addressN parses (by simp)
    have known : ∀ e ∈ h.wire.trace, ∀ id, e.conn? = some id → id < h.wire.connections := by
      cases cut with
      | opening _ abandoned =>
        obtain ⟨-, same | ⟨count, es, trace, opened⟩⟩ := abandoned
        · rw [same]
          exact settled.known
        · rw [trace, count]
          exact known_append settled.known (Nat.le_succ _) opened.onlyOn (Nat.lt_succ_self _)
      | speaking _ running => exact (running.known settled fun _ _ => ToldInPart.onlyOn).2
    refine ⟨known, fun conn slot => ?_⟩
    rw [show h.own = some conn from slot] at none
    cases none

theorem Reached.settled {h : Host Slot} (reached : Reached K (settles K) h) : Settled h := by
  induction reached with
  | @start h empty new =>
    refine ⟨fun e member => ?_, fun conn slot => ?_⟩
    · rw [new] at member
      cases member
    · rw [empty] at slot
      cases slot
  | @call h c inbox _ allowed ih =>
    have settled : Settled (facing inbox h) := ⟨ih.known, ih.slot⟩
    exact visit_settled settled allowed

/-- A value of a call on a settled slot comes from replies to the call's own requests. -/
theorem visit_own {device : Device} {c : Call} {v : Value} {h : Host Slot} (settled : Settled h0)
    (run : (c.run K).run h0 = (.ok v, h)) (honest : Honest device h.wire.trace) : FromOwnReplies K device c h0 h v := by
  have ended := visited K c h0
  rw [run] at ended
  generalize result : ((.ok v, h) : Outcome TrezorError Value × Host Slot) = r at ended
  cases ended with
  | refused e _ => cases result
  | @told addressN conn tr x h' parses plays _ running =>
    cases x with
    | error e => cases result
    | ok v' =>
      cases result
      obtain ⟨n, -, sid, -, es, trace, a, b, began, told, said⟩ := running
      have trace : h.wire.trace = h0.wire.trace ++ es := trace
      have asks := (c.op.chat_asks addressN).of_plays plays
      have heard : Honest device (appEvents h0.wire.trace ++ a ++ b) := by
        rw [List.append_assoc, ← said, ← appEvents_append, ← trace]
        exact honest_appEvents.2 honest
      have own := Told.own (began.balanced settled).1 told asks heard
      refine ⟨addressN, tr, conn.id, es, parses, plays, trace, fun p hp => ?_⟩
      obtain ⟨pre, m, post, split, type, body, reply⟩ := own p hp
      -- the request among the messages of the call is one of its events
      have here : appEvents es = (a ++ pre) ++ .appOut conn.id m :: post := by
        rw [said, split, List.append_assoc]
      obtain ⟨pre', post', whole, before⟩ := split_appEvents here
      refine ⟨pre', m, post', whole, type, body, ?_⟩
      have same : requests conn.id (h0.wire.trace ++ pre') = requests conn.id (appEvents h0.wire.trace ++ a ++ pre) := by
        rw [List.append_assoc, ← before, ← appEvents_append, requests_appEvents]
      rw [same]
      exact reply
  | @cut _ r h' _ _ noValue _ =>
    cases result
    cases noValue

end Visit

/-- **Replies and requests.** In a run in which no call is abandoned on a pinned connection, on a
device that answers every request once and in order, every value a call returns comes from the
replies to that call's own requests. -/
theorem replies_to_own_requests (K : Crates) (device : Device) (h : Host Slot) (reached : Reached K (settles K) h) (c : Call)
    (inbox : List (Except TrezorTransportError Bytes)) (v : Value) (h' : Host Slot)
    (run : (c.run K).run (facing inbox h) = (.ok v, h')) (honest : Honest device h'.wire.trace) :
    FromOwnReplies K device c h h' v := by
  have settled : Settled (facing inbox h) := ⟨reached.settled.known, reached.settled.slot⟩
  have own : FromOwnReplies K device c (facing inbox h) h' v := visit_own settled run honest
  exact own

/-! ### An abandoned call -/

/-- Does a final reply, coming after `seen`, come from the device? -/
def checkReply (device : Device) (seen : List Event) : Event → Bool
  | .appIn conn _ m => m.type == MSG_BUTTON_REQUEST || ((finals conn seen).length < (requests conn seen).length &&
      m == device conn ((requests conn seen).take ((finals conn seen).length + 1)))
  | _ => true

/-- Do all in the rest of a history? -/
def checkHonest (device : Device) : List Event → List Event → Bool
  | _, [] => true
  | seen, e :: rest => checkReply device seen e && checkHonest device (seen ++ [e]) rest

theorem honest_of_check {device : Device} (seen rest : List Event) (ok : checkHonest device seen rest = true) :
    ∀ pre id n m post, rest = pre ++ .appIn id n m :: post → m.type ≠ MSG_BUTTON_REQUEST →
      (finals id (seen ++ pre)).length < (requests id (seen ++ pre)).length ∧
        m = device id ((requests id (seen ++ pre)).take ((finals id (seen ++ pre)).length + 1)) := by
  induction rest generalizing seen with
  | nil =>
    intro pre id n m post split
    simp at split
  | cons e rest ih =>
    rw [checkHonest, Bool.and_eq_true] at ok
    intro pre id n m post split final
    cases pre with
    | nil =>
      obtain ⟨rfl, rfl⟩ := List.cons.inj split
      rw [List.append_nil]
      simpa [checkReply, final] using ok.1
    | cons e' pre =>
      obtain ⟨rfl, rfl⟩ := List.cons.inj split
      have later := ih (seen ++ [e]) ok.2 pre id n m post rfl final
      rwa [List.append_assoc] at later

/-- The body of a question for an address. -/
def accountBody (account : UInt32) : Bytes :=
  Crates.wallets.ethereumGetAddress.encode ⟨Ethereum.accountPath account, some false⟩

/-- A device with three addresses. -/
def threeAddresses : Device := fun _ asked =>
  match asked.getLast? with
  | none => ⟨0, MSG_FAILURE, []⟩
  | some m =>
    if m.type = Pairing.T_END_REQUEST then ⟨0, Pairing.T_END_RESPONSE, []⟩
    else if m.type = MSG_CREATE_NEW_SESSION then ⟨1, MSG_SUCCESS, []⟩
    else if m.body = accountBody 0 then addressAnswer "0xA"
    else if m.body = accountBody 1 then addressAnswer "0xB"
    else addressAnswer "0xC"

/-- A second call, for account 1, is abandoned when its request has been acknowledged. -/
def afterAbandoned : Host Slot :=
  (((addressCall 1).run Crates.wallets).run
    (facing (packetsOf ((answerFrames 3 (addressAnswer "0xB")).take 1)) afterFirst)).2

/-- Its reply arrives during the third call. -/
def lateReply : List (Except TrezorTransportError Bytes) := packetsOf ((answerFrames 3 (addressAnswer "0xB")).drop 1)

/-- The device has only one answer to a question for account 2. -/
theorem threeAddresses_two (id : Nat) (asked : List AppMessage) {m : AppMessage} (type : m.type = Ethereum.ETH_GET_ADDRESS)
    (body : m.body = accountBody 2) : threeAddresses id (asked ++ [m]) = addressAnswer "0xC" := by
  have last : (asked ++ [m]).getLast? = some m := List.getLast?_concat
  have other : Ethereum.ETH_GET_ADDRESS ≠ Pairing.T_END_REQUEST ∧ Ethereum.ETH_GET_ADDRESS ≠ MSG_CREATE_NEW_SESSION := by decide
  have account : accountBody 2 ≠ accountBody 0 ∧ accountBody 2 ≠ accountBody 1 := by decide
  rw [threeAddresses, last]
  simp only [type, body, if_neg other.1, if_neg other.2, if_neg account.1, if_neg account.2]

/-- A call for account 2 that goes by its own reply returns the third address. -/
theorem own_address {h0 h : Host Slot} {v : Value}
    (own : FromOwnReplies Crates.wallets threeAddresses (addressCall 2) h0 h v) : v = .text "0xC" := by
  obtain ⟨addressN, tr, id, es, parses, plays, -, own⟩ := own
  have path : Ethereum.accountPath 2 = addressN := Except.ok.inj parses
  subst path
  cases plays with
  | @ask _ _ _ r rest _ later =>
    obtain ⟨pre, m, post, -, type, body, reply⟩ := own _ List.mem_cons_self
    rw [threeAddresses_two _ _ type body] at reply
    have reply : r = ((addressAnswer "0xC").type, (addressAnswer "0xC").body) := reply
    subst reply
    have decoded : Script.Plays (.done (.ok (.text "0xC")) : Chat (Except TrezorError Value)) rest (.ok v) := later
    cases decoded
    rfl

/-- The third call returns the address of the second. -/
theorem late_reply_run :
    (((addressCall 2).run Crates.wallets).run (facing lateReply afterAbandoned)).1 = .ok (.text "0xB") ∧
    checkHonest threeAddresses []
      (appEvents (((addressCall 2).run Crates.wallets).run (facing lateReply afterAbandoned)).2.wire.trace) = true := by
  decide +kernel

/-- After an abandoned call, the next one returns the reply to it. -/
theorem late_reply_taken :
    Reached Crates.wallets anyhow afterAbandoned ∧
    ∃ h', ((addressCall 2).run Crates.wallets).run (facing lateReply afterAbandoned) = (.ok (.text "0xB"), h') ∧
      Honest threeAddresses h'.wire.trace ∧
      ¬ FromOwnReplies Crates.wallets threeAddresses (addressCall 2) afterAbandoned h' (.text "0xB") := by
  obtain ⟨value, checked⟩ := late_reply_run
  have reached : Reached Crates.wallets anyhow afterAbandoned := by
    rw [afterAbandoned]
    exact .call _ _ afterFirst_reached trivial
  refine ⟨reached, _, Comp.run_of_outcome value, ?_, fun own => ?_⟩
  · exact honest_appEvents.1 (honest_of_check [] _ checked)
  · exact absurd (own_address own) (by decide)

/-- The same question with nothing abandoned before it. -/
def promptReply : List (Except TrezorTransportError Bytes) := packetsOf (answerFrames 3 (addressAnswer "0xC"))

theorem prompt_reply_run :
    (((addressCall 2).run Crates.wallets).run (facing promptReply afterFirst)).1 = .ok (.text "0xC") ∧
    checkHonest threeAddresses []
      (appEvents (((addressCall 2).run Crates.wallets).run (facing promptReply afterFirst)).2.wire.trace) = true := by
  decide +kernel

theorem replies_to_own_requests_sample :
    ∃ h', ((addressCall 2).run Crates.wallets).run (facing promptReply afterFirst) = (.ok (.text "0xC"), h') ∧
      FromOwnReplies Crates.wallets threeAddresses (addressCall 2) afterFirst h' (.text "0xC") := by
  obtain ⟨value, checked⟩ := prompt_reply_run
  have reached : Reached Crates.wallets (settles Crates.wallets) afterFirst := by
    rw [afterFirst]
    exact .call _ _ (.start rfl rfl) (.inl (.inl ⟨_, firstCall_run.1⟩))
  refine ⟨_, Comp.run_of_outcome value, ?_⟩
  exact replies_to_own_requests Crates.wallets threeAddresses afterFirst reached (addressCall 2) promptReply _ _
    (Comp.run_of_outcome value) (honest_appEvents.1 (honest_of_check [] _ checked))

end TrezorCore.Client
