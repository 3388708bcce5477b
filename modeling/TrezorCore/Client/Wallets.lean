import TrezorCore.Client.Visits

/-!
# Wallets

Which wallet answers a seed-deriving message is decided by the session the device was asked
to create on the connection. Over every run of a client, a message on the seeded session
goes out only on a connection on which the device has acknowledged the very wallet the call
was made for.
-/

namespace TrezorCore.Client

open Connection

variable {K : Crates} {t es a b : List Event} {id : Nat} {key : WalletKey}

/-! ## Messages on the seeded session -/

/-- The device has acknowledged the wallet on the connection. -/
def Seeded (K : Crates) (id : Nat) (key : WalletKey) (t : List Event) : Prop :=
  ∃ a ex b, appEvents t = a ++ ex ++ b ∧ Acknowledged K id key ex

/-- Why a message may go out on the seeded session after `t`: it creates the session, it confirms
a button request of that, or the session is the wallet's. -/
inductive Authorised (K : Crates) (key : WalletKey) (t : List Event) (id : Nat) (m : AppMessage) : Prop where
  | creates : m = createMessage K key → Authorised K key t id m
  | confirms {a asked : List Event} {n : UInt64} {button : AppMessage} : m.type = MSG_BUTTON_ACK →
      button.type = MSG_BUTTON_REQUEST → Asked K id (createMessage K key) asked →
      appEvents t = a ++ asked ++ [.appIn id n button] → Authorised K key t id m
  | seeded : Seeded K id key t → Authorised K key t id m

/-- Every message of `es` on the seeded session is authorised, coming after `t`. -/
def Proper (K : Crates) (key : WalletKey) (t es : List Event) : Prop :=
  ∀ pre id m post, es = pre ++ .appOut id m :: post → m.sessionId = SEEDED_SESSION_ID → Authorised K key (t ++ pre) id m

theorem Seeded.append (seeded : Seeded K id key t) (es : List Event) : Seeded K id key (t ++ es) := by
  obtain ⟨a, ex, b, said, acknowledged⟩ := seeded
  exact ⟨a, ex, b ++ appEvents es, by rw [appEvents_append, said, List.append_assoc], acknowledged⟩

/-- Only the application's messages count. -/
theorem Authorised.congr {t' : List Event} {m : AppMessage} (same : appEvents t = appEvents t')
    (ok : Authorised K key t id m) : Authorised K key t' id m := by
  cases ok with
  | creates create => exact .creates create
  | confirms type request asked said => exact .confirms type request asked (same ▸ said)
  | seeded seeded =>
    obtain ⟨a, ex, b, said, acknowledged⟩ := seeded
    exact .seeded ⟨a, ex, b, same ▸ said, acknowledged⟩

theorem appEvents_appEvents (es : List Event) : appEvents (appEvents es) = appEvents es := by
  simp [appEvents, List.filter_filter]

namespace Proper

theorem nil : Proper K key t [] := by
  intro pre id m post split
  simp at split

theorem append (ha : Proper K key t a) (hb : Proper K key (t ++ a) b) : Proper K key t (a ++ b) := by
  intro pre id m post split on
  rcases List.append_eq_append_iff.1 split with ⟨more, rfl, rest⟩ | ⟨more, first, rest⟩
  · rw [← List.append_assoc]
    exact hb more id m post rest on
  · cases more with
    | nil =>
      rw [List.append_nil] at first
      subst first
      have := hb [] id m post rest.symm on
      rwa [List.append_nil] at this
    | cons e more =>
      obtain ⟨rfl, -⟩ := List.cons.inj rest
      exact ha pre id m more first on

/-- What is proper of the messages is proper of the whole. -/
theorem of_appEvents (proper : Proper K key t (appEvents es)) : Proper K key t es := by
  rintro pre id m post rfl on
  refine (proper (appEvents pre) id m (appEvents post) ?_ on).congr ?_
  · rw [appEvents_append]
    rfl
  · rw [appEvents_append, appEvents_append, appEvents_appEvents]

theorem of_seeded (seeded : Seeded K id key t) (own : OnlyOn id es) : Proper K key t es := by
  rintro pre id' m post rfl -
  cases own (.appOut id' m) (List.mem_append_right _ List.mem_cons_self)
  exact .seeded (seeded.append pre)

/-- One event that is no message of the seeded session. -/
theorem of_other {e : Event} (other : ∀ id m, e = .appOut id m → m.sessionId ≠ SEEDED_SESSION_ID) : Proper K key t [e] := by
  intro pre id m post split on
  have member : (.appOut id m : Event) ∈ [e] := split ▸ List.mem_append_right _ List.mem_cons_self
  exact absurd on (other id m (List.mem_singleton.1 member).symm)

theorem of_incoming {e : Event} (incoming : ∀ id m, e ≠ .appOut id m) : Proper K key t [e] :=
  of_other fun id m same => absurd same (incoming id m)

end Proper

theorem Asked.app {m : AppMessage} (asked : Asked K id m es) : appEvents es = es := by
  obtain ⟨buttons, pressed, rfl⟩ := asked
  have app : appEvents buttons = buttons := by
    induction pressed with
    | nil => rfl
    | more _ _ ih =>
      rw [appEvents_append, ih]
      rfl
  show _ :: appEvents buttons = _
  rw [app]

/-- Creating the session, with its confirmations, is proper. -/
theorem Asked.proper (asked : Asked K id (createMessage K key) es) : Proper K key t es := by
  obtain ⟨buttons, pressed, rfl⟩ := asked
  induction pressed with
  | nil =>
    intro pre id' m post split _
    cases pre with
    | nil =>
      cases split
      exact .creates rfl
    | cons e pre => simp at split
  | @more buttons n button pressed request ih =>
    have before : Asked K id (createMessage K key) (.appOut id (createMessage K key) :: buttons) := ⟨buttons, pressed, rfl⟩
    refine Proper.append ih (Proper.append (Proper.of_incoming (by simp)) ?_)
    intro pre id' m post split _
    cases pre with
    | nil =>
      cases split
      refine .confirms (a := appEvents t) (n := n) rfl request before ?_
      rw [List.append_nil, appEvents_append, appEvents_append, Asked.app before]
      rfl
    | cons e pre => simp at split

/-- A request on another session is proper, and so are its confirmations. -/
theorem Asked.proper_of_other {m : AppMessage} (other : m.sessionId ≠ SEEDED_SESSION_ID) (asked : Asked K id m es) :
    Proper K key t es := by
  have one : ∀ {t : List Event} {m' : AppMessage}, m'.sessionId = m.sessionId → Proper K key t [.appOut id m'] := by
    intro t m' same
    refine .of_other fun id' m'' out => ?_
    cases out
    rwa [same]
  obtain ⟨buttons, pressed, rfl⟩ := asked
  induction pressed with
  | nil => exact one rfl
  | @more _ n button _ _ ih =>
    have request : ∀ t, Proper K key t [.appIn id n button] := fun t => .of_incoming (by simp)
    exact ih.append ((request _).append (one rfl))

/-- A request that is proper stays so with what comes in on it. -/
theorem Begun.proper {m : AppMessage} (proper : ∀ es, Asked K id m es → Proper K key t es) (begun : Begun K id m es) :
    Proper K key t es := by
  rcases begun with (rfl | asked | ⟨asked, n, m, hAsked, rfl⟩) | ⟨r, -, -, asked, n, sid, hAsked, rfl⟩
  · exact .nil
  · exact proper _ asked
  · exact (proper _ hAsked).append (.of_incoming (by simp))
  · exact (proper _ hAsked).append (Proper.append (.of_incoming (by simp)) (.of_incoming (by simp)) : Proper K key _ [_, _])

/-! ## The invariant of the slot -/

/-- The connection in the slot is seeded, and with the wallet the device acknowledged on it. -/
def Custody (K : Crates) (h : Host Slot) : Prop :=
  ∀ c, h.own = some c → c.id < h.wire.connections ∧ ∃ k, c.seededKey = some k ∧ Seeded K c.id k h.wire.trace

/-- What a call for the wallet may say: proper messages only, and none on the connection of
another wallet. -/
def Faithful (K : Crates) (key : WalletKey) (h0 : Host Slot) (trace : List Event) : Prop :=
  ∃ es, trace = h0.wire.trace ++ es ∧ Proper K key h0.wire.trace es ∧
    ∀ c, h0.own = some c → c.seededKey ≠ some key → ∀ m, .appOut c.id m ∉ es

section Invariant

variable {h0 : Host Slot}

/-- The messages of a part of a call, seen in the whole. -/
theorem Faithful.of_appEvents {trace : List Event} (said : trace = h0.wire.trace ++ es)
    (proper : Proper K key h0.wire.trace (appEvents es))
    (elsewhere : ∀ c, h0.own = some c → c.seededKey ≠ some key → ∀ m, .appOut c.id m ∉ appEvents es) :
    Faithful K key h0 trace := by
  refine ⟨es, said, proper.of_appEvents, fun c slot other m member => elsewhere c slot other m ?_⟩
  exact List.mem_filter.2 ⟨member, rfl⟩

/-- Opening a connection says proper things. -/
theorem OpenedInPart.proper (opened : OpenedInPart K id key es) : Proper K key t es := by
  obtain ⟨a, b, ended, created, rfl⟩ := opened
  have management : endMessage.sessionId ≠ SEEDED_SESSION_ID := by decide
  exact .append (Begun.proper (fun _ => Asked.proper_of_other management) ended)
    (Begun.proper (fun _ => Asked.proper) created)

theorem Opened.seeded (opened : Opened K id key a) (said : appEvents es = a ++ b) : Seeded K id key (t ++ es) := by
  obtain ⟨x, ex, -, acknowledged, rfl⟩ := opened
  refine ⟨appEvents t ++ x, ex, b, ?_, acknowledged⟩
  rw [appEvents_append, said, List.append_assoc, List.append_assoc, List.append_assoc]

theorem appEvents_of_append (said : appEvents es = a ++ b) : appEvents a = a := by
  refine List.filter_eq_self.2 fun e member => ?_
  have whole : e ∈ appEvents es := said ▸ List.mem_append_left b member
  exact (List.mem_filter.1 whole).2

/-- A connection that the slot does not hold yet is none of the slot's. -/
theorem elsewhere_of_new (custody : Custody K h0) (own : OnlyOn h0.wire.connections es) :
    ∀ c, h0.own = some c → c.seededKey ≠ some key → ∀ m, .appOut c.id m ∉ es := by
  intro c slot _ m member
  have older := (custody c slot).1
  rw [Option.some.inj (own (.appOut c.id m) member)] at older
  exact lt_irrefl _ older

/-- A call on the pinned connection: it is the wallet's, and what is said on it is proper. -/
theorem Running.faithful {Φ : Nat → List Event → Prop} {conn : Connection} {w : Wire} (custody : Custody K h0)
    (speaks : ∀ id es, Φ id es → OnlyOn id es) (running : Running K h0 key Φ conn w) :
    Faithful K key h0 w.trace ∧ conn.id < w.connections ∧ conn.seededKey = some key ∧ Seeded K conn.id key w.trace := by
  obtain ⟨n, count, saying⟩ := running
  have key' : conn.seededKey = some key := saying.seeded
  obtain ⟨sid, -, es, trace, a, b, began, told, said⟩ := saying
  have trace : w.trace = h0.wire.trace ++ es := trace
  have count : w.connections = n := count
  generalize same : conn.id = id at *
  cases began with
  | @reused c slot seeded =>
    obtain ⟨older, k, hk, acknowledged⟩ := custody c slot
    have : k = key := Option.some.inj (hk.symm.trans seeded)
    subst this
    rw [List.nil_append] at said
    refine ⟨.of_appEvents trace (said ▸ .of_seeded acknowledged (speaks _ _ told)) ?_, ?_, key', ?_⟩
    · intro c' slot' other
      rw [slot] at slot'
      cases slot'
      exact absurd seeded other
    · rw [count]
      exact older
    · rw [trace]
      exact acknowledged.append es
  | opened _ opened =>
    have seeded : Seeded K h0.wire.connections key (h0.wire.trace ++ a) :=
      Opened.seeded (b := []) opened (by rw [List.append_nil, appEvents_of_append said])
    refine ⟨.of_appEvents trace (said ▸ .append opened.inPart.proper (.of_seeded seeded (speaks _ _ told)))
      (elsewhere_of_new custody (said ▸ opened.inPart.onlyOn.append (speaks _ _ told))), ?_, key', ?_⟩
    · rw [count]
      exact Nat.lt_succ_self _
    · rw [trace]
      exact Opened.seeded opened said

/-- **One call**: it keeps custody of the slot, and what it says is faithful to its wallet. -/
theorem visit_faithful (custody : Custody K h0) (c : Call) :
    Custody K ((c.run K).run h0).2 ∧ Faithful K c.op.spec.walletKey h0 ((c.run K).run h0).2.wire.trace := by
  have quiet : Faithful K c.op.spec.walletKey h0 h0.wire.trace :=
    ⟨[], (List.append_nil _).symm, .nil, fun _ _ _ _ => List.not_mem_nil⟩
  have ended := visited K c h0
  generalize (c.run K).run h0 = r at ended ⊢
  cases ended with
  | refused e _ => exact ⟨custody, quiet⟩
  | @told _ conn tr x h _ _ slot running =>
    have same : ((Comp.ofExcept x).run h).2 = h := by cases x <;> rfl
    rw [same]
    obtain ⟨faithful, older, key, seeded⟩ := running.faithful custody fun _ _ => Told.onlyOn
    refine ⟨fun c' slot' => ?_, faithful⟩
    rw [slot] at slot'
    cases slot'
    exact ⟨older, _, key, seeded⟩
  | @cut _ r h _ cut _ _ =>
    cases cut with
    | opening _ abandoned =>
      obtain ⟨empty, same | ⟨_, es, trace, opened⟩⟩ := abandoned
      · refine ⟨fun c' slot => ?_, ?_⟩
        · rw [show h.own = some c' from slot] at empty
          cases empty
        · show Faithful K _ h0 h.wire.trace
          rw [same]
          exact quiet
      · refine ⟨fun c' slot => ?_, ?_⟩
        · rw [show h.own = some c' from slot] at empty
          cases empty
        · exact .of_appEvents trace opened.proper (elsewhere_of_new custody opened.onlyOn)
    | @speaking conn slot running =>
      obtain ⟨faithful, older, key, seeded⟩ := running.faithful custody fun _ _ => ToldInPart.onlyOn
      refine ⟨fun c' slot' => ?_, faithful⟩
      rcases slot with empty | held
      · rw [show h.own = some c' from slot'] at empty
        cases empty
      · rw [show h.own = some c' from slot'] at held
        cases held
        exact ⟨older, _, key, seeded⟩

/-- **Every run** keeps custody of the slot. -/
theorem Reached.custody {allowed : Call → Host Slot → Prop} {h : Host Slot} (reached : Reached K allowed h) :
    Custody K h := by
  induction reached with
  | start empty _ =>
    intro c slot
    rw [empty] at slot
    cases slot
  | @call h c inbox _ _ ih =>
    have custody : Custody K (facing inbox h) := ih
    exact (visit_faithful custody c).1

end Invariant

/-- **Wallet isolation.** In every state that calls can reach, the pinned connection is seeded
with the wallet that the device acknowledged on it; and every message that the next call, any
call, sends on the seeded session is authorised by the wallet of that call, and none goes to the
pinned connection if that is another's. -/
theorem wallet_isolation (K : Crates) (h : Host Slot) (reached : Reached K anyhow h) (c : Call)
    (inbox : List (Except TrezorTransportError Bytes)) :
    (∀ conn, h.own = some conn → ∃ k, conn.seededKey = some k ∧ Seeded K conn.id k h.wire.trace) ∧
    ∃ es, ((c.run K).run (facing inbox h)).2.wire.trace = h.wire.trace ++ es ∧
      (∀ pre id m post, es = pre ++ .appOut id m :: post → m.sessionId = SEEDED_SESSION_ID →
        Authorised K c.op.spec.walletKey (h.wire.trace ++ pre) id m) ∧
      ∀ conn, h.own = some conn → conn.seededKey ≠ some c.op.spec.walletKey → ∀ m, .appOut conn.id m ∉ es := by
  have custody : Custody K (facing inbox h) := reached.custody
  constructor
  · intro conn slot
    exact (reached.custody conn slot).2
  · exact (visit_faithful custody c).2

/-- A call for a hidden wallet, while the standard wallet is pinned. -/
def hiddenCall : Call := ⟨walletSecrets.hostStatic.1, [1, 2, 3], .getEthereumAddress (.host "tulip") 0 none⟩

theorem wallet_isolation_sample :
    (afterFirst.own.map fun c => (c.id, c.seededWith)) = some (0, some (none, false)) ∧
    (∀ conn, afterFirst.own = some conn →
      ∃ k, conn.seededKey = some k ∧ Seeded Crates.wallets conn.id k afterFirst.wire.trace) ∧
    ∃ es, ((hiddenCall.run Crates.wallets).run (facing firstInbox afterFirst)).2.wire.trace = afterFirst.wire.trace ++ es ∧
      (∀ pre id m post, es = pre ++ .appOut id m :: post → m.sessionId = SEEDED_SESSION_ID →
        Authorised Crates.wallets hiddenCall.op.spec.walletKey (afterFirst.wire.trace ++ pre) id m) ∧
      ∀ conn, afterFirst.own = some conn → conn.seededKey ≠ some hiddenCall.op.spec.walletKey →
        ∀ m, .appOut conn.id m ∉ es :=
  ⟨firstCall_run.2, wallet_isolation Crates.wallets afterFirst afterFirst_reached hiddenCall firstInbox⟩

end TrezorCore.Client
