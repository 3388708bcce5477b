import TrezorCore.Client.Calls
import TrezorCore.Thp.Conversation

/-!
# The pinned connection

Rules for the program that every operation is. A slot that holds a connection of the right
wallet is used as it is; any other is emptied, and a new connection is opened, ended into
encrypted transport and seeded before it goes into the slot. `pinned_told` says what such a
call has said in the end, on which connection, and what it left in the slot.
-/

namespace TrezorCore.Client

open Connection

variable {K : Crates}

/-! ## Ensuring a connection -/

/-- Open a connection, seed it and pin it. -/
def openInto (K : Crates) (hostStaticPriv credential : Bytes) (key : WalletKey) : Io Slot Unit := do
  let hsp ← .ofExcept (toArray32 hostStaticPriv)
  let conn ← openPairedConnection K hsp credential
  let (_, conn) ← Io.runOwned (createSeededSession K key.1 key.2) conn
  Io.modifyOwn fun _ => some conn

/-- Can the slot be used as it is? -/
def reusable (slot : Slot) (key : WalletKey) : Option Connection := slot.filter fun c => c.seededWith = some key

theorem ensureConn_reuse {hostStaticPriv credential : Bytes} {spec : PassphraseSpec} {h : Host Slot} {c : Connection}
    (same : reusable h.own spec.walletKey = some c) : (ensureConn K hostStaticPriv credential spec).run h = (.ok (), h) := by
  obtain ⟨slot, seeded⟩ := Option.filter_eq_some_iff.1 same
  have key : c.seededWith = some spec.walletKey := by simpa using seeded
  simp [ensureConn, slot, seededKey, key]

theorem ensureConn_open {hostStaticPriv credential : Bytes} {spec : PassphraseSpec} {h : Host Slot}
    (other : reusable h.own spec.walletKey = none) :
    (ensureConn K hostStaticPriv credential spec).run h =
      (openInto K hostStaticPriv credential spec.walletKey).run { h with own := none } := by
  obtain ⟨slot, wire⟩ := h
  cases slot with
  | none => rfl
  | some c =>
    have different : c.seededWith ≠ some spec.walletKey := by
      intro same
      simp [reusable, same] at other
    simp [ensureConn, seededKey, different]
    rfl

/-! ## What is said while a connection is opened -/

/-- A new connection was ended into encrypted transport and seeded. -/
def Opened (K : Crates) (id : Nat) (key : WalletKey) : List Event → Prop :=
  After (fun es => ∃ r, Exchange K id endMessage r es) (Acknowledged K id key)

/-- Part of that. -/
def OpenedInPart (K : Crates) (id : Nat) (key : WalletKey) : List Event → Prop :=
  After (Begun K id endMessage) (Begun K id (createMessage K key))

section Opening

variable {t es : List Event} {id : Nat} {key : WalletKey}

theorem Opened.inPart (opened : Opened K id key es) : OpenedInPart K id key es := by
  obtain ⟨a, b, ended, ⟨body, acknowledged⟩, rfl⟩ := opened
  exact ⟨a, b, .inr ended, .inr ⟨_, acknowledged⟩, rfl⟩

theorem OpenedInPart.onlyOn (opened : OpenedInPart K id key es) : OnlyOn id es := by
  obtain ⟨a, b, ended, created, rfl⟩ := opened
  exact (Begun.onlyOn ended).append (Begun.onlyOn created)

theorem pairedSteps_since (t : List Event) (id : Nat) (hsp : Octets 32) (credential : Bytes) :
    Comp.Triple (Since t ⟨id, MANAGEMENT_SESSION_ID, none⟩ (· = [])) (pairedSteps K hsp credential)
      (fun _ => Since t ⟨id, MANAGEMENT_SESSION_ID, none⟩ fun es => ∃ r, Exchange K id endMessage r es)
      (Heard t (Begun K id endMessage)) := by
  have quiet : ∀ h, Since t ⟨id, MANAGEMENT_SESSION_ID, none⟩ (· = []) h → Heard t (Begun K id endMessage) h :=
    fun h since => since.heard fun es none => none ▸ .nil _
  refine .bind (Silent.triple Silent.allocate quiet) fun allocation => .bind (Silent.triple (Silent.handshake _ _ _) quiet) fun keys => ?_
  by_cases rejected : keys.trezorState.head? = some 0x00
  · rw [if_pos rejected]
    exact .fail _ quiet
  · rw [if_neg rejected]
    refine .bind (Silent.triple (Silent.setSession _) quiet) fun _ => endRequest_since.conseq (fun _ since => since) ?_ ?_
    · intro _ h since
      refine since.mono ?_
      rintro es ⟨_, b, rfl, hb, rfl⟩
      exact hb
    · rintro h ⟨es, trace, _, b, rfl, hb, said⟩
      refine ⟨es, trace, ?_⟩
      rw [said, List.nil_append]
      exact hb

theorem pairedSteps_counted (hsp : Octets 32) (credential : Bytes) : Comp.Keeps Counted (pairedSteps K hsp credential) := by
  refine .bind Counted.trans (Counted.silent Silent.allocate) fun _ =>
    .bind Counted.trans (Counted.silent (Silent.handshake _ _ _)) fun keys => ?_
  by_cases rejected : keys.trezorState.head? = some 0x00
  · rw [if_pos rejected]
    exact Counted.refl
  · rw [if_neg rejected]
    exact .bind Counted.trans Counted.refl fun _ => Counted.endRequest

/-- Opening failed: a connection may have been made, and part of its opening said. -/
def Abandoned (K : Crates) (w : Wire) (key : WalletKey) (h : Host Slot) : Prop :=
  h.own = none ∧ (h.wire = w ∨ h.wire.connections = w.connections + 1 ∧
    ∃ es, h.wire.trace = w.trace ++ es ∧ OpenedInPart K w.connections key (appEvents es))

/-- One of two calls on the connection with the next identity. -/
theorem counted_triple {α : Type} {x : Io Connection α} {P : Host Connection → Prop} {Q : α → Host Connection → Prop}
    {B : Host Connection → Prop} (n : Nat) (triple : Comp.Triple P x Q B) (keeps : Comp.Keeps Counted x) :
    Comp.Triple (fun s => P s ∧ s.wire.connections = n) x (fun a s => Q a s ∧ s.wire.connections = n)
      fun s => B s ∧ s.wire.connections = n :=
  triple.frame keeps fun _ _ same count => Eq.trans same count

theorem openPairedConnection_told (hsp : Octets 32) (credential : Bytes) (w : Wire) :
    Comp.Triple (fun h : Host Slot => h = ⟨none, w⟩) (openPairedConnection K hsp credential)
      (fun conn h => h.own = none ∧ Since w.trace ⟨w.connections, MANAGEMENT_SESSION_ID, none⟩
        (fun es => ∃ r, Exchange K w.connections endMessage r es) ⟨conn, h.wire⟩ ∧ h.wire.connections = w.connections + 1)
      (Abandoned K w key) := by
  rintro h rfl
  rw [openPairedConnection, Comp.bind_ok (show (Connection.new Framing.BLE_PACKET_SIZE : Io Slot _).run ⟨none, w⟩ =
    (.ok (initial w.connections Framing.BLE_PACKET_SIZE), ⟨none, { w with connections := w.connections + 1 }⟩) from rfl)]
  have steps : Comp.Triple (fun h : Host Slot => h = ⟨none, { w with connections := w.connections + 1 }⟩)
      (Io.runOwned (pairedSteps K hsp credential) (initial w.connections Framing.BLE_PACKET_SIZE))
      (fun r h => h.own = none ∧ Since w.trace ⟨w.connections, MANAGEMENT_SESSION_ID, none⟩
        (fun es => ∃ r, Exchange K w.connections endMessage r es) ⟨r.2, h.wire⟩ ∧ h.wire.connections = w.connections + 1)
      (Abandoned K w key) := by
    refine Io.runOwned_triple (counted_triple (w.connections + 1) (pairedSteps_since w.trace w.connections hsp credential)
      (pairedSteps_counted hsp credential)) ?_ ?_ ?_
    · rintro h rfl
      exact ⟨⟨rfl, [], (List.append_nil _).symm, rfl⟩, rfl⟩
    · rintro h _ h' rfl ⟨since, count⟩
      exact ⟨rfl, since, count⟩
    · rintro h h' rfl ⟨⟨es, trace, begun⟩, count⟩
      exact ⟨rfl, .inr ⟨count, es, trace, _, [], begun, .nil _, (List.append_nil _).symm⟩⟩
  exact Comp.Triple.bind steps (fun r => .pure r.2 fun _ h => h) _ rfl

/-- The connection that was opened is seeded, and so is the slot. -/
theorem openInto_told (key : WalletKey) (hostStaticPriv credential : Bytes) (w : Wire) :
    Comp.Triple (fun h : Host Slot => h = ⟨none, w⟩) (openInto K hostStaticPriv credential key)
      (fun _ h => ∃ c, h.own = some c ∧ h.wire.connections = w.connections + 1 ∧
        Since w.trace ⟨w.connections, SEEDED_SESSION_ID, some key⟩ (Opened K w.connections key) ⟨c, h.wire⟩)
      (Abandoned K w key) := by
  refine .ofExcept_bind (fun hsp _ => ?_) fun h here => ⟨here ▸ rfl, .inl (here ▸ rfl)⟩
  refine .bind (openPairedConnection_told hsp credential w) fun conn => ?_
  refine .bind (Q := fun r h => h.wire.connections = w.connections + 1 ∧
    Since w.trace ⟨w.connections, SEEDED_SESSION_ID, some key⟩ (Opened K w.connections key) ⟨r.2, h.wire⟩) ?_ fun r => ?_
  · refine Io.runOwned_triple (counted_triple (w.connections + 1) (createSeededSession_since key MANAGEMENT_SESSION_ID)
      (Counted.createSeededSession _ _)) (fun h ⟨_, since, count⟩ => ⟨since, count⟩) ?_ ?_
    · rintro h _ h' - ⟨since, count⟩
      exact ⟨count, since⟩
    · rintro h h' ⟨none, -⟩ ⟨⟨es, trace, a, b, ⟨r, ended⟩, created, said⟩, count⟩
      exact ⟨none, .inr ⟨count, es, trace, a, b, .inr ⟨r, ended⟩, created, said⟩⟩
  · rintro h ⟨count, since⟩
    exact ⟨r.2, rfl, count, since⟩

end Opening

/-! ## A call on the pinned connection -/

/-- The connection a call runs on: the one that was there, or a new one with its opening. -/
inductive Began (K : Crates) (h0 : Host Slot) (key : WalletKey) : (id connections : Nat) → List Event → Prop where
  | reused {c : Connection} : h0.own = some c → c.seededWith = some key → Began K h0 key c.id h0.wire.connections []
  | opened {es : List Event} : reusable h0.own key = none → Opened K h0.wire.connections key es →
      Began K h0 key h0.wire.connections (h0.wire.connections + 1) es

/-- The call runs on `c`, has said `Φ` on it, and it is the wallet's connection. -/
def Running (K : Crates) (h0 : Host Slot) (key : WalletKey) (Φ : Nat → List Event → Prop) (c : Connection) (w : Wire) : Prop :=
  ∃ n, w.connections = n ∧
    Saying h0.wire.trace c.id (some key) (After (Began K h0 key c.id n) (Φ c.id)) ⟨c, w⟩

/-- How a call ends that returns no value. -/
inductive Cut (K : Crates) (h0 : Host Slot) (key : WalletKey) (h : Host Slot) : Prop where
  | opening : reusable h0.own key = none → Abandoned K h0.wire key h → Cut K h0 key h
  | speaking {c : Connection} : h.own = none ∨ h.own = some c → Running K h0 key (ToldInPart K) c h.wire → Cut K h0 key h

section Pinned

variable {h0 : Host Slot} {spec : PassphraseSpec} {hostStaticPriv credential : Bytes}

theorem reusable_eq_some {slot : Slot} {key : WalletKey} {c : Connection} (h : reusable slot key = some c) :
    slot = some c ∧ c.seededWith = some key := by
  obtain ⟨same, seeded⟩ := Option.filter_eq_some_iff.1 h
  exact ⟨same, by simpa using seeded⟩

theorem ensureConn_told :
    Comp.Triple (fun h => h = h0) (ensureConn K hostStaticPriv credential spec)
      (fun _ h => ∃ c, h.own = some c ∧ Running K h0 spec.walletKey (fun _ es => es = []) c h.wire)
      (fun h => reusable h0.own spec.walletKey = none ∧ Abandoned K h0.wire spec.walletKey h) := by
  rintro h rfl
  rcases reuse : reusable h.own spec.walletKey with _ | c
  · rw [ensureConn_open reuse]
    have opened := openInto_told (K := K) spec.walletKey hostStaticPriv credential h.wire ⟨none, h.wire⟩ rfl
    rcases hx : (openInto K hostStaticPriv credential spec.walletKey).run ⟨none, h.wire⟩ with ⟨_ | _ | _ | _, h'⟩ <;>
      rw [hx] at opened
    · obtain ⟨c, slot, count, who, es, trace, said⟩ := opened
      have id : c.id = h.wire.connections := congrArg Speaker.id who
      refine ⟨c, slot, _, count, SEEDED_SESSION_ID, ?_, es, trace, ?_⟩
      · rw [id]
        exact who
      · rw [id]
        exact ⟨_, [], .opened reuse said, rfl, (List.append_nil _).symm⟩
    all_goals exact ⟨rfl, opened⟩
  · rw [ensureConn_reuse reuse]
    obtain ⟨slot, seeded⟩ := reusable_eq_some reuse
    refine ⟨c, slot, _, rfl, c.activeSessionId, ?_, [], (List.append_nil _).symm, [], [], .reused slot seeded, rfl, rfl⟩
    rw [speaker, seeded]

/-- A call through the slot is a call on the connection in it. -/
theorem inSlot_told {α : Type} {x : Io Connection α} {P : Connection → Wire → Prop} {Q : α → Connection → Wire → Prop}
    {B : Connection → Wire → Prop} (call : Comp.Triple (fun s => P s.own s.wire) x (fun a s => Q a s.own s.wire) fun s => B s.own s.wire) :
    Comp.Triple (fun h => ∃ c, h.own = some c ∧ P c h.wire) (Io.inSlot x)
      (fun a h => ∃ c, h.own = some c ∧ Q a c h.wire) fun h => ∃ c, h.own = some c ∧ B c h.wire := by
  rintro h ⟨c, slot, holds⟩
  have ends := call ⟨c, h.wire⟩ holds
  simp only [Io.inSlot, slot]
  rcases hx : x.run ⟨c, h.wire⟩ with ⟨a | _ | _ | _, h'⟩ <;> rw [hx] at ends
  all_goals exact ⟨h'.own, rfl, ends⟩

theorem clearing_triple {α : Type} {x : Io Slot α} {P B : Host Slot → Prop} {Q : α → Host Slot → Prop}
    (call : Comp.Triple P x Q B) (cleared : ∀ h, B h → B { h with own := none }) : Comp.Triple P (clearing x) Q B := by
  intro h holds
  have ends := call h holds
  simp only [clearing, Comp.onErr]
  rcases hx : x.run h with ⟨a | _ | _ | _, h'⟩ <;> rw [hx] at ends
  · exact ends
  · exact cleared _ ends
  · exact ends
  · exact ends

theorem Cut.cleared {h : Host Slot} (cut : Cut K h0 spec.walletKey h) : Cut K h0 spec.walletKey { h with own := none } := by
  cases cut with
  | opening other abandoned => exact .opening other ⟨rfl, abandoned.2⟩
  | speaking _ running => exact .speaking (.inl rfl) running

/-- A chat on the connection of a call. -/
theorem chat_running {α : Type} (chat : Chat α) :
    Comp.Triple (fun s => Running K h0 spec.walletKey (fun _ es => es = []) s.own s.wire) (chat.on K)
      (fun a s => ∃ tr, Script.Plays chat tr a ∧ Running K h0 spec.walletKey (fun id => Told K id tr) s.own s.wire)
      fun s => Running K h0 spec.walletKey (ToldInPart K) s.own s.wire := by
  rintro s ⟨n, count, saying⟩
  have ready : Saying h0.wire.trace s.own.id (some spec.walletKey) (Began K h0 spec.walletKey s.own.id n) s := by
    refine saying.mono ?_
    rintro es ⟨a, _, began, rfl, rfl⟩
    rwa [List.append_nil]
  have rule : Comp.Triple
      (fun s' => Saying h0.wire.trace s.own.id (some spec.walletKey) (Began K h0 spec.walletKey s.own.id n) s' ∧
        s'.wire.connections = n)
      (chat.on K) _ _ :=
    counted_triple n (chat_saying chat fun _ saying => saying) (Counted.chat chat)
  have told := rule s ⟨ready, count⟩
  rcases hx : (chat.on K).run s with ⟨a | _ | _ | _, s'⟩ <;> rw [hx] at told
  · obtain ⟨⟨tr, plays, saying⟩, count⟩ := told
    refine ⟨tr, plays, n, count, ?_⟩
    rwa [saying.own_id]
  all_goals
    obtain ⟨saying, count⟩ := told
    refine ⟨n, count, ?_⟩
    rwa [saying.own_id]

/-- **The rule of the pinned operations.** -/
theorem pinned_told {α : Type} (h0 : Host Slot) (hostStaticPriv credential : Bytes) (spec : PassphraseSpec) (chat : Chat α) :
    Comp.Triple (fun h => h = h0) (pinned K hostStaticPriv credential spec (chat.on K))
      (fun a h => ∃ c tr, h.own = some c ∧ Script.Plays chat tr a ∧
        Running K h0 spec.walletKey (fun id => Told K id tr) c h.wire)
      (Cut K h0 spec.walletKey) := by
  have ensured : Comp.Triple (fun h => h = h0) (ensureConn K hostStaticPriv credential spec) _ (Cut K h0 spec.walletKey) :=
    ensureConn_told.conseq (fun _ same => same) (fun _ _ running => running) fun _ ended => .opening ended.1 ended.2
  refine .bind (clearing_triple ensured fun _ cut => cut.cleared) fun _ => ?_
  refine clearing_triple ?_ fun _ cut => cut.cleared
  refine (inSlot_told (Q := fun a c w => ∃ tr, Script.Plays chat tr a ∧
    Running K h0 spec.walletKey (fun id => Told K id tr) c w) (B := Running K h0 spec.walletKey (ToldInPart K))
    (chat_running chat)).conseq (fun _ h => h) ?_ ?_
  · rintro a h ⟨c, slot, tr, plays, running⟩
    exact ⟨c, tr, slot, plays, running⟩
  · rintro h ⟨c, slot, running⟩
    exact .speaking (.inr slot) running

end Pinned

end TrezorCore.Client
