import TrezorCore.Client.Visits
import TrezorCore.Thp.Sync

/-!
# Reused connections

Every call that returns leaves the slot empty or with a connection in sync: a value comes
after complete exchanges only, and an error empties the slot, except the last check of
`identify_paired`, which comes after a complete exchange as well. So no exchange ever starts
on a connection whose bits and counters have drifted apart, as long as no call is abandoned.
-/

namespace TrezorCore.Client

open Connection

variable {K : Crates}

/-- The slot is empty or holds a connection in sync. -/
def SlotInSync (h : Host Slot) : Prop := ∀ conn, h.own = some conn → InSync conn

/-- The slot holds a connection in sync. -/
def PinnedInSync (h : Host Slot) : Prop := ∃ conn, h.own = some conn ∧ InSync conn

theorem PinnedInSync.slot {h : Host Slot} (pinned : PinnedInSync h) : SlotInSync h := by
  obtain ⟨conn, slot, sync⟩ := pinned
  intro conn' slot'
  rw [slot] at slot'
  cases slot'
  exact sync

theorem pairedSteps_inSync (hsp : Octets 32) (credential : Bytes) :
    Comp.Triple (fun _ => True) (pairedSteps K hsp credential) (fun _ h => InSync h.own) fun _ => True := by
  refine .bind allocate_even fun allocation => .bind (handshake_even _ _ _) fun keys => ?_
  by_cases rejected : keys.trezorState.head? = some 0x00
  · rw [if_pos rejected]
    exact .fail _ fun _ _ => trivial
  · rw [if_neg rejected]
    refine .bind (Q := fun _ h => InSync h.own) ?_ fun _ => endRequest_inSync
    rintro h ⟨even, request, response⟩
    exact setSession_inSync request response h even

theorem openPairedConnection_inSync (hsp : Octets 32) (credential : Bytes) :
    Comp.Triple (fun _ : Host Slot => True) (openPairedConnection K hsp credential) (fun conn _ => InSync conn)
      fun _ => True := by
  refine .bind (.any _) fun conn => .bind (Q := fun r _ => InSync r.2) ?_ fun r => .pure r.2 fun _ sync => sync
  exact Io.runOwned_triple (pairedSteps_inSync hsp credential) (fun _ _ => trivial) (fun _ _ _ _ sync => sync)
    fun _ _ _ _ => trivial

theorem openInto_inSync (hostStaticPriv credential : Bytes) (key : WalletKey) :
    Comp.Triple (fun _ => True) (openInto K hostStaticPriv credential key) (fun _ => PinnedInSync) fun _ => True := by
  refine .ofExcept_bind (fun hsp _ => ?_) fun _ _ => trivial
  refine .bind (openPairedConnection_inSync hsp credential) fun conn => .bind (Q := fun r _ => InSync r.2) ?_ fun r => ?_
  · exact Io.runOwned_triple (createSeededSession_inSync _ _) (fun _ sync => sync) (fun _ _ _ _ sync => sync)
      fun _ _ _ _ => trivial
  · exact fun _ sync => ⟨r.2, rfl, sync⟩

theorem ensureConn_inSync (hostStaticPriv credential : Bytes) (spec : PassphraseSpec) :
    Comp.Triple SlotInSync (ensureConn K hostStaticPriv credential spec) (fun _ => PinnedInSync) fun _ => True := by
  intro h sync
  rcases reuse : reusable h.own spec.walletKey with _ | conn
  · rw [ensureConn_open reuse]
    exact openInto_inSync hostStaticPriv credential spec.walletKey _ trivial
  · rw [ensureConn_reuse reuse]
    obtain ⟨slot, -⟩ := reusable_eq_some reuse
    exact ⟨conn, slot, sync conn slot⟩

theorem inSlot_inSync {α : Type} (chat : Chat α) :
    Comp.Triple PinnedInSync (Io.inSlot (chat.on K)) (fun _ => PinnedInSync) fun _ => True :=
  (inSlot_told (P := fun c _ => InSync c) (Q := fun _ c _ => InSync c) (B := fun _ _ => True) (chat_inSync chat)).conseq
    (fun _ pinned => pinned) (fun _ _ pinned => pinned) fun _ _ => trivial

/-- **A call** that returns a value leaves a connection in sync. -/
theorem pinned_inSync {α : Type} (hostStaticPriv credential : Bytes) (spec : PassphraseSpec) (chat : Chat α) :
    Comp.Triple SlotInSync (pinned K hostStaticPriv credential spec (chat.on K)) (fun _ => PinnedInSync) fun _ => True :=
  .bind (clearing_triple (ensureConn_inSync hostStaticPriv credential spec) fun _ _ => trivial) fun _ =>
    clearing_triple (inSlot_inSync chat) fun _ _ => trivial

/-! ## Runs in which every call returns -/

theorem visit_inSync {c : Call} {h : Host Slot} (sync : SlotInSync h) (returned : returns K c h) :
    SlotInSync ((c.run K).run h).2 := by
  rw [returns] at returned
  rw [Call.run_eq] at returned ⊢
  generalize c.op.addressN = parsed at returned ⊢
  rcases parsed with e | addressN
  · exact sync
  · rw [Comp.ofExcept_ok, Comp.pure_bind, Comp.run_bind] at returned ⊢
    have pinned := pinned_inSync (K := K) c.hostStaticPriv c.credential c.op.spec (c.op.chat K addressN) h sync
    rcases ended : (Client.pinned K c.hostStaticPriv c.credential c.op.spec ((c.op.chat K addressN).on K)).run h with
      ⟨x | e | _ | _, h'⟩ <;> rw [ended] at pinned returned
    · have same : ((Comp.ofExcept x : Io Slot Value).run h').2 = h' := by cases x <;> rfl
      show SlotInSync ((Comp.ofExcept x : Io Slot Value).run h').2
      rw [same]
      exact pinned.slot
    · intro conn slot
      rw [pinned_err ended] at slot
      cases slot
    · rcases returned with ⟨_, panic⟩ | ⟨_, panic⟩ <;> cases panic
    · rcases returned with ⟨_, drop⟩ | ⟨_, drop⟩ <;> cases drop

theorem Reached.inSync {h : Host Slot} (reached : Reached K (returns K) h) : SlotInSync h := by
  induction reached with
  | start empty _ =>
    intro conn slot
    rw [empty] at slot
    cases slot
  | call c inbox _ returned ih => exact visit_inSync (h := facing inbox _) ih returned

/-- A call with the watch on every exchange of its chat. -/
noncomputable def Call.watched (K : Crates) (c : Call) : Io Slot Value :=
  Comp.ofExcept c.op.addressN >>= fun addressN =>
    pinned K c.hostStaticPriv c.credential c.op.spec (Connection.watched K (c.op.chat K addressN)) >>= Comp.ofExcept

theorem clearing_agree {α : Type} {P : Host Slot → Prop} {x y : Io Slot α} (agree : Comp.Agree P x y) :
    Comp.Agree P (clearing x) (clearing y) := by
  intro h holds
  simp only [clearing, Comp.onErr, agree h holds]

theorem inSlot_agree {α : Type} {P : Host Connection → Prop} {x y : Io Connection α} (agree : Comp.Agree P x y) :
    Comp.Agree (fun h => ∃ conn, h.own = some conn ∧ P ⟨conn, h.wire⟩) (Io.inSlot x) (Io.inSlot y) := by
  rintro h ⟨conn, slot, holds⟩
  simp only [Io.inSlot, slot, agree _ holds]

/-- The watch changes nothing in a call on a slot in sync. -/
theorem Call.watched_agree (c : Call) : Comp.Agree SlotInSync (c.watched K) (c.run K) := by
  intro h sync
  rw [Call.watched, Call.run_eq]
  rcases c.op.addressN with e | addressN
  · rfl
  · simp only [Comp.ofExcept_ok, Comp.pure_bind]
    have agree : Comp.Agree SlotInSync
        (pinned K c.hostStaticPriv c.credential c.op.spec (Connection.watched K (c.op.chat K addressN)))
        (pinned K c.hostStaticPriv c.credential c.op.spec ((c.op.chat K addressN).on K)) :=
      .bind (Q := PinnedInSync) (.refl _)
        (clearing_triple (ensureConn_inSync c.hostStaticPriv c.credential c.op.spec) fun _ _ => trivial) fun _ =>
        clearing_agree (inSlot_agree (Connection.watched_agree _))
    rw [Comp.run_bind, Comp.run_bind, agree h sync]

/-- **A reused connection is in sync.** In every state that calls which return can reach, the
pinned connection is in sync; and every exchange that the next call starts on the connection in
the slot, it starts in sync: a watch before each of them changes nothing. -/
theorem reused_in_sync (K : Crates) (h : Host Slot) (reached : Reached K (returns K) h) :
    (∀ conn, h.own = some conn → InSync conn) ∧
    ∀ (c : Call) (inbox : List (Except TrezorTransportError Bytes)),
      (c.watched K).run (facing inbox h) = (c.run K).run (facing inbox h) :=
  ⟨reached.inSync, fun c inbox => c.watched_agree (facing inbox h) reached.inSync⟩

theorem reused_in_sync_sample :
    (afterFirst.own.map fun c => (c.id, c.seededWith)) = some (0, some (none, false)) ∧
    (∀ conn, afterFirst.own = some conn → InSync conn) ∧
    ∀ (c : Call) (inbox : List (Except TrezorTransportError Bytes)),
      (c.watched Crates.wallets).run (facing inbox afterFirst) = (c.run Crates.wallets).run (facing inbox afterFirst) :=
  ⟨firstCall_run.2, reused_in_sync Crates.wallets afterFirst afterFirst_returned⟩

end TrezorCore.Client
