import TrezorCore.Client.Causes
import TrezorCore.Client.Counters
import TrezorCore.Client.Establishing
import TrezorCore.Client.Interleaving
import TrezorCore.Thp.Endings

/-!
# How calls end

The operations, a pairing and a probe never panic, where a counter that overflows wraps; where it
panics, they do not get there with counters far enough below the maximum. They return unless the
transport or the user keeps them waiting. A transport that reports its failures therefore ends every
call. When a call ends with an error, the error tells what happened last.
-/

namespace TrezorCore.Client

open Connection

section Settling

variable {q : Prop} {γ : Type} {K : Crates}

theorem pairedSteps_settles (hsp : Octets 32) (credential : Bytes) : Settles K q (pairedSteps K hsp credential) := by
  refine .bind .allocate fun allocation => .bind (.handshake _ _ _) fun keys => ?_
  split
  · exact .fail rfl
  · exact .bind (.modifyOwn _) fun _ => .bind (.transceive _ _) fun _ => .ofExcept (Pairing.expectType_checks _ _ _)

theorem new_settles (packetSize : Nat) : Settles K q (Connection.new packetSize : Io γ Connection) := fun _ => .ok (.still rfl rfl rfl)

theorem openInto_settles (hostStaticPriv credential : Bytes) (key : WalletKey) : Settles K q (openInto K hostStaticPriv credential key) := by
  refine .bind (.ofExcept (toArray32_checks _)) fun hsp => .bind (.bind (new_settles _) fun conn =>
    .bind (.runOwned (pairedSteps_settles _ _) _) fun _ => .pure _) fun conn => .bind (.runOwned ?_ _) fun _ => .modifyOwn _
  rw [createSeededSession_eq]
  exact .bind (.chat (createChat_paced _) (createChat_ownErrors _)) fun _ => .modifyOwn _

theorem ensureConn_settles (hostStaticPriv credential : Bytes) (spec : PassphraseSpec) :
    Settles K q (ensureConn K hostStaticPriv credential spec) := by
  intro h
  rcases slot : reusable h.own spec.walletKey with _ | conn
  · rw [ensureConn_open slot]
    have emptied : OnWire Passed h (⟨none, h.wire⟩ : Host Slot) := Passed.refl h.wire
    exact .after (passing K q) emptied (openInto_settles _ _ _ _)
  · rw [ensureConn_reuse slot]
    exact .ok (Passed.refl h.wire)

/-- A call on a slot that holds a connection. -/
theorem inSlot_settled {α : Type} {x : Io Connection α} (hx : Settles K q x) {h : Host Slot} {conn : Connection} (slot : h.own = some conn) :
    Comp.Settled (OnWire Passed) (OnWire (Waits q)) (fun h e h' => Explained K h.wire e h'.wire) h ((Io.inSlot x).run h) := by
  have ends := hx ⟨conn, h.wire⟩
  rcases ran : x.run ⟨conn, h.wire⟩ with ⟨o, h'⟩
  rw [ran] at ends
  simp only [Io.inSlot, slot, ran]
  cases ends with
  | ok passed => exact .ok passed
  | err cause => exact .err cause
  | dropped waits => exact .dropped waits

/-- The slot is never empty when an operation gets to it. -/
theorem pinned_settles {α : Type} (hostStaticPriv credential : Bytes) (spec : PassphraseSpec) {op : Io Connection α} (hop : Settles K q op) :
    Settles K q (pinned K hostStaticPriv credential spec op) := by
  intro h
  have told := @ensureConn_told K h spec hostStaticPriv credential h rfl
  have ensured := (ensureConn_settles (K := K) (q := q) hostStaticPriv credential spec h).onErr (fun h => { h with own := none })
    fun _ _ cause => cause
  rw [pinned, Comp.run_bind]
  rcases ran : (ensureConn K hostStaticPriv credential spec).run h with ⟨_ | _ | _ | _, h'⟩ <;> rw [ran] at told <;>
    simp only [clearing, Comp.onErr, ran] at ensured ⊢
  · obtain ⟨conn, slot, -⟩ := told
    have ran := (inSlot_settled hop slot).onErr (fun h => { h with own := none }) fun _ _ cause => cause
    cases ensured with
    | ok passed => exact ran.after (passing K q) passed
  · cases ensured with
    | err cause => exact .err cause
  · cases ensured
  · cases ensured with
    | dropped waits => exact .dropped waits

/-- The check that is left to an operation is one of its own. -/
theorem answer_owns {c : Call} {addressN : List UInt32} {x : Except TrezorError Value} {h h' : Host Slot}
    (ran : (pinned K c.hostStaticPriv c.credential c.op.spec ((c.op.chat K addressN).on K)).run h = (.ok x, h')) : Checks x := by
  obtain identify | ⟨-, α, make, chat, passes⟩ := c.op.chat_cases (K := K) addressN
  · rw [identify] at ran
    change (pinned K _ _ _ ((Pairing.getFeatures K >>= fun f => .done (deviceIdOf f)).on K)).run h = _ at ran
    rw [pinned_bind_pure] at ran
    obtain ⟨features, h1, -, value⟩ := Comp.bind_eq_ok ran
    cases value
    rw [deviceIdOf]
    split
    · exact .ok _
    · exact .thp _
  · rw [passes, answered, pinned_bind_pure] at ran
    obtain ⟨a, h1, -, value⟩ := Comp.bind_eq_ok ran
    cases value
    exact .ok _

theorem call_settles (c : Call) : Settles K q (c.run K) := by
  rw [Call.run_eq]
  refine .bind (.ofExcept c.op.addressN_checks) fun addressN => Comp.Settles.bind_of (passing K q) (pinned_settles _ _ _
    (.chat (c.op.chat_paced addressN) (c.op.chat_ownErrors addressN))) fun h x h' ran => ?_
  exact Settles.ofExcept (answer_owns ran) h'

theorem pairing_settles (handshakeHash hostStaticPubkey : Octets 32) (hostName appName : String) (codeProvider : Option String) :
    Settles K (codeProvider = none) (Pairing.runCodeentryPairing K handshakeHash hostStaticPubkey hostName appName codeProvider) := by
  have asked : Settles K (codeProvider = none) (Pairing.requestCode codeProvider) := by
    cases codeProvider with
    | some code => exact .pure code
    | none => exact fun h => .dropped ⟨.inr rfl, (Passed.refl h.wire).stalled ⟨⟨[], rfl⟩, fun _ _ low high => absurd low (Nat.not_le.2 high)⟩⟩
  have typed := fun actual expected what => Settles.ofExcept (K := K) (q := codeProvider = none) (γ := Connection) (Pairing.expectType_checks actual expected what)
  refine .bind (.transceive _ _) fun _ => .bind (typed _ _ _) fun _ => .bind (.transceive _ _) fun _ => .bind (typed _ _ _) fun _ =>
    .bind (.ofExcept (Pairing.decode_checks _ _ _)) fun _ => .bind (.getrandom 16) fun _ => .bind (.transceive _ _) fun _ =>
    .bind (typed _ _ _) fun _ => .bind (.ofExcept (Pairing.decode_checks _ _ _)) fun _ => .bind (.ofExcept (Pairing.as32_checks _)) fun _ =>
    .bind asked fun _ => .bind (.ofExcept (Pairing.parseCode_checks _)) fun _ => .bind (.getrandom 32) fun _ =>
    .bind (.transceive _ _) fun _ => .bind (typed _ _ _) fun _ => .bind (.ofExcept (Pairing.decode_checks _ _ _)) fun _ => ?_
  split
  · exact .fail rfl
  · exact .bind (.transceive _ _) fun _ => .bind (typed _ _ _) fun _ => .bind (.ofExcept (Pairing.decode_checks _ _ _)) fun _ => .pure _

theorem establish_settles (p : Pairer) : Settles K (p.codeProvider = none) (p.run K : Io γ PairedSession) := by
  have closes : ∀ credential, Settles K (p.codeProvider = none) (do
      Pairing.endRequest K
      let features ← (Pairing.getFeatures K).on K
      pure (sessionOf features credential)) :=
    fun credential => closingChat_on credential ▸ .chat (closingChat_paced credential) (.bind endChat_ownErrors fun _ =>
      .bind getFeatures_ownErrors fun _ => .done _)
  refine .bind (.ofExcept (toArray32_checks _)) fun hostStatic => .bind (new_settles _) fun conn => .bind (.runOwned ?_ _) fun _ => .pure _
  refine .bind .allocate fun allocation => .bind (.handshake _ _ _) fun keys => .bind (.modifyOwn _) fun _ => ?_
  split
  · exact .bind (.pure _) closes
  · exact .bind (pairing_settles _ _ _ _ _) closes

theorem probe_settles : Settles K q (thpProbe K : Io γ ThpProbeResult) :=
  .bind (new_settles _) fun _ => .bind (.runOwned (.bind .allocate fun _ => .bind (.getrandom 32) fun _ =>
    .bind (.handshake _ _ _) fun _ => .pure _) _) fun _ => .pure _

end Settling

/-- The transport reports a failure to some read, and no write hangs. -/
structure Reports (w : Wire) : Prop where
  reads : ∃ e, .error e ∈ w.inbox
  writes : ∀ n, w.onWrite n ≠ .never

/-- The call ends with a value or an error, if it is not dropped for want of the transport or for `q`. -/
structure Returns (q : Prop) {α : Type} (w : Wire) (o : Outcome TrezorError α) : Prop where
  noPanic : o ≠ .panicked
  reported : Reports w → ¬ q → (∃ a, o = .ok a) ∨ ∃ e, o = .err e

theorem Reports.not_hangs {w : Wire} (reports : Reports w) : ¬ Hangs w := by
  obtain ⟨⟨e, failure⟩, writes⟩ := reports
  rintro (reads | ⟨n, -, never⟩)
  · obtain ⟨chunk, isChunk⟩ := reads _ failure
    cases isChunk
  · exact writes n never

theorem returns_of_settles {q : Prop} {γ α : Type} {K : Crates} {x : Io γ α} (settles : Settles K q x) (h : Host γ) :
    Returns q h.wire (x.run h).1 := by
  obtain ⟨a, ok, -⟩ | ⟨e, err, -⟩ | ⟨dropped, waits, -⟩ := (settles h).cases
  · exact ⟨by rw [ok]; nofun, fun _ _ => .inl ⟨a, ok⟩⟩
  · exact ⟨by rw [err]; nofun, fun _ _ => .inr ⟨e, err⟩⟩
  · exact ⟨by rw [dropped]; nofun, fun reports other => (waits.resolve_left reports.not_hangs |> other).elim⟩

/-- So in a release build, and where there is room for the counters in a build with overflow checks. -/
structure ReturnsBuilt (q room : Prop) {γ α : Type} (x : Io γ α) (h : Host γ) : Prop where
  wrapping : Returns q h.wire (x.run h).1
  checking : room → Returns q h.wire ((checked x).run h).1

theorem returnsBuilt_of_settles {q room : Prop} {γ α : Type} {K : Crates} {x : Io γ α} {h : Host γ} (settles : Settles K q x)
    (unspent : room → Unspent h.wire.trace (x.run h).2.wire) : ReturnsBuilt q room x h := by
  have returns := returns_of_settles settles h
  refine ⟨returns, fun below => ?_⟩
  rw [checked_unspent (unspent below)]
  exact returns

/-- **Every call returns.** From any state of the client, reachable or not, whatever the device sends
and however the transport cuts it up, no operation, no pairing and no probe panics; and when the
transport reports a failure to some read and completes its writes, all of them return, a pairing
if the user answers. A build with overflow checks needs counters of the pinned session that are
further below their maximum than there are chunks to come. -/
theorem calls_return (K : Crates) :
    (∀ (c : Call) (h : Host Slot), ReturnsBuilt False (Spare h) (c.run K) h) ∧
    (∀ (γ : Type) (p : Pairer) (h : Host γ), ReturnsBuilt (p.codeProvider = none) (FewArrive h.wire) (p.run K) h) ∧
    ∀ (γ : Type) (h : Host γ), ReturnsBuilt False (FewArrive h.wire) (thpProbe K) h := by
  refine ⟨fun c h => ?_, fun γ p h => ?_, fun γ h => ?_⟩
  · exact returnsBuilt_of_settles (call_settles (K := K) c) (call_unspent c)
  · exact returnsBuilt_of_settles (establish_settles (K := K) p) (establish_unspent p)
  · exact returnsBuilt_of_settles (probe_settles (K := K)) probe_unspent

/-- A client with a pinned session, and a transport that is gone. -/
def cutOff : Host Slot := ⟨some standardConnection, Wire.quiet.withInbox [.error (.disconnected "link lost")]⟩

theorem cutOff_spare : Spare cutOff := by
  refine ⟨?_, fun c s slot established => ?_, fun c s slot established => ?_⟩
  · show 2 < Session.MAX_NONCE.toNat
    decide
  all_goals
    cases slot
    cases established
    decide

theorem calls_return_sample :
    (∃ v, ((checked ((addressCall 1).run Crates.wallets)).run cutOff).1 = .ok v) ∨
      ∃ e, ((checked ((addressCall 1).run Crates.wallets)).run cutOff).1 = .err e := by
  have gone : Reports cutOff.wire := ⟨⟨_, List.mem_singleton_self _⟩, nofun⟩
  exact (((calls_return Crates.wallets).1 (addressCall 1) cutOff).checking cutOff_spare).reported gone not_false

/-! ## What the errors tell -/

/-- An operation of the transport failed on the way. -/
inductive Fails (w w' : Wire) (e : TrezorTransportError) : Prop
  | read {before after : List (Except TrezorTransportError Bytes)} : w.inbox = before ++ .error e :: (after ++ w'.inbox) → Fails w w' e
  | write {n : Nat} : w.written ≤ n → n < w'.written → w.onWrite n = .failed e → Fails w w' e

section Failing

variable {w w' : Wire} {e e' : TrezorTransportError}

/-- A failed read is among the chunks that are gone. -/
theorem read_gone {gone before after : List (Except TrezorTransportError Bytes)} (all : w.inbox = gone ++ w'.inbox)
    (failed : w.inbox = before ++ .error e :: (after ++ w'.inbox)) : .error e ∈ gone := by
  rw [all, ← List.cons_append, ← List.append_assoc] at failed
  rw [List.append_cancel_right failed]
  exact List.mem_append_right _ List.mem_cons_self

theorem not_error_of_map {chunks : List Bytes} : (.error e : Except TrezorTransportError Bytes) ∉ chunks.map .ok := by
  intro mem
  obtain ⟨chunk, -, is⟩ := List.mem_map.1 mem
  cases is

theorem stalled_fails (stalled : Stalled w w') : ¬ Fails w w' e := by
  rintro (failed | ⟨low, high, failed⟩)
  · obtain ⟨chunks, all⟩ := stalled.read
    exact not_error_of_map (read_gone all failed)
  · exact stalled.done _ e low high failed

theorem passed_fails (passed : Passed w w') : ¬ Fails w w' e :=
  stalled_fails ⟨passed.read, fun n e low high => by rw [passed.done n low high]; nofun⟩

/-- The last operation is the only one that failed. -/
theorem broke_fails (broke : Broke w e w') (fails : Fails w w' e') : e' = e := by
  cases broke with
  | @read w1 passed last written =>
    obtain ⟨chunks, all⟩ := passed.read
    cases fails with
    | read failed =>
      rw [last, List.append_cons] at all
      rcases List.mem_append.1 (read_gone all failed) with mem | mem
      · exact absurd mem not_error_of_map
      · cases List.mem_singleton.1 mem
        rfl
    | write low high failed =>
      rw [written] at high
      rw [passed.done _ low high] at failed
      cases failed
  | @write w1 passed last written inbox =>
    obtain ⟨chunks, all⟩ := passed.read
    cases fails with
    | read failed =>
      rw [← inbox] at all
      exact absurd (read_gone all failed) not_error_of_map
    | @write n low high failed =>
      rw [written] at high
      rcases Nat.lt_or_eq_of_le (Nat.le_of_lt_succ high) with early | rfl
      · rw [passed.done n low early] at failed
        cases failed
      · rw [passed.onWrite, failed] at last
        cases last
        rfl

end Failing

/-- What an error tells of the run of a method. Neither `invalidInput` nor `protocol` is ever used. -/
inductive ErrorTells (K : Crates) (m : Method) (w w' : Wire) : TrezorError → Prop
  /-- The last operation of the transport failed. -/
  | transport {e : TrezorTransportError} : Broke w e w' → ErrorTells K m w w' (.ofTransport e)
  /-- The last frame was the device's report that it is busy. -/
  | busy {es : List Event} {payload : Bytes} : w'.trace = es ++ [.frameIn Framing.Control.TRANSPORT_ERROR payload] →
      payload.head? = some 1 → ErrorTells K m w w' .transportBusy
  /-- The last message was a `Failure` that the user caused. -/
  | canceled {es : List Event} {id : Nat} {nonce : UInt64} {reply : AppMessage} {failure : Failure} : w'.trace = es ++ [.appIn id nonce reply] →
      reply.type = MSG_FAILURE → K.failure.decode reply.body = .ok failure → failure.code = some 4 → ErrorTells K m w w' .userCanceled
  /-- It was another `Failure`. -/
  | rejected {es : List Event} {id : Nat} {nonce : UInt64} {reply : AppMessage} {failure : Failure} : w'.trace = es ++ [.appIn id nonce reply] →
      reply.type = MSG_FAILURE → K.failure.decode reply.body = .ok failure → failure.code.getD 0 ≠ 4 →
      ErrorTells K m w w' (.deviceRejected (failure.code.getD 0) (failure.message.getD ""))
  /-- The method does nothing. -/
  | notImplemented {feature : String} : m = .notImplemented feature → ErrorTells K m w w' (.notImplemented feature)
  /-- The host found fault itself, and all operations of the transport went through. -/
  | own {e : TrezorError} : e.isOwn = true → Passed w w' → ErrorTells K m w w' e

/-- What the outcome of a method tells. -/
structure Tells (K : Crates) (m : Method) (w : Wire) (o : Outcome TrezorError Unit) (w' : Wire) : Prop where
  /-- A failure of the transport ends the method there, with its text. -/
  stops : ∀ e, Fails w w' e → o = .err (.ofTransport e) ∧ Broke w e w'
  told : ∀ e, o = .err e → ErrorTells K m w w' e

section Telling

variable {K : Crates} {m : Method} {w w' : Wire}

theorem decodeTransportError_own {payload : Bytes} (other : payload.head? ≠ some 1) : (decodeTransportError payload).isOwn = true := by
  rw [decodeTransportError]
  dsimp only
  split
  · next code =>
    rcases head : payload.head? with _ | b <;> rw [head] at code other
    · cases code
    · exact absurd (congrArg some code) other
  · rfl

theorem decodeFailure_cases (body : Bytes) : (decodeFailure K body).isOwn = true ∨ ∃ failure, K.failure.decode body = .ok failure ∧
    (failure.code = some 4 ∧ decodeFailure K body = .userCanceled ∨
      failure.code.getD 0 ≠ 4 ∧ decodeFailure K body = .deviceRejected (failure.code.getD 0) (failure.message.getD "")) := by
  rw [decodeFailure]
  rcases K.failure.decode body with e | failure
  · exact .inl rfl
  · refine .inr ⟨failure, rfl, ?_⟩
    dsimp only
    split
    · next code =>
      refine .inl ⟨?_, rfl⟩
      rcases coded : failure.code with _ | c <;> rw [coded] at code
      · cases code
      · exact congrArg some code
    · next code => exact .inr ⟨code, rfl⟩

theorem errorTells_of_explained {e : TrezorError} (cause : Explained K w e w') : ErrorTells K m w w' e := by
  cases cause with
  | broke broke => exact .transport broke
  | @reported _ _ payload passed last =>
    by_cases busy : payload.head? = some 1
    · have is : decodeTransportError payload = .transportBusy := by
        rw [decodeTransportError, busy]
        rfl
      exact is ▸ .busy last busy
    · exact .own (decodeTransportError_own busy) passed
  | refused passed last failure =>
    obtain isOwn | ⟨told, decodes, ⟨code, is⟩ | ⟨code, is⟩⟩ := decodeFailure_cases (K := K) _
    · exact .own isOwn passed
    · exact is ▸ .canceled last failure decodes code
    · exact is ▸ .rejected last failure decodes code
  | own passed isOwn => exact .own isOwn passed

/-- Only a failure of the transport leaves one behind. -/
theorem explained_fails {e : TrezorError} {e' : TrezorTransportError} (cause : Explained K w e w') (fails : Fails w w' e') :
    e = .ofTransport e' ∧ Broke w e' w' := by
  cases cause with
  | broke broke =>
    cases broke_fails broke fails
    exact ⟨rfl, broke⟩
  | reported passed _ | refused passed _ _ | own passed _ => exact absurd fails (passed_fails passed)

theorem tells_of_settles {q : Prop} {x : Io Slot Unit} (settles : Settles K q x) (h : Host Slot) :
    Tells K m h.wire (x.run h).1 (x.run h).2.wire := by
  obtain ⟨a, ok, passed⟩ | ⟨e, err, cause⟩ | ⟨dropped, -, stalled⟩ := (settles h).cases
  · exact ⟨fun _ fails => absurd fails (passed_fails passed), fun e is => by rw [ok] at is; cases is⟩
  · refine ⟨fun e' fails => ?_, fun e' is => ?_⟩
    · obtain ⟨rfl, broke⟩ := explained_fails cause fails
      exact ⟨err, broke⟩
    · rw [err] at is
      cases is
      exact errorTells_of_explained cause
  · exact ⟨fun _ fails => absurd fails (stalled_fails stalled), fun e is => by rw [dropped] at is; cases is⟩

end Telling

/-- **Errors tell what happened.** For every public method, from any state of the client and whatever
the device and the transport do: the method stops at the first failure of the transport and returns
its text, and only such a failure gives a transport error; it reports a busy device, a cancellation
or a rejection exactly as the last frame or the last message said, and nothing else as such. -/
theorem errors_tell (K : Crates) (m : Method) (h : Host Slot) : Tells K m h.wire ((m.run K).run h).1 ((m.run K).run h).2.wire := by
  cases m with
  | pinned c => exact tells_of_settles (.bind (call_settles (q := False) c) fun _ => .pure ()) h
  | thpProbe => exact tells_of_settles (.bind (probe_settles (q := False)) fun _ => .pure ()) h
  | establishPairedSession hostStaticPriv hostName appName storedCredential codeProvider =>
    exact tells_of_settles (.bind (establish_settles ⟨hostStaticPriv, hostName, appName, storedCredential, codeProvider⟩) fun _ => .pure ()) h
  | notImplemented feature =>
    refine ⟨fun _ fails => absurd fails (passed_fails (.refl h.wire)), ?_⟩
    rintro _ ⟨⟩
    exact .notImplemented rfl

end TrezorCore.Client
