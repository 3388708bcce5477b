import TrezorCore.Lib.Protobuf
import TrezorCore.Lib.Trail
import TrezorCore.Thp.Pairing

/-!
# The pairing as a state machine

What `run_codeentry_pairing` may say and when, over the application messages of any run. The host is
ready to ask, waits for a reply, owes an acknowledgement, or has stopped; the code follows this machine
from its first message to its last, whatever the device sends and however the run ends. It follows
for which replies a credential that comes back belongs to the code that was entered.
-/

namespace TrezorCore.Pairing

open Connection

variable (K : Crates)

/-- The host's five requests, in order. -/
def requestTypes : List UInt16 :=
  [T_PAIRING_REQUEST, T_SELECT_METHOD, T_CODE_ENTRY_CHALLENGE, T_CODE_ENTRY_CPACE_HOST_TAG, T_CREDENTIAL_REQUEST]

/-- The reply that each of them expects. -/
def replyTypes : List UInt16 :=
  [T_PAIRING_REQUEST_APPROVED, T_CODE_ENTRY_COMMITMENT, T_CODE_ENTRY_CPACE_TREZOR, T_CODE_ENTRY_SECRET, T_CREDENTIAL_RESPONSE]

/-! ## The machine -/

/-- Where the host stands, with the bodies of the expected replies so far. -/
inductive Stage where
  | ready (heard : List Bytes)
  | waiting (heard : List Bytes)
  | acking (heard : List Bytes)
  | stopped (heard : List Bytes)

/-- The code that was entered is a number. -/
def Entered (codeProvider : Option String) : Prop :=
  ∃ codeStr code, codeProvider = some codeStr ∧ parseCode codeStr = .ok code

/-- The secret of one reply opens the commitment of another. -/
def Opens (commitmentBody secretBody : Bytes) : Prop :=
  ∃ commitment secret, K.codeEntryCommitment.decode commitmentBody = .ok commitment ∧
    K.codeEntrySecret.decode secretBody = .ok secret ∧ (K.sha256 secret.secret).1 = commitment.commitment

/-- What must hold before the next request goes out. -/
structure Allowed (codeProvider : Option String) (heard : List Bytes) : Prop where
  tag : heard.length = 3 → Entered codeProvider
  credential : heard.length = 4 → ∃ commitmentBody secretBody, heard[1]? = some commitmentBody ∧
    heard[3]? = some secretBody ∧ Opens K commitmentBody secretBody

/-- One application event. -/
inductive Step (who : Speaker) (codeProvider : Option String) : Stage → Event → Stage → Prop where
  | ask {heard : List Bytes} {m : AppMessage} (session : m.sessionId = who.activeSessionId)
      (next : requestTypes[heard.length]? = some m.type) (allowed : Allowed K codeProvider heard) :
      Step who codeProvider (.ready heard) (.appOut who.id m) (.waiting heard)
  | button {heard : List Bytes} {n : UInt64} {m : AppMessage} (button : m.type = MSG_BUTTON_REQUEST) :
      Step who codeProvider (.waiting heard) (.appIn who.id n m) (.acking heard)
  | ack {heard : List Bytes} {m : AppMessage} (session : m.sessionId = who.activeSessionId) (ack : m.type = MSG_BUTTON_ACK) :
      Step who codeProvider (.acking heard) (.appOut who.id m) (.waiting heard)
  | reply {heard : List Bytes} {n : UInt64} {m : AppMessage} (expected : replyTypes[heard.length]? = some m.type) :
      Step who codeProvider (.waiting heard) (.appIn who.id n m) (.ready (heard ++ [m.body]))
  | refuse {heard : List Bytes} {n : UInt64} {m : AppMessage} (other : m.type ≠ MSG_BUTTON_REQUEST)
      (unexpected : replyTypes[heard.length]? ≠ some m.type) :
      Step who codeProvider (.waiting heard) (.appIn who.id n m) (.stopped heard)
  | noted {heard : List Bytes} {type : UInt16} {body : Bytes} :
      Step who codeProvider (.ready heard) (.exchanged who.id type body) (.ready heard)
  | notedLast {heard : List Bytes} {type : UInt16} {body : Bytes} :
      Step who codeProvider (.stopped heard) (.exchanged who.id type body) (.stopped heard)

/-- A history and the stage it leads to. -/
def Follows (who : Speaker) (codeProvider : Option String) (es : List Event) (s : Stage) : Prop :=
  Trail (Step K who codeProvider) (.ready []) es s

variable {K} {t : List Event} {who : Speaker} {codeProvider : Option String} {s s' : Stage} {heard : List Bytes}

/-! ## The code follows the machine -/

/-- The messages since `t` lead to `s`. -/
def At (K : Crates) (t : List Event) (who : Speaker) (codeProvider : Option String) (s : Stage) : Host Connection → Prop :=
  Since t who fun es => Follows K who codeProvider es s

/-- Every button request is acknowledged. -/
def Stage.Settled : Stage → Prop
  | .acking _ => False
  | _ => True

def Stage.Going : Stage → Prop
  | .ready _ | .waiting _ => True
  | _ => False

/-- A pairing that went through: the five replies, each as it must be. -/
structure Complete (K : Crates) (codeProvider : Option String) (heard : List Bytes) (credential : Bytes) : Prop where
  entered : Entered codeProvider
  replies : ∃ approval commitmentBody cpaceBody secretBody credentialBody cpaceTrezor response,
    heard = [approval, commitmentBody, cpaceBody, secretBody, credentialBody] ∧ Opens K commitmentBody secretBody ∧
    K.codeEntryCpaceTrezor.decode cpaceBody = .ok cpaceTrezor ∧ cpaceTrezor.cpaceTrezorPublicKey.length = 32 ∧
    K.credentialResponse.decode credentialBody = .ok response ∧ response.credential = credential

theorem Complete.five {credential : Bytes} (complete : Complete K codeProvider heard credential) : heard.length = 5 := by
  obtain ⟨_, _, _, _, _, _, _, rfl, _⟩ := complete.replies
  rfl

/-- The stage is not one that a credential comes back from. -/
def Stage.Short (K : Crates) (codeProvider : Option String) : Stage → Prop
  | .ready heard => ∀ credential, ¬ Complete K codeProvider heard credential
  | _ => True

theorem short_of_length (early : heard.length < 5) : (Stage.ready heard).Short K codeProvider := by
  intro credential complete
  have five := complete.five
  omega

/-- How a run that returned an error has left the connection. -/
def Failed (K : Crates) (t : List Event) (who : Speaker) (codeProvider : Option String) (h : Host Connection) : Prop :=
  ∃ s : Stage, s.Settled ∧ s.Short K codeProvider ∧ At K t who codeProvider s h

/-- How a run that was cut off has left it. -/
def CutOff (K : Crates) (t : List Event) (who : Speaker) (codeProvider : Option String) (h : Host Connection) : Prop :=
  ∃ s : Stage, s.Going ∧ s.Short K codeProvider ∧ At K t who codeProvider s h

theorem CutOff.failed {h : Host Connection} (cut : CutOff K t who codeProvider h) : Failed K t who codeProvider h := by
  obtain ⟨s, going, short, at_s⟩ := cut
  refine ⟨s, ?_, short, at_s⟩
  cases s <;> first | exact going | exact trivial

theorem then_follows {e : Event} (step : Step K who codeProvider s e s') (es : List Event)
    (said : Then (Follows K who codeProvider · s) e es) : Follows K who codeProvider es s' := by
  obtain ⟨before, follows, rfl⟩ := said
  exact follows.snoc step

/-- Sending moves the machine, unless there is no session. -/
theorem sendApp_at {type : UInt16} {body : Bytes}
    (step : Step K who codeProvider s (.appOut who.id ⟨who.activeSessionId, type, body⟩) s') (going : s.Going)
    (short : s.Short K codeProvider) (going' : s'.Going) (short' : s'.Short K codeProvider) :
    Comp.Triple (At K t who codeProvider s) (sendApp K type body) (fun _ => At K t who codeProvider s') (CutOff K t who codeProvider) := by
  apply (sendApp_since type body (Φ := (Follows K who codeProvider · s)) (B := CutOff K t who codeProvider) ?_ ?_).conseq
  · exact fun _ at_s => at_s
  · exact fun _ _ since => since.mono (then_follows step)
  · exact fun _ cut => cut
  · exact fun h at_s => ⟨s, going, short, at_s⟩
  · exact fun h since => ⟨s', going', short', since.mono (then_follows step)⟩

theorem reply_not_special {k : Nat} {type : UInt16} (h : replyTypes[k]? = some type) :
    type ≠ MSG_BUTTON_REQUEST ∧ type ≠ MSG_FAILURE := by
  have none : replyTypes.all (fun type => type ≠ MSG_BUTTON_REQUEST ∧ type ≠ MSG_FAILURE) := by decide
  exact of_decide_eq_true (List.all_eq_true.1 none type (List.mem_of_getElem? h))

/-- Where a reply leads to. -/
def answered (heard : List Bytes) (r : UInt16 × Bytes) : Stage :=
  if replyTypes[heard.length]? = some r.1 then .ready (heard ++ [r.2]) else .stopped heard

theorem step_answered {r : UInt16 × Bytes} (other : r.1 ≠ MSG_BUTTON_REQUEST) (n : UInt64) (sid : UInt8) :
    Step K who codeProvider (.waiting heard) (.appIn who.id n ⟨sid, r.1, r.2⟩) (answered heard r) := by
  unfold answered
  split
  · exact .reply ‹_›
  · exact .refuse other ‹_›

theorem noted_answered (r : UInt16 × Bytes) :
    Step K who codeProvider (answered heard r) (.exchanged who.id r.1 r.2) (answered heard r) := by
  unfold answered
  split
  · exact .noted
  · exact .notedLast

theorem answered_short {r : UInt16 × Bytes} (other : replyTypes[heard.length]? ≠ some r.1) :
    (answered heard r).Short K codeProvider := by
  rw [answered, if_neg other]
  trivial

theorem answered_settled (heard : List Bytes) (r : UInt16 × Bytes) : (answered heard r).Settled := by
  unfold answered
  split <;> trivial

/-- One turn of `transceive`: a button request is acknowledged at once, a failure stops the host. -/
theorem transceiveTurn_at (u : Unit) :
    Comp.Halts (At K t who codeProvider (.waiting heard)) (transceiveTurn K u)
      (Sum.elim (fun _ => At K t who codeProvider (.waiting heard)) fun r => At K t who codeProvider (answered heard r))
      (Failed K t who codeProvider) (CutOff K t who codeProvider) := by
  have received := (recvApp_since (K := K) (B := CutOff K t who codeProvider) (Φ := (Follows K who codeProvider · (.waiting heard)))
    fun h at_s => ⟨.waiting heard, trivial, trivial, at_s⟩).and recvApp_established
  refine .bind (.of_triple (received.conseq (fun _ at_s => at_s) (fun _ _ both => both) fun _ both => both.1)
    fun _ => CutOff.failed) fun r => ?_
  rintro h ⟨⟨same, es, trace, n, sid, said⟩, some_session⟩
  by_cases button : r.1 = MSG_BUTTON_REQUEST
  · simp only [if_pos button]
    have owed : At K t who codeProvider (.acking heard) h := ⟨same, es, trace, then_follows (.button button) _ said⟩
    -- the session that opened the button request seals its acknowledgement
    have acked : Comp.Triple (fun h => At K t who codeProvider (.acking heard) h ∧ h.own.session.isSome)
        (sendApp K MSG_BUTTON_ACK (K.buttonAck.encode {})) (fun _ => At K t who codeProvider (.waiting heard))
        (CutOff K t who codeProvider) := by
      apply (sendApp_established (Φ := (Follows K who codeProvider · (.acking heard))) _ _ fun h since =>
        (⟨.waiting heard, trivial, trivial, since.mono (then_follows (.ack rfl rfl))⟩ : CutOff K t who codeProvider h)).conseq
      · exact fun _ both => both
      · exact fun _ _ since => since.mono (then_follows (.ack rfl rfl))
      · exact fun _ cut => cut
    exact Comp.Halts.bind (.of_triple acked fun _ => CutOff.failed) (fun _ => .pure (Sum.inl ()) fun _ at_s => at_s) h
      ⟨owed, some_session⟩
  · simp only [if_neg button]
    have heard' : At K t who codeProvider (answered heard r) h :=
      ⟨same, es, trace, then_follows (step_answered button n sid) _ said⟩
    by_cases failed : r.1 = MSG_FAILURE
    · simp only [if_pos failed]
      have other : replyTypes[heard.length]? ≠ some r.1 := fun expected => (reply_not_special expected).2 failed
      exact ⟨_, answered_settled heard r, answered_short other, heard'⟩
    · simp only [if_neg failed]
      exact heard'

/-- A request is sent and its reply comes back, or the run ends in a stage that allows it. -/
theorem transceive_at {type : UInt16} {body : Bytes} (next : requestTypes[heard.length]? = some type)
    (allowed : Allowed K codeProvider heard) :
    Comp.Halts (At K t who codeProvider (.ready heard)) (transceive K type body)
      (fun r => At K t who codeProvider (answered heard r)) (Failed K t who codeProvider) (CutOff K t who codeProvider) := by
  have asked : Step K who codeProvider (.ready heard) (.appOut who.id ⟨who.activeSessionId, type, body⟩) (.waiting heard) :=
    .ask rfl next allowed
  have early : heard.length < 5 := (List.getElem?_eq_some_iff.1 next).1
  refine .bind (.of_triple (sendApp_at asked trivial (short_of_length early) trivial trivial) fun _ => CutOff.failed) fun _ => ?_
  refine .bind (.loop (fun _ h at_s => ⟨.waiting heard, trivial, trivial, at_s⟩) transceiveTurn_at ()) fun r => ?_
  rintro h ⟨rfl, es, trace, follows⟩
  rw [Io.run_own_bind, Io.run_note_bind]
  apply Since.logAll (Φ := (Follows K h.own.speaker codeProvider · (answered heard r))) ⟨rfl, es, trace, follows⟩
    [.exchanged h.own.id r.1 r.2] rfl rfl
  exact fun es follows => follows.snoc (noted_answered r)

/-- The check of a reply's type finds out where the machine stands. -/
theorem checked_at {α : Type} {rt expected : UInt16} {rp : Bytes} {what : String} {f : Unit → Io Connection α}
    {Q : α → Host Connection → Prop} (reply : replyTypes[heard.length]? = some expected)
    (later : Comp.Halts (At K t who codeProvider (.ready (heard ++ [rp]))) (f ()) Q (Failed K t who codeProvider)
      (CutOff K t who codeProvider)) :
    Comp.Halts (At K t who codeProvider (answered heard (rt, rp))) (.ofExcept (expectType rt expected what) >>= f) Q
      (Failed K t who codeProvider) (CutOff K t who codeProvider) := by
  refine .ofExcept_bind (fun _ checked => ?_) fun e failed h at_s =>
    ⟨_, answered_settled heard (rt, rp), answered_short ?_, at_s⟩
  case refine_2 =>
    rw [reply]
    exact fun same => expectType_error failed (Option.some.inj same).symm
  have stage : answered heard (rt, rp) = .ready (heard ++ [rp]) := if_pos (by rw [reply, expectType_ok checked])
  rw [stage]
  exact later

/-- A check fails before the last reply. -/
theorem early_at {h : Host Connection} (early : heard.length < 5) (at_s : At K t who codeProvider (.ready heard) h) :
    Failed K t who codeProvider h := ⟨.ready heard, trivial, short_of_length early, at_s⟩

/-- A credential that does not decode is none. -/
theorem undecoded_short {approval commitmentBody cpaceBody secretBody credentialBody : Bytes} {what : String} {e : TrezorError}
    (failed : decode K.credentialResponse what credentialBody = .error e) :
    (Stage.ready [approval, commitmentBody, cpaceBody, secretBody, credentialBody]).Short K codeProvider := by
  intro credential complete
  obtain ⟨_, _, _, _, _, _, response, same, _, _, _, decoded, _⟩ := complete.replies
  cases same
  exact decode_error failed response decoded

theorem getrandom_at {E B : Host Connection → Prop} (n : Nat) :
    Comp.Halts (At K t who codeProvider s) (Io.getrandom n) (fun _ => At K t who codeProvider s) E B :=
  fun _ at_s => at_s

/-- Before the third reply no request is guarded. -/
theorem allowed_early (short : heard.length < 3) : Allowed K codeProvider heard :=
  ⟨fun three => by omega, fun four => by omega⟩

/-- **The code follows the machine**, and what it returns is what the machine has heard. -/
theorem runCodeentryPairing_at (handshakeHash hostStaticPubkey : Octets 32) (hostName appName : String)
    (codeProvider : Option String) :
    Comp.Halts (At K t who codeProvider (.ready []))
      (runCodeentryPairing K handshakeHash hostStaticPubkey hostName appName codeProvider)
      (fun credential h => ∃ heard, Complete K codeProvider heard credential ∧ At K t who codeProvider (.ready heard) h)
      (Failed K t who codeProvider) (CutOff K t who codeProvider) := by
  refine .bind (transceive_at rfl (allowed_early (by simp))) ?_
  rintro ⟨_, approval⟩
  refine checked_at rfl ?_
  refine .bind (transceive_at rfl (allowed_early (by simp))) ?_
  rintro ⟨_, commitmentBody⟩
  refine checked_at rfl (.ofExcept_bind (fun commitment decoded => ?_) fun _ _ _ => early_at (by simp))
  have commitmentDecoded := decode_ok decoded
  refine .bind (getrandom_at 16) fun challenge => ?_
  refine .bind (transceive_at rfl (allowed_early (by simp))) ?_
  rintro ⟨_, cpaceBody⟩
  refine checked_at rfl (.ofExcept_bind (fun cpaceTrezor decoded => ?_) fun _ _ _ => early_at (by simp))
  have cpaceDecoded := decode_ok decoded
  refine .ofExcept_bind (fun cpaceTrezorPub key => ?_) fun _ _ _ => early_at (by simp)
  have key := as32_ok key
  -- the host UI answers or the run is cut off here
  cases codeProvider with
  | none => exact fun h at_s => ⟨.ready _, trivial, short_of_length (by simp), at_s⟩
  | some codeStr =>
    change Comp.Halts _ (Comp.ofExcept (parseCode codeStr) >>= _) _ _ _
    refine .ofExcept_bind (fun code parsed => ?_) fun _ _ _ => early_at (by simp)
    have entered : Entered (some codeStr) := ⟨codeStr, code, rfl, parsed⟩
    refine .bind (getrandom_at 32) fun hostPriv => ?_
    refine .bind (transceive_at rfl ⟨fun _ => entered, fun four => by simp at four⟩) ?_
    rintro ⟨_, secretBody⟩
    refine checked_at rfl (.ofExcept_bind (fun secret decoded => ?_) fun _ _ _ => early_at (by simp))
    have secretDecoded := decode_ok decoded
    by_cases committed : (K.sha256 secret.secret).1 ≠ commitment.commitment
    · simp only [if_pos committed]
      exact .fail _ fun _ => early_at (by simp)
    · simp only [if_neg committed]
      have opens : Opens K commitmentBody secretBody :=
        ⟨commitment, secret, commitmentDecoded, secretDecoded, not_not.1 committed⟩
      refine .bind (transceive_at rfl ⟨fun three => by simp at three, fun _ => ⟨_, _, rfl, rfl, opens⟩⟩) ?_
      rintro ⟨_, credentialBody⟩
      refine checked_at rfl (.ofExcept_bind (fun response decoded => ?_) fun e failed h at_s =>
        ⟨.ready _, trivial, undecoded_short failed, at_s⟩)
      have credentialDecoded := decode_ok decoded
      refine .pure _ fun h at_s => ⟨_, ⟨entered, approval, commitmentBody, cpaceBody, secretBody, credentialBody, cpaceTrezor,
        response, rfl, opens, cpaceDecoded, ?_, credentialDecoded, rfl⟩, at_s⟩
      rw [key]
      exact cpaceTrezorPub.2

/-! ## What the machine allows -/

def messageType (m : AppMessage) : UInt16 := m.type

def typeAndBody (m : AppMessage) : UInt16 × Bytes := (m.type, m.body)

/-- The host's messages other than acknowledgements. -/
def requestsIn (es : List Event) : List AppMessage := es.filterMap fun
  | .appOut _ m => if m.type = MSG_BUTTON_ACK then none else some m
  | _ => none

/-- The device's messages other than button requests. -/
def repliesIn (es : List Event) : List AppMessage := es.filterMap fun
  | .appIn _ _ m => if m.type = MSG_BUTTON_REQUEST then none else some m
  | _ => none

@[simp] theorem requestsIn_append (a b : List Event) : requestsIn (a ++ b) = requestsIn a ++ requestsIn b := List.filterMap_append

@[simp] theorem repliesIn_append (a b : List Event) : repliesIn (a ++ b) = repliesIn a ++ repliesIn b := List.filterMap_append

def Stage.bodies : Stage → List Bytes
  | .ready heard | .waiting heard | .acking heard | .stopped heard => heard

/-- How many requests have been sent. -/
def Stage.asked : Stage → Nat
  | .ready heard => heard.length
  | .waiting heard | .acking heard | .stopped heard => heard.length + 1

/-- The reply that stopped the host, if one did. -/
def Stage.Refused : Stage → List (UInt16 × Bytes) → Prop
  | .stopped heard, tail => ∃ r, tail = [r] ∧ replyTypes[heard.length]? ≠ some r.1
  | _, tail => tail = []

/-- The history behind a stage. -/
structure Tracks (es : List Event) (s : Stage) : Prop where
  asked : (requestsIn es).map messageType = requestTypes.take s.asked
  bounded : s.asked ≤ 5
  answered : ∃ tail, (repliesIn es).map typeAndBody = replyTypes.zip s.bodies ++ tail ∧ s.Refused tail

theorem request_not_ack {k : Nat} {type : UInt16} (h : requestTypes[k]? = some type) : type ≠ MSG_BUTTON_ACK ∧ k < 5 := by
  obtain ⟨inside, rfl⟩ := List.getElem?_eq_some_iff.1 h
  have none : requestTypes.all (· ≠ MSG_BUTTON_ACK) := by decide
  exact ⟨of_decide_eq_true (List.all_eq_true.1 none _ (List.getElem_mem inside)), inside⟩

/-- No two requests are of one type. -/
theorem request_place {j k : Nat} {type : UInt16} (h : requestTypes[k]? = some type) (h' : requestTypes[j]? = some type) : k = j := by
  have once : requestTypes.Nodup := by decide
  obtain ⟨inside, rfl⟩ := List.getElem?_eq_some_iff.1 h
  obtain ⟨inside', same⟩ := List.getElem?_eq_some_iff.1 h'
  exact (once.getElem_inj_iff.1 same).symm

theorem zip_snoc {α β : Type} {xs : List α} {ys : List β} {x : α} (y : β) (next : xs[ys.length]? = some x) :
    xs.zip (ys ++ [y]) = xs.zip ys ++ [(x, y)] := by
  induction ys generalizing xs with
  | nil =>
    cases xs with
    | nil => simp at next
    | cons a xs => simpa using next
  | cons b ys ih =>
    cases xs with
    | nil => simp at next
    | cons a xs => simpa using ih (by simpa using next)

theorem requestsIn_one {id : Nat} {m : AppMessage} (request : m.type ≠ MSG_BUTTON_ACK) : requestsIn [.appOut id m] = [m] := by
  simp [requestsIn, request]

theorem repliesIn_one {id : Nat} {n : UInt64} {m : AppMessage} (reply : m.type ≠ MSG_BUTTON_REQUEST) :
    repliesIn [.appIn id n m] = [m] := by
  simp [repliesIn, reply]

/-- Acknowledgements, button requests and notes leave the count as it is. -/
theorem Tracks.keep {es : List Event} {e : Event} (tracks : Tracks es s) (noRequest : requestsIn [e] = [])
    (noReply : repliesIn [e] = []) (asked : s'.asked = s.asked) (bodies : s'.bodies = s.bodies)
    (refused : ∀ tail, s.Refused tail → s'.Refused tail) : Tracks (es ++ [e]) s' := by
  obtain ⟨sent, bounded, tail, heard, last⟩ := tracks
  refine ⟨?_, asked ▸ bounded, tail, ?_, refused tail last⟩
  · rw [requestsIn_append, noRequest, List.append_nil, asked]
    exact sent
  · rw [repliesIn_append, noReply, List.append_nil, bodies]
    exact heard

theorem Tracks.step {es : List Event} {e : Event} (tracks : Tracks es s) (step : Step K who codeProvider s e s') :
    Tracks (es ++ [e]) s' := by
  cases step with
  | @ask heard m session next allowed =>
    obtain ⟨sent, _, tail, heard, last⟩ := tracks
    obtain ⟨request, short⟩ := request_not_ack next
    refine ⟨?_, short, tail, ?_, last⟩
    · rw [requestsIn_append, requestsIn_one request, List.map_append, sent]
      show _ = requestTypes.take (_ + 1)
      rw [List.take_add_one, next]
      rfl
    · rw [repliesIn_append, show repliesIn [.appOut who.id m] = [] from rfl, List.append_nil]
      exact heard
  | button button => exact tracks.keep rfl (by simp [repliesIn, button]) rfl rfl fun _ last => last
  | ack session ack => exact tracks.keep (by simp [requestsIn, ack]) rfl rfl rfl fun _ last => last
  | @reply bodies n m expected =>
    obtain ⟨sent, bounded, tail, heard, last⟩ := tracks
    have other := (reply_not_special expected).1
    obtain rfl : tail = [] := last
    refine ⟨?_, ?_, [], ?_, rfl⟩
    · simpa [requestsIn, Stage.asked] using sent
    · simpa [Stage.asked] using bounded
    · rw [repliesIn_append, repliesIn_one other, List.map_append, heard]
      simp [Stage.bodies, zip_snoc m.body expected, typeAndBody]
  | @refuse bodies n m other unexpected =>
    obtain ⟨sent, bounded, tail, heard, last⟩ := tracks
    obtain rfl : tail = [] := last
    refine ⟨?_, bounded, [typeAndBody m], ?_, typeAndBody m, rfl, unexpected⟩
    · rw [requestsIn_append, show requestsIn [.appIn who.id n m] = [] from rfl, List.append_nil]
      exact sent
    · rw [repliesIn_append, repliesIn_one other, List.map_append, heard]
      simp [Stage.bodies]
  | noted => exact tracks.keep rfl rfl rfl rfl fun _ last => last
  | notedLast => exact tracks.keep rfl rfl rfl rfl fun _ last => last

theorem Follows.tracks {es : List Event} (follows : Follows K who codeProvider es s) : Tracks es s := by
  have start : Tracks [] (.ready []) := ⟨rfl, Nat.zero_le 5, [], rfl, rfl⟩
  exact Trail.invariant start (fun _ _ _ _ tracks step => tracks.step step) follows

/-- Every message of the host goes out on the connection's active session. -/
theorem Follows.session {es : List Event} (follows : Follows K who codeProvider es s) {id : Nat} {m : AppMessage}
    (said : .appOut id m ∈ es) : id = who.id ∧ m.sessionId = who.activeSessionId := by
  obtain ⟨a, b, rfl⟩ := List.append_of_mem said
  obtain ⟨_, _, _, step, _⟩ := Trail.at_event follows
  cases step with
  | ask session _ _ => exact ⟨rfl, session⟩
  | ack session _ => exact ⟨rfl, session⟩

/-- In the stage that owes an acknowledgement, the last message is the button request. -/
def Owing (es : List Event) (s : Stage) : Prop :=
  ∀ heard, s = .acking heard → ∃ before id n m, es = before ++ [.appIn id n m] ∧ m.type = MSG_BUTTON_REQUEST

theorem Follows.owing {es : List Event} (follows : Follows K who codeProvider es s) : Owing es s := by
  refine Trail.invariant (I := Owing) (fun heard owing => ?_) (fun es m e m' _ step heard owing => ?_) follows
  · cases owing
  · cases step with
    | button button => exact ⟨es, _, _, _, rfl, button⟩
    | ask | ack | reply | refuse | noted | notedLast => cases owing

/-- A button request is acknowledged before anything else happens. -/
theorem Follows.acked {a b : List Event} {id : Nat} {n : UInt64} {m : AppMessage}
    (follows : Follows K who codeProvider (a ++ .appIn id n m :: b) s) (settled : s.Settled) (button : m.type = MSG_BUTTON_REQUEST) :
    ∃ id' m' rest, b = .appOut id' m' :: rest ∧ m'.type = MSG_BUTTON_ACK := by
  obtain ⟨_, _, _, step, rest⟩ := Trail.at_event follows
  cases step with
  | button =>
    cases rest with
    | nil => exact absurd settled id
    | cons step _ =>
      cases step with
      | ack _ ack => exact ⟨_, _, _, rfl, ack⟩
  | reply expected => exact absurd button (reply_not_special expected).1
  | refuse other => exact absurd button other

theorem Follows.ack_only {a b : List Event} {id : Nat} {m : AppMessage}
    (follows : Follows K who codeProvider (a ++ .appOut id m :: b) s) (ack : m.type = MSG_BUTTON_ACK) :
    ∃ before id' n m', a = before ++ [.appIn id' n m'] ∧ m'.type = MSG_BUTTON_REQUEST := by
  obtain ⟨_, _, first, step, _⟩ := Trail.at_event follows
  cases step with
  | ask _ next _ => exact absurd ack (request_not_ack next).1
  | ack => exact Follows.owing first _ rfl

/-- A request goes out when what guards it holds, over the replies before it. -/
theorem Follows.guarded {a b : List Event} {id : Nat} {m : AppMessage}
    (follows : Follows K who codeProvider (a ++ .appOut id m :: b) s) (request : m.type ≠ MSG_BUTTON_ACK) :
    ∃ heard, requestTypes[heard.length]? = some m.type ∧ Allowed K codeProvider heard ∧
      (repliesIn a).map typeAndBody = replyTypes.zip heard := by
  obtain ⟨_, _, first, step, _⟩ := Trail.at_event follows
  cases step with
  | @ask heard _ _ next allowed =>
    obtain ⟨_, _, tail, answered, rfl⟩ := Follows.tracks first
    exact ⟨heard, next, allowed, by simpa [Stage.bodies] using answered⟩
  | ack _ ack => exact absurd ack request

/-- The host has stopped and sends nothing. -/
def Silenced (es : List Event) (s : Stage) : Prop := (∃ heard, s = .stopped heard) ∧ ∀ id m, .appOut id m ∉ es

/-- A failure or another message that is not expected is the last one of the run. -/
theorem Follows.refused {a b : List Event} {id : Nat} {n : UInt64} {m : AppMessage}
    (follows : Follows K who codeProvider (a ++ .appIn id n m :: b) s) (other : m.type ≠ MSG_BUTTON_REQUEST)
    (unexpected : m.type = MSG_FAILURE ∨ replyTypes[(repliesIn a).length]? ≠ some m.type) :
    Silenced b s := by
  obtain ⟨_, _, first, step, rest⟩ := Trail.at_event follows
  cases step with
  | button button => exact absurd button other
  | @reply heard _ _ expected =>
    obtain ⟨_, bounded, tail, answered, rfl⟩ := Follows.tracks first
    have short : heard.length + 1 ≤ 5 := bounded
    have count : (repliesIn a).length = heard.length := by
      have lengths := congrArg List.length answered
      simp [Stage.bodies, replyTypes] at lengths
      omega
    rw [count] at unexpected
    obtain failure | unexpected := unexpected
    · exact absurd failure (reply_not_special expected).2
    · exact absurd expected unexpected
  | @refuse heard _ _ _ _ =>
    refine Trail.invariant (I := Silenced) ⟨⟨heard, rfl⟩, by simp⟩ ?_ rest
    rintro es _ e m' ⟨⟨heard, rfl⟩, silent⟩ step
    cases step with
    | notedLast => exact ⟨⟨heard, rfl⟩, fun id m => by simp [silent id m]⟩

/-! ## Every run -/

/-- What the application messages of a run show, with its outcome. -/
structure Choreography (K : Crates) (who : Speaker) (codeProvider : Option String) (es : List Event)
    (outcome : Outcome TrezorError Bytes) : Prop where
  requests : (requestsIn es).map messageType <+: requestTypes
  session : ∀ id m, .appOut id m ∈ es → id = who.id ∧ m.sessionId = who.activeSessionId
  acked : ∀ a id n m b, es = a ++ .appIn id n m :: b → m.type = MSG_BUTTON_REQUEST →
    ∃ id' m' rest, b = .appOut id' m' :: rest ∧ m'.type = MSG_BUTTON_ACK
  ackOnly : ∀ a id m b, es = a ++ .appOut id m :: b → m.type = MSG_BUTTON_ACK →
    ∃ before id' n m', a = before ++ [.appIn id' n m'] ∧ m'.type = MSG_BUTTON_REQUEST
  /-- A user who has not answered, or not with a number, keeps the tag back. -/
  tag : ∀ id m, .appOut id m ∈ es → m.type = T_CODE_ENTRY_CPACE_HOST_TAG → Entered codeProvider
  credential : ∀ a id m b, es = a ++ .appOut id m :: b → m.type = T_CREDENTIAL_REQUEST →
    ∃ approval commitmentBody cpaceBody secretBody, Opens K commitmentBody secretBody ∧
      (repliesIn a).map typeAndBody = replyTypes.zip [approval, commitmentBody, cpaceBody, secretBody]
  stops : ∀ a id n m b, es = a ++ .appIn id n m :: b → m.type ≠ MSG_BUTTON_REQUEST →
    m.type = MSG_FAILURE ∨ replyTypes[(repliesIn a).length]? ≠ some m.type →
    (∀ id m, .appOut id m ∉ b) ∧ ∃ e, outcome = .err e
  accepted : ∀ credential, outcome = .ok credential →
    ∃ heard, Complete K codeProvider heard credential ∧ (repliesIn es).map typeAndBody = replyTypes.zip heard
  completes : ∀ heard credential, Complete K codeProvider heard credential →
    (repliesIn es).map typeAndBody = replyTypes.zip heard → outcome = .ok credential

/-- Stopped runs return an error. -/
def Stage.Ends (s : Stage) (outcome : Outcome TrezorError Bytes) : Prop :=
  ∀ heard, s = .stopped heard → ∃ e, outcome = .err e

theorem Follows.tag {es : List Event} {id : Nat} {m : AppMessage} (follows : Follows K who codeProvider es s)
    (said : .appOut id m ∈ es) (tag : m.type = T_CODE_ENTRY_CPACE_HOST_TAG) : Entered codeProvider := by
  obtain ⟨a, b, rfl⟩ := List.append_of_mem said
  obtain ⟨heard, next, allowed, -⟩ := follows.guarded (by rw [tag]; decide)
  apply allowed.tag
  exact request_place next (j := 3) (by rw [tag]; rfl)

theorem zip_inj {heard heard' : List Bytes} (five : heard.length = 5) (five' : heard'.length = 5)
    (same : replyTypes.zip heard = replyTypes.zip heard') : heard = heard' := by
  have bodies := congrArg (List.map Prod.snd) same
  rwa [List.map_snd_zip five.le, List.map_snd_zip five'.le] at bodies

/-- The five replies leave the host ready. -/
theorem Follows.complete {es : List Event} {credential : Bytes} (follows : Follows K who codeProvider es s)
    (complete : Complete K codeProvider heard credential) (replies : (repliesIn es).map typeAndBody = replyTypes.zip heard) :
    s = .ready heard := by
  obtain ⟨-, bounded, tail, answered, last⟩ := follows.tracks
  have same := answered.symm.trans replies
  have five := complete.five
  have sizes := congrArg List.length same
  have types : replyTypes.length = 5 := rfl
  rw [List.length_append, List.length_zip, List.length_zip, types, five] at sizes
  cases s with
  | ready bodies =>
    obtain rfl : tail = [] := last
    rw [List.append_nil] at same
    have short : bodies.length ≤ 5 := bounded
    simp only [Stage.bodies, List.length_nil] at sizes
    have all : bodies.length = 5 := by omega
    rw [zip_inj all five same]
  | waiting bodies | acking bodies =>
    obtain rfl : tail = [] := last
    have short : bodies.length + 1 ≤ 5 := bounded
    simp only [Stage.bodies, List.length_nil] at sizes
    omega
  | stopped bodies =>
    obtain ⟨r, rfl, unexpected⟩ := last
    have short : bodies.length + 1 ≤ 5 := bounded
    simp only [Stage.bodies, List.length_singleton] at sizes
    have four : bodies.length = 4 := by omega
    have fifth := congrArg (·[4]?) same
    obtain ⟨a, b, c, d, rfl⟩ := List.length_eq_four.1 four
    obtain ⟨_, _, _, _, last, _, _, rfl, _⟩ := complete.replies
    exact absurd (congrArg (Option.map Prod.fst) fifth).symm unexpected

theorem Complete.credential_eq {credential credential' : Bytes} (complete : Complete K codeProvider heard credential)
    (complete' : Complete K codeProvider heard credential') : credential = credential' := by
  obtain ⟨_, _, _, _, _, _, response, rfl, _, _, _, decoded, rfl⟩ := complete.replies
  obtain ⟨_, _, _, _, _, _, response', same, _, _, _, decoded', rfl⟩ := complete'.replies
  cases same
  rw [decoded] at decoded'
  cases decoded'
  rfl

/-- Any history of the machine is a choreography, up to what is said of its end. -/
theorem Follows.choreography {es : List Event} {outcome : Outcome TrezorError Bytes} (follows : Follows K who codeProvider es s)
    (settled : s.Settled) (ends : s.Ends outcome)
    (accepted : ∀ credential, outcome = .ok credential → ∃ heard, Complete K codeProvider heard credential ∧ s = .ready heard)
    (short : (∀ credential, outcome ≠ .ok credential) → s.Short K codeProvider) :
    Choreography K who codeProvider es outcome where
  requests := by
    rw [follows.tracks.asked]
    exact List.take_prefix _ _
  session id m said := follows.session said
  acked a id n m b split button := by
    subst split
    exact follows.acked settled button
  ackOnly a id m b split ack := by
    subst split
    exact follows.ack_only ack
  tag id m said tag := follows.tag said tag
  credential a id m b split request := by
    subst split
    obtain ⟨heard, next, allowed, replies⟩ := follows.guarded (by rw [request]; decide)
    have four : heard.length = 4 := request_place next (j := 4) (by rw [request]; rfl)
    obtain ⟨commitmentBody, secretBody, second, fourth, opens⟩ := allowed.credential four
    obtain ⟨approval, x, cpaceBody, y, rfl⟩ := List.length_eq_four.1 four
    obtain rfl : x = commitmentBody := by simpa using second
    obtain rfl : y = secretBody := by simpa using fourth
    exact ⟨approval, x, cpaceBody, y, opens, replies⟩
  stops a id n m b split other unexpected := by
    subst split
    obtain ⟨⟨heard, stopped⟩, silent⟩ := follows.refused other unexpected
    exact ⟨silent, ends heard stopped⟩
  accepted credential ok := by
    obtain ⟨heard, complete, rfl⟩ := accepted credential ok
    obtain ⟨_, _, tail, replies, rfl⟩ := follows.tracks
    exact ⟨heard, complete, by simpa [Stage.bodies] using replies⟩
  completes heard credential complete replies := by
    obtain rfl := follows.complete complete replies
    by_cases ok : ∃ c, outcome = .ok c
    · obtain ⟨c, rfl⟩ := ok
      obtain ⟨heard', complete', same⟩ := accepted c rfl
      cases same
      rw [complete.credential_eq complete']
    · exact absurd complete (short (fun c ok' => ok ⟨c, ok'⟩) credential)

/-- A run, and where the machine stands when it ends. -/
theorem runCodeentryPairing_follows (handshakeHash hostStaticPubkey : Octets 32) (hostName appName : String)
    (codeProvider : Option String) (h : Host Connection) :
    let r := (runCodeentryPairing K handshakeHash hostStaticPubkey hostName appName codeProvider).run h
    ∃ es s, r.2.wire.trace = h.wire.trace ++ es ∧ Follows K h.own.speaker codeProvider (appEvents es) s ∧ s.Settled ∧ s.Ends r.1 ∧
      (∀ credential, r.1 = .ok credential → ∃ heard, Complete K codeProvider heard credential ∧ s = .ready heard) ∧
      ((∀ credential, r.1 ≠ .ok credential) → s.Short K codeProvider) := by
  intro r
  have start : At K h.wire.trace h.own.speaker codeProvider (.ready []) h := ⟨rfl, [], (List.append_nil _).symm, .nil⟩
  have ends := runCodeentryPairing_at handshakeHash hostStaticPubkey hostName appName codeProvider h start
  have cut_off : ∀ {outcome : Outcome TrezorError Bytes}, (∀ c, outcome ≠ .ok c) →
      CutOff K h.wire.trace h.own.speaker codeProvider r.2 →
      ∃ es s, r.2.wire.trace = h.wire.trace ++ es ∧ Follows K h.own.speaker codeProvider (appEvents es) s ∧ s.Settled ∧ s.Ends outcome ∧
        (∀ credential, outcome = .ok credential → ∃ heard, Complete K codeProvider heard credential ∧ s = .ready heard) ∧
        ((∀ credential, outcome ≠ .ok credential) → s.Short K codeProvider) := by
    rintro outcome noValue ⟨s, going, short, -, es, trace, follows⟩
    refine ⟨es, s, trace, follows, ?_, ?_, fun c ok => absurd ok (noValue c), fun _ => short⟩
    · cases s <;> first | exact going | exact trivial
    · rintro heard rfl
      exact going.elim
  rcases hr : r.1 with credential | e | _ | _
  · rw [Comp.run_of_outcome hr] at ends
    obtain ⟨heard, complete, -, es, trace, follows⟩ := ends
    refine ⟨es, _, trace, follows, trivial, nofun, ?_, fun early => absurd rfl (early credential)⟩
    intro c ok
    obtain rfl := Outcome.ok.inj ok
    exact ⟨heard, complete, rfl⟩
  · rw [Comp.run_of_outcome hr] at ends
    obtain ⟨s, settled, short, -, es, trace, follows⟩ := ends
    exact ⟨es, s, trace, follows, settled, fun _ _ => ⟨e, rfl⟩, nofun, fun _ => short⟩
  · rw [Comp.run_of_outcome hr] at ends
    exact cut_off (fun c ok => by cases ok) ends
  · rw [Comp.run_of_outcome hr] at ends
    exact cut_off (fun c ok => by cases ok) ends

/-- **The pairing keeps to its choreography.** Whatever the device sends and the user enters, and however
the run ends: the requests go out in order, each button request is acknowledged at once, the tag waits for
the code and the credential request for the secret that opens the commitment; a failure or an unexpected
reply is the end, and a credential comes back only after the five replies. -/
theorem pairing_choreography (handshakeHash hostStaticPubkey : Octets 32) (hostName appName : String)
    (codeProvider : Option String) (h : Host Connection) :
    let r := (runCodeentryPairing K handshakeHash hostStaticPubkey hostName appName codeProvider).run h
    ∃ es, r.2.wire.trace = h.wire.trace ++ es ∧ Choreography K h.own.speaker codeProvider (appEvents es) r.1 := by
  intro r
  obtain ⟨es, s, trace, follows, settled, ends, accepted, short⟩ :=
    runCodeentryPairing_follows (K := K) handshakeHash hostStaticPubkey hostName appName codeProvider h
  exact ⟨es, trace, follows.choreography settled ends accepted short⟩

/-! ## The code against the secret

The host checks the secret against the commitment, and never the code against the secret. So a
credential may come back for a code that the secret does not stand for, and exactly then when a
peer whose replies pass the other checks reveals such a secret. -/

/-- The code a device displays: the CodeEntry hash as a number of six digits. -/
def displayedCode (K : Crates) (handshakeHash : Octets 32) (secret challenge : Bytes) : Nat :=
  Bytes.beNat (K.sha256 (UInt8.ofNat 2 :: (handshakeHash.1 ++ secret ++ challenge))).1 % 1000000

/-- The revealed secret stands, with this handshake and this challenge, for the code that was entered. -/
def StandsFor (K : Crates) (handshakeHash : Octets 32) (challenge : Octets 16) (codeProvider : Option String)
    (secretBody : Bytes) : Prop :=
  ∃ codeStr code secret, codeProvider = some codeStr ∧ parseCode codeStr = .ok code ∧
    K.codeEntrySecret.decode secretBody = .ok secret ∧ code.toNat = displayedCode K handshakeHash secret.secret challenge.1

/-- What a pairing must show that returned a credential: all the rounds, with a secret that opens the
commitment from before the challenge and stands for the code that was entered. -/
def Authentic (K : Crates) (who : Speaker) (handshakeHash hostStaticPubkey : Octets 32) (hostName appName : String)
    (codeProvider : Option String) (challenge : Octets 16) (credential : Bytes) (es : List Event) : Prop :=
  ∃ codeStr r, codeProvider = some codeStr ∧ r.challenge = challenge ∧
    Accepted K who handshakeHash hostStaticPubkey hostName appName codeStr credential r es ∧
    r.code.toNat = displayedCode K handshakeHash r.secret challenge.1

theorem repliesIn_buttons {id : Nat} {sid : UInt8} {es : List Event} (buttons : Buttons K id sid es) : repliesIn es = [] := by
  induction buttons with
  | nil => rfl
  | @more es n m _ button ih =>
    rw [repliesIn_append, ih]
    simp [repliesIn, button]

/-- An exchange has one reply. -/
theorem repliesIn_exchange {id : Nat} {m : AppMessage} {reply : UInt16 × Bytes} {es : List Event}
    (exchange : Exchange K id m reply es) : (repliesIn es).map typeAndBody = [reply] := by
  obtain ⟨other, -, asked, n, sid, ⟨buttons, answered, rfl⟩, rfl⟩ := exchange
  have request : repliesIn (.appOut id m :: buttons) = [] := (repliesIn_append [.appOut id m] buttons).trans (repliesIn_buttons answered)
  rw [repliesIn_append, request, List.nil_append]
  simp [repliesIn, other, typeAndBody]

theorem Accepted.replies {handshakeHash hostStaticPubkey : Octets 32} {hostName appName codeStr : String} {credential : Bytes}
    {r : Rounds} {es : List Event}
    (accepted : Accepted K who handshakeHash hostStaticPubkey hostName appName codeStr credential r es) :
    (repliesIn es).map typeAndBody =
      replyTypes.zip [r.approval, r.commitmentBody, r.cpaceBody, r.secretBody, r.credentialBody] := by
  obtain ⟨s1, s2, s3, s4, s5, rfl, e1, e2, e3, e4, e5⟩ := accepted.inOrder
  simp only [repliesIn_append, List.map_append, repliesIn_exchange e1, repliesIn_exchange e2, repliesIn_exchange e3,
    repliesIn_exchange e4, repliesIn_exchange e5]
  rfl

/-- **When a pairing is authentic.** Whatever the device replies, the user enters and the host draws: a
credential comes back only for an authentic pairing if and only if the peer does not get through the
host's other checks with a secret that stands for another code. -/
theorem pairing_authentic_iff (handshakeHash hostStaticPubkey : Octets 32) (hostName appName : String)
    (codeProvider : Option String) (h : Host Connection) :
    let r := (runCodeentryPairing K handshakeHash hostStaticPubkey hostName appName codeProvider).run h
    let challenge := drawnNext 16 h.wire
    ∃ es, r.2.wire.trace = h.wire.trace ++ es ∧
      ((∀ credential, r.1 = .ok credential → Authentic K h.own.speaker handshakeHash hostStaticPubkey hostName appName
          codeProvider challenge credential (appEvents es)) ↔
        ∀ approval commitmentBody cpaceBody secretBody credentialBody credential,
          (repliesIn (appEvents es)).map typeAndBody =
            replyTypes.zip [approval, commitmentBody, cpaceBody, secretBody, credentialBody] →
          Complete K codeProvider [approval, commitmentBody, cpaceBody, secretBody, credentialBody] credential →
          StandsFor K handshakeHash challenge codeProvider secretBody) := by
  intro r challenge
  obtain ⟨es, s, trace, follows, settled, ends, ended, short⟩ :=
    runCodeentryPairing_follows (K := K) handshakeHash hostStaticPubkey hostName appName codeProvider h
  have choreography := follows.choreography settled ends ended short
  refine ⟨es, trace, ?_, ?_⟩
  · intro authentic approval commitmentBody cpaceBody secretBody credentialBody credential replies complete
    have ok : r.1 = .ok credential := choreography.completes _ credential complete replies
    obtain ⟨codeStr, rounds, entered, -, accepted, same⟩ := authentic credential ok
    have bodies := zip_inj rfl rfl (accepted.replies.symm.trans replies)
    cases bodies
    exact ⟨codeStr, rounds.code, ⟨rounds.secret⟩, entered, accepted.code, accepted.secret, same⟩
  · intro stands credential ok
    obtain ⟨codeStr, rounds, es', entered, trace', drawn, -, accepted⟩ :=
      accepted_pairing_committed handshakeHash hostStaticPubkey hostName appName codeProvider h r.2 credential (Comp.run_of_outcome ok)
    obtain rfl := List.append_cancel_left (trace'.symm.trans trace)
    obtain ⟨heard, complete, replies⟩ := choreography.accepted credential ok
    obtain rfl := zip_inj complete.five rfl (replies.symm.trans accepted.replies)
    obtain ⟨codeStr', code, secret, entered', parsed, decoded, same⟩ := stands _ _ _ _ _ credential replies complete
    obtain rfl := Option.some.inj (entered.symm.trans entered')
    have code_eq := Except.ok.inj (accepted.code.symm.trans parsed)
    have secret_eq := Except.ok.inj (accepted.secret.symm.trans decoded)
    refine ⟨codeStr, rounds, entered, drawn, accepted, ?_⟩
    rw [code_eq, same, ← secret_eq]

/-! ## A pairing with a wrong code

The device of this run commits to a secret, ignores the host's tag and reveals the secret.
It has neither the code nor a CPace key of its own. -/

def sampleSession : Session := ⟨List.Vector.replicate 32 1, List.Vector.replicate 32 2, 0, 1⟩

def sampleHash : Octets 32 := List.Vector.replicate 32 5

def sampleSecret : Bytes := List.replicate 16 9

/-- The device's replies, as messages. -/
def sampleReplies : List AppMessage :=
  [⟨0, T_PAIRING_REQUEST_APPROVED, []⟩,
   ⟨0, T_CODE_ENTRY_COMMITMENT, Crates.toy.codeEntryCommitment.encode ⟨(Crates.toy.sha256 sampleSecret).1⟩⟩,
   ⟨0, T_CODE_ENTRY_CPACE_TREZOR, Crates.toy.codeEntryCpaceTrezor.encode ⟨List.replicate 32 4⟩⟩,
   ⟨0, T_CODE_ENTRY_SECRET, Crates.toy.codeEntrySecret.encode ⟨sampleSecret⟩⟩,
   ⟨0, T_CREDENTIAL_RESPONSE, Crates.toy.credentialResponse.encode ⟨List.replicate 32 8, [6, 6]⟩⟩]

/-- The `i`-th reply as a frame, sealed under the receive key. -/
def sampleFrame (i : Nat) (m : AppMessage) : Frame :=
  ⟨0x1234, Framing.Control.withSeq Framing.Control.ENCRYPTED_TRANSPORT (UInt8.ofNat (i % 2)),
    Crates.toy.aesGcmEncrypt sampleSession.keyRecv (ivFromNonce (sampleSession.nonceRecv + UInt64.ofNat i)) []
      (encodeAppMessage m)⟩

def sampleHost : Host Connection where
  own := { Connection.initial 0 128 with cid := 0x1234, session := some sampleSession }
  wire := { Wire.quiet with
    inbox := arriving ((sampleReplies.mapIdx sampleFrame).flatMap (Framing.packets 128)), entropy := fun _ => 7 }

def sampleRun : Outcome TrezorError Bytes × Host Connection :=
  (runCodeentryPairing Crates.toy sampleHash (List.Vector.replicate 32 3) "host" "app" (some "123456")).run sampleHost

/-- The code 123456 is accepted with a secret and a challenge that stand for another code. -/
theorem wrong_code_accepted :
    sampleRun.1 = .ok [6, 6] ∧ parseCode "123456" = .ok 123456 ∧
    Event.appOut 0 ⟨0, T_CODE_ENTRY_CHALLENGE, Crates.toy.codeEntryChallenge.encode ⟨List.replicate 16 7⟩⟩ ∈
      sampleRun.2.wire.trace ∧
    Event.exchanged 0 T_CODE_ENTRY_SECRET (Crates.toy.codeEntrySecret.encode ⟨sampleSecret⟩) ∈ sampleRun.2.wire.trace ∧
    (123456 : UInt32).toNat ≠ displayedCode Crates.toy sampleHash sampleSecret (List.replicate 16 7) := by
  decide +kernel

/-! ## An approval that does not decode

`ThpPairingRequestApproved` has no fields, and the host goes by its type alone: its body is not read. -/

def undecodableReplies : List AppMessage :=
  ⟨0, T_PAIRING_REQUEST_APPROVED, [0x80]⟩ :: sampleReplies.tail

def undecodableHost : Host Connection where
  own := sampleHost.own
  wire := { sampleHost.wire with inbox := arriving ((undecodableReplies.mapIdx sampleFrame).flatMap (Framing.packets 128)) }

def undecodableRun : Outcome TrezorError Bytes × Host Connection :=
  (runCodeentryPairing Crates.toy sampleHash (List.Vector.replicate 32 3) "host" "app" (some "123456")).run undecodableHost

/-- The pairing goes through although the approval is not a message of the wire format. -/
theorem undecodable_approval_accepted :
    undecodableRun.1 = .ok [6, 6] ∧
    repliesIn undecodableRun.2.wire.trace = undecodableReplies ∧
    undecodableReplies.head? = some ⟨0, T_PAIRING_REQUEST_APPROVED, [0x80]⟩ ∧ Protobuf.fields [0x80] = none := by
  decide +kernel

end TrezorCore.Pairing
