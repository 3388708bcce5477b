import TrezorCore.Chains.Bitcoin

/-!
# The `SignTx` exchange

The request loop of `sign_psbt`, reply by reply. `serve` is the loop as a function of the
device's replies: how it ends, and the acknowledgements it sends. `signPsbt_against` says that
the call against these replies is exactly that, so what holds of every list of replies is
proved by induction over the list. `exchange` are the requests of an exchange that finishes.
-/

namespace TrezorCore.Bitcoin

open Script (answering against)

variable (K : Crates)

/-- The network of a coin type. -/
def networkOf (coinType : UInt32) : Network := if coinType = 1 then .testnet else .bitcoin

/-- A reply as a `TxRequest`. -/
def readTxRequest (reply : Reply) : Except TrezorError TxRequest := do
  Pairing.expectType reply.1 BTC_TX_REQUEST "TxRequest"
  Pairing.decode K.txRequest "TxRequest decode" reply.2

/-- What the loop makes of a reply: the request in it, and the bytes that answer it. -/
def respond (psbt : Psbt) (network : Network) (reply : Reply) : Except TrezorError (TxRequest × Option Bytes) := do
  let req ← readTxRequest K reply
  let ack ← answer K psbt network req
  .ok (req, ack)

/-- The request loop on the replies of a device: how it ends, and what it sends. -/
def serve (psbt : Psbt) (network : Network) : List Reply → Signatures → Outcome TrezorError Signatures × List Bytes
  | [], _ => (.dropped, [])
  | reply :: replies, sigs =>
    match respond K psbt network reply with
    | .error e => (.err e, [])
    | .ok (req, none) => (.ok (collectSignature req sigs), [])
    | .ok (req, some ack) =>
      let later := serve psbt network replies (collectSignature req sigs)
      (later.1, ack :: later.2)

/-- The requests of an exchange that finishes, the last one being the one that finishes it. -/
def exchange (psbt : Psbt) (network : Network) : List Reply → Option (List TxRequest)
  | [] => none
  | reply :: replies =>
    match respond K psbt network reply with
    | .error _ => none
    | .ok (req, none) => some [req]
    | .ok (req, some _) => (exchange psbt network replies).map (req :: ·)

/-- The signatures of the requests, as the loop collects them. -/
def collected (reqs : List TxRequest) : Signatures := reqs.foldl (fun sigs req => collectSignature req sigs) []

/-- The `SignTx` that opens the exchange. -/
def signTxRequest (sessionId : UInt8) (tx : Transaction) (coinType : UInt32) : Request :=
  ⟨some sessionId, BTC_SIGN_TX, K.signTx.encode ⟨UInt32.ofNat tx.output.length, UInt32.ofNat tx.input.length,
    some (coinName coinType), some tx.version.toUInt32, some tx.lockTime, some true⟩⟩

/-- An acknowledgement as a request of the connection. -/
def txAck (ack : Bytes) : Request := ⟨none, BTC_TX_ACK, ack⟩

section Loop

variable {K} {psbt : Psbt} {network : Network}

theorem orThp_ok {α : Type} {o : Option α} {reason : String} {a : α} : orThp o reason = .ok a ↔ o = some a := by
  cases o <;> simp [orThp]

theorem respond_ok {reply : Reply} {req : TxRequest} {ack : Option Bytes}
    (h : respond K psbt network reply = .ok (req, ack)) :
    readTxRequest K reply = .ok req ∧ answer K psbt network req = .ok ack := by
  unfold respond at h
  obtain ⟨req', reads, h⟩ := Except.bind_eq_ok.1 h
  obtain ⟨ack', answers, h⟩ := Except.bind_eq_ok.1 h
  cases h
  exact ⟨reads, answers⟩

theorem respond_error {reply : Reply} {req : TxRequest} {e : TrezorError} (reads : readTxRequest K reply = .ok req)
    (fails : answer K psbt network req = .error e) : respond K psbt network reply = .error e := by
  rw [respond, reads, Except.ok_bind, fails, Except.error_bind]

theorem expect_txRequest (reply : Reply) :
    Pairing.expect reply BTC_TX_REQUEST "TxRequest" K.txRequest = Script.ofExcept (readTxRequest K reply) := by
  have text : toString "TxRequest" ++ toString " decode" = "TxRequest decode" := by decide
  rw [Pairing.expect_eq, readTxRequest, text]

/-- A turn responds to a reply and then goes on or leaves. -/
theorem signPsbtTurn_eq (reply : Reply) (sigs : Signatures) :
    signPsbtTurn K psbt network (reply, sigs) = (Script.ofExcept (respond K psbt network reply) >>= fun r =>
      match r with
      | (req, none) => pure (.inr (collectSignature req sigs))
      | (req, some ack) => Script.ask (txAck ack) fun next => pure (.inl (next, collectSignature req sigs))) := by
  rw [signPsbtTurn, expect_txRequest, respond]
  cases readTxRequest K reply with
  | error e => rfl
  | ok req =>
    show (Script.ofExcept (answer K psbt network req) >>= _ : Chat _) =
      Script.ofExcept (answer K psbt network req >>= _) >>= _
    rcases answer K psbt network req with e | _ | ack <;> rfl

/-- One turn against the replies that are left. -/
theorem signPsbtTurn_run (reply : Reply) (sigs : Signatures) (m : List Reply × List Request → Nat)
    (replies : List Reply) (asked : List Request) :
    ((signPsbtTurn K psbt network (reply, sigs)).run answering m).run (replies, asked) =
      match respond K psbt network reply, replies with
      | .error e, _ => (.err e, replies, asked)
      | .ok (req, none), _ => (.ok (.inr (collectSignature req sigs)), replies, asked)
      | .ok (_, some ack), [] => (.dropped, [], asked ++ [txAck ack])
      | .ok (req, some ack), next :: later =>
        (.ok (.inl (next, collectSignature req sigs)), later, asked ++ [txAck ack]) := by
  rw [signPsbtTurn_eq]
  rcases respond K psbt network reply with e | ⟨req, _ | ack⟩
  · rfl
  · rfl
  · cases replies <;> rfl

/-- A turn that goes on has sent an acknowledgement. -/
theorem signPsbtTurn_sends (b : Reply × Signatures) (tr : List (Request × Reply)) (b' : Reply × Signatures)
    (plays : Script.Plays (signPsbtTurn K psbt network b) tr (.inl b')) : tr ≠ [] := by
  obtain ⟨reply, sigs⟩ := b
  rw [signPsbtTurn_eq] at plays
  generalize respond K psbt network reply = r at plays
  rcases r with e | ⟨req, _ | ack⟩
  · cases plays
  · cases plays
  · cases plays
    exact List.cons_ne_nil _ _

/-- The loop is `serve`. -/
theorem loop_run (replies : List Reply) (reply : Reply) (sigs : Signatures) (asked : List Request) :
    ∃ left, (Comp.loop (fun s => s.1.length)
        (fun b => (signPsbtTurn K psbt network b).run answering fun s => s.1.length) (reply, sigs)).run (replies, asked) =
      ((serve K psbt network (reply :: replies) sigs).1, left,
        asked ++ (serve K psbt network (reply :: replies) sigs).2.map txAck) := by
  induction replies generalizing reply sigs asked with
  | nil =>
    rw [Comp.loop_eq (Script.turn_lowers signPsbtTurn_sends), Comp.run_bind, signPsbtTurn_run, serve]
    rcases respond K psbt network reply with e | ⟨req, _ | ack⟩
    · exact ⟨[], by simp⟩
    · exact ⟨[], by simp⟩
    · exact ⟨[], by simp [serve]⟩
  | cons next later ih =>
    rw [Comp.loop_eq (Script.turn_lowers signPsbtTurn_sends), Comp.run_bind, signPsbtTurn_run, serve]
    rcases respond K psbt network reply with e | ⟨req, _ | ack⟩
    · exact ⟨next :: later, by simp⟩
    · exact ⟨next :: later, by simp⟩
    · obtain ⟨left, rest⟩ := ih next (collectSignature req sigs) (asked ++ [txAck ack])
      refine ⟨left, ?_⟩
      simp only [Sum.elim_inl, rest, List.append_assoc, List.map_cons, List.singleton_append]

/-- **The call** against the replies of a device. -/
theorem signPsbt_against {sessionId : UInt8} {text : String} {coinType : UInt32} (parses : K.psbtFromStr text = .ok psbt)
    (replies : List Reply) :
    against (signPsbt K sessionId text coinType) replies =
      (match (serve K psbt (networkOf coinType) replies []).1 with
        | .ok sigs =>
          match sigs.foldlM (mergeSignature K) psbt with
          | .ok signed => .ok (K.psbtToString signed)
          | .error e => .err e
        | .err e => .err e
        | .panicked => .panicked
        | .dropped => .dropped,
      signTxRequest K sessionId psbt.unsignedTx coinType ::
        (serve K psbt (networkOf coinType) replies []).2.map txAck) := by
  cases replies with
  | nil =>
    simp only [against, signPsbt, parses]
    rfl
  | cons reply replies =>
    obtain ⟨left, loop⟩ := @loop_run K psbt (networkOf coinType) replies reply []
      [signTxRequest K sessionId psbt.unsignedTx coinType]
    -- the first reply is the answer to `SignTx`
    have run : ((signPsbt K sessionId text coinType).run answering fun s => s.1.length).run (reply :: replies, []) =
        (Comp.loop (fun s => s.1.length)
            (fun b => (signPsbtTurn K psbt (networkOf coinType) b).run answering fun s => s.1.length) (reply, []) >>=
          fun sigs => (Script.ofExcept (sigs.foldlM (mergeSignature K) psbt) >>= fun signed =>
            pure (K.psbtToString signed) : Chat String).run answering fun s => s.1.length).run
          (replies, [signTxRequest K sessionId psbt.unsignedTx coinType]) := by
      rw [signPsbt, parses]
      rfl
    rw [against, run, Comp.run_bind, loop]
    cases (serve K psbt (networkOf coinType) (reply :: replies) []).1 with
    | ok sigs =>
      cases merged : sigs.foldlM (mergeSignature K) psbt with
      | ok signed => simp only [merged]; rfl
      | error e => simp only [merged]; rfl
    | err e => rfl
    | panicked => rfl
    | dropped => rfl

theorem signPsbt_paced (sessionId : UInt8) (text : String) (coinType : UInt32) :
    Script.Paced (signPsbt K sessionId text coinType) := by
  have turns : ∀ (psbt : Psbt) (network : Network) (b : Reply × Signatures), Script.Paced (signPsbtTurn K psbt network b) := by
    rintro psbt network ⟨reply, sigs⟩
    rw [signPsbtTurn_eq]
    rcases respond K psbt network reply with e | ⟨req, _ | ack⟩
    · exact .fail e
    · exact .done _
    · exact .ask fun next => .done _
  unfold signPsbt
  cases K.psbtFromStr text with
  | error e => exact .fail _
  | ok psbt =>
    refine .ask fun reply => .loop (turns psbt _) (fun b tr b' => signPsbtTurn_sends b tr b') fun sigs => ?_
    show Script.Paced (Script.ofExcept (sigs.foldlM (mergeSignature K) psbt) >>= _)
    cases sigs.foldlM (mergeSignature K) psbt with
    | ok signed => exact .done _
    | error e => exact .fail e

/-- The loop returns exactly when the exchange finishes, with the signatures of its requests. -/
theorem serve_ok_iff (replies : List Reply) (sigs out : Signatures) :
    (serve K psbt network replies sigs).1 = .ok out ↔
      ∃ reqs, exchange K psbt network replies = some reqs ∧
        out = reqs.foldl (fun sigs req => collectSignature req sigs) sigs := by
  induction replies generalizing sigs with
  | nil => simp [serve, exchange]
  | cons reply replies ih =>
    rw [serve, exchange]
    rcases respond K psbt network reply with e | ⟨req, _ | ack⟩
    · simp
    · simp [eq_comm]
    · rw [ih]
      constructor
      · rintro ⟨reqs, finishes, rfl⟩
        exact ⟨req :: reqs, by rw [finishes]; rfl, rfl⟩
      · rintro ⟨all, finishes, rfl⟩
        obtain ⟨reqs, later, rfl⟩ := Option.map_eq_some_iff.1 finishes
        exact ⟨reqs, later, rfl⟩

/-- The acknowledgements answer the replies in order. -/
theorem serve_ack {replies : List Reply} {sigs : Signatures} {k : Nat} {ack : Bytes}
    (sent : (serve K psbt network replies sigs).2[k]? = some ack) :
    ∃ reply req, replies[k]? = some reply ∧ respond K psbt network reply = .ok (req, some ack) := by
  induction replies generalizing sigs k with
  | nil => cases sent
  | cons reply replies ih =>
    rw [serve] at sent
    rcases responds : respond K psbt network reply with e | ⟨req, _ | first⟩ <;> rw [responds] at sent
    · cases sent
    · cases sent
    · cases k with
      | zero =>
        cases sent
        exact ⟨reply, req, rfl, responds⟩
      | succ k => exact ih sent

/-- A reply that the loop reads and can answer is answered next. -/
theorem serve_answers {replies : List Reply} {sigs : Signatures} {k : Nat} {reply : Reply} {req : TxRequest} {ack : Bytes}
    (read : k ≤ (serve K psbt network replies sigs).2.length) (here : replies[k]? = some reply)
    (responds : respond K psbt network reply = .ok (req, some ack)) :
    (serve K psbt network replies sigs).2[k]? = some ack := by
  induction replies generalizing sigs k with
  | nil => cases here
  | cons first replies ih =>
    rw [serve] at read ⊢
    cases k with
    | zero =>
      cases here
      rw [responds]
      rfl
    | succ k =>
      rcases before : respond K psbt network first with e | ⟨req, _ | ack⟩ <;> rw [before] at read
      · cases read
      · cases read
      · exact ih (Nat.le_of_succ_le_succ read) here

/-- A reply that the loop reads and cannot answer ends it. -/
theorem serve_fails {replies : List Reply} {sigs : Signatures} {k : Nat} {reply : Reply} {e : TrezorError}
    (read : k ≤ (serve K psbt network replies sigs).2.length) (here : replies[k]? = some reply)
    (fails : respond K psbt network reply = .error e) :
    (serve K psbt network replies sigs).1 = .err e ∧ (serve K psbt network replies sigs).2.length = k := by
  induction replies generalizing sigs k with
  | nil => cases here
  | cons first replies ih =>
    rw [serve] at read ⊢
    cases k with
    | zero =>
      cases here
      rw [fails]
      exact ⟨rfl, rfl⟩
    | succ k =>
      rcases responds : respond K psbt network first with e | ⟨req, _ | ack⟩ <;> rw [responds] at read
      · cases read
      · cases read
      · obtain ⟨ends, count⟩ := ih (Nat.le_of_succ_le_succ read) here
        exact ⟨ends, congrArg Nat.succ count⟩

end Loop

/-! ## A small wallet

One input, one payment and one change output, and a device that speaks the wire format. -/

/-- The first field with a tag. -/
def fieldOf (tag : UInt8) (fields : List (UInt8 × Bytes)) : Option Bytes := (fields.find? (·.1 == tag)).map (·.2)

/-- A nested message, if the field is there. -/
def nested {M : Type} (field : Option Bytes) (make : List (UInt8 × Bytes) → M) : Option (Option M) :=
  match field with
  | none => some none
  | some bytes => (decodeFields bytes.length bytes).map fun fields => some (make fields)

def walletTxRequest (fields : List (UInt8 × Bytes)) : Option TxRequest := do
  let number (tag : UInt8) (fields : List (UInt8 × Bytes)) := (fieldOf tag fields).map fun b => UInt32.ofNat (Bytes.beNat b)
  let details ← nested (fieldOf 0x12 fields) fun fs => TxRequestDetails.mk (number 0x08 fs) (fieldOf 0x12 fs)
  let serialized ← nested (fieldOf 0x1a fields) fun fs => TxRequestSerialized.mk (number 0x08 fs) (fieldOf 0x12 fs)
  some ⟨(number 0x08 fields).map fun n => (n.toNat : Int), details, serialized⟩

def walletPrevTx : Transaction :=
  ⟨2, 0, [⟨⟨toyHash 32 [7], 1⟩, [], 0xffffffff, [[1, 2]]⟩], [⟨5000, [0, 20, 9]⟩, ⟨7000, [0, 20, 8]⟩]⟩

def walletKeyOrigin (leaf : UInt32) : KeyOrigin :=
  ⟨toyHash 33 [2, leaf.toUInt8], toyHash 4 [1], [0x80000054, 0x80000000, 0x80000000, 0, leaf]⟩

def walletPsbt : Psbt where
  unsignedTx := ⟨2, 0, [⟨⟨toyHash 32 [5], 1⟩, [], 0xfffffffd, []⟩], [⟨4000, [0, 20, 6]⟩, ⟨2900, [0, 20, 8]⟩]⟩
  inputs := [⟨some ⟨7000, [0, 20, 8]⟩, some walletPrevTx, [walletKeyOrigin 0], [], []⟩]
  outputs := [⟨[], []⟩, ⟨[walletKeyOrigin 1], []⟩]
  rest := []

/-- The text of a PSBT, its signatures included. -/
def walletText (psbt : Psbt) : String :=
  "cHNidP8B" ++ asciiString (psbt.inputs.flatMap fun input => input.partialSigs.flatMap (·.2.signature))

def Crates.signing : Crates where
  toCrypto := .toy
  toProst := { Prost.toy with
    txRequest := ⟨fun _ => [], fun bytes =>
      match (decodeFields bytes.length bytes).bind walletTxRequest with
      | some req => .ok req
      | none => .error "failed to decode Protobuf message"⟩
    txAckInput := ⟨fun m => m.prevHash ++ Bytes.toBe 4 m.prevIndex.toNat, fun _ => .error "not read by a host"⟩ }
  toBitcoinCrate :=
    { psbtFromStr := fun text => if text = walletText walletPsbt then .ok walletPsbt else .error "not a PSBT"
      psbtToString := walletText
      computeTxid := fun _ => toyHash 32 [5]
      addressFromScript := fun script _ => if script = [0, 20, 6] then .ok "bc1qpayee" else .error "unrecognized script"
      signatureFromDer := fun der => if der.head? = some 0x30 then .ok der else .error "malformed signature" }

theorem signing_parses : Crates.signing.psbtFromStr (walletText walletPsbt) = .ok walletPsbt := by
  simp [Crates.signing]

/-- A `TxRequest` for an item of a kind. -/
def asksFor (kind index : UInt8) : Reply := (BTC_TX_REQUEST, [0x08, kind, 0x12, 2, 0x08, index])

/-- The `TxRequest` that finishes, with a signature for the first input. -/
def finishesSigned : Reply := (BTC_TX_REQUEST, [0x08, 3, 0x1a, 7, 0x08, 0, 0x12, 3, 0x30, 0x41, 0x42])

end TrezorCore.Bitcoin
