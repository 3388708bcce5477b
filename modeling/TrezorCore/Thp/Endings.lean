import TrezorCore.Lib.Settling
import TrezorCore.Thp.Causes
import TrezorCore.Thp.Intake
import TrezorCore.Thp.Service

/-!
# How a run ends

Nothing a device or a transport does makes the host panic, and what keeps it from returning is
the transport alone: a read that never completes, behind reads that all did, or such a write.
When it does return with an error, the error says what went wrong, and nothing else was done
after that. The reassembler's invariant keeps every index in range, and every loop reads in each
turn.
-/

namespace TrezorCore

/-- The transport keeps the host waiting: it reports no failure to a read, or a write hangs. -/
def Hangs (w : Wire) : Prop := (∀ r ∈ w.inbox, ∃ chunk, r = .ok chunk) ∨ ∃ n, w.written ≤ n ∧ w.onWrite n = .never

/-- What can keep a run from returning, when nothing it did failed; `q` is a reason besides the transport. -/
def Waits (q : Prop) (w w' : Wire) : Prop := (Hangs w ∨ q) ∧ Stalled w w'

namespace Passed

variable {K : Crates} {a b c : Wire}

theorem refl (w : Wire) : Passed w w := ⟨⟨[], rfl⟩, Nat.le_refl _, rfl, fun _ low high => absurd low (Nat.not_le.2 high)⟩

/-- Nothing was read or written. -/
theorem still {w w' : Wire} (inbox : w'.inbox = w.inbox) (written : w'.written = w.written) (onWrite : w'.onWrite = w.onWrite) :
    Passed w w' :=
  ⟨⟨[], inbox.symm⟩, written ▸ Nat.le_refl _, onWrite, fun _ low high => absurd low (Nat.not_le.2 (written ▸ high))⟩

theorem trans (h1 : Passed a b) (h2 : Passed b c) : Passed a c := by
  obtain ⟨⟨first, read1⟩, written1, onWrite1, done1⟩ := h1
  obtain ⟨⟨second, read2⟩, written2, onWrite2, done2⟩ := h2
  refine ⟨⟨first ++ second, ?_⟩, Nat.le_trans written1 written2, onWrite2.trans onWrite1, fun n low high => ?_⟩
  · rw [read1, read2, List.map_append, List.append_assoc]
  · rcases Nat.lt_or_ge n b.written with early | late
    · exact done1 n low early
    · exact onWrite1 ▸ done2 n late high

/-- The transport has kept the host waiting all along. -/
theorem hangs (passed : Passed a b) (hangs : Hangs b) : Hangs a := by
  obtain ⟨⟨chunks, read⟩, written, onWrite, -⟩ := passed
  obtain reads | ⟨n, later, never⟩ := hangs
  · left
    rw [read]
    intro r hr
    rcases List.mem_append.1 hr with early | late
    · obtain ⟨chunk, -, rfl⟩ := List.mem_map.1 early
      exact ⟨chunk, rfl⟩
    · exact reads r late
  · exact .inr ⟨n, Nat.le_trans written later, onWrite ▸ never⟩

theorem stalled (passed : Passed a b) (stalled : Stalled b c) : Stalled a c := by
  obtain ⟨⟨first, read1⟩, -, onWrite, done⟩ := passed
  obtain ⟨⟨second, read2⟩, later⟩ := stalled
  refine ⟨⟨first ++ second, ?_⟩, fun n e low high => ?_⟩
  · rw [read1, read2, List.map_append, List.append_assoc]
  · rcases Nat.lt_or_ge n b.written with early | late
    · rw [done n low early]
      nofun
    · exact onWrite ▸ later n e late high

theorem explained {e : TrezorError} (passed : Passed a b) (cause : Explained K b e c) : Explained K a e c := by
  cases cause with
  | broke broke =>
    cases broke with
    | read through failed written => exact .broke (.read (passed.trans through) failed written)
    | write through failed written inbox => exact .broke (.write (passed.trans through) failed written inbox)
  | reported through last => exact .reported (passed.trans through) last
  | refused through last failure => exact .refused (passed.trans through) last failure
  | own through isOwn => exact .own (passed.trans through) isOwn

end Passed

/-- What a call tells of the wires when it returns a value, when it waits and when it fails. -/
theorem passing (K : Crates) (q : Prop) {γ : Type} :
    Comp.Progress (OnWire Passed : Host γ → Host γ → Prop) (OnWire (Waits q)) fun h e h' => Explained K h.wire e h'.wire where
  refl h := .refl h.wire
  trans _ _ _ h1 h2 := Passed.trans h1 h2
  stalls _ _ _ passed waits := ⟨waits.1.imp_left passed.hangs, passed.stalled waits.2⟩
  blames _ _ _ _ passed cause := passed.explained cause

/-- A call that settles, whatever the transport does. -/
abbrev Settles (K : Crates) (q : Prop) {γ α : Type} (x : Io γ α) : Prop :=
  Comp.Settles (OnWire Passed) (OnWire (Waits q)) (fun h e h' => Explained K h.wire e h'.wire) x

theorem Explained.here {K : Crates} {e : TrezorError} (isOwn : e.isOwn = true) (w : Wire) : Explained K w e w := .own (.refl w) isOwn

namespace Settles

variable {K : Crates} {q : Prop} {γ δ α β : Type}

theorem bind {x : Io γ α} {f : α → Io γ β} (first : Settles K q x) (later : ∀ a, Settles K q (f a)) : Settles K q (x >>= f) :=
  Comp.Settles.bind (passing K q) first later

theorem pure (a : α) : Settles K q (Pure.pure a : Io γ α) := Comp.Settles.pure (passing K q) a

theorem fail {e : TrezorError} (isOwn : e.isOwn = true) : Settles K q (Comp.fail e : Io γ α) :=
  Comp.Settles.fail fun h => .here isOwn h.wire

theorem ofExcept {r : Except TrezorError α} (checks : Checks r) : Settles K q (Comp.ofExcept r : Io γ α) :=
  Comp.Settles.ofExcept (passing K q) fun e failed h => .here (checks e failed) h.wire

theorem own : Settles K q (Io.own : Io γ γ) := fun h => .ok (Passed.refl h.wire)

theorem modifyOwn (f : γ → γ) : Settles K q (Io.modifyOwn f) := fun h => .ok (Passed.refl h.wire)

theorem note (e : Event) : Settles K q (Io.note e : Io γ Unit) := fun _ => .ok (.still rfl rfl rfl)

theorem getrandom (n : Nat) : Settles K q (Io.getrandom n : Io γ _) := fun _ => .ok (.still rfl rfl rfl)

theorem readChunk : Settles K q (Io.readChunk : Io γ Bytes) := by
  intro h
  rcases inbox : h.wire.inbox with _ | ⟨e | chunk, rest⟩
  · simp only [Io.readChunk, inbox]
    refine .dropped ⟨.inl (.inl ?_), ⟨[], rfl⟩, fun _ _ low high => absurd low (Nat.not_le.2 high)⟩
    rw [inbox]
    exact fun r hr => absurd hr List.not_mem_nil
  · simp only [Io.readChunk, inbox]
    exact .err (.broke (.read (.refl h.wire) inbox rfl))
  · simp only [Io.readChunk, inbox]
    exact .ok ⟨⟨[chunk], inbox⟩, Nat.le_refl _, rfl, fun _ low high => absurd low (Nat.not_le.2 high)⟩

theorem writeChunk (packet : Bytes) : Settles K q (Io.writeChunk packet : Io γ Unit) := by
  intro h
  -- the one write of these numbers
  have this : ∀ n, h.wire.written ≤ n → n < h.wire.written + 1 → n = h.wire.written := fun n low high => Nat.le_antisymm (Nat.le_of_lt_succ high) low
  rcases reply : h.wire.onWrite h.wire.written with _ | e | _
  · simp only [Io.writeChunk, reply]
    refine .ok ⟨⟨[], rfl⟩, Nat.le_succ _, rfl, fun n low high => ?_⟩
    rw [this n low high, reply]
  · simp only [Io.writeChunk, reply]
    exact .err (.broke (.write (.refl h.wire) reply rfl rfl))
  · simp only [Io.writeChunk, reply]
    refine .dropped ⟨.inl (.inr ⟨_, Nat.le_refl _, reply⟩), ⟨[], rfl⟩, fun n e low high => ?_⟩
    rw [this n low high, reply]
    exact WriteReply.noConfusion

theorem runOwned {x : Io δ α} (hx : Settles K q x) (d : δ) : Settles K q (Io.runOwned x d : Io γ (α × δ)) := by
  intro h
  have ends := hx ⟨d, h.wire⟩
  rcases ran : x.run ⟨d, h.wire⟩ with ⟨o, h'⟩
  rw [ran] at ends
  simp only [Io.runOwned, ran]
  cases ends with
  | ok passed => exact .ok passed
  | err cause => exact .err cause
  | dropped waits => exact .dropped waits

theorem onSession {x : Io Session α} (hx : Settles K q x) : Settles K q (Connection.onSession x) := by
  intro h
  rcases session : h.own.session with _ | s
  · simp only [Connection.onSession, session]
    exact .err (.here rfl h.wire)
  · have ends := hx ⟨s, h.wire⟩
    simp only [Connection.onSession, session]
    rcases ran : x.run ⟨s, h.wire⟩ with ⟨o, h'⟩
    rw [ran] at ends
    cases ends with
    | ok passed => exact .ok passed
    | err cause => exact .err cause
    | dropped waits => exact .dropped waits

theorem aeadSeal (key : Octets 32) (iv : Octets 12) (aad plaintext : Bytes) : Settles K q (aeadSeal K key iv aad plaintext : Io γ _) :=
  bind (note _) fun _ => pure _

theorem aeadOpen (key : Octets 32) (iv : Octets 12) (aad ciphertext : Bytes) : Settles K q (aeadOpen K key iv aad ciphertext : Io γ _) := by
  refine bind (note _) fun _ => ?_
  cases K.aesGcmDecrypt key iv aad ciphertext with
  | some plaintext => exact pure _
  | none => exact fail rfl

/-! ## Framed I/O -/

theorem writePackets : ∀ packets, Settles K q (Connection.writePackets packets)
  | [] => pure ()
  | packet :: rest => bind (writeChunk packet) fun _ => writePackets rest

theorem writeFramed (ctrl : UInt8) (payload : Bytes) : Settles K q (Connection.writeFramed ctrl payload) :=
  bind own fun _ => bind (ofExcept (segment_checks _ _ _ _)) fun packets => bind (note _) fun _ => writePackets packets

/-- A packet ends in a payload, in nothing or in an error, and leaves a valid reassembler. -/
theorem pushPacket_ends {reasm : Framing.Reassembler} (valid : reasm.Valid) (packet : Bytes) :
    (∃ payload reasm', (Framing.Reassembler.pushPacket packet).run reasm = (.ok payload, reasm') ∧ reasm'.Valid) ∨
      ∃ e reasm', (Framing.Reassembler.pushPacket packet).run reasm = (.err e, reasm') ∧ e.isOwn = true := by
  have kept := Framing.Reassembler.push_valid valid packet
  rcases ran : (Framing.Reassembler.pushPacket packet).run reasm with ⟨payload | e | _ | _, reasm'⟩ <;> rw [ran] at kept
  · exact .inl ⟨payload, reasm', rfl, kept⟩
  · exact .inr ⟨e, reasm', rfl, Framing.Reassembler.Raises.pushPacket packet reasm e reasm' ran⟩
  all_goals
    obtain ⟨-, e, run⟩ | ⟨-, -, -, run⟩ | ⟨-, r', takes, run⟩ := Framing.Reassembler.push_cases valid packet
    · rw [ran] at run
      cases run
    · rw [ran] at run
      cases run
    · rw [ran] at run
      obtain ⟨-, ends⟩ | ⟨-, ends⟩ := takes.ends valid
      · rw [ends] at run
        cases run
      · rw [ends, Framing.Reassembler.verdict] at run
        split at run <;> cases run

/-- Whatever chunk comes, the next turn starts from a valid reassembler again. -/
theorem absorbChunk {reasm : Framing.Reassembler} (valid : reasm.Valid) (ctrl : UInt8) (chunk : Bytes) :
    Settles K q (Connection.absorbChunk reasm ctrl chunk) ∧
      ∀ h b h', (Connection.absorbChunk reasm ctrl chunk).run h = (.ok (.inl b), h') → b.1.Valid := by
  cases chunk with
  | nil => exact ⟨pure _, fun h b h' run => by cases run; exact valid⟩
  | cons first rest =>
    rw [Connection.absorbChunk]
    generalize (if first &&& CONTINUATION_BIT = 0 then first else ctrl) = named
    obtain ⟨payload, reasm', run, valid'⟩ | ⟨e, reasm', run, isOwn⟩ := pushPacket_ends valid (first :: rest)
    · have pushed : ∀ h : Host Connection,
          (Comp.runLocal (Framing.Reassembler.pushPacket (first :: rest)) reasm : Io Connection _).run h = (.ok (payload, reasm'), h) :=
        fun h => Comp.runLocal_ok run h
      cases payload with
      | none =>
        refine ⟨fun h => ?_, fun h b h' run => ?_⟩
        · rw [Comp.bind_ok (pushed h)]
          exact pure _ h
        · rw [Comp.bind_ok (pushed h)] at run
          cases run
          exact valid'
      | some payload =>
        have settles : Settles K q (do
            Io.note (.frameIn named payload)
            if named = Framing.Control.TRANSPORT_ERROR then .fail (decodeTransportError payload)
            else Pure.pure (.inr (named, payload)) : Io Connection ((Framing.Reassembler × UInt8) ⊕ (UInt8 × Bytes))) := by
          refine Comp.Settles.bind_of (passing K q) (note _) fun h _ h' noted => ?_
          cases noted
          by_cases error : named = Framing.Control.TRANSPORT_ERROR
          · rw [if_pos error, error]
            exact .err (.reported (.refl _) rfl)
          · rw [if_neg error]
            exact pure _ _
        refine ⟨fun h => ?_, fun h b h' run => ?_⟩
        · rw [Comp.bind_ok (pushed h)]
          exact settles h
        · rw [Comp.bind_ok (pushed h)] at run
          simp only [Io.run_note_bind] at run
          split at run <;> cases run
    · have refused : ∀ h : Host Connection,
          (Comp.runLocal (Framing.Reassembler.pushPacket (first :: rest)) reasm : Io Connection _).run h = (.err e, h) :=
        fun h => Comp.runLocal_err (by rw [run]) h
      refine ⟨fun h => ?_, fun h b h' run => ?_⟩
      · rw [Comp.bind_err (refused h)]
        exact .err (.here isOwn h.wire)
      · rw [Comp.bind_err (refused h)] at run
        cases run

theorem readFramed : Settles K q Connection.readFramed := by
  refine Comp.Settles.loop (passing K q) (fun b => b.1.Valid) Connection.readFramedTurn_lowers
    (fun b valid => bind readChunk fun chunk => (absorbChunk valid b.2 chunk).1) (fun b h b' h' valid turn => ?_) _ (.inl ⟨rfl, rfl⟩)
  obtain ⟨chunk, h1, -, absorbed⟩ := Comp.bind_eq_ok turn
  exact (absorbChunk (K := K) (q := q) valid b.2 chunk).2 h1 b' h' absorbed

/-- A turn of the waiting loop that goes on has read a frame. -/
theorem awaitTurn_lowers {step : UInt8 → Bytes → Io Connection (Unit ⊕ α)}
    (quiet : ∀ ctrl payload, Comp.Keeps Connection.Quiet (step ctrl payload)) (_ : Unit) (h : Host Connection) (u' : Unit)
    (h' : Host Connection) (turn : (Connection.readFramed >>= fun f => step f.1 f.2).run h = (.ok (.inl u'), h')) :
    h'.wire.inbox.length < h.wire.inbox.length := by
  obtain ⟨f, h1, read, rest⟩ := Comp.bind_eq_ok turn
  have same := quiet f.1 f.2 h1
  rw [rest] at same
  rw [same.inbox]
  exact Connection.readFramed_lowers read

theorem awaitFrame {step : UInt8 → Bytes → Io Connection (Unit ⊕ α)}
    (quiet : ∀ ctrl payload, Comp.Keeps Connection.Quiet (step ctrl payload)) (each : ∀ ctrl payload, Settles K q (step ctrl payload)) :
    Settles K q (Connection.awaitFrame step) :=
  Comp.Settles.loop (passing K q) (fun _ => True) (awaitTurn_lowers quiet)
    (fun _ _ => bind readFramed fun f => each f.1 f.2) (fun _ _ _ _ _ _ => trivial) () trivial

theorem sendDataStep (ctrl : UInt8) (payload : Bytes) : Settles K q (Connection.sendDataStep ctrl payload) := by
  refine bind own fun c => ?_
  split
  · split
    · exact bind (modifyOwn _) fun _ => pure _
    · exact pure _
  · refine bind (modifyOwn _) fun _ => bind (note _) fun _ => bind (writeFramed _ _) fun _ => ?_
    split
    · exact bind (modifyOwn _) fun _ => pure _
    · exact pure _

theorem recvDataStep (ctrl : UInt8) (payload : Bytes) : Settles K q (Connection.recvDataStep ctrl payload) := by
  rw [Connection.recvDataStep]
  split
  · exact pure _
  · refine bind (writeFramed _ _) fun _ => bind own fun c => ?_
    split
    · exact bind (modifyOwn _) fun _ => pure _
    · exact pure _

theorem sendData (base : UInt8) (payload : Bytes) : Settles K q (Connection.sendData base payload) :=
  bind own fun _ => bind (note _) fun _ => bind (writeFramed _ _) fun _ =>
    bind (awaitFrame Connection.sendDataStep_quiet sendDataStep) fun _ => note _

theorem recvData : Settles K q Connection.recvData := by
  refine bind own fun c => ?_
  split
  · exact bind (modifyOwn _) fun _ => bind (note _) fun _ => pure _
  · exact bind (awaitFrame Connection.recvDataStep_quiet recvDataStep) fun _ => bind (note _) fun _ => pure _

/-! ## Application messages -/

theorem sendApp (type : UInt16) (body : Bytes) : Settles K q (Connection.sendApp K type body) :=
  bind own fun _ => bind (onSession (bind (note _) fun _ => bind own fun _ => bind (aeadSeal _ _ _ _) fun _ =>
    bind (modifyOwn _) fun _ => pure _)) fun _ => sendData _ _

theorem openApp (ct : Bytes) : Settles K q (Connection.openApp K ct) :=
  bind own fun _ => onSession (bind own fun _ => bind (bind own fun _ => bind (aeadOpen _ _ _ _) fun _ =>
    bind (modifyOwn _) fun _ => pure _) fun _ => bind (ofExcept (decodeAppMessage_checks _)) fun _ => bind (note _) fun _ => pure _)

/-- A reply is the message that was opened last. -/
theorem recvApp_last {h h' : Host Connection} {reply : UInt16 × Bytes} (ran : (Connection.recvApp K).run h = (.ok reply, h')) :
    ∃ es id nonce sessionId, h'.wire.trace = es ++ [.appIn id nonce ⟨sessionId, reply.1, reply.2⟩] := by
  obtain ⟨frame, h1, -, opens⟩ := Comp.bind_eq_ok ran
  obtain ⟨m, h2, opened, returned⟩ := Comp.bind_eq_ok opens
  cases returned
  rcases established : h1.own.session with _ | session
  · rw [Connection.openApp_none established] at opened
    cases opened
  · rw [Connection.openApp_run established] at opened
    rcases decrypts : K.aesGcmDecrypt session.keyRecv (ivFromNonce session.nonceRecv) [] frame.2 with _ | pt <;> rw [decrypts] at opened
    · cases opened
    · rcases decoded : decodeAppMessage pt with e | m' <;> simp only [decoded] at opened <;> cases opened
      exact ⟨_, _, _, _, rfl⟩

theorem recvApp : Settles K q (Connection.recvApp K) := bind recvData fun frame => bind (openApp frame.2) fun _ => pure _

/-- A `Failure` ends the exchange with what it says. -/
theorem transceiveTurn : Settles K q (Connection.transceiveTurn K ()) := by
  refine Comp.Settles.bind_of (passing K q) recvApp fun h reply h' received => ?_
  obtain ⟨es, id, nonce, sessionId, last⟩ := recvApp_last received
  obtain ⟨rt, rp⟩ := reply
  dsimp only
  by_cases button : rt = MSG_BUTTON_REQUEST
  · rw [if_pos button]
    exact bind (sendApp _ _) (fun _ => pure _) h'
  · rw [if_neg button]
    by_cases failure : rt = MSG_FAILURE
    · rw [if_pos failure]
      exact .err (.refused (.refl _) last failure)
    · rw [if_neg failure]
      exact pure _ h'

theorem transceive (type : UInt16) (body : Bytes) : Settles K q (Connection.transceive K type body) :=
  bind (sendApp _ _) fun _ => bind (Comp.Settles.loop (passing K q) (fun _ => True) Connection.transceiveTurn_lowers
    (fun _ _ => transceiveTurn) (fun _ _ _ _ _ _ => trivial) () trivial) fun _ => bind own fun _ => bind (note _) fun _ => pure _

theorem ask (r : Request) : Settles K q (Chat.ask K r) := by
  rw [Chat.ask]
  split
  · exact bind (modifyOwn _) fun _ => transceive _ _
  · exact transceive _ _

/-- A chat whose loops are not idle settles, if the errors it raises are the host's own. -/
theorem chat {chat : Chat α} (paced : Script.Paced chat) (fails : Script.FailsWith (·.isOwn = true) chat) : Settles K q (chat.on K) :=
  Script.run_settles (passing K q) Connection.ask_lowers ask (fun _ isOwn h => .here isOwn h.wire) paced fails

/-! ## Bringing a channel up -/

theorem awaitAllocation (nonce : Octets 8) : ∀ reads, Settles K q (Connection.awaitAllocation K nonce reads)
  | 0 => fail rfl
  | reads + 1 => by
    refine bind readFramed fun frame => ?_
    split
    split
    · split
      · exact bind (modifyOwn _) fun _ => pure _
      · exact awaitAllocation nonce reads
    · exact awaitAllocation nonce reads

theorem allocate : Settles K q (Connection.allocate K) :=
  bind (getrandom 8) fun nonce => bind (modifyOwn _) fun _ => bind (writeFramed _ _) fun _ => awaitAllocation nonce _

theorem hkdf (ck input : Bytes) : Settles K q (Noise.hkdf K ck input : Io γ _) := bind (note _) fun _ => pure _

theorem asArray32 (bytes : Bytes) : Settles K q (Noise.asArray32 bytes : Io γ _) := by
  rw [Noise.asArray32]
  cases Bytes.asOctets 32 bytes with
  | some array => exact pure _
  | none => exact fail rfl

theorem readInitResponse (resp : Bytes) : Settles K q (Noise.HostHandshake.readInitResponse K resp) := by
  unfold Noise.HostHandshake.readInitResponse
  split
  · exact fail rfl
  · refine bind own fun self => bind (asArray32 _) fun ephemeral => bind (hkdf _ _) fun keys => bind (aeadOpen _ _ _ _) fun masked =>
      bind (asArray32 _) fun masked => bind (hkdf _ _) fun keys => bind (aeadOpen _ _ _ _) fun empty => ?_
    split
    · exact fail rfl
    · exact bind (aeadSeal _ _ _ _) fun _ => bind (hkdf _ _) fun _ => bind (aeadSeal _ _ _ _) fun _ => bind (modifyOwn _) fun _ => pure _

theorem readCompletionResponse (resp : Bytes) : Settles K q (Noise.HostHandshake.readCompletionResponse K resp) :=
  bind own fun _ => bind (hkdf _ _) fun _ => bind (aeadOpen _ _ _ _) fun _ => pure _

theorem handshake (devicePropertiesRaw : Bytes) (hostStaticPriv : Octets 32) (credential : Option Bytes) :
    Settles K q (Connection.handshake K devicePropertiesRaw hostStaticPriv credential) :=
  bind (bind (getrandom 32) fun _ => pure _) fun _ => bind (sendData _ _) fun _ => bind recvData fun _ =>
    bind (runOwned (readInitResponse _) _) fun _ => bind (sendData _ _) fun _ => bind recvData fun _ =>
      bind (runOwned (readCompletionResponse _) _) fun _ => pure _

end Settles

end TrezorCore
