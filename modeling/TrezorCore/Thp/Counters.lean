import TrezorCore.Thp.BringUp
import TrezorCore.Thp.Pairing
import TrezorCore.Thp.Service

/-!
# The counters of a session

In a build with overflow checks the `+= 1` on a counter of the session panics at `u64::MAX`. The
history tells whether a run got there, since the IV of every seal and open shows the counter, and
`checked` is the run in such a build. A run does not get there if it starts with counters that are
further below the maximum than there are chunks to come: every message that is sealed is followed
by a read before the next one, and every message that is opened comes behind a read of its own.
-/

namespace TrezorCore

open Session (MAX_NONCE)

variable {γ δ α β : Type}

/-- A counter was used at its maximum, and then advanced. -/
def Event.overflows : Event → Bool
  | .sealed _ iv _ _ _ | .opened _ iv _ _ (some _) => iv = ivFromNonce MAX_NONCE
  | _ => false

/-- A call in a build with overflow checks: it panics where a counter starts over. -/
def checked (x : Io γ α) : Io γ α := ⟨fun h =>
  if ((x.run h).2.wire.trace.drop h.wire.trace.length).any Event.overflows then (.panicked, (x.run h).2) else x.run h⟩

/-! ## Such a build -/

section Checked

variable {K : Crates}

theorem checked_eq {x : Io γ α} {h : Host γ} {es : List Event} (trace : (x.run h).2.wire.trace = h.wire.trace ++ es) :
    (checked x).run h = if es.any Event.overflows then (.panicked, (x.run h).2) else x.run h := by
  simp only [checked, trace, List.drop_left']

theorem overflows_sealed {key : Octets 32} {nonce : UInt64} {aad plaintext ciphertext : Bytes} :
    Event.overflows (.sealed key (ivFromNonce nonce) aad plaintext ciphertext) = decide (nonce = MAX_NONCE) :=
  decide_eq_decide.2 ⟨ivFromNonce_inj, congrArg ivFromNonce⟩

theorem overflows_opened {key : Octets 32} {nonce : UInt64} {aad ciphertext plaintext : Bytes} :
    Event.overflows (.opened key (ivFromNonce nonce) aad ciphertext (some plaintext)) = decide (nonce = MAX_NONCE) :=
  decide_eq_decide.2 ⟨ivFromNonce_inj, congrArg ivFromNonce⟩

/-- `seal` panics there exactly if its addition does, -/
theorem checked_seal (appPayload : Bytes) (h : Host Session) :
    ((checked (Session.sealPayload K appPayload)).run h).1 = ((Session.sealChecked K appPayload).run h).1 := by
  have trace : ((Session.sealPayload K appPayload).run h).2.wire.trace =
      h.wire.trace ++ [.sealed h.own.keySend (ivFromNonce h.own.nonceSend) [] appPayload _] := rfl
  rw [checked_eq trace, List.any_cons, overflows_sealed, Session.sealChecked, Io.run_own_bind, run_aeadSeal_bind, Session.checkedSucc]
  by_cases last : h.own.nonceSend = MAX_NONCE
  · simp [last, Comp.unwrap, Comp.run_bind, Comp.panic]
  · simp [last, Comp.unwrap]
    rfl

/-- and so does `open`. -/
theorem checked_open (ciphertext : Bytes) (h : Host Session) :
    ((checked (Session.openPayload K ciphertext)).run h).1 = ((Session.openChecked K ciphertext).run h).1 := by
  rcases opens : K.aesGcmDecrypt h.own.keyRecv (ivFromNonce h.own.nonceRecv) [] ciphertext with _ | pt
  · have refused : (Session.openPayload K ciphertext).run h = (.err (.thp "AES-GCM authentication failed"),
        ⟨h.own, h.wire.log (.opened h.own.keyRecv (ivFromNonce h.own.nonceRecv) [] ciphertext none)⟩) := run_aeadOpen_bind_none opens _ h
    rw [checked_eq (by rw [refused]; rfl), refused, Session.openChecked, Io.run_own_bind, run_aeadOpen_bind_none opens]
    rfl
  · have accepted : (Session.openPayload K ciphertext).run h = (.ok pt, ⟨{ h.own with nonceRecv := h.own.nonceRecv + 1 },
        h.wire.log (.opened h.own.keyRecv (ivFromNonce h.own.nonceRecv) [] ciphertext (some pt))⟩) := run_aeadOpen_bind opens _ h
    rw [checked_eq (by rw [accepted]; rfl), accepted, Session.openChecked, Io.run_own_bind, run_aeadOpen_bind opens, List.any_cons,
      overflows_opened, Session.checkedSucc]
    by_cases last : h.own.nonceRecv = MAX_NONCE
    · simp [last, Comp.unwrap, Comp.run_bind, Comp.panic]
    · simp [last, Comp.unwrap]

/-- One part after another panics there where the first of the two does. -/
theorem checked_bind {x : Io γ α} {f : α → Io γ β} (first : ∀ h, h.wire.trace <+: (x.run h).2.wire.trace)
    (later : ∀ a h, h.wire.trace <+: ((f a).run h).2.wire.trace) (h : Host γ) :
    ((checked (x >>= f)).run h).1 = ((checked x >>= fun a => checked (f a)).run h).1 := by
  obtain ⟨es, trace⟩ := first h
  rw [Comp.run_bind, checked_eq trace.symm]
  rcases ran : x.run h with ⟨a | e | _ | _, h'⟩
  · rw [ran] at trace
    obtain ⟨es', trace'⟩ := later a h'
    have both : ((x >>= f).run h).2.wire.trace = h.wire.trace ++ (es ++ es') := by
      rw [Comp.bind_ok ran, ← trace', ← trace, List.append_assoc]
    rw [checked_eq both, Comp.bind_ok ran, List.any_append]
    by_cases overflowed : es.any Event.overflows
    · simp [overflowed]
    · simp [overflowed, checked_eq trace'.symm]
  all_goals
    rw [ran] at trace
    have ended : ((x >>= f).run h).2 = h' := by rw [Comp.run_bind, ran]
    rw [checked_eq (by rw [ended]; exact trace.symm), Comp.run_bind, ran]
    split <;> rfl

end Checked

/-! ## Below the maximum -/

/-- Since `t`, no counter has overflowed. -/
def Unspent (t : List Event) (w : Wire) : Prop := ∃ es, w.trace = t ++ es ∧ ∀ e ∈ es, e.overflows = false

/-- Then a build with overflow checks does the same. -/
theorem checked_unspent {x : Io γ α} {h : Host γ} (unspent : Unspent h.wire.trace (x.run h).2.wire) : (checked x).run h = x.run h := by
  obtain ⟨es, trace, sound⟩ := unspent
  rw [checked_eq trace, if_neg]
  rw [List.any_eq_true]
  rintro ⟨e, mem, overflowed⟩
  rw [sound e mem] at overflowed
  cases overflowed

theorem Unspent.refl (w : Wire) : Unspent w.trace w := ⟨[], (List.append_nil _).symm, fun _ mem => absurd mem List.not_mem_nil⟩

theorem Unspent.trans {t : List Event} {w w' : Wire} (h1 : Unspent t w) (h2 : Unspent w.trace w') : Unspent t w' := by
  obtain ⟨es1, t1, s1⟩ := h1
  obtain ⟨es2, t2, s2⟩ := h2
  refine ⟨es1 ++ es2, by rw [t2, t1, List.append_assoc], fun e mem => ?_⟩
  exact (List.mem_append.1 mem).elim (s1 e) (s2 e)

theorem Unspent.log (w : Wire) {e : Event} (sound : e.overflows = false) : Unspent w.trace (w.log e) :=
  ⟨[e], rfl, fun e' mem => by rw [List.mem_singleton.1 mem]; exact sound⟩

/-- No overflow, and at most some chunks read. -/
structure Rested (w w' : Wire) : Prop where
  unspent : Unspent w.trace w'
  inbox : w'.inbox.length ≤ w.inbox.length

/-- The session is as before, too. -/
structure Calm (h h' : Host Connection) : Prop extends Rested h.wire h'.wire where
  session : h'.own.session = h.own.session

theorem Rested.refl (w : Wire) : Rested w w := ⟨.refl w, Nat.le_refl _⟩

theorem Rested.trans {a b c : Wire} (h1 : Rested a b) (h2 : Rested b c) : Rested a c :=
  ⟨h1.unspent.trans h2.unspent, Nat.le_trans h2.inbox h1.inbox⟩

theorem ivZero_ne : Noise.IV_ZERO ≠ ivFromNonce MAX_NONCE := by decide

theorem ivOne_ne : Noise.IV_ONE ≠ ivFromNonce MAX_NONCE := by decide

/-- The IVs of a handshake are not that of the last counter. -/
theorem rested_noise : Noise.AcrossNoise (OnWire Rested : Host γ → Host γ → Prop) where
  refl h := .refl h.wire
  trans _ _ _ := Rested.trans
  derived _ _ h := ⟨.log h.wire rfl, Nat.le_refl _⟩
  sealed _ _ _ _ _ fixed h := by
    refine ⟨.log h.wire ?_, Nat.le_refl _⟩
    rcases fixed with rfl | rfl
    · exact decide_eq_false ivZero_ne
    · exact decide_eq_false ivOne_ne
  opened _ _ _ plaintext h := by
    refine ⟨.log h.wire ?_, Nat.le_refl _⟩
    cases plaintext with
    | none => rfl
    | some _ => exact decide_eq_false ivZero_ne

namespace Calm

open Connection

variable {K : Crates}

theorem refl (h : Host Connection) : Calm h h := ⟨.refl h.wire, rfl⟩

theorem trans (a b c : Host Connection) (h1 : Calm a b) (h2 : Calm b c) : Calm a c :=
  ⟨h1.toRested.trans h2.toRested, h2.session.trans h1.session⟩

theorem link {x : Io Connection α} (only : Comp.Keeps LinkOnly x) (consumes : Comp.Keeps (OnWire LeftOf) x) : Comp.Keeps Calm x := by
  intro h
  obtain ⟨es, trace, links⟩ := (only h).events
  refine ⟨⟨⟨es, trace, fun e mem => ?_⟩, (consumes h).length_le⟩, (only h).session⟩
  have link := links e mem
  cases e <;> first | rfl | cases link

theorem modifyOwn {f : Connection → Connection} (same : ∀ c, (f c).session = c.session) : Comp.Keeps Calm (Io.modifyOwn f) :=
  fun h => ⟨.refl h.wire, same h.own⟩

theorem getrandom (n : Nat) : Comp.Keeps Calm (Io.getrandom n : Io Connection _) :=
  fun h => ⟨⟨.refl h.wire, Nat.le_refl _⟩, rfl⟩

theorem runOwned {x : Io δ α} (rested : Comp.Keeps (OnWire Rested) x) (d : δ) : Comp.Keeps Calm (Io.runOwned x d : Io Connection _) := by
  intro h
  have kept := rested ⟨d, h.wire⟩
  rcases ran : x.run ⟨d, h.wire⟩ with ⟨_ | _ | _ | _, h'⟩ <;> rw [ran] at kept <;> simp only [Io.runOwned, ran] <;> exact ⟨kept, rfl⟩

theorem awaitAllocation (nonce : Octets 8) : ∀ reads, Comp.Keeps Calm (awaitAllocation K nonce reads)
  | 0 => .fail refl _
  | reads + 1 => by
    refine .bind trans (link LinkOnly.readFramed consuming.readFramed) fun frame => ?_
    split
    split
    · split
      · exact .bind trans (modifyOwn fun _ => rfl) fun _ => .pure refl _
      · exact awaitAllocation nonce reads
    · exact awaitAllocation nonce reads

theorem allocate : Comp.Keeps Calm (allocate K) :=
  .bind trans (getrandom 8) fun nonce => .bind trans (modifyOwn fun _ => rfl) fun _ =>
    .bind trans (link (LinkOnly.writeFramed _ _) (consuming.writeFramed _ _)) fun _ => awaitAllocation nonce _

theorem handshake (devicePropertiesRaw : Bytes) (hostStaticPriv : Octets 32) (credential : Option Bytes) :
    Comp.Keeps Calm (handshake K devicePropertiesRaw hostStaticPriv credential) :=
  have sends := fun base payload => link (LinkOnly.sendData base payload) (consuming.sendData base payload)
  have receives := link LinkOnly.recvData consuming.recvData
  .bind trans (.bind trans (getrandom 32) fun _ => .pure refl _) fun _ => .bind trans (sends _ _) fun _ => .bind trans receives fun _ =>
    .bind trans (runOwned (Noise.readInitResponse_across rested_noise (fun _ _ _ h => .refl h.wire) _) _) fun _ =>
    .bind trans (sends _ _) fun _ => .bind trans receives fun _ =>
    .bind trans (runOwned (Noise.readCompletionResponse_across rested_noise _) _) fun _ => .pure refl _

end Calm

namespace Connection

variable {K : Crates} {t : List Event} {n : Nat}

/-- Since `t` no counter has overflowed, and none will as long as each step of one goes with a chunk
that is read. The receive counter may be `n` steps behind the reads. -/
structure Room (t : List Event) (n : Nat) (h : Host Connection) : Prop where
  unspent : Unspent t h.wire
  inbox : h.wire.inbox.length + 1 < MAX_NONCE.toNat
  send : ∀ s, h.own.session = some s → s.nonceSend.toNat + h.wire.inbox.length < MAX_NONCE.toNat
  recv : ∀ s, h.own.session = some s → s.nonceRecv.toNat + h.wire.inbox.length + n < MAX_NONCE.toNat

theorem Room.calm {h h' : Host Connection} (room : Room t n h) (calm : Calm h h') : Room t n h' := by
  have fewer := calm.inbox
  refine ⟨room.unspent.trans calm.unspent, Nat.lt_of_le_of_lt (by omega) room.inbox, fun s established => ?_, fun s established => ?_⟩
  · have below := room.send s (calm.session ▸ established)
    omega
  · have below := room.recv s (calm.session ▸ established)
    omega

theorem Calm.triple {x : Io Connection α} (calm : Comp.Keeps Calm x) :
    Comp.Triple (Room t n) x (fun _ => Room t n) fun h => Unspent t h.wire :=
  .of_keeps calm (fun _ _ calm room _ => room.calm calm) fun _ _ calm room => (room.calm calm).unspent

/-- Below the maximum a counter does not start over. -/
theorem nonce_succ {nonce : UInt64} (below : nonce.toNat < MAX_NONCE.toNat) : (nonce + 1).toNat = nonce.toNat + 1 := by
  have max : MAX_NONCE.toNat = 2 ^ 64 - 1 := rfl
  rw [UInt64.toNat_add]
  exact Nat.mod_eq_of_lt (by simp; omega)

theorem nonce_ne {nonce : UInt64} (below : nonce.toNat < MAX_NONCE.toNat) : decide (nonce = MAX_NONCE) = false := by
  refine decide_eq_false fun same => ?_
  rw [same] at below
  exact Nat.lt_irrefl _ below

/-- A message that is sent has cost a chunk. -/
theorem sendApp_room (type : UInt16) (body : Bytes) :
    Comp.Triple (Room t 0) (sendApp K type body) (fun _ => Room t 1) fun h => Unspent t h.wire := by
  intro h room
  rcases established : h.own.session with _ | s
  · rw [sendApp_none established]
    exact room.unspent
  rw [sendApp_run established]
  generalize message : (⟨h.own.activeSessionId, type, body⟩ : AppMessage) = m
  have below := room.send s established
  have recv := room.recv s established
  have sealed : Unspent t (afterSeal K h s m).wire := by
    refine (room.unspent.trans (.log h.wire (e := .appOut h.own.id m) rfl)).trans (.log _ ?_)
    rw [overflows_sealed]
    exact nonce_ne (by omega)
  have calm := Calm.link (LinkOnly.sendData Framing.Control.ENCRYPTED_TRANSPORT (appCiphertext K s m)) (consuming.sendData _ _) (afterSeal K h s m)
  rcases ran : (sendData Framing.Control.ENCRYPTED_TRANSPORT (appCiphertext K s m)).run (afterSeal K h s m) with ⟨_ | _ | _ | _, h'⟩ <;>
    rw [ran] at calm
  · have read : h'.wire.inbox.length < h.wire.inbox.length := sendData_lowers _ _ (h := afterSeal K h s m) ran
    have inbox := room.inbox
    have session : h'.own.session = some { s with nonceSend := s.nonceSend + 1 } := calm.session
    refine ⟨sealed.trans calm.unspent, by omega, fun s' is => ?_, fun s' is => ?_⟩ <;> rw [session] at is <;> cases is
    · rw [nonce_succ (by omega)]
      omega
    · dsimp only
      omega
  all_goals exact sealed.trans calm.unspent

theorem openApp_room (ct : Bytes) : Comp.Triple (Room t 1) (openApp K ct) (fun _ => Room t 0) fun h => Unspent t h.wire := by
  intro h room
  rcases established : h.own.session with _ | s
  · rw [openApp_none established]
    exact room.unspent
  rw [openApp_run established]
  have send := room.send s established
  have recv := room.recv s established
  rcases K.aesGcmDecrypt s.keyRecv (ivFromNonce s.nonceRecv) [] ct with _ | pt
  · exact room.unspent.trans (.log h.wire rfl)
  · have opened : Unspent t (afterOpen h s ct (some pt)).wire := by
      refine room.unspent.trans (.log h.wire ?_)
      rw [overflows_opened]
      exact nonce_ne (by omega)
    dsimp only
    rcases decodeAppMessage pt with e | m
    · exact opened
    · refine ⟨opened.trans (.log _ rfl), room.inbox, fun s' is => ?_, fun s' is => ?_⟩ <;> cases is
      · exact send
      · show (s.nonceRecv + 1).toNat + h.wire.inbox.length + 0 < _
        rw [nonce_succ (by omega)]
        omega

/-- One that is received uses it up. -/
theorem recvApp_room : Comp.Triple (Room t 1) (recvApp K) (fun _ => Room t 0) fun h => Unspent t h.wire :=
  .bind (Calm.triple (Calm.link LinkOnly.recvData consuming.recvData)) fun frame => .bind (openApp_room frame.2) fun _ =>
    .pure _ fun _ room => room

theorem transceiveTurn_room (u : Unit) : Comp.Triple (Room t 1) (transceiveTurn K u) (Sum.elim (fun _ => Room t 1) fun _ => Room t 0)
    fun h => Unspent t h.wire := by
  refine .bind recvApp_room fun reply => ?_
  split
  split
  · exact .bind (sendApp_room _ _) fun _ => .pure _ fun _ room => room
  · split
    · exact .fail _ fun _ room => room.unspent
    · exact .pure _ fun _ room => room

/-- **An exchange** leaves as much room as there was. -/
theorem transceive_room (type : UInt16) (body : Bytes) :
    Comp.Triple (Room t 0) (transceive K type body) (fun _ => Room t 0) fun h => Unspent t h.wire := by
  refine .bind (sendApp_room type body) fun _ => .bind (.loop (fun _ _ room => room.unspent) transceiveTurn_room ()) fun reply => ?_
  intro h room
  exact ⟨room.unspent.trans (.log h.wire rfl), room.inbox, room.send, room.recv⟩

theorem modifyOwn_room {f : Connection → Connection} (same : ∀ c, (f c).session = c.session) :
    Comp.Triple (Room t n) (Io.modifyOwn f) (fun _ => Room t n) fun h => Unspent t h.wire := Calm.triple (Calm.modifyOwn same)

theorem ask_room (q : Request) : Comp.Triple (Room t 0) (Chat.ask K q) (fun _ => Room t 0) fun h => Unspent t h.wire := by
  rw [Chat.ask]
  split
  · exact .bind (modifyOwn_room fun _ => rfl) fun _ => transceive_room _ _
  · exact transceive_room _ _

theorem chat_room (chat : Chat α) : Comp.Triple (Room t 0) (chat.on K) (fun _ => Room t 0) fun h => Unspent t h.wire :=
  (Script.run_triple (P := fun _ => Room t 0) (fun _ _ room => room.unspent) (fun _ => ask_room) chat []).conseq (fun _ room => room)
    (fun _ _ ⟨_, _, room⟩ => room) fun _ unspent => unspent

/-- A new session starts with its counters at zero and one. -/
theorem setSession_room {keys : Noise.SessionKeys} (request : keys.nonceRequest = 0) (response : keys.nonceResponse = 1) :
    Comp.Triple (Room t 0) (setSession (Session.fromHandshake keys)) (fun _ => Room t 0) fun h => Unspent t h.wire := by
  intro h room
  have inbox := room.inbox
  refine ⟨room.unspent, inbox, fun s is => ?_, fun s is => ?_⟩ <;> cases is
  · show keys.nonceRequest.toNat + h.wire.inbox.length < _
    rw [request]
    simp only [UInt64.toNat_zero]
    omega
  · show keys.nonceResponse.toNat + h.wire.inbox.length + 0 < _
    rw [response]
    simp only [UInt64.toNat_one]
    omega

end Connection

end TrezorCore
