import TrezorCore.Thp.Handshake
import TrezorCore.Thp.History

/-!
# No IV is used twice

The whole life of a channel on the host (the handshake, then any application messages) and
on the device (the responder, then the mirror session), each fed whatever the other side or
an adversary sends. Every seal belongs to a slot: the handshake step whose key it uses, and
an IV. `hostSlots` and `deviceSlots` are the slots the code fills, in order; no slot occurs
twice in the two together, and keys of different steps differ, so no key and IV occur
together twice (`no_iv_reuse`).
-/

namespace TrezorCore.NonceReuse

open Noise

variable (K : Crates)

/-- The keys of a handshake: one from each of the first three steps, two from the last. -/
inductive Role where
  | ephemeral
  | masked
  | static
  | request
  | response
  deriving DecidableEq

/-- The key in a role, given the outputs of the HKDF steps. -/
def roleKey (steps : List (Octets 32 × Octets 32)) : Role → Option (Octets 32)
  | .ephemeral => steps[0]?.map Prod.snd
  | .masked => steps[1]?.map Prod.snd
  | .static => steps[2]?.map Prod.snd
  | .request => steps[3]?.map Prod.fst
  | .response => steps[3]?.map Prod.snd

abbrev Slot := Role × Octets 12

/-- The seals of a history fill these slots, in order. -/
def Fills (trace : List Event) (slots : List Slot) : Prop :=
  List.Forall₂ (fun use slot => roleKey (derivations trace) slot.1 = some use.key ∧ use.iv = slot.2)
    (seals trace) slots

theorem roleKey_append {steps : List (Octets 32 × Octets 32)} {role : Role} {key : Octets 32}
    (h : roleKey steps role = some key) (more : List (Octets 32 × Octets 32)) :
    roleKey (steps ++ more) role = some key := by
  have keep : ∀ {i : Nat} {d : Octets 32 × Octets 32}, steps[i]? = some d → (steps ++ more)[i]? = some d :=
    fun hd => (List.getElem?_append_left (List.getElem?_eq_some_iff.1 hd).1).trans hd
  cases role <;>
  · obtain ⟨d, hd, rfl⟩ := Option.map_eq_some_iff.1 h
    simp only [roleKey, keep hd, Option.map_some]

/-- Later HKDF steps do not move a key to another role. -/
theorem Fills.append {trace more : List Event} {slots : List Slot} (h : Fills trace slots) (noSeals : seals more = []) :
    Fills (trace ++ more) slots := by
  rw [Fills, seals_append, noSeals, List.append_nil, derivations_append]
  exact h.imp fun _ _ ⟨key, iv⟩ => ⟨roleKey_append key _, iv⟩

/-- One more seal, in the next slot. -/
theorem Fills.snoc {trace : List Event} {slots : List Slot} {key : Octets 32} {iv : Octets 12} {aad p c : Bytes}
    {role : Role} (h : Fills trace slots) (hk : roleKey (derivations trace) role = some key) :
    Fills (trace ++ [.sealed key iv aad p c]) (slots ++ [(role, iv)]) := by
  rw [Fills, seals_append, derivations_append]
  refine List.rel_append (h.imp fun _ _ ⟨key, iv⟩ => ⟨roleKey_append key _, iv⟩) (.cons ⟨roleKey_append hk _, rfl⟩ .nil)

/-! ## The slots of each side -/

/-- The host seals its static key and its payload in the handshake, then counts from 0. -/
def handshakeSlots : List Slot := [(.masked, IV_ONE), (.static, IV_ZERO)]

def hostSlots (n : Nat) : List Slot :=
  handshakeSlots ++ (List.range n).map fun i => (.request, ivFromNonce (UInt64.ofNat i))

/-- The device seals its masked key, the empty payload and its state, then counts from 1. -/
def responderSlots : List Slot := [(.ephemeral, IV_ZERO), (.masked, IV_ZERO), (.response, IV_ZERO)]

def deviceSlots (n : Nat) : List Slot :=
  responderSlots ++ (List.range n).map fun i => (.response, ivFromNonce (UInt64.ofNat (i + 1)))

theorem hostSlots_succ (n : Nat) :
    hostSlots (n + 1) = hostSlots n ++ [(.request, ivFromNonce (UInt64.ofNat n))] := by
  simp [hostSlots, List.range_succ]

theorem deviceSlots_succ (n : Nat) :
    deviceSlots (n + 1) = deviceSlots n ++ [(.response, ivFromNonce (UInt64.ofNat (n + 1)))] := by
  simp [deviceSlots, List.range_succ]

/-! ## Rules for the cryptographic calls -/

section Rules

variable {K} {γ : Type}

/-- These HKDF steps were made, and these slots are filled. -/
structure Ledger (steps : List (Octets 32 × Octets 32)) (slots : List Slot) (h : Host γ) : Prop where
  derived : derivations h.wire.trace = steps
  fills : Fills h.wire.trace slots

variable {steps : List (Octets 32 × Octets 32)} {slots : List Slot} {B : Host γ → Prop}

/-- Events that are neither derivations nor seals leave the ledger alone. -/
theorem Ledger.append {h h' : Host γ} {more : List Event} (l : Ledger steps slots h)
    (trace : h'.wire.trace = h.wire.trace ++ more) (noSteps : derivations more = []) (noSeals : seals more = []) :
    Ledger steps slots h' := by
  refine ⟨?_, ?_⟩
  · rw [trace, derivations_append, noSteps, List.append_nil, l.derived]
  · rw [trace]
    exact l.fills.append noSeals

theorem hkdf_ledger (ck input : Bytes) :
    Comp.Triple (Ledger steps slots) (hkdf K ck input : Io γ _) (fun out => Ledger (steps ++ [out]) slots) B := by
  intro h l
  refine ⟨?_, l.fills.append rfl⟩
  change derivations (h.wire.trace ++ _) = _
  rw [derivations_append, l.derived]
  rfl

theorem aeadOpen_ledger (early : ∀ h, Ledger steps slots h → B h) (key : Octets 32) (iv : Octets 12)
    (aad ciphertext : Bytes) :
    Comp.Triple (Ledger steps slots) (aeadOpen K key iv aad ciphertext : Io γ _) (fun _ => Ledger steps slots) B := by
  refine .bind (Q := fun _ => Ledger steps slots) (fun h l => l.append rfl rfl rfl) fun _ => ?_
  cases K.aesGcmDecrypt key iv aad ciphertext with
  | some p => exact .pure p fun _ l => l
  | none => exact .fail _ early

theorem aeadSeal_ledger {r : Role} {key : Octets 32} (hk : roleKey steps r = some key) (iv : Octets 12)
    (aad plaintext : Bytes) :
    Comp.Triple (Ledger steps slots) (aeadSeal K key iv aad plaintext : Io γ _)
      (fun _ => Ledger steps (slots ++ [(r, iv)])) B := by
  intro h l
  refine ⟨?_, l.fills.snoc (by rw [l.derived]; exact hk)⟩
  change derivations (h.wire.trace ++ _) = _
  rw [derivations_append, l.derived]
  exact List.append_nil _

theorem asArray32_ledger (early : ∀ h, Ledger steps slots h → B h) (bytes : Bytes) :
    Comp.Triple (Ledger steps slots) (asArray32 bytes : Io γ _) (fun _ => Ledger steps slots) B := by
  rw [asArray32]
  cases Bytes.asOctets 32 bytes with
  | some a => exact .pure a fun _ l => l
  | none => exact .fail _ early

end Rules

/-! ## The host -/

section Host

variable {K}

/-- Wherever the handshake stops, the seals it made are none or both. -/
def Stopped {γ : Type} (h : Host γ) : Prop := Fills h.wire.trace [] ∨ Fills h.wire.trace handshakeSlots

theorem readInitResponse_ledger (resp : Bytes) :
    Comp.Triple (Ledger [] []) (HostHandshake.readInitResponse K resp)
      (fun _ h => ∃ d1 d2 d3, Ledger [d1, d2, d3] handshakeSlots h) Stopped := by
  have early : ∀ steps (h : Host HostHandshake), Ledger steps [] h → Stopped h := fun _ _ l => .inl l.fills
  rw [HostHandshake.readInitResponse]
  split
  · exact .fail _ (early [])
  refine .bind (Q := fun _ => Ledger [] []) (fun _ l => l) fun self => ?_
  refine .bind (asArray32_ledger (early _) _) fun trezorEphemeralPub => ?_
  refine .bind (hkdf_ledger _ _) fun d1 => ?_
  refine .bind (aeadOpen_ledger (early _) _ _ _ _) fun masked => ?_
  refine .bind (asArray32_ledger (early _) _) fun maskedStatic => ?_
  refine .bind (hkdf_ledger _ _) fun d2 => ?_
  refine .bind (aeadOpen_ledger (early _) _ _ _ _) fun empty => ?_
  by_cases notEmpty : empty ≠ []
  · rw [if_pos notEmpty]
    exact .fail _ (early _)
  rw [if_neg notEmpty]
  refine .bind (aeadSeal_ledger (r := .masked) rfl _ _ _) fun encHostStatic => ?_
  refine .bind (hkdf_ledger _ _) fun d3 => ?_
  refine .bind (aeadSeal_ledger (r := .static) rfl _ _ _) fun encPayload => ?_
  exact .bind (Q := fun _ => Ledger [d1, d2, d3] handshakeSlots) (fun _ l => ⟨l.derived, l.fills⟩) fun _ =>
    .pure _ fun _ l => ⟨d1, d2, d3, l⟩

theorem readCompletionResponse_ledger {d1 d2 d3 : Octets 32 × Octets 32} (resp : Bytes) :
    Comp.Triple (Ledger [d1, d2, d3] handshakeSlots) (HostHandshake.readCompletionResponse K resp)
      (fun keys h => Ledger [d1, d2, d3, (keys.keyRequest, keys.keyResponse)] handshakeSlots h ∧
        keys.nonceRequest = 0) Stopped := by
  refine .bind (Q := fun _ => Ledger [d1, d2, d3] handshakeSlots) (fun _ l => l) fun self => ?_
  refine .bind (hkdf_ledger _ _) fun out => ?_
  exact .bind (aeadOpen_ledger (fun _ l => .inr l.fills) _ _ _ _) fun trezorState => .pure _ fun _ l => ⟨l, rfl⟩

/-- Link-level events do not touch the ledger. -/
theorem Ledger.link {steps : List (Octets 32 × Octets 32)} {slots : List Slot} {h h' : Host Connection}
    (l : Ledger steps slots h) (link : Connection.LinkOnly h h') : Ledger steps slots h' := by
  obtain ⟨es, trace, isLink⟩ := link.events
  refine l.append trace ?_ ?_
  · refine List.filterMap_eq_nil_iff.2 fun e he => ?_
    cases e with
    | derived ck k => exact Bool.noConfusion (isLink _ he)
    | _ => rfl
  · refine List.filterMap_eq_nil_iff.2 fun e he => ?_
    cases e with
    | «sealed» key iv aad p c => exact Bool.noConfusion (isLink _ he)
    | _ => rfl

/-- The connection has no session yet, and the ledger reads so. -/
structure Before (steps : List (Octets 32 × Octets 32)) (slots : List Slot) (h : Host Connection) : Prop where
  session : h.own.session = none
  ledger : Ledger steps slots h

theorem Before.link {steps : List (Octets 32 × Octets 32)} {slots : List Slot} {h h' : Host Connection}
    (b : Before steps slots h) (link : Connection.LinkOnly h h') : Before steps slots h' :=
  ⟨link.session.trans b.session, b.ledger.link link⟩

/-- The connection of a handshake that did not complete. -/
structure Failed (h : Host Connection) : Prop where
  session : h.own.session = none
  stopped : Stopped h

theorem handshake_ledger (devicePropertiesRaw : Bytes) (hostStaticPriv : Octets 32) (credential : Option Bytes) :
    Comp.Triple (Before [] []) (Connection.handshake K devicePropertiesRaw hostStaticPriv credential)
      (fun keys h => h.own.session = none ∧
        (∃ d1 d2 d3, Ledger [d1, d2, d3, (keys.keyRequest, keys.keyResponse)] handshakeSlots h) ∧
        keys.nonceRequest = 0) Failed := by
  have early : ∀ h, Before [] [] h → Failed h := fun _ b => ⟨b.session, .inl b.ledger.fills⟩
  have early' : ∀ h, (∃ d1 d2 d3, Before [d1, d2, d3] handshakeSlots h) → Failed h :=
    fun _ ⟨_, _, _, b⟩ => ⟨b.session, .inr b.ledger.fills⟩
  refine .bind (Q := fun _ => Before [] []) (fun _ b => ⟨b.session, b.ledger.derived, b.ledger.fills⟩) fun hs => ?_
  refine .bind (Connection.LinkOnly.triple (.sendData _ _) .link early) fun _ => ?_
  refine .bind (Connection.LinkOnly.triple .recvData .link early) fun initResp => ?_
  refine .bind (Q := fun _ h => ∃ d1 d2 d3, Before [d1, d2, d3] handshakeSlots h)
    (Io.runOwned_triple (readInitResponse_ledger _) (fun _ b => ⟨b.ledger.derived, b.ledger.fills⟩) ?_ ?_) fun r => ?_
  · rintro h a h' b ⟨d1, d2, d3, l⟩
    exact ⟨d1, d2, d3, b.session, l.derived, l.fills⟩
  · exact fun h h' b stopped => ⟨b.session, stopped⟩
  have link : ∀ {h h'}, (∃ d1 d2 d3, Before [d1, d2, d3] handshakeSlots h) → Connection.LinkOnly h h' →
      ∃ d1 d2 d3, Before [d1, d2, d3] handshakeSlots h' := fun ⟨d1, d2, d3, b⟩ l => ⟨d1, d2, d3, b.link l⟩
  refine .bind (Connection.LinkOnly.triple (.sendData _ _) link early') fun _ => ?_
  refine .bind (Connection.LinkOnly.triple .recvData link early') fun compResp => ?_
  have last : ∀ d1 d2 d3, Comp.Triple (Before [d1, d2, d3] handshakeSlots)
      (Io.runOwned (HostHandshake.readCompletionResponse K compResp.2) r.2)
      (fun out h => h.own.session = none ∧
        (∃ d1 d2 d3, Ledger [d1, d2, d3, (out.1.keyRequest, out.1.keyResponse)] handshakeSlots h) ∧
        out.1.nonceRequest = 0) Failed := by
    intro d1 d2 d3
    refine Io.runOwned_triple (readCompletionResponse_ledger _) (fun _ b => ⟨b.ledger.derived, b.ledger.fills⟩) ?_
      fun h h' b stopped => ⟨b.session, stopped⟩
    rintro h keys h' b ⟨l, nonce⟩
    exact ⟨b.session, ⟨d1, d2, d3, l.derived, l.fills⟩, nonce⟩
  refine .bind (fun h ⟨d1, d2, d3, b⟩ => last d1 d2 d3 h b) fun out => .pure _ fun _ done => done

/-! ### Application messages -/

/-- Slots filled by a host with this session after sealing `n` messages. -/
inductive HostState (n : Nat) (h : Host Connection) : Prop where
  | failed (f : Failed h)
  | running (session : Session) (established : h.own.session = some session)
      (key : roleKey (derivations h.wire.trace) .request = some session.keySend)
      (nonce : session.nonceSend = UInt64.ofNat n) (fills : Fills h.wire.trace (hostSlots n))

theorem HostState.link {n : Nat} {h h' : Host Connection} (s : HostState n h) (link : Connection.LinkOnly h h') :
    HostState n h' := by
  cases s with
  | failed f =>
    refine .failed ⟨link.session.trans f.session, f.stopped.imp (fun fills => ?_) fun fills => ?_⟩
    · exact (Ledger.link ⟨rfl, fills⟩ link).fills
    · exact (Ledger.link ⟨rfl, fills⟩ link).fills
  | running session established key nonce fills =>
    have l : Ledger _ _ h' := Ledger.link ⟨rfl, fills⟩ link
    exact .running session (link.session.trans established) (by rw [l.derived]; exact key) nonce l.fills

/-- Sealing comes first, so a message that then fails to be sent has used up its nonce. -/
theorem sendApp_slots (n : Nat) (messageType : UInt16) (protobuf : Bytes) (h : Host Connection) (s : HostState n h) :
    ∃ m, m ≤ n + 1 ∧ HostState m ((Connection.sendApp K messageType protobuf).run h).2 := by
  cases s with
  | failed f =>
    refine ⟨n, by omega, ?_⟩
    rw [Connection.sendApp_none f.session]
    exact .failed f
  | running session established key nonce fills =>
    refine ⟨n + 1, Nat.le_refl _, ?_⟩
    rw [Connection.sendApp_run established]
    refine HostState.link ?_ (Connection.LinkOnly.sendData _ _ _)
    have noted : Fills (h.wire.trace ++ [.appOut h.own.id ⟨h.own.activeSessionId, messageType, protobuf⟩]) (hostSlots n) :=
      fills.append rfl
    refine .running _ rfl ?_ ?_ ?_
    · exact (congrArg (roleKey · .request) (by simp [Connection.afterSeal, Wire.log, derivations])).trans key
    · change session.nonceSend + 1 = _
      rw [nonce, UInt64.ofNat_add]
      rfl
    · rw [hostSlots_succ, ← nonce]
      refine Fills.snoc noted ?_
      rw [Wire.log_trace, derivations_append]
      exact roleKey_append key _

/-- Opening a message moves the receive side only. -/
theorem HostState.afterOpen {n : Nat} {h h' : Host Connection} {session session' : Session} {more : List Event}
    (s : HostState n h) (established : h.own.session = some session) (own : h'.own.session = some session')
    (key : session'.keySend = session.keySend) (nonce : session'.nonceSend = session.nonceSend)
    (trace : h'.wire.trace = h.wire.trace ++ more) (noSteps : derivations more = []) (noSeals : seals more = []) :
    HostState n h' := by
  cases s with
  | failed f => exact absurd (f.session.symm.trans established) nofun
  | running σ before hk hn fills =>
    obtain rfl := Option.some.inj (before.symm.trans established)
    refine .running session' own ?_ (nonce.trans hn) ?_
    · rw [trace, derivations_append, noSteps, List.append_nil, key]
      exact hk
    · rw [trace]
      exact fills.append noSeals

/-- Receiving seals nothing. -/
theorem recvApp_slots (n : Nat) (h : Host Connection) (s : HostState n h) :
    HostState n ((Connection.recvApp K).run h).2 := by
  have received := s.link (Connection.LinkOnly.recvData h)
  rw [Connection.recvApp, Comp.run_bind]
  rcases hr : Connection.recvData.run h with ⟨⟨_, ct⟩ | _ | _ | _, h1⟩ <;> rw [hr] at received
  · simp only [Comp.run_bind]
    rcases established : h1.own.session with _ | session
    · rw [Connection.openApp_none established]
      exact received
    · rw [Connection.openApp_run established]
      rcases K.aesGcmDecrypt session.keyRecv (ivFromNonce session.nonceRecv) [] ct with _ | pt
      · exact received.afterOpen established rfl rfl rfl rfl rfl rfl
      · rcases decoded : decodeAppMessage pt with e | message <;> simp only [decoded]
        · exact received.afterOpen established rfl rfl rfl rfl rfl rfl
        · exact received.afterOpen established rfl rfl rfl (List.append_assoc _ _ _) rfl rfl
  all_goals exact received

end Host

/-- A call on the established channel. -/
inductive AppCall where
  | send (messageType : UInt16) (protobuf : Bytes)
  | recv

def AppCall.isSend : AppCall → Bool
  | .send _ _ => true
  | .recv => false

/-- The state after a call, however it ended. -/
def AppCall.after (h : Host Connection) : AppCall → Host Connection
  | .send messageType protobuf => ((Connection.sendApp K messageType protobuf).run h).2
  | .recv => ((Connection.recvApp K).run h).2

/-- The handshake and `Session::from_handshake`. -/
def establish (devicePropertiesRaw : Bytes) (hostStaticPriv : Octets 32) (credential : Option Bytes) :
    Io Connection Unit := do
  let keys ← Connection.handshake K devicePropertiesRaw hostStaticPriv credential
  Connection.setSession (Session.fromHandshake keys)

/-- A channel's life on the host: it is established, or not, and then used. -/
def hostLife (devicePropertiesRaw : Bytes) (hostStaticPriv : Octets 32) (credential : Option Bytes)
    (calls : List AppCall) (h : Host Connection) : Host Connection :=
  calls.foldl (AppCall.after K) ((establish K devicePropertiesRaw hostStaticPriv credential).run h).2

section Host

variable {K}

theorem calls_slots : ∀ (calls : List AppCall) (n : Nat) (h : Host Connection), HostState n h →
    ∃ m, m ≤ n + calls.countP AppCall.isSend ∧ HostState m (calls.foldl (AppCall.after K) h) := by
  intro calls
  induction calls with
  | nil => exact fun n h s => ⟨n, by simp, s⟩
  | cons call calls ih =>
    intro n h s
    cases call with
    | send messageType protobuf =>
      obtain ⟨m, hm, s1⟩ := sendApp_slots (K := K) n messageType protobuf h s
      obtain ⟨m', hm', s2⟩ := ih m _ s1
      exact ⟨m', by rw [List.countP_cons_of_pos rfl]; omega, s2⟩
    | recv =>
      obtain ⟨m, hm, s2⟩ := ih n _ (recvApp_slots (K := K) n h s)
      exact ⟨m, by rwa [List.countP_cons_of_neg Bool.false_ne_true], s2⟩

theorem establish_slots (devicePropertiesRaw : Bytes) (hostStaticPriv : Octets 32) (credential : Option Bytes) :
    Comp.Triple (Before [] []) (establish K devicePropertiesRaw hostStaticPriv credential) (fun _ => HostState 0)
      (HostState 0) := by
  refine .bind ((handshake_ledger _ _ _).conseq (fun _ b => b) (fun _ _ q => q) fun _ f => .failed f) fun keys => ?_
  rintro h ⟨-, ⟨d1, d2, d3, l⟩, nonce⟩
  refine .running (Session.fromHandshake keys) rfl ?_ nonce l.fills
  have derived : derivations h.wire.trace = _ := l.derived
  exact (congrArg (roleKey · .request) derived).trans rfl

/-- A host's seals fill a prefix of its slots. -/
theorem hostLife_fills (devicePropertiesRaw : Bytes) (hostStaticPriv : Octets 32) (credential : Option Bytes)
    (calls : List AppCall) {h : Host Connection} (noSession : h.own.session = none) (empty : h.wire.trace = []) :
    ∃ m slots, m ≤ calls.countP AppCall.isSend ∧ slots <+: hostSlots m ∧
      Fills (hostLife K devicePropertiesRaw hostStaticPriv credential calls h).wire.trace slots := by
  have start : Before [] [] h := by
    refine ⟨noSession, ?_, ?_⟩ <;> rw [empty]
    · rfl
    · exact .nil
  have before : HostState 0 ((establish K devicePropertiesRaw hostStaticPriv credential).run h).2 :=
    (establish_slots devicePropertiesRaw hostStaticPriv credential).after start
  obtain ⟨m, hm, s⟩ := calls_slots (K := K) calls 0 _ before
  rw [Nat.zero_add] at hm
  cases s with
  | failed f =>
    rcases f.stopped with none | both
    · exact ⟨m, [], hm, List.nil_prefix, none⟩
    · exact ⟨m, handshakeSlots, hm, List.prefix_append _ _, both⟩
  | running _ _ _ _ fills => exact ⟨m, hostSlots m, hm, List.prefix_refl _, fills⟩

end Host

/-! ## The device -/

/-- A call on the device's session. -/
inductive SessionCall where
  | sealPayload (payload : Bytes)
  | openPayload (ciphertext : Bytes)

def SessionCall.isSeal : SessionCall → Bool
  | .sealPayload _ => true
  | .openPayload _ => false

def SessionCall.after (h : Host Session) : SessionCall → Host Session
  | .sealPayload payload => ((Session.sealPayload K payload).run h).2
  | .openPayload ciphertext => ((Session.openPayload K ciphertext).run h).2

/-- The responder's two calls on whatever requests arrive. -/
def respond (initRequest completionRequest : Bytes) : Io TrezorResponder ResponderResult := do
  let _ ← TrezorResponder.handleInitRequest K initRequest
  TrezorResponder.handleCompletionRequest K completionRequest

/-- A channel's life on the device; the session is the mirror image of the host's. -/
def deviceLife (deviceProperties : Bytes) (staticPriv : Octets 32) (initRequest completionRequest : Bytes)
    (calls : List SessionCall) (w : Wire) : Wire :=
  match (respond K initRequest completionRequest).run ⟨.new K deviceProperties staticPriv, w⟩ with
  | (.ok result, h) =>
    (calls.foldl (SessionCall.after K) ⟨⟨result.keyResponse, result.keyRequest, 1, 0⟩, h.wire⟩).wire
  | (_, h) => h.wire

section Device

variable {K}

/-- However far the responder got, its seals fill a prefix of its slots. -/
def Midway {γ : Type} (h : Host γ) : Prop := ∃ slots, slots <+: responderSlots ∧ Fills h.wire.trace slots

theorem handleInitRequest_ledger (req : Bytes) :
    Comp.Triple (Ledger [] []) (TrezorResponder.handleInitRequest K req)
      (fun _ h => ∃ d1 d2, Ledger [d1, d2] [(.ephemeral, IV_ZERO), (.masked, IV_ZERO)] h) Midway := by
  have early : ∀ h : Host TrezorResponder, Ledger [] [] h → Midway h := fun _ l => ⟨[], List.nil_prefix, l.fills⟩
  refine .bind (.unwrap _ (fun _ _ _ l => l) early) fun hostEphemeralPub => ?_
  refine .bind (.unwrap _ (fun _ _ _ l => l) early) fun tryToUnlock => ?_
  refine .bind (Q := fun _ => Ledger [] []) (fun _ l => ⟨l.derived, l.fills⟩) fun ephemeralPriv => ?_
  refine .bind (Q := fun _ => Ledger [] []) (fun _ l => ⟨l.derived, l.fills⟩) fun _ => ?_
  refine .bind (Q := fun _ => Ledger [] []) (fun _ l => l) fun self => ?_
  refine .bind (hkdf_ledger _ _) fun d1 => ?_
  refine .bind (aeadSeal_ledger (r := .ephemeral) rfl _ _ _) fun encStatic => ?_
  refine .bind (hkdf_ledger _ _) fun d2 => ?_
  refine .bind (aeadSeal_ledger (r := .masked) rfl _ _ _) fun tag => ?_
  exact .bind (Q := fun _ => Ledger [d1, d2] [(.ephemeral, IV_ZERO), (.masked, IV_ZERO)])
    (fun _ l => ⟨l.derived, l.fills⟩) fun _ => .pure _ fun _ l => ⟨d1, d2, l⟩

theorem unwrapped_ledger {α : Type} {steps : List (Octets 32 × Octets 32)} {slots : List Slot}
    {x : Io TrezorResponder α} {B : Host TrezorResponder → Prop} {Q : α → Host TrezorResponder → Prop}
    (call : Comp.Triple (Ledger steps slots) x Q B) :
    Comp.Triple (Ledger steps slots) (TrezorResponder.handleCompletionRequest.unwrapped x) Q B := by
  intro h l
  have ends := call h l
  rcases hx : x.run h with ⟨_ | _ | _ | _, h'⟩ <;> rw [hx] at ends <;>
    simp only [TrezorResponder.handleCompletionRequest.unwrapped, hx] <;> exact ends

theorem handleCompletionRequest_ledger {d1 d2 : Octets 32 × Octets 32} (req : Bytes) :
    Comp.Triple (Ledger [d1, d2] [(.ephemeral, IV_ZERO), (.masked, IV_ZERO)])
      (TrezorResponder.handleCompletionRequest K req)
      (fun result h => ∃ d3, Ledger [d1, d2, d3, (result.keyRequest, result.keyResponse)] responderSlots h) Midway := by
  have early : ∀ steps (h : Host TrezorResponder), Ledger steps [(.ephemeral, IV_ZERO), (.masked, IV_ZERO)] h →
      Midway h := fun _ _ l => ⟨_, ⟨[(.response, IV_ZERO)], rfl⟩, l.fills⟩
  refine .bind (Q := fun _ => Ledger [d1, d2] _) (fun _ l => l) fun self => ?_
  split
  · exact .panic (early _)
  refine .bind (unwrapped_ledger (aeadOpen_ledger (early _) _ _ _ _)) fun hostStatic => ?_
  refine .bind (.unwrap _ (fun _ _ _ l => l) (early _)) fun hostStaticPub => ?_
  refine .bind (hkdf_ledger _ _) fun d3 => ?_
  refine .bind (unwrapped_ledger (aeadOpen_ledger (early _) _ _ _ _)) fun payloadBytes => ?_
  refine .bind (.unwrap _ (fun _ _ _ l => l) (early _)) fun payload => ?_
  refine .bind (hkdf_ledger _ _) fun d4 => ?_
  exact .bind (aeadSeal_ledger (r := .response) rfl _ _ _) fun response => .pure _ fun _ l => ⟨d3, l⟩

/-- The device's session after sealing `n` messages. -/
structure DeviceState (n : Nat) (h : Host Session) : Prop where
  key : roleKey (derivations h.wire.trace) .response = some h.own.keySend
  nonce : h.own.nonceSend = UInt64.ofNat (n + 1)
  fills : Fills h.wire.trace (deviceSlots n)

theorem sessionCalls_slots : ∀ (calls : List SessionCall) (n : Nat) (h : Host Session), DeviceState n h →
    ∃ m, m ≤ n + calls.countP SessionCall.isSeal ∧ DeviceState m (calls.foldl (SessionCall.after K) h) := by
  intro calls
  induction calls with
  | nil => exact fun n h s => ⟨n, by simp, s⟩
  | cons call calls ih =>
    intro n h s
    cases call with
    | sealPayload payload =>
      have next : DeviceState (n + 1) ((Session.sealPayload K payload).run h).2 := by
        refine ⟨?_, ?_, ?_⟩
        · exact (congrArg (roleKey · .response) (derivations_append _ _)).trans (roleKey_append s.key _)
        · change h.own.nonceSend + 1 = _
          rw [s.nonce, UInt64.ofNat_add (n + 1) 1]
          rfl
        · rw [deviceSlots_succ, ← s.nonce]
          exact s.fills.snoc s.key
      obtain ⟨m, hm, s2⟩ := ih (n + 1) _ next
      exact ⟨m, by rw [List.countP_cons_of_pos rfl]; omega, s2⟩
    | openPayload ciphertext =>
      have next : DeviceState n ((Session.openPayload K ciphertext).run h).2 := by
        simp only [Session.openPayload, Io.run_own_bind]
        rcases opens : K.aesGcmDecrypt h.own.keyRecv (ivFromNonce h.own.nonceRecv) [] ciphertext with _ | pt
        · rw [run_aeadOpen_bind_none opens]
          exact ⟨(congrArg (roleKey · .response) (derivations_append _ _)).trans (roleKey_append s.key _), s.nonce,
            s.fills.append rfl⟩
        · rw [run_aeadOpen_bind opens]
          exact ⟨(congrArg (roleKey · .response) (derivations_append _ _)).trans (roleKey_append s.key _), s.nonce,
            s.fills.append rfl⟩
      obtain ⟨m, hm, s2⟩ := ih n _ next
      exact ⟨m, by rwa [List.countP_cons_of_neg Bool.false_ne_true], s2⟩

/-- A device's seals fill a prefix of its slots. -/
theorem deviceLife_fills (deviceProperties : Bytes) (staticPriv : Octets 32) (initRequest completionRequest : Bytes)
    (calls : List SessionCall) {w : Wire} (empty : w.trace = []) :
    ∃ m slots, m ≤ calls.countP SessionCall.isSeal ∧ slots <+: deviceSlots m ∧
      Fills (deviceLife K deviceProperties staticPriv initRequest completionRequest calls w).trace slots := by
  have start : Ledger [] [] (⟨.new K deviceProperties staticPriv, w⟩ : Host TrezorResponder) := by
    refine ⟨?_, ?_⟩ <;> rw [empty]
    · rfl
    · exact .nil
  have responded : Comp.Triple (Ledger [] []) (respond K initRequest completionRequest)
      (fun result h => ∃ d1 d2 d3, Ledger [d1, d2, d3, (result.keyRequest, result.keyResponse)] responderSlots h)
      Midway :=
    .bind (handleInitRequest_ledger _) fun _ h ⟨d1, d2, l⟩ =>
      ((handleCompletionRequest_ledger completionRequest).conseq (fun _ l => l) (fun _ _ ⟨d3, l⟩ => ⟨d1, d2, d3, l⟩)
        fun _ b => b) h l
  have ends := responded _ start
  have early : ∀ h : Host TrezorResponder, Midway h → ∃ m slots, m ≤ calls.countP SessionCall.isSeal ∧
      slots <+: deviceSlots m ∧ Fills h.wire.trace slots :=
    fun h ⟨slots, part, fills⟩ => ⟨0, slots, Nat.zero_le _, part.trans (List.prefix_append _ _), fills⟩
  rw [deviceLife]
  rcases hr : (respond K initRequest completionRequest).run ⟨.new K deviceProperties staticPriv, w⟩ with
    ⟨result | _ | _ | _, h⟩ <;> rw [hr] at ends
  · obtain ⟨d1, d2, d3, l⟩ := ends
    have first : DeviceState 0 ⟨⟨result.keyResponse, result.keyRequest, 1, 0⟩, h.wire⟩ :=
      ⟨(congrArg (roleKey · .response) l.derived).trans rfl, rfl, l.fills⟩
    obtain ⟨m, hm, s⟩ := sessionCalls_slots (K := K) calls 0 _ first
    exact ⟨m, deviceSlots m, by omega, List.prefix_refl _, s.fills⟩
  all_goals exact early h ends

end Device

/-! ## Both sides together -/

/-- No slot is filled twice. -/
theorem slots_nodup {n m : Nat} (hn : n < 2 ^ 64 - 1) (hm : m < 2 ^ 64 - 1) : (hostSlots n ++ deviceSlots m).Nodup := by
  have host : ((List.range n).map fun i => ((.request, ivFromNonce (UInt64.ofNat i)) : Slot)).Nodup := by
    refine List.Nodup.map_on (fun i hi j hj same => ?_) List.nodup_range
    have hi := List.mem_range.1 hi
    have hj := List.mem_range.1 hj
    exact ofNat_inj_of_lt (by omega) (by omega) (ivFromNonce_inj (Prod.mk.inj same).2)
  have device : ((List.range m).map fun i => ((.response, ivFromNonce (UInt64.ofNat (i + 1))) : Slot)).Nodup := by
    refine List.Nodup.map_on (fun i hi j hj same => ?_) List.nodup_range
    have hi := List.mem_range.1 hi
    have hj := List.mem_range.1 hj
    have := ofNat_inj_of_lt (by omega) (by omega) (ivFromNonce_inj (Prod.mk.inj same).2)
    omega
  -- nonce 0 of the device went into its completion response
  have zero : ∀ i < m, ivFromNonce (UInt64.ofNat (i + 1)) ≠ IV_ZERO := by
    intro i hi same
    have : i + 1 = 0 := ofNat_inj_of_lt (by omega) (by decide) (ivFromNonce_inj (same.trans ivFromNonce_zero.symm))
    omega
  have ones : IV_ONE ≠ IV_ZERO := by decide
  refine List.nodup_append.2 ⟨List.nodup_append.2 ⟨by decide, host, ?_⟩, List.nodup_append.2 ⟨by decide, device, ?_⟩, ?_⟩
  · simp [handshakeSlots]
  · simp only [responderSlots, List.mem_cons, List.not_mem_nil, or_false, List.mem_map, List.mem_range]
    rintro a ha b ⟨i, hi, rfl⟩ rfl
    rcases ha with h | h | h
    · simp at h
    · simp at h
    · exact zero i hi (Prod.mk.inj h).2
  · simp only [hostSlots, deviceSlots, handshakeSlots, responderSlots, List.mem_append, List.mem_cons,
      List.not_mem_nil, or_false, List.mem_map, List.mem_range]
    rintro a ha b hb rfl
    rcases ha with (rfl | rfl) | ⟨i, -, rfl⟩
    · simp [ones] at hb
    · simp at hb
    · simp at hb

theorem nodup_map_of_forall₂ {α β δ : Type} {R : α → β → Prop} {f : α → δ}
    (inj : ∀ a b a' b', R a b → R a' b' → f a = f a' → b = b') {as : List α} {bs : List β}
    (h : List.Forall₂ R as bs) (nodup : bs.Nodup) : (as.map f).Nodup := by
  induction h with
  | nil => exact List.nodup_nil
  | @cons a b as bs hab rest ih =>
    obtain ⟨notIn, nodup⟩ := List.nodup_cons.1 nodup
    refine List.nodup_cons.2 ⟨fun mem => ?_, ih nodup⟩
    obtain ⟨a', ha', same⟩ := List.mem_map.1 mem
    obtain ⟨i, hi, rfl⟩ := List.getElem_of_mem ha'
    have len := rest.length_eq
    have related := List.forall₂_iff_get.1 rest
    have hb := related.2 i hi (len ▸ hi)
    exact notIn (inj _ _ _ _ hab hb same.symm ▸ List.get_mem bs ⟨i, len ▸ hi⟩)

/-- The keys of a history, with their roles. -/
def roleKeys (trace : List Event) : List (Role × Octets 32) :=
  [Role.ephemeral, .masked, .static, .request, .response].filterMap fun r =>
    (roleKey (derivations trace) r).map (r, ·)

theorem mem_roleKeys {trace : List Event} {r : Role} {key : Octets 32}
    (h : roleKey (derivations trace) r = some key) : (r, key) ∈ roleKeys trace := by
  refine List.mem_filterMap.2 ⟨r, by cases r <;> decide, ?_⟩
  rw [h]
  rfl

/-- Keys of different roles differ, on either side and between the sides. -/
def KeysDistinct (host device : List Event) : Prop :=
  ∀ a ∈ roleKeys host ++ roleKeys device, ∀ b ∈ roleKeys host ++ roleKeys device, a.2 = b.2 → a.1 = b.1

instance (host device : List Event) : Decidable (KeysDistinct host device) :=
  inferInstanceAs (Decidable (∀ a ∈ roleKeys host ++ roleKeys device, ∀ b ∈ roleKeys host ++ roleKeys device,
    a.2 = b.2 → a.1 = b.1))

/-- Two histories that fill different slots with keys of different roles share no key and IV. -/
theorem fills_nodup {host device : List Event} {hostFilled deviceFilled : List Slot}
    (hostFills : Fills host hostFilled) (deviceFills : Fills device deviceFilled)
    (nodup : (hostFilled ++ deviceFilled).Nodup) (distinct : KeysDistinct host device) :
    ((seals host ++ seals device).map fun use => (use.key, use.iv)).Nodup := by
  let R := fun (use : AeadUse) (slot : Slot) =>
    (slot.1, use.key) ∈ roleKeys host ++ roleKeys device ∧ use.iv = slot.2
  have both : List.Forall₂ R (seals host ++ seals device) (hostFilled ++ deviceFilled) :=
    List.rel_append
      (hostFills.imp fun _ _ ⟨key, iv⟩ => ⟨List.mem_append_left _ (mem_roleKeys key), iv⟩)
      (deviceFills.imp fun _ _ ⟨key, iv⟩ => ⟨List.mem_append_right _ (mem_roleKeys key), iv⟩)
  refine nodup_map_of_forall₂ ?_ both nodup
  rintro use slot use' slot' ⟨key, iv⟩ ⟨key', iv'⟩ same
  obtain ⟨sameKey, sameIv⟩ := Prod.mk.inj same
  refine Prod.ext (distinct _ key _ key' sameKey) ?_
  rw [← iv, ← iv', sameIv]

/-- **No IV is used twice.** Over the whole life of a channel on both sides, no two seals
have the same key and IV. -/
theorem no_iv_reuse (K : Crates) (c : Connection) (noSession : c.session = none) (devicePropertiesRaw : Bytes)
    (hostStaticPriv : Octets 32) (credential : Option Bytes) (calls : List AppCall) (w : Wire) (empty : w.trace = [])
    (deviceProperties : Bytes) (staticPriv : Octets 32) (initRequest completionRequest : Bytes)
    (deviceCalls : List SessionCall) (w' : Wire) (empty' : w'.trace = [])
    (fewHost : calls.countP AppCall.isSend < 2 ^ 64 - 1)
    (fewDevice : deviceCalls.countP SessionCall.isSeal < 2 ^ 64 - 1)
    (distinct : KeysDistinct
      (hostLife K devicePropertiesRaw hostStaticPriv credential calls ⟨c, w⟩).wire.trace
      (deviceLife K deviceProperties staticPriv initRequest completionRequest deviceCalls w').trace) :
    ((seals (hostLife K devicePropertiesRaw hostStaticPriv credential calls ⟨c, w⟩).wire.trace ++
      seals (deviceLife K deviceProperties staticPriv initRequest completionRequest deviceCalls w').trace).map
        fun use => (use.key, use.iv)).Nodup := by
  obtain ⟨n, hostFilled, hn, hostPart, host⟩ := hostLife_fills (K := K) devicePropertiesRaw hostStaticPriv credential
    calls (h := ⟨c, w⟩) noSession empty
  obtain ⟨m, deviceFilled, hm, devicePart, device⟩ := deviceLife_fills (K := K) deviceProperties staticPriv initRequest
    completionRequest deviceCalls empty'
  have nodup : (hostFilled ++ deviceFilled).Nodup :=
    (slots_nodup (by omega) (by omega)).sublist (hostPart.sublist.append devicePart.sublist)
  exact fills_nodup host device nodup distinct

/-- The host's connection and the device's answers in the small instance. -/
def sampleConnection : Connection := { Connection.initial 0 64 with cid := 0x1234 }

def sampleWire : Wire where
  inbox := Connection.arriving ((([⟨0x1234, 0x20, []⟩,
      ⟨0x1234, 0x01, (Crates.toy.publicKey sampleSecrets.deviceEphemeral).1 ++ sampleSecrets.encStatic Crates.toy ++
        sampleSecrets.tag Crates.toy⟩,
      ⟨0x1234, 0x28, []⟩, ⟨0x1234, 0x13, sampleSecrets.response Crates.toy⟩] : List Frame)).flatMap (Framing.packets 64))
  onWrite _ := .done
  written := 0
  entropy _ := 3
  drawn := 0
  connections := 0
  trace := []

def sampleInitRequest : Bytes := (Crates.toy.publicKey sampleSecrets.hostEphemeral).1 ++ [0]

def sampleCompletionRequest : Bytes := sampleSecrets.encHostStatic Crates.toy ++ sampleSecrets.encPayload Crates.toy

theorem sample_keysDistinct :
    KeysDistinct
      (hostLife Crates.toy [8, 1] sampleSecrets.hostStatic (some [1, 2, 3]) [.send 55 [1], .recv]
        ⟨sampleConnection, sampleWire⟩).wire.trace
      (deviceLife Crates.toy [8, 1] sampleSecrets.deviceStatic sampleInitRequest sampleCompletionRequest
        [.sealPayload [7], .openPayload [9]] Wire.quiet).trace := by
  decide +kernel

theorem no_iv_reuse_sample :
    ((seals (hostLife Crates.toy [8, 1] sampleSecrets.hostStatic (some [1, 2, 3]) [.send 55 [1], .recv]
        ⟨sampleConnection, sampleWire⟩).wire.trace ++
      seals (deviceLife Crates.toy [8, 1] sampleSecrets.deviceStatic sampleInitRequest sampleCompletionRequest
        [.sealPayload [7], .openPayload [9]] Wire.quiet).trace).map fun use => (use.key, use.iv)).Nodup :=
  no_iv_reuse Crates.toy sampleConnection rfl [8, 1] sampleSecrets.hostStatic (some [1, 2, 3]) [.send 55 [1], .recv]
    sampleWire rfl [8, 1] sampleSecrets.deviceStatic sampleInitRequest sampleCompletionRequest
    [.sealPayload [7], .openPayload [9]] Wire.quiet rfl (by decide) (by decide) sample_keysDistinct

end TrezorCore.NonceReuse
