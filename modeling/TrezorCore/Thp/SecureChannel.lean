import TrezorCore.Thp.Session

/-!
# The secure channel

A host session and its mirror image on the device, driven by an adversary. The two sides
seal payloads and open whatever they are handed. A channel's state keeps what each side
sealed, what it was handed and what it got; `Inv` ties these to the nonce counters and to
the seals in the history. With authenticated encryption the only ciphertext a side can
open is the next one of the other side, because the IV determines the counter
(`ivFromNonce_inj`).
-/

namespace TrezorCore

open Noise (SessionKeys IV_ZERO)

/-- Authenticated encryption, along a history: what opens was sealed before, with the same
key, IV and AAD, and gives the plaintext that was sealed. -/
def Authentic (trace : List Event) : Prop :=
  ∀ before after key iv aad ciphertext plaintext,
    trace = before ++ .opened key iv aad ciphertext (some plaintext) :: after →
    .sealed key iv aad plaintext ciphertext ∈ before

theorem Authentic.of_append {trace more : List Event} (h : Authentic (trace ++ more)) : Authentic trace := by
  intro before after key iv aad c p split
  exact h before (after ++ more) key iv aad c p (by rw [split, List.append_assoc, List.cons_append])

/-- `Authentic`, checked from the front of the history. -/
def checkAuthentic : List Event → List Event → Bool
  | _, [] => true
  | seen, e :: rest =>
    (match e with
      | .opened key iv aad c (some p) => decide (.sealed key iv aad p c ∈ seen)
      | _ => true) && checkAuthentic (seen ++ [e]) rest

theorem authentic_of_checked {seen rest : List Event} (ok : Authentic seen) (h : checkAuthentic seen rest = true) :
    Authentic (seen ++ rest) := by
  induction rest generalizing seen with
  | nil => rwa [List.append_nil]
  | cons e rest ih =>
    simp only [checkAuthentic, Bool.and_eq_true] at h
    rw [List.append_cons]
    refine ih (fun before after key iv aad c p split => ?_) h.2
    rcases List.eq_nil_or_concat after with rfl | ⟨after, last, rfl⟩
    · obtain ⟨rfl, same⟩ := List.append_inj' split rfl
      obtain rfl := (List.cons.inj same).1
      simpa using h.1
    · rw [List.concat_eq_append, ← List.cons_append, ← List.append_assoc] at split
      exact ok before after key iv aad c p (List.append_inj' split rfl).1

theorem authentic_of_check {trace : List Event} (h : checkAuthentic [] trace = true) : Authentic trace := by
  refine authentic_of_checked (fun before _ _ _ _ _ _ split => ?_) h
  cases before <;> cases split

namespace SecureChannel

variable (K : Crates)

inductive Side where
  | host
  | device
  deriving DecidableEq

def Side.other : Side → Side
  | host => device
  | device => host

/-- The key a side seals with. -/
def sendKey (keys : SessionKeys) : Side → Octets 32
  | .host => keys.keyRequest
  | .device => keys.keyResponse

/-- The nonce of a side's first message; the device's nonce 0 went into the handshake. -/
def firstNonce : Side → Nat
  | .host => 0
  | .device => 1

/-- The host's session, and its mirror image on the device. -/
def session (keys : SessionKeys) : Side → Session
  | .host => Session.fromHandshake keys
  | .device => ⟨keys.keyResponse, keys.keyRequest, keys.nonceResponse, keys.nonceRequest⟩

/-- Both endpoints, the history, and what passed through each side. -/
structure Channel where
  session : Side → Session
  wire : Wire
  /-- The payloads a side sealed, with the ciphertexts. -/
  sent : Side → List (Bytes × Bytes)
  /-- The ciphertexts a side was handed. -/
  handed : Side → List Bytes
  /-- The payloads a side opened. -/
  got : Side → List Bytes

inductive Act where
  | sealBy (s : Side) (payload : Bytes)
  | openBy (s : Side) (ciphertext : Bytes)

/-- The outcome of an open call, with the side's session and the history after it. -/
def opening (ch : Channel) (s : Side) (ciphertext : Bytes) : Outcome TrezorError Bytes × Host Session :=
  (Session.openPayload K ciphertext).run ⟨ch.session s, ch.wire⟩

def step (ch : Channel) : Act → Channel
  | .sealBy s payload =>
    let r := (Session.sealPayload K payload).run ⟨ch.session s, ch.wire⟩
    { ch with
      session := Function.update ch.session s r.2.own
      wire := r.2.wire
      sent := Function.update ch.sent s (ch.sent s ++ (r.1.value?.map (payload, ·)).toList) }
  | .openBy s ciphertext =>
    let r := opening K ch s ciphertext
    { ch with
      session := Function.update ch.session s r.2.own
      wire := r.2.wire
      handed := Function.update ch.handed s (ch.handed s ++ [ciphertext])
      got := Function.update ch.got s (ch.got s ++ r.1.value?.toList) }

def run (ch : Channel) (acts : List Act) : Channel := acts.foldl (step K) ch

/-- The channel right after the handshake: the device has sealed its completion response. -/
def start (keys : SessionKeys) : Channel where
  session := session keys
  wire := Wire.quiet.log (.sealed keys.keyResponse IV_ZERO [] keys.trezorState
    (K.aesGcmEncrypt keys.keyResponse IV_ZERO [] keys.trezorState))
  sent _ := []
  handed _ := []
  got _ := []

theorem run_snoc (ch : Channel) (acts : List Act) (a : Act) : run K ch (acts ++ [a]) = step K (run K ch acts) a := by
  simp [run]

/-! ## One call -/

theorem sealPayload_run (payload : Bytes) (h : Host Session) :
    (Session.sealPayload K payload).run h =
      (.ok (K.aesGcmEncrypt h.own.keySend (ivFromNonce h.own.nonceSend) [] payload),
        ⟨{ h.own with nonceSend := h.own.nonceSend + 1 },
          h.wire.log (.sealed h.own.keySend (ivFromNonce h.own.nonceSend) [] payload
            (K.aesGcmEncrypt h.own.keySend (ivFromNonce h.own.nonceSend) [] payload))⟩) := rfl

theorem openPayload_some {ciphertext payload : Bytes} {h : Host Session}
    (opens : K.aesGcmDecrypt h.own.keyRecv (ivFromNonce h.own.nonceRecv) [] ciphertext = some payload) :
    (Session.openPayload K ciphertext).run h =
      (.ok payload, ⟨{ h.own with nonceRecv := h.own.nonceRecv + 1 },
        h.wire.log (.opened h.own.keyRecv (ivFromNonce h.own.nonceRecv) [] ciphertext (some payload))⟩) := by
  simp [Session.openPayload, aeadOpen, opens, Comp.run_bind]

/-- A rejected ciphertext leaves the session unchanged. -/
theorem openPayload_none {ciphertext : Bytes} {h : Host Session}
    (opens : K.aesGcmDecrypt h.own.keyRecv (ivFromNonce h.own.nonceRecv) [] ciphertext = none) :
    (Session.openPayload K ciphertext).run h =
      (.err (.thp "AES-GCM authentication failed"), ⟨h.own,
        h.wire.log (.opened h.own.keyRecv (ivFromNonce h.own.nonceRecv) [] ciphertext none)⟩) := by
  simp [Session.openPayload, aeadOpen, opens, Comp.run_bind]

/-! ## The invariant -/

/-- The counters count, the seals are where the counters put them, and each side got a
prefix of what the other sealed. -/
structure Inv (keys : SessionKeys) (ch : Channel) : Prop where
  keySend : ∀ s, (ch.session s).keySend = sendKey keys s
  keyRecv : ∀ s, (ch.session s).keyRecv = sendKey keys s.other
  nonceSend : ∀ s, (ch.session s).nonceSend = UInt64.ofNat ((ch.sent s).length + firstNonce s)
  nonceRecv : ∀ s, (ch.session s).nonceRecv = UInt64.ofNat ((ch.got s).length + firstNonce s.other)
  received : ∀ s, ch.got s <+: (ch.sent s.other).map Prod.fst
  ciphertexts : ∀ s i p c, (ch.sent s)[i]? = some (p, c) →
    c = K.aesGcmEncrypt (sendKey keys s) (ivFromNonce (UInt64.ofNat (i + firstNonce s))) [] p
  seals : ∀ key iv aad p c, .sealed key iv aad p c ∈ ch.wire.trace →
    (key = keys.keyResponse ∧ iv = IV_ZERO) ∨
      ∃ s i, key = sendKey keys s ∧ iv = ivFromNonce (UInt64.ofNat (i + firstNonce s)) ∧ (ch.sent s)[i]? = some (p, c)

/-- Fewer than `2 ^ 64 - 1` messages a direction. -/
def Few (ch : Channel) : Prop := ∀ s, (ch.sent s).length < 2 ^ 64 - 1

/-- Keys as `read_completion_response` returns them. -/
def FromHandshake (keys : SessionKeys) : Prop :=
  ∃ resp h h', (Noise.HostHandshake.readCompletionResponse K resp).run h = (.ok keys, h')

variable {K} {keys : SessionKeys} {ch : Channel}

theorem FromHandshake.nonces (h : FromHandshake K keys) : keys.nonceRequest = 0 ∧ keys.nonceResponse = 1 := by
  obtain ⟨resp, h, h', run⟩ := h
  simp only [Noise.HostHandshake.readCompletionResponse, Noise.hkdf, Io.run_own_bind, Comp.bind_assoc,
    Io.run_note_bind, Comp.pure_bind] at run
  obtain ⟨state, h1, -, rest⟩ := Comp.bind_eq_ok run
  have := (Prod.mk.inj rest).1
  simp only [Outcome.ok.injEq] at this
  subst this
  exact ⟨rfl, rfl⟩

theorem inv_start (fresh : FromHandshake K keys) : Inv K keys (start K keys) := by
  obtain ⟨request, response⟩ := fresh.nonces
  refine ⟨?_, ?_, ?_, ?_, ?_, ?_, ?_⟩
  · intro s; cases s <;> rfl
  · intro s; cases s <;> rfl
  · intro s; cases s
    · exact request
    · exact response
  · intro s; cases s
    · exact response
    · exact request
  · intro s; exact List.nil_prefix
  · intro s i p c hi; simp [start] at hi
  · intro key iv aad p c hs
    simp only [start, Wire.log, Wire.quiet, Wire.replying, List.nil_append, List.mem_singleton,
      Event.sealed.injEq] at hs
    exact .inl ⟨hs.1, hs.2.1⟩

theorem ofNat_succ (n k : Nat) : UInt64.ofNat (n + k) + 1 = UInt64.ofNat (n + 1 + k) := by
  rw [Nat.add_right_comm, UInt64.ofNat_add (n + k) 1]
  rfl

theorem getElem?_snoc {α : Type} {l : List α} {x y : α} {i : Nat} (h : (l ++ [x])[i]? = some y) :
    l[i]? = some y ∨ (i = l.length ∧ y = x) := by
  rcases Nat.lt_trichotomy i l.length with lt | rfl | gt
  · rw [List.getElem?_append_left lt] at h
    exact .inl h
  · rw [List.getElem?_concat_length] at h
    exact .inr ⟨rfl, (Option.some.inj h).symm⟩
  · rw [List.getElem?_eq_none (by simp; omega)] at h
    cases h

/-- Sealing puts one more message under the next counter value. -/
theorem inv_seal (inv : Inv K keys ch) (s : Side) (payload : Bytes) : Inv K keys (step K ch (.sealBy s payload)) := by
  simp only [step, sealPayload_run, Outcome.value?, Option.map_some, Option.toList_some, inv.keySend s,
    inv.nonceSend s]
  refine ⟨fun t => ?_, fun t => ?_, fun t => ?_, fun t => ?_, fun t => ?_, fun t i p c hi => ?_,
    fun key iv aad p c hs => ?_⟩
  · by_cases h : t = s
    · subst h; simp
    · simpa [Function.update_of_ne h] using inv.keySend t
  · by_cases h : t = s
    · subst h; simpa using inv.keyRecv t
    · simpa [Function.update_of_ne h] using inv.keyRecv t
  · by_cases h : t = s
    · subst h
      simp only [Function.update_self, List.length_append, List.length_singleton]
      exact ofNat_succ _ _
    · simpa [Function.update_of_ne h] using inv.nonceSend t
  · by_cases h : t = s
    · subst h; simpa using inv.nonceRecv t
    · simpa [Function.update_of_ne h] using inv.nonceRecv t
  · by_cases h : t.other = s
    · subst h
      simp only [Function.update_self, List.map_append]
      exact (inv.received t).trans (List.prefix_append _ _)
    · simpa [Function.update_of_ne h] using inv.received t
  · by_cases h : t = s
    · subst h
      simp only [Function.update_self] at hi
      rcases getElem?_snoc hi with old | ⟨rfl, new⟩
      · exact inv.ciphertexts t i p c old
      · obtain ⟨rfl, rfl⟩ := Prod.mk.inj new
        rfl
    · simp only [Function.update_of_ne h] at hi
      exact inv.ciphertexts t i p c hi
  · rcases List.mem_append.1 hs with old | new
    · refine (inv.seals key iv aad p c old).imp_right fun ⟨t, i, hk, hv, hi⟩ => ⟨t, i, hk, hv, ?_⟩
      by_cases h : t = s
      · subst h
        simp only [Function.update_self]
        rw [List.getElem?_append_left (List.getElem?_eq_some_iff.1 hi).1]
        exact hi
      · simpa only [Function.update_of_ne h] using hi
    · simp only [List.mem_singleton, Event.sealed.injEq] at new
      obtain ⟨rfl, rfl, -, rfl, rfl⟩ := new
      refine .inr ⟨s, (ch.sent s).length, rfl, rfl, ?_⟩
      simp

/-- The next genuine message of the other side opens. -/
theorem genuine_opens (laws : K.toCrypto.AeadLaws) (inv : Inv K keys ch) {s : Side} {p c : Bytes}
    (next : (ch.sent s.other)[(ch.got s).length]? = some (p, c)) :
    K.aesGcmDecrypt (ch.session s).keyRecv (ivFromNonce (ch.session s).nonceRecv) [] c = some p := by
  rw [inv.keyRecv s, inv.nonceRecv s, inv.ciphertexts s.other _ p c next]
  exact laws.decrypt_encrypt _ _ _ _

/-- Only it does. -/
theorem only_genuine_opens (distinct : keys.keyRequest ≠ keys.keyResponse) (inv : Inv K keys ch) (few : Few ch)
    {s : Side} {aad p c : Bytes}
    (made : .sealed (ch.session s).keyRecv (ivFromNonce (ch.session s).nonceRecv) aad p c ∈ ch.wire.trace) :
    (ch.sent s.other)[(ch.got s).length]? = some (p, c) := by
  have count : (ch.got s).length ≤ (ch.sent s.other).length := by
    simpa using (inv.received s).length_le
  have bound := few s.other
  have sides : ∀ t, sendKey keys s.other = sendKey keys t → t = s.other := by
    intro t ht
    cases t <;> cases s <;> first | rfl | exact absurd ht distinct | exact absurd ht.symm distinct
  rw [inv.keyRecv s, inv.nonceRecv s] at made
  rcases inv.seals _ _ _ _ _ made with ⟨hk, hv⟩ | ⟨t, i, hk, hv, hi⟩
  · -- the handshake's own message has nonce 0, which the host never expects
    have device : s.other = .device := (sides .device hk).symm
    have one : firstNonce s.other = 1 := by rw [device]; rfl
    have zero : (ch.got s).length + firstNonce s.other = 0 :=
      ofNat_inj_of_lt (by omega) (by decide) (ivFromNonce_inj (hv.trans ivFromNonce_zero.symm))
    omega
  · obtain rfl := sides t hk
    have lt := (List.getElem?_eq_some_iff.1 hi).1
    have first : firstNonce s.other ≤ 1 := by cases s <;> decide
    have same := ofNat_inj_of_lt (by omega) (by omega) (ivFromNonce_inj hv)
    rw [Nat.add_right_cancel same]
    exact hi

/-- What an open call does to the channel. -/
theorem step_open_some {s : Side} {c p : Bytes}
    (opens : K.aesGcmDecrypt (ch.session s).keyRecv (ivFromNonce (ch.session s).nonceRecv) [] c = some p) :
    step K ch (.openBy s c) =
      { ch with
        session := Function.update ch.session s
          { ch.session s with nonceRecv := (ch.session s).nonceRecv + 1 }
        wire := ch.wire.log (.opened (ch.session s).keyRecv (ivFromNonce (ch.session s).nonceRecv) [] c (some p))
        handed := Function.update ch.handed s (ch.handed s ++ [c])
        got := Function.update ch.got s (ch.got s ++ [p]) } := by
  simp only [step, opening]
  rw [openPayload_some K (h := ⟨ch.session s, ch.wire⟩) opens]
  rfl

theorem step_open_none {s : Side} {c : Bytes}
    (opens : K.aesGcmDecrypt (ch.session s).keyRecv (ivFromNonce (ch.session s).nonceRecv) [] c = none) :
    step K ch (.openBy s c) =
      { ch with
        wire := ch.wire.log (.opened (ch.session s).keyRecv (ivFromNonce (ch.session s).nonceRecv) [] c none)
        handed := Function.update ch.handed s (ch.handed s ++ [c]) } := by
  simp only [step, opening]
  rw [openPayload_none K (h := ⟨ch.session s, ch.wire⟩) opens]
  simp [Outcome.value?]

/-- Opening the next message keeps the counters of that direction aligned. -/
theorem inv_open_some (inv : Inv K keys ch) {s : Side} {c p : Bytes}
    (next : (ch.sent s.other)[(ch.got s).length]? = some (p, c))
    (opens : K.aesGcmDecrypt (ch.session s).keyRecv (ivFromNonce (ch.session s).nonceRecv) [] c = some p) :
    Inv K keys (step K ch (.openBy s c)) := by
  rw [step_open_some opens]
  refine ⟨fun t => ?_, fun t => ?_, fun t => ?_, fun t => ?_, fun t => ?_, inv.ciphertexts, fun key iv aad p c hs => ?_⟩
  · by_cases h : t = s
    · subst h; simpa using inv.keySend t
    · simpa [Function.update_of_ne h] using inv.keySend t
  · by_cases h : t = s
    · subst h; simpa using inv.keyRecv t
    · simpa [Function.update_of_ne h] using inv.keyRecv t
  · by_cases h : t = s
    · subst h; simpa using inv.nonceSend t
    · simpa [Function.update_of_ne h] using inv.nonceSend t
  · by_cases h : t = s
    · subst h
      simp only [Function.update_self, List.length_append, List.length_singleton, inv.nonceRecv t]
      exact ofNat_succ _ _
    · simpa [Function.update_of_ne h] using inv.nonceRecv t
  · by_cases h : t = s
    · subst h
      simp only [Function.update_self]
      obtain ⟨rest, split⟩ := inv.received t
      have here : ((ch.sent t.other).map Prod.fst)[(ch.got t).length]? = some p := by
        rw [List.getElem?_map, next]
        rfl
      rw [← split, List.getElem?_append_right (Nat.le_refl _), Nat.sub_self] at here
      cases rest with
      | nil => exact absurd here nofun
      | cons q rest =>
        obtain rfl := Option.some.inj here
        exact ⟨rest, by rw [← split, List.append_assoc]; rfl⟩
    · simpa [Function.update_of_ne h] using inv.received t
  · rcases List.mem_append.1 hs with old | new
    · exact inv.seals key iv aad p c old
    · simp at new

theorem inv_open_none (inv : Inv K keys ch) {s : Side} {c : Bytes}
    (opens : K.aesGcmDecrypt (ch.session s).keyRecv (ivFromNonce (ch.session s).nonceRecv) [] c = none) :
    Inv K keys (step K ch (.openBy s c)) := by
  rw [step_open_none opens]
  refine ⟨inv.keySend, inv.keyRecv, inv.nonceSend, inv.nonceRecv, inv.received, inv.ciphertexts,
    fun key iv aad p c hs => ?_⟩
  rcases List.mem_append.1 hs with old | new
  · exact inv.seals key iv aad p c old
  · simp at new

/-! ## Whole runs -/

/-- A step adds to the history and to what was sealed. -/
theorem step_grows (ch : Channel) (a : Act) :
    (∃ e, (step K ch a).wire.trace = ch.wire.trace ++ [e]) ∧ ∀ s, (ch.sent s).length ≤ ((step K ch a).sent s).length := by
  cases a with
  | sealBy s payload =>
    refine ⟨⟨_, rfl⟩, fun t => ?_⟩
    simp only [step]
    by_cases h : t = s
    · subst h; simp
    · simp [Function.update_of_ne h]
  | openBy s c =>
    rcases opens : K.aesGcmDecrypt (ch.session s).keyRecv (ivFromNonce (ch.session s).nonceRecv) [] c with _ | p
    · rw [step_open_none opens]
      exact ⟨⟨_, rfl⟩, fun t => Nat.le_refl _⟩
    · rw [step_open_some opens]
      exact ⟨⟨_, rfl⟩, fun t => Nat.le_refl _⟩

theorem inv_step (distinct : keys.keyRequest ≠ keys.keyResponse) (inv : Inv K keys ch) (few : Few ch) (a : Act)
    (authentic : Authentic (step K ch a).wire.trace) : Inv K keys (step K ch a) := by
  cases a with
  | sealBy s payload => exact inv_seal inv s payload
  | openBy s c =>
    rcases opens : K.aesGcmDecrypt (ch.session s).keyRecv (ivFromNonce (ch.session s).nonceRecv) [] c with _ | p
    · exact inv_open_none inv opens
    · rw [step_open_some opens] at authentic
      have made := authentic ch.wire.trace [] _ _ _ _ _ rfl
      exact inv_open_some inv (only_genuine_opens distinct inv few made) opens

/-- The invariant holds after every run. -/
theorem inv_run (distinct : keys.keyRequest ≠ keys.keyResponse) (fresh : FromHandshake K keys) (acts : List Act)
    (authentic : Authentic (run K (start K keys) acts).wire.trace) (few : Few (run K (start K keys) acts)) :
    Inv K keys (run K (start K keys) acts) := by
  induction acts using List.reverseRecOn with
  | nil => exact inv_start fresh
  | append_singleton acts a ih =>
    rw [run_snoc] at authentic few ⊢
    obtain ⟨⟨e, grown⟩, more⟩ := step_grows (K := K) (run K (start K keys) acts) a
    have before : Authentic (run K (start K keys) acts).wire.trace := (grown ▸ authentic).of_append
    have fewer : Few (run K (start K keys) acts) := fun s => Nat.lt_of_le_of_lt (more s) (few s)
    exact inv_step distinct (ih before fewer) fewer a authentic

/-- Side `s` is handed the other side's ciphertexts in order, each once it has been sealed. -/
def Faithful (K : Crates) (keys : SessionKeys) (s : Side) (acts : List Act) : Prop :=
  ∀ before c after, acts = before ++ .openBy s c :: after →
    (((run K (start K keys) before).sent s.other).map Prod.snd)[((run K (start K keys) before).handed s).length]? = some c

theorem Faithful.of_append {s : Side} {acts more : List Act} (h : Faithful K keys s (acts ++ more)) :
    Faithful K keys s acts := by
  intro before c after split
  exact h before c (after ++ more) (by rw [split, List.append_assoc, List.cons_append])

/-- Delivered faithfully, every ciphertext opens. -/
theorem faithful_opens (laws : K.toCrypto.AeadLaws) (distinct : keys.keyRequest ≠ keys.keyResponse)
    (fresh : FromHandshake K keys) {s : Side} (acts : List Act) (faithful : Faithful K keys s acts)
    (authentic : Authentic (run K (start K keys) acts).wire.trace) (few : Few (run K (start K keys) acts)) :
    ((run K (start K keys) acts).got s).length = ((run K (start K keys) acts).handed s).length := by
  induction acts using List.reverseRecOn with
  | nil => rfl
  | append_singleton acts a ih =>
    rw [run_snoc] at authentic few ⊢
    obtain ⟨⟨e, grown⟩, more⟩ := step_grows (K := K) (run K (start K keys) acts) a
    have before : Authentic (run K (start K keys) acts).wire.trace := (grown ▸ authentic).of_append
    have fewer : Few (run K (start K keys) acts) := fun s => Nat.lt_of_le_of_lt (more s) (few s)
    have same := ih faithful.of_append before fewer
    have inv := inv_run distinct fresh acts before fewer
    cases a with
    | sealBy t payload => exact same
    | openBy t c =>
      by_cases h : s = t
      · subst h
        have next := faithful acts c [] rfl
        rw [← same, List.getElem?_map] at next
        obtain ⟨⟨p, c'⟩, here, rfl⟩ := Option.map_eq_some_iff.1 next
        rw [step_open_some (genuine_opens laws inv here)]
        simp [same]
      · rcases opens : K.aesGcmDecrypt ((run K (start K keys) acts).session t).keyRecv
          (ivFromNonce ((run K (start K keys) acts).session t).nonceRecv) [] c with _ | p
        · rw [step_open_none opens]
          simpa [Function.update_of_ne h] using same
        · rw [step_open_some opens]
          simpa [Function.update_of_ne h] using same

/-- **Secure-channel delivery.** Whatever the adversary does: each side gets a prefix of what
the other sealed; a rejected ciphertext changes no session, and the next genuine message
still opens after it; and a direction delivered faithfully loses nothing. -/
theorem secure_channel_delivery (K : Crates) (laws : K.toCrypto.AeadLaws) (keys : SessionKeys)
    (distinct : keys.keyRequest ≠ keys.keyResponse) (fresh : FromHandshake K keys) (acts : List Act)
    (authentic : Authentic (run K (start K keys) acts).wire.trace) (few : Few (run K (start K keys) acts)) (s : Side) :
    let ch := run K (start K keys) acts
    ch.got s <+: (ch.sent s.other).map Prod.fst ∧
    (∀ c, (∀ p, (opening K ch s c).1 ≠ .ok p) →
      (step K ch (.openBy s c)).session = ch.session ∧
      ∀ p g, (ch.sent s.other)[(ch.got s).length]? = some (p, g) →
        (opening K (step K ch (.openBy s c)) s g).1 = .ok p) ∧
    (Faithful K keys s acts → (ch.got s).length = (ch.handed s).length) := by
  intro ch
  have inv : Inv K keys ch := inv_run distinct fresh acts authentic few
  refine ⟨inv.received s, fun c rejected => ?_, fun faithful => faithful_opens laws distinct fresh acts faithful authentic few⟩
  rcases opens : K.aesGcmDecrypt (ch.session s).keyRecv (ivFromNonce (ch.session s).nonceRecv) [] c with _ | q
  · have same := step_open_none opens
    refine ⟨by rw [same], fun p g next => ?_⟩
    have inv' := inv_open_none inv opens
    have opens' := genuine_opens laws inv' (s := s) (p := p) (c := g) (by rw [same]; exact next)
    rw [opening, openPayload_some K (h := ⟨_, _⟩) opens']
  · refine absurd ?_ (rejected q)
    rw [opening, openPayload_some K (h := ⟨ch.session s, ch.wire⟩) opens]

/-! ## A channel in motion -/

def sampleKeys : SessionKeys :=
  let out := Noise.hkdfOutputs Crates.toy Noise.zero32.1 []
  { keyRequest := out.1, keyResponse := out.2, nonceRequest := 0, nonceResponse := 1, trezorState := [2],
    trezorMaskedStaticPubkey := Noise.zero32, handshakeHash := Noise.zero32, hostStaticPubkey := Noise.zero32 }

theorem sampleKeys_fresh : FromHandshake Crates.toy sampleKeys :=
  ⟨[2] ++ toyTag sampleKeys.keyResponse IV_ZERO,
    ⟨Noise.HostHandshake.withEphemeral Crates.toy [] 0 Noise.zero32 none Noise.zero32, Wire.quiet⟩, _,
    Prod.ext (by decide +kernel) rfl⟩

/-- A request, a forgery, the request's delivery, its replay, and a reply. -/
def sampleActs : List Act :=
  [.sealBy .host [1], .openBy .device [9], .openBy .device ([1] ++ toyTag sampleKeys.keyRequest IV_ZERO),
    .openBy .device ([1] ++ toyTag sampleKeys.keyRequest IV_ZERO), .sealBy .device [3],
    .openBy .host ([3] ++ toyTag sampleKeys.keyResponse (ivFromNonce 1))]

theorem sampleActs_authentic : Authentic (run Crates.toy (start Crates.toy sampleKeys) sampleActs).wire.trace :=
  authentic_of_check (by decide +kernel)

theorem sampleActs_few : Few (run Crates.toy (start Crates.toy sampleKeys) sampleActs) := by
  intro s
  cases s <;> decide +kernel

theorem secure_channel_delivery_sample :
    sampleKeys.keyRequest ≠ sampleKeys.keyResponse ∧
    (run Crates.toy (start Crates.toy sampleKeys) sampleActs).got .device = [[1]] ∧
    (run Crates.toy (start Crates.toy sampleKeys) sampleActs).got .device <+:
      ((run Crates.toy (start Crates.toy sampleKeys) sampleActs).sent .host).map Prod.fst :=
  ⟨by decide +kernel, by decide +kernel,
    (secure_channel_delivery Crates.toy Crypto.toy_aead sampleKeys (by decide +kernel) sampleKeys_fresh sampleActs
      sampleActs_authentic sampleActs_few .device).1⟩

end SecureChannel

end TrezorCore
