import TrezorCore.Client.Pinned

/-!
# Failed operations and the slot

An operation that returns an error is meant to leave the slot empty, and one that returns a
value to leave in it a connection seeded for its wallet. Fourteen of the fifteen do.
`identify_paired` makes its last check, that the device has an id, after the slot has been
dealt with, and an error there leaves the connection pinned.
-/

namespace TrezorCore.Client

open Connection

variable (K : Crates)

/-- After an error the slot is empty; after a value it holds a connection of the wallet. -/
structure ClearsOnError (c : Call) (h : Host Slot) : Prop where
  err : ∀ e h', (c.run K).run h = (.err e, h') → h'.own = none
  ok : ∀ v h', (c.run K).run h = (.ok v, h') →
    ∃ conn, h'.own = some conn ∧ conn.seededKey = some c.op.spec.walletKey

/-- `identify_paired` gets `Features` with a device id, if it gets any. -/
def DeviceNamed (c : Call) (h : Host Slot) : Prop :=
  c.op = .identifyPaired → ∀ features h',
    (pinned K c.hostStaticPriv c.credential .standard ((Pairing.getFeatures K).on K)).run h = (.ok features, h') →
    features.deviceId.isSome

section

variable {K} {h h' : Host Slot} {spec : PassphraseSpec} {hostStaticPriv credential : Bytes}

theorem clearing_err {α : Type} {x : Io Slot α} {e : TrezorError} (run : (clearing x).run h = (.err e, h')) :
    h'.own = none := by
  simp only [clearing, Comp.onErr] at run
  split at run
  · cases run
    rfl
  · next other => exact absurd run (other _ _)

theorem pinned_err {α : Type} {op : Io Connection α} {e : TrezorError}
    (run : (pinned K hostStaticPriv credential spec op).run h = (.err e, h')) : h'.own = none := by
  rw [pinned, Comp.run_bind] at run
  rcases ensured : (clearing (ensureConn K hostStaticPriv credential spec)).run h with ⟨_ | _ | _ | _, h1⟩ <;>
    rw [ensured] at run
  · exact clearing_err run
  · cases run
    exact clearing_err ensured
  · cases run
  · cases run

theorem pinned_ok {α : Type} {chat : Chat α} {a : α}
    (run : (pinned K hostStaticPriv credential spec (chat.on K)).run h = (.ok a, h')) :
    ∃ conn, h'.own = some conn ∧ conn.seededKey = some spec.walletKey := by
  have told := pinned_told (K := K) h hostStaticPriv credential spec chat h rfl
  rw [run] at told
  obtain ⟨conn, tr, slot, -, n, -, saying⟩ := told
  exact ⟨conn, slot, saying.seeded⟩

/-- Every operation but one passes the value of a chat on. -/
theorem Operation.chat_cases (op : Operation) (addressN : List UInt32) :
    op = .identifyPaired ∨ op ≠ .identifyPaired ∧
      ∃ (α : Type) (make : α → Value) (chat : Chat α), op.chat K addressN = answered make chat := by
  cases op with
  | identifyPaired => exact .inl rfl
  | _ => exact .inr ⟨nofun, _, _, _, rfl⟩

/-- Such an operation returns what `pinned` returns. -/
theorem Call.run_answered {c : Call} {addressN : List UInt32} {α : Type} {make : α → Value} {chat : Chat α}
    (parses : c.op.addressN = .ok addressN) (passes : c.op.chat K addressN = answered make chat) :
    c.run K = pinned K c.hostStaticPriv c.credential c.op.spec (chat.on K) >>= fun a => pure (make a) := by
  rw [Call.run_eq, parses, Comp.ofExcept_ok, Comp.pure_bind, passes, pinned_answered]

theorem Call.run_identify {c : Call} (identify : c.op = .identifyPaired) :
    c.run K = pinned K c.hostStaticPriv c.credential .standard ((Pairing.getFeatures K).on K) >>= fun features =>
      Comp.ofExcept (deviceIdOf features) := by
  obtain ⟨hostStaticPriv, credential, op⟩ := c
  cases identify
  rw [Call.run_eq]
  show pinned K _ _ _ ((Pairing.getFeatures K >>= fun f => .done (deviceIdOf f)).on K) >>= Comp.ofExcept = _
  rw [pinned_bind_pure, Comp.bind_assoc]
  rfl

end

/-- **The slot after an operation.** For arguments whose path parses, the slot is as it should
be if and only if the call is not an `identify_paired` that is told no device id. -/
theorem clears_on_error_iff (K : Crates) (c : Call) (h : Host Slot) (addressN : List UInt32)
    (parses : c.op.addressN = .ok addressN) : ClearsOnError K c h ↔ DeviceNamed K c h := by
  rcases Operation.chat_cases (K := K) c.op addressN with identify | ⟨other, α, make, chat, passes⟩
  · have program := Call.run_identify (K := K) identify
    constructor
    · intro clears _ features h' told
      -- without an id the call fails, and the connection is still there
      by_contra unnamed
      have missing : deviceIdOf features = .error (.thp "device returned no device_id") := by
        rw [deviceIdOf, Option.not_isSome_iff_eq_none.1 unnamed]
      have run : (c.run K).run h = (.err (.thp "device returned no device_id"), h') := by
        rw [program, Comp.bind_ok told, missing]
        rfl
      obtain ⟨conn, slot, -⟩ := pinned_ok told
      rw [clears.err _ _ run] at slot
      cases slot
    · intro named
      constructor
      · intro e h' run
        rw [program, Comp.run_bind] at run
        rcases told : (pinned K c.hostStaticPriv c.credential .standard ((Pairing.getFeatures K).on K)).run h with
          ⟨features | _ | _ | _, h1⟩ <;> rw [told] at run
        · obtain ⟨deviceId, given⟩ := Option.isSome_iff_exists.1 (named identify features h1 told)
          simp only [deviceIdOf, given, Comp.ofExcept_ok, Comp.run_pure] at run
          cases run
        · cases run
          exact pinned_err told
        · cases run
        · cases run
      · intro v h' run
        rw [program] at run
        obtain ⟨features, h1, told, rest⟩ := Comp.bind_eq_ok run
        have same : h1 = h' := by
          generalize deviceIdOf features = checked at rest
          cases checked with
          | ok value => exact congrArg Prod.snd rest
          | error e => exact congrArg Prod.snd rest
        rw [identify, ← same]
        exact pinned_ok told
  · have program := Call.run_answered parses passes
    refine ⟨fun _ identify => absurd identify other, fun _ => ⟨fun e h' run => ?_, fun v h' run => ?_⟩⟩
    · rw [program, Comp.run_bind] at run
      rcases told : (pinned K c.hostStaticPriv c.credential c.op.spec (chat.on K)).run h with ⟨a | _ | _ | _, h1⟩ <;>
        rw [told] at run
      · cases run
      · cases run
        exact pinned_err told
      · cases run
      · cases run
    · rw [program] at run
      obtain ⟨a, h1, told, rest⟩ := Comp.bind_eq_ok run
      cases rest
      exact pinned_ok told

/-! ### A device without an id -/

/-- The small instance, with `Features` of no fields. -/
def Crates.featureless : Crates where
  toCrypto := .toy
  toProst := { Prost.toy with features := .small (fun _ => []) fun _ => some {} }
  toBitcoinCrate := .toy

/-- A pinned connection of the standard wallet. -/
def standardConnection : Connection :=
  { initial 0 Framing.BLE_PACKET_SIZE with
    cid := 0x1234, session := some ⟨List.Vector.replicate 32 1, List.Vector.replicate 32 2, 0, 1⟩
    activeSessionId := SEEDED_SESSION_ID, seededWith := some (none, false) }

/-- The frames of a reply, after the ACK of the request. -/
def replyFrames (K : Crates) (session : Session) (reply : AppMessage) : List (Except TrezorTransportError Bytes) :=
  arriving (Framing.packets Framing.BLE_PACKET_SIZE ⟨0x1234, Framing.Control.ackFor 0, []⟩ ++
    Framing.packets Framing.BLE_PACKET_SIZE ⟨0x1234, Framing.Control.ENCRYPTED_TRANSPORT,
      K.aesGcmEncrypt session.keyRecv (ivFromNonce session.nonceRecv) [] (encodeAppMessage reply)⟩)

/-- The device answers `GetFeatures` with an empty message. -/
def unnamedDevice : Host Slot :=
  ⟨some standardConnection, Wire.quiet.withInbox (replyFrames Crates.featureless
    ⟨List.Vector.replicate 32 1, List.Vector.replicate 32 2, 0, 1⟩ ⟨0, Pairing.MGMT_FEATURES, []⟩)⟩

def identifyCall : Call := ⟨List.replicate 32 5, [], .identifyPaired⟩

theorem clears_on_error_iff_sample :
    ClearsOnError Crates.featureless identifyCall unnamedDevice ↔ DeviceNamed Crates.featureless identifyCall unnamedDevice :=
  clears_on_error_iff Crates.featureless identifyCall unnamedDevice [] rfl

/-- `identify_paired` fails and the connection stays pinned. -/
theorem unnamed_device_stays_pinned : ¬ ClearsOnError Crates.featureless identifyCall unnamedDevice := by
  intro clears
  have failed : ((identifyCall.run Crates.featureless).run unnamedDevice).1 =
      .err (.thp "device returned no device_id") := by decide +kernel
  have kept : ((identifyCall.run Crates.featureless).run unnamedDevice).2.own.isSome = true := by decide +kernel
  rw [clears.err _ _ (Comp.run_of_outcome failed)] at kept
  cases kept

end TrezorCore.Client
