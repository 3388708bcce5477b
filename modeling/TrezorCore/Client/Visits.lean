import TrezorCore.Client.Clearing
import TrezorCore.Thp.Handshake

/-!
# Runs of a client

A client is called again and again, and the world decides each time what the transport will
read. `Reached` is every state between two calls, over all calls, all arguments and all
worlds; a condition on the calls restricts it to the runs in which every call meets it.
`Visited` says once how a call can end, and the invariants of the pinned slot follow from it.
-/

namespace TrezorCore.Client

open Connection

/-- From here on, these are the replies to the reads to come. -/
def facing (inbox : List (Except TrezorTransportError Bytes)) (h : Host Slot) : Host Slot :=
  { h with wire := { h.wire with inbox } }

/-- The states of a client between two calls that all meet a condition. -/
inductive Reached (K : Crates) (allowed : Call → Host Slot → Prop) : Host Slot → Prop where
  | start {h : Host Slot} : h.own = none → h.wire.trace = [] → Reached K allowed h
  | call {h : Host Slot} (c : Call) (inbox : List (Except TrezorTransportError Bytes)) : Reached K allowed h →
      allowed c (facing inbox h) → Reached K allowed ((c.run K).run (facing inbox h)).2

/-- The calls end in any way. -/
def anyhow (_ : Call) (_ : Host Slot) : Prop := True

/-- The call returns, with a value or with an error. -/
def returns (K : Crates) (c : Call) (h : Host Slot) : Prop :=
  (∃ v, ((c.run K).run h).1 = .ok v) ∨ ∃ e, ((c.run K).run h).1 = .err e

/-- How a call ends: its path is refused; its chat was told, and the value is the chat's; or it
was cut short, and if that was an error, the slot is empty. -/
inductive Visited (K : Crates) (c : Call) (h0 : Host Slot) : Outcome TrezorError Value × Host Slot → Prop where
  | refused (e : TrezorError) : c.op.addressN = .error e → Visited K c h0 (.err e, h0)
  | told {addressN : List UInt32} {conn : Connection} {tr : List (Request × Reply)} {x : Except TrezorError Value}
      {h : Host Slot} : c.op.addressN = .ok addressN → Script.Plays (c.op.chat K addressN) tr x → h.own = some conn →
      Running K h0 c.op.spec.walletKey (fun id => Told K id tr) conn h.wire → Visited K c h0 ((Comp.ofExcept x).run h)
  | cut {addressN : List UInt32} {r : Outcome TrezorError Value} {h : Host Slot} : c.op.addressN = .ok addressN →
      Cut K h0 c.op.spec.walletKey h → r.value? = none → (∀ e, r = .err e → h.own = none) → Visited K c h0 (r, h)

/-- **What a call can do.** -/
theorem visited (K : Crates) (c : Call) (h0 : Host Slot) : Visited K c h0 ((c.run K).run h0) := by
  rw [Call.run_eq]
  rcases parses : c.op.addressN with e | addressN
  · exact .refused e parses
  · rw [Comp.ofExcept_ok, Comp.pure_bind, Comp.run_bind]
    have told := pinned_told (K := K) h0 c.hostStaticPriv c.credential c.op.spec (c.op.chat K addressN) h0 rfl
    rcases ended : (pinned K c.hostStaticPriv c.credential c.op.spec ((c.op.chat K addressN).on K)).run h0 with
      ⟨x | e | _ | _, h⟩ <;> rw [ended] at told
    · obtain ⟨conn, tr, slot, plays, running⟩ := told
      exact .told parses plays slot running
    · exact .cut parses told rfl fun _ _ => pinned_err ended
    · exact .cut parses told rfl fun _ panic => by cases panic
    · exact .cut parses told rfl fun _ drop => by cases drop

/-! ### A small client

A device that accepts the stored credential, acknowledges the standard wallet and answers
questions for addresses, over the small instance of the crates. -/

/-- The small instance, with the messages of `get_ethereum_address`. -/
def Crates.wallets : Crates where
  toCrypto := .toy
  toProst := { Prost.toy with
    deviceProperties := .small (fun m => [(0x0a, asciiBytes m.internalModel)]) fun
      | [(0x0a, model), (0x18, [major]), (0x20, [minor])] =>
        some ⟨asciiString model, major.toUInt32, minor.toUInt32, []⟩
      | _ => none
    createNewSession := ⟨fun m =>
      (match m.passphrase with
        | some passphrase => encodeField (0x0a, asciiBytes passphrase)
        | none => []) ++
      (match m.onDevice with
        | some onDevice => [0x10, if onDevice then 1 else 0]
        | none => []) ++
      (match m.deriveCardano with
        | some deriveCardano => [0x18, if deriveCardano then 1 else 0]
        | none => []), fun _ => .error "not a host message"⟩
    ethereumGetAddress := ⟨fun m => (m.addressN.flatMap fun n => 0x08 :: varint 5 n.toNat) ++ [0x10, 0],
      fun _ => .error "not a host message"⟩
    ethereumAddress := .small (fun m => (m.address.toList.map fun a => (0x12, asciiBytes a))) fun
      | [(0x12, address)] => some ⟨some (asciiString address)⟩
      | _ => none }
  toBitcoinCrate := .toy

/-- The secrets of the handshake; the platform RNG hands out threes. -/
def walletSecrets : Noise.Secrets :=
  { Noise.sampleSecrets with deviceProperties := [0x0a, 4, 0x54, 0x33, 0x57, 0x31, 0x18, 2, 0x20, 0] }

/-- The device's frames up to encrypted transport. -/
def handshakeFrames : List Frame :=
  [⟨0xffff, 0x41, List.replicate 8 3 ++ [0x12, 0x34] ++ walletSecrets.deviceProperties⟩,
    ⟨0x1234, Framing.Control.ackFor 0, []⟩,
    ⟨0x1234, 0x01, (Crates.wallets.publicKey walletSecrets.deviceEphemeral).1 ++ walletSecrets.encStatic Crates.wallets ++
      walletSecrets.tag Crates.wallets⟩,
    ⟨0x1234, Framing.Control.ackFor 1, []⟩,
    ⟨0x1234, 0x13, walletSecrets.response Crates.wallets⟩]

/-- The `i`-th application message of the device, and the ACK of the request before it. -/
def answerFrames (i : Nat) (m : AppMessage) : List Frame :=
  let seq := UInt8.ofNat (i % 2)
  [⟨0x1234, Framing.Control.ackFor seq, []⟩,
    ⟨0x1234, Framing.Control.withSeq Framing.Control.ENCRYPTED_TRANSPORT seq,
      Crates.wallets.aesGcmEncrypt (walletSecrets.step4 Crates.wallets).2 (ivFromNonce (UInt64.ofNat i + 1)) []
        (encodeAppMessage m)⟩]

/-- The answers to `end_request` and to `ThpCreateNewSession`. -/
def openingAnswers : List AppMessage := [⟨0, Pairing.T_END_RESPONSE, []⟩, ⟨1, MSG_SUCCESS, []⟩]

def addressAnswer (address : String) : AppMessage :=
  ⟨1, Ethereum.ETH_ADDRESS, Crates.wallets.ethereumAddress.encode ⟨some address⟩⟩

def packetsOf (frames : List Frame) : List (Except TrezorTransportError Bytes) :=
  arriving (frames.flatMap (Framing.packets Framing.BLE_PACKET_SIZE))

/-- The whole conversation of a first call for an address. -/
def firstInbox : List (Except TrezorTransportError Bytes) :=
  packetsOf (handshakeFrames ++ ((openingAnswers ++ [addressAnswer "0xA"]).mapIdx answerFrames).flatten)

def addressCall (account : UInt32) : Call :=
  ⟨walletSecrets.hostStatic.1, [1, 2, 3], .getEthereumAddress .standard account none⟩

/-- A new client. -/
def newClient : Host Slot := ⟨none, { Wire.quiet with entropy := fun _ => 3 }⟩

/-- The client after its first call, which pins a connection. -/
def afterFirst : Host Slot := (((addressCall 0).run Crates.wallets).run (facing firstInbox newClient)).2

theorem afterFirst_reached : Reached Crates.wallets anyhow afterFirst := by
  -- rewritten, for the kernel would run the call to unfold it
  rw [afterFirst]
  exact .call _ _ (.start rfl rfl) trivial

theorem firstCall_run :
    (((addressCall 0).run Crates.wallets).run (facing firstInbox newClient)).1 = .ok (.text "0xA") ∧
    (afterFirst.own.map fun c => (c.id, c.seededWith)) = some (0, some (none, false)) := by
  decide +kernel

theorem afterFirst_returned : Reached Crates.wallets (returns Crates.wallets) afterFirst := by
  rw [afterFirst]
  exact .call _ _ (.start rfl rfl) (.inl ⟨_, firstCall_run.1⟩)

end TrezorCore.Client
