import TrezorCore.Client.Client
import TrezorCore.Thp.BringUp
import TrezorCore.Thp.Service

/-!
# A new channel to a device that keeps to the protocol

Reconnecting, pairing and probing begin alike: a connection, an allocation, a handshake.
`Welcomes` says what the device sends to a host that does so, up to the messages that follow,
and `allocate_welcomed` and `handshake_welcomed` take the host there.
-/

namespace TrezorCore.Client

open Connection

variable (K : Crates)

/-- The device in one call: its side of a new channel, should the call open one, and the
messages it answers with. -/
structure Behaviour where
  peer : Peer
  messages : List AppMessage

/-- The line on which the new channel starts. -/
def newLine (cid : UInt16) : Line := ⟨Framing.BLE_PACKET_SIZE, by decide, cid, 0, 0⟩

/-- The line behind the handshake. -/
def readyLine (cid : UInt16) : Line := (newLine cid).next.next

/-- The session of a handshake with these secrets. -/
def Behaviour.session (d : Behaviour) (p : Noise.Secrets) : Session := Session.fromHandshake (keysOf K p d.peer.state)

/-- **A device that keeps to the protocol**, as a host reads it that opens a channel: it grants
the channel, shakes hands and answers what is said on it. The wire is the host's before it drew
its nonce, and the secrets are those of the handshake. -/
structure Welcomes (w : Wire) (p : Noise.Secrets) (d : Behaviour) (inbox : Inbox) : Prop where
  decodes : ∃ properties, K.deviceProperties.decode d.peer.deviceProperties = .ok properties
  fits : (p.payload K).length ≤ MAX_PAYLOAD
  stream : ∃ middle rest, Granted K Framing.BLE_PACKET_SIZE d.peer (drawnNext 8 w) middle inbox ∧
    Shakes K (newLine d.peer.cid) p d.peer.state rest middle ∧ Incoming K (readyLine d.peer.cid) (d.session K p) d.messages rest

/-- A device whose messages fit into frames. -/
structure Behaviour.Sendable (d : Behaviour) : Prop where
  messages : ∀ m ∈ d.messages, m.body.length ≤ MAX_BODY
  properties : ∃ properties, K.deviceProperties.decode d.peer.deviceProperties = .ok properties
  grant : d.peer.deviceProperties.length + 10 + Framing.CRC_LEN ≤ 65535
  state : d.peer.state.length + 16 + Framing.CRC_LEN ≤ 65535

section Welcomed

variable {K} {w : Wire} {p : Noise.Secrets} {d : Behaviour} {inbox : Inbox}

/-- Such a device can welcome any host. -/
theorem Welcomes.exists (aead : K.toCrypto.AeadLaws) (sendable : d.Sendable K) (w : Wire) (fits : (p.payload K).length ≤ MAX_PAYLOAD) :
    ∃ inbox, Welcomes K w p d inbox := by
  obtain ⟨rest, incoming⟩ := Incoming.exists aead d.messages sendable.messages (readyLine d.peer.cid) (d.session K p)
  obtain ⟨middle, shakes⟩ := Shakes.exists (K := K) aead (newLine d.peer.cid) p sendable.state rest
  obtain ⟨inbox, granted⟩ := Granted.exists (K := K) Framing.BLE_PACKET_SIZE sendable.grant (drawnNext 8 w) middle
  exact ⟨inbox, sendable.properties, fits, middle, rest, granted, shakes, incoming⟩

/-- What is left of the welcome behind the allocation. -/
structure Allocated (K : Crates) (p : Noise.Secrets) (d : Behaviour) (id : Nat) (k : Host Connection) : Prop where
  own : k.own = (newLine d.peer.cid).connection none ⟨id, MANAGEMENT_SESSION_ID, none⟩
  writes : Writes k
  fits : (p.payload K).length ≤ MAX_PAYLOAD
  stream : ∃ rest, Shakes K (newLine d.peer.cid) p d.peer.state rest k.wire.inbox ∧
    Incoming K (readyLine d.peer.cid) (d.session K p) d.messages rest

/-- The host is on the device's channel, -/
theorem allocate_welcomed {id : Nat} {h : Host Connection} (own : h.own = Connection.initial id Framing.BLE_PACKET_SIZE)
    (writes : Writes h) (welcomes : Welcomes K w p d h.wire.inbox) (random : RandomAlike w h.wire) :
    ∃ k properties, K.deviceProperties.decode d.peer.deviceProperties = .ok properties ∧
      (allocate K).run h = (.ok ⟨d.peer.cid, d.peer.deviceProperties, properties⟩, k) ∧ Allocated K p d id k ∧
      RandomAlike (w.spend 8) k.wire := by
  obtain ⟨⟨properties, decodes⟩, fits, middle, rest, granted, shakes, incoming⟩ := welcomes
  rw [← drawnNext_alike random] at granted
  have packetSize : h.own.packetSize = Framing.BLE_PACKET_SIZE := by
    rw [own]
    rfl
  rw [← packetSize] at granted
  have big : Framing.INIT_HEADER < h.own.packetSize := by
    rw [packetSize]
    decide
  obtain ⟨k, run, own', inbox, writes', entropy, drawn⟩ := allocate_granted decodes big writes granted
  refine ⟨k, properties, decodes, run, ⟨?_, writes', fits, rest, inbox ▸ shakes, incoming⟩, entropy.trans random.1, ?_⟩
  · rw [own']
    simp only [own]
    rfl
  · rw [drawn, random.2]
    rfl

/-- and has its keys. -/
theorem handshake_welcomed (aead : K.toCrypto.AeadLaws) {hostEphemeral hostStatic : Octets 32} {credential : Option Bytes} {id : Nat}
    {k : Host Connection} (allocated : Allocated K (d.peer.secrets hostEphemeral hostStatic credential) d id k) (random : RandomAlike w k.wire)
    (ephemeral : drawnNext 32 w = hostEphemeral) :
    ∃ k', (handshake K d.peer.deviceProperties hostStatic credential).run k =
        (.ok (keysOf K (d.peer.secrets hostEphemeral hostStatic credential) d.peer.state), k') ∧
      k'.own = (readyLine d.peer.cid).connection none ⟨id, MANAGEMENT_SESSION_ID, none⟩ ∧ Writes k' ∧
      Incoming K (readyLine d.peer.cid) (d.session K (d.peer.secrets hostEphemeral hostStatic credential)) d.messages k'.wire.inbox ∧
      RandomAlike (w.spend 32) k'.wire := by
  obtain ⟨own, writes, fits, rest, shakes, incoming⟩ := allocated
  obtain ⟨_, k', run, rfl, own', inbox, writes'⟩ := (handshake_answered (p := d.peer.secrets hostEphemeral hostStatic credential)
    aead rfl fits).returns ⟨own, writes, (drawnNext_alike random).trans ephemeral, shakes⟩
  have drawn := handshake_draws (K := K) d.peer.deviceProperties hostStatic credential k
  rw [show (handshake K d.peer.deviceProperties hostStatic credential).run k = _ from run] at drawn
  refine ⟨k', run, own', writes', inbox.symm ▸ incoming, drawn.1.trans random.1, drawn.2.trans ?_⟩
  show k.wire.drawn + 32 = w.drawn + 32
  rw [random.2]

/-- The session that a handshake opens serves. -/
theorem serving_welcomed {k : Host Connection} {id : Nat} (own : k.own = (readyLine d.peer.cid).connection none ⟨id, MANAGEMENT_SESSION_ID, none⟩)
    (writes : Writes k) (incoming : Incoming K (readyLine d.peer.cid) (d.session K p) d.messages k.wire.inbox) :
    Serving K none ⟨{ k.own with session := some (d.session K p) }, k.wire⟩ d.messages := by
  refine ⟨⟨_, _, id, MANAGEMENT_SESSION_ID, ?_, incoming⟩, writes⟩
  simp only [own]
  rfl

end Welcomed

end TrezorCore.Client
