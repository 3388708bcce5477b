import TrezorCore.Bip32
import TrezorCore.Chains.Bitcoin
import TrezorCore.Chains.Envelope
import TrezorCore.Chains.Ethereum
import TrezorCore.Chains.Fidelity
import TrezorCore.Chains.Merge
import TrezorCore.Chains.Reader
import TrezorCore.Chains.Serving
import TrezorCore.Chains.SignTx
import TrezorCore.Chains.Solana
import TrezorCore.Chains.Streaming
import TrezorCore.Chains.Tron
import TrezorCore.Client.Across
import TrezorCore.Client.Calls
import TrezorCore.Client.Causes
import TrezorCore.Client.Clearing
import TrezorCore.Client.Client
import TrezorCore.Client.Counters
import TrezorCore.Client.Establishing
import TrezorCore.Client.Exclusion
import TrezorCore.Client.Interleaving
import TrezorCore.Client.Outgoing
import TrezorCore.Client.Parts
import TrezorCore.Client.Pinned
import TrezorCore.Client.Receipts
import TrezorCore.Client.Recovery
import TrezorCore.Client.Refinement
import TrezorCore.Client.Replies
import TrezorCore.Client.Requests
import TrezorCore.Client.Returning
import TrezorCore.Client.Reuse
import TrezorCore.Client.Serial
import TrezorCore.Client.Visits
import TrezorCore.Client.Wallets
import TrezorCore.Client.Welcome
import TrezorCore.Client.Wording
import TrezorCore.Crates
import TrezorCore.Error
import TrezorCore.Lib.Audited
import TrezorCore.Lib.Bytes
import TrezorCore.Lib.Comp
import TrezorCore.Lib.Continuing
import TrezorCore.Lib.Elligator
import TrezorCore.Lib.HashChain
import TrezorCore.Lib.Justified
import TrezorCore.Lib.Lucas
import TrezorCore.Lib.OrderedMap
import TrezorCore.Lib.Protobuf
import TrezorCore.Lib.Rlp
import TrezorCore.Lib.Script
import TrezorCore.Lib.Settling
import TrezorCore.Lib.ShiftRegister
import TrezorCore.Lib.Simulation
import TrezorCore.Lib.Text
import TrezorCore.Lib.Trail
import TrezorCore.Lib.Turns
import TrezorCore.Paths
import TrezorCore.Proto
import TrezorCore.Thp.Allocation
import TrezorCore.Thp.Alternation
import TrezorCore.Thp.Answering
import TrezorCore.Thp.Binding
import TrezorCore.Thp.BringUp
import TrezorCore.Thp.Burst
import TrezorCore.Thp.Causes
import TrezorCore.Thp.Chat
import TrezorCore.Thp.Choreography
import TrezorCore.Thp.CodeEntry
import TrezorCore.Thp.Connection
import TrezorCore.Thp.Conversation
import TrezorCore.Thp.Counters
import TrezorCore.Thp.Cpace
import TrezorCore.Thp.Delivery
import TrezorCore.Thp.Desync
import TrezorCore.Thp.Dialogue
import TrezorCore.Thp.Elligator2
import TrezorCore.Thp.Endings
import TrezorCore.Thp.Field25519
import TrezorCore.Thp.FrameLoop
import TrezorCore.Thp.Framing
import TrezorCore.Thp.Generator
import TrezorCore.Thp.Handshake
import TrezorCore.Thp.History
import TrezorCore.Thp.Intake
import TrezorCore.Thp.Isolation
import TrezorCore.Thp.Link
import TrezorCore.Thp.MapToCurve
import TrezorCore.Thp.Noise
import TrezorCore.Thp.NonceReuse
import TrezorCore.Thp.Outgoing
import TrezorCore.Thp.Overflow
import TrezorCore.Thp.Packet
import TrezorCore.Thp.Pairing
import TrezorCore.Thp.Reassembly
import TrezorCore.Thp.Receipts
import TrezorCore.Thp.SecureChannel
import TrezorCore.Thp.Service
import TrezorCore.Thp.Session
import TrezorCore.Thp.Strays
import TrezorCore.Thp.Stream
import TrezorCore.Thp.Sync
import TrezorCore.Thp.Wires
import TrezorCore.Transport
