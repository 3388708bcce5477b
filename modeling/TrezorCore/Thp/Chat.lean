import TrezorCore.Lib.Script
import TrezorCore.Thp.Connection

/-!
# Chats with the device

What the operations above the connection do with it is to call `transceive_on` and
`transceive` and to look at the replies. They are scripts over these two calls, so that what
holds of every exchange holds of every operation, and `Chat.on` runs them on a connection.
-/

namespace TrezorCore

/-- A call of `transceive_on` with a session id, or of `transceive` without. -/
structure Request where
  sessionId : Option UInt8
  type : UInt16
  body : Bytes

abbrev Reply := UInt16 × Bytes

abbrev Chat (α : Type) := Script Request Reply TrezorError α

namespace Chat

def transceiveOn (sessionId : UInt8) (messageType : UInt16) (protobuf : Bytes) : Chat Reply :=
  Script.question ⟨some sessionId, messageType, protobuf⟩

def transceive (messageType : UInt16) (protobuf : Bytes) : Chat Reply :=
  Script.question ⟨none, messageType, protobuf⟩

/-- The call a request stands for. -/
def ask (K : Crates) (q : Request) : Io Connection Reply :=
  match q.sessionId with
  | some sessionId => Connection.transceiveOn K sessionId q.type q.body
  | none => Connection.transceive K q.type q.body

/-- Run a chat on a connection. -/
def on (K : Crates) {α : Type} (chat : Chat α) : Io Connection α :=
  chat.run (ask K) fun h => h.wire.inbox.length

end Chat

end TrezorCore
