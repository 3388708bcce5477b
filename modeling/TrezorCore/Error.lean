/-!
# Errors

`error.rs` and the error half of `transport.rs`. Every error that leaves the crate is a
`TrezorError`; the transport's own errors are folded into `transport` with their text.
-/

namespace TrezorCore

/-- Errors raised by the foreign transport. -/
inductive TrezorTransportError where
  | disconnected (reason : String)
  | timeout (reason : String)
  | io (reason : String)
  deriving Repr, DecidableEq

def TrezorTransportError.toString : TrezorTransportError → String
  | .disconnected reason => s!"transport disconnected: {reason}"
  | .timeout reason => s!"transport timed out: {reason}"
  | .io reason => s!"transport I/O error: {reason}"

/-- Errors of the public API. -/
inductive TrezorError where
  | transport (reason : String)
  | thp (reason : String)
  | deviceRejected (code : Int) (reason : String)
  | pairing (reason : String)
  | invalidInput (reason : String)
  | protocol (reason : String)
  | transportBusy
  | userCanceled
  | notImplemented (feature : String)
  deriving Repr, DecidableEq

/-- `From<TrezorTransportError> for TrezorError`. -/
def TrezorError.ofTransport (e : TrezorTransportError) : TrezorError := .transport e.toString

end TrezorCore
