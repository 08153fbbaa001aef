import Sumer.Wire.Observation

set_option relaxedAutoImplicit false
set_option autoImplicit false

/-!
# What a call to an adapter can answer

The errors of a call (`core/host/src/lib.rs`, `core/wire/src/error.rs`) with the texts they print
as, and the reply of `history.read`.

## Main definitions

* `Sumer.Host.HostError`: how a call can fail.
* `Sumer.Host.HistoryRead`: a `history.read` reply, its provenance stamped.
-/

namespace Sumer.Host

open Sumer.Wire

/-- The error codes an adapter can answer with. -/
inductive WireErrorCode where
  | unsupportedProtocol
  | unsupported
  | invalidRequest
  | notReady
  | internal
deriving DecidableEq

/-- Why the host killed an adapter process outright. -/
inductive ProtocolViolationKind where
  | oversizeFrame
  | nonUtf8
  | notJson
  | unterminatedFrame
  | unknownId
  | duplicateId
  | preHelloOutput
  | stdinEofIgnored
  | stdoutHeldOpen
deriving DecidableEq

/-- The debug text of an error code: its variant name. -/
def WireErrorCode.debug : WireErrorCode → String
  | .unsupportedProtocol => "UnsupportedProtocol"
  | .unsupported => "Unsupported"
  | .invalidRequest => "InvalidRequest"
  | .notReady => "NotReady"
  | .internal => "Internal"

/-- The debug text of a violation: its variant name. -/
def ProtocolViolationKind.debug : ProtocolViolationKind → String
  | .oversizeFrame => "OversizeFrame"
  | .nonUtf8 => "NonUtf8"
  | .notJson => "NotJson"
  | .unterminatedFrame => "UnterminatedFrame"
  | .unknownId => "UnknownId"
  | .duplicateId => "DuplicateId"
  | .preHelloOutput => "PreHelloOutput"
  | .stdinEofIgnored => "StdinEofIgnored"
  | .stdoutHeldOpen => "StdoutHeldOpen"

/-- The body of an `err` envelope. -/
structure ErrorBody where
  code : WireErrorCode
  message : String
deriving DecidableEq

/-- How a call can fail on the host's side. -/
inductive HostError where
  | wire (body : ErrorBody)
  | timeout
  | adapterCrashed (status : Option ℤ)
  | protocolViolation (kind : ProtocolViolationKind)
  | spawn (message : String)
  | idsExhausted
deriving DecidableEq

/-- The debug text of an optional exit status. -/
def debugStatus : Option ℤ → String
  | none => "None"
  | some n => "Some(" ++ toString n ++ ")"

/-- `Display` of a host error. -/
def HostError.display : HostError → String
  | .wire body => "adapter error " ++ body.code.debug ++ ": " ++ body.message
  | .timeout => "request timed out"
  | .adapterCrashed status => "adapter crashed (status " ++ debugStatus status ++ ")"
  | .protocolViolation kind => "protocol violation: " ++ kind.debug
  | .spawn message => "could not spawn adapter: " ++ message
  | .idsExhausted => "adapter connection ran out of request ids"

/-- A `history.read` reply with host-stamped provenance. -/
structure HistoryRead where
  observations : List Observation
  statuses : List ResourceStatus

end Sumer.Host
