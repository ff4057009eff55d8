import FixClient.Frame.Error
import FixClient.MsgType
import FixClient.Session.State
import FixClient.Text.Characters

/-!
# Session errors

Why a session cannot be opened or must end.
-/

namespace FixClient

inductive ConfigurationFault where
  | endpointBlank
  | endpointMissing
  | chunkSizeZero
  /-- An address of blanks only. -/
  | addressEmpty
  | pathMissing
  | notHostAndPort (address : String)
  | addressUnrecognized (address : String)
  | sessionMissing
  | catalogMissing
  | scenarioMissing
  | compIdEmpty
  | compIdTooLong (text : String)
  deriving DecidableEq, Repr

def ConfigurationFault.message : ConfigurationFault → String
  | endpointBlank => "endpoint is empty"
  | endpointMissing => "endpoint is required"
  | chunkSizeZero => "read_chunk_size must be greater than zero"
  | addressEmpty => "empty endpoint"
  | pathMissing => "unix endpoint without a path"
  | notHostAndPort address => "tcp endpoint must be host:port, got " ++ Text.quoted address
  | addressUnrecognized address =>
    "unrecognized endpoint " ++ Text.quoted address ++ "; use unix:/path or tcp:host:port"
  | sessionMissing => "session configuration is required"
  | catalogMissing => "catalog configuration is required"
  | scenarioMissing => "scenario is required"
  | compIdEmpty => "empty CompID"
  | compIdTooLong text => "CompID too long: " ++ Text.quoted text

/-- The number of bytes within which the answer to a Logon must show its type. -/
def logonAnswerLimit : Nat := 256

/-- What a Logon was answered with instead of a Logon. -/
inductive LogonAnswer where
  | ofType (type : MsgType)
  /-- No type was found within the limit. -/
  | undecided
  | unreadable (error : DecodeError)
  deriving DecidableEq, Repr

def LogonAnswer.text : LogonAnswer → String
  | ofType type => type.code
  | undecided => s!"no MsgType within {logonAnswerLimit} bytes"
  | unreadable error => error.message

inductive SessionError where
  /-- The endpoint was not reached, or a read or write failed. -/
  | connection (reason : String)
  /-- A Logon was answered with something else. -/
  | protocolViolation (received : LogonAnswer)
  | invalidState (expected current : SessionState)
  /-- No byte arrived within the deadline, in milliseconds. -/
  | readTimeout (elapsed : Nat)
  | configuration (fault : ConfigurationFault)
  deriving DecidableEq, Repr

def SessionError.message : SessionError → String
  | connection reason => "connection error: " ++ reason
  | protocolViolation received =>
    s!"protocol violation: expected msg type {MsgType.logon.code}, received {received.text}"
  | invalidState expected current =>
    s!"invalid session state: expected {expected.name}, current {current.name}"
  | readTimeout elapsed => s!"read timed out after {elapsed} milliseconds"
  | configuration fault => "configuration error: " ++ fault.message

end FixClient
