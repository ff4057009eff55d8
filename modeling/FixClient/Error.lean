import FixClient.Session.Error

/-!
# Errors

Everything that can go wrong between building a message and the end of a
session.
-/

namespace FixClient

inductive Error where
  | decode (e : DecodeError)
  | encode (e : EncodeError)
  | session (e : SessionError)
  deriving DecidableEq, Repr

namespace Error

/-- The error below, without the name of its layer. -/
def cause : Error → String
  | decode e => e.message
  | encode e => e.message
  | session e => e.message

def layer : Error → String
  | decode _ => "decode error"
  | encode _ => "encode error"
  | session _ => "session error"

def message (e : Error) : String := e.layer ++ ": " ++ e.cause

def isConnection : Error → Bool
  | session (.connection _) => true
  | _ => false

end Error

end FixClient
