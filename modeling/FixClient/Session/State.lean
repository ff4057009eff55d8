/-!
# Session states

A session is opened, logs on and is closed, in this order and never back.
-/

namespace FixClient

inductive SessionState where
  | disconnected
  /-- The stream is open, and no Logon has been acknowledged. -/
  | connected
  /-- A Logon has been acknowledged. -/
  | loggedOn
  /-- The counterparty has closed the stream. -/
  | closed
  deriving DecidableEq, Repr

namespace SessionState

def name : SessionState → String
  | disconnected => "disconnected"
  | connected => "connected"
  | loggedOn => "logged_on"
  | closed => "closed"

def canSend : SessionState → Bool
  | connected | loggedOn => true
  | disconnected | closed => false

/-- The place of a state in the life of a session. -/
def rank : SessionState → Nat
  | disconnected => 0
  | connected => 1
  | loggedOn => 2
  | closed => 3

end SessionState

end FixClient
