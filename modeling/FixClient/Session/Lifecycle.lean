import FixClient.Frame.Peek
import FixClient.Session.Error

/-!
# The life of a session

A session remembers its state and whether a Logon awaits its answer. Each call
either moves it on or fails and leaves it as it was. The answer to a Logon may
arrive in any number of reads, so the check of it looks at all that has arrived.
It is undecided until the message type is there or the limit is passed.
-/

namespace FixClient

structure Session where
  state : SessionState
  logonPending : Bool
  deriving DecidableEq, Repr

namespace Session

def new : Session := ⟨.disconnected, false⟩

def connect (s : Session) : Except SessionError Session :=
  if s.state = .disconnected then .ok { s with state := .connected }
  else .error (.invalidState .disconnected s.state)

def ensureCanSend (s : Session) : Except SessionError Unit :=
  if s.state.canSend then .ok () else .error (.invalidState .connected s.state)

/-- Notes that a Logon was written. Only before logging on does it await an answer. -/
def logonSent (s : Session) : Session :=
  if s.state = .connected then { s with logonPending := true } else s

/-- Logs on: the pending Logon has been answered. -/
def logonAcknowledged (s : Session) : Except SessionError Session :=
  if s.state = .connected ∧ s.logonPending = true then .ok ⟨.loggedOn, false⟩
  else .error (.invalidState .connected s.state)

def close (s : Session) : Except SessionError Session :=
  if s.state.canSend then .ok ⟨.closed, false⟩
  else .error (.invalidState .loggedOn s.state)

inductive Call where
  | connect
  | ensureCanSend
  | logonSent
  | logonAcknowledged
  | close
  deriving DecidableEq, Repr

/-- The session after a call, or the error of the call. -/
def call (s : Session) : Call → Except SessionError Session
  | .connect => s.connect
  | .ensureCanSend => s.ensureCanSend.map fun _ => s
  | .logonSent => .ok s.logonSent
  | .logonAcknowledged => s.logonAcknowledged
  | .close => s.close

/-- Fails unless the session is as allowed, and names the state that was expected. -/
def require (expected : SessionState) (allowed : Session → Bool) :
    EStateM SessionError Session Unit := do
  let s ← get
  unless allowed s do throw (.invalidState expected s.state)

/-- The steps of a call on a session that is kept in place. What a call has changed
before it fails stays changed. -/
def perform : Call → EStateM SessionError Session Unit
  | .connect => do
    require .disconnected (·.state = .disconnected)
    modify ({ · with state := .connected })
  | .ensureCanSend => require .connected (·.state.canSend)
  | .logonSent => do
    let s ← get
    if s.state = .connected ∧ s.logonPending = false then
      set { s with logonPending := true }
  | .logonAcknowledged => do
    require .connected fun s => s.state = .connected ∧ s.logonPending = true
    modify ({ · with logonPending := false })
    modify ({ · with state := .loggedOn })
  | .close => do
    require .loggedOn (·.state.canSend)
    modify ({ · with logonPending := false })
    modify ({ · with state := .closed })

/-- The session after a call that may have failed. -/
def afterCall (s : Session) (c : Call) : Session :=
  match (perform c).run s with
  | .ok _ after | .error _ after => after

end Session

inductive LogonCheck where
  | undecided
  | accepted
  | refused (received : LogonAnswer)
  deriving DecidableEq, Repr

/-- Looks at the answer as far as it has arrived. -/
def LogonCheck.ofAnswer (answer : Bytes) : LogonCheck :=
  match Frame.peekMsgType answer with
  | .ok none =>
    if answer.length ≤ logonAnswerLimit then .undecided else .refused .undecided
  | .ok (some type) => if type = .logon then .accepted else .refused (.ofType type)
  | .error e => .refused (.unreadable e)

end FixClient
