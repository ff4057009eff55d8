import FixClient.Client.Call

/-!
# Scripts

A script sets calls on a client between what happens around it: what arrives, how
writes go and when the runs are told to stop. One observer and one request to stop
serve all calls of a script.
-/

namespace FixClient

inductive Move where
  | call (call : Call)
  | arrive (a : Arrival)
  /-- After so many more bytes, every write fails. -/
  | breakWrites (accepted : Nat) (reason : String)
  | stallWrites
  | breakFlush (reason : String)
  | mend
  /-- All runs are to stop. -/
  | cancel
  deriving Repr

/-- What a line of a script comes to. -/
structure Turn where
  answer : Answer
  state : SessionState
  /-- The events of this line, in order. -/
  events : List Event
  deriving DecidableEq, Repr

/-- A client in the middle of a script. -/
structure Stage where
  client : Client
  cancelled : Bool := false
  /-- The events of all lines so far, the latest first. -/
  log : List Event := []
  deriving DecidableEq

namespace Stage

def stopRule (observer : StopRule) (s : Stage) : StopRule :=
  fun events => s.cancelled || observer (events ++ s.log)

def mapConnection (f : Connection → Connection) (s : Stage) : Stage :=
  { s with client := { s.client with connection := f s.client.connection } }

def perform (observer : StopRule) (id : Identity) (m : Move) (s : Stage) : Turn × Stage :=
  let quiet (after : Stage) : Turn × Stage := (⟨.done, after.client.session.state, []⟩, after)
  match m with
  | .call call =>
    let (answer, p) := s.client.call (s.stopRule observer) id call
    (⟨answer, p.client.session.state, p.log.reverse⟩,
      { s with client := p.client, log := p.log ++ s.log })
  | .arrive a => quiet (s.mapConnection (Connection.arrive a))
  | .breakWrites accepted reason =>
    quiet (s.mapConnection (Connection.breakWrites accepted reason))
  | .stallWrites => quiet (s.mapConnection Connection.stallWrites)
  | .breakFlush reason => quiet (s.mapConnection (Connection.breakFlush reason))
  | .mend => quiet (s.mapConnection Connection.mend)
  | .cancel => quiet { s with cancelled := true }

def play (observer : StopRule) (id : Identity) : List Move → Stage → List Turn × Stage
  | [], s => ([], s)
  | m :: rest, s =>
    let (turn, after) := s.perform observer id m
    let (turns, last) := play observer id rest after
    (turn :: turns, last)

end Stage

def Event.chunkCount (log : List Event) : Nat :=
  log.countP fun
    | .frame _ => true
    | _ => false

/-- Stops when the `n`-th chunk has arrived. No chunk is the zeroth. -/
def StopRule.afterChunks (n : Nat) : StopRule := fun log => 0 < n && n ≤ Event.chunkCount log

def StopRule.never : StopRule := fun _ => false

end FixClient
