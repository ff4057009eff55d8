import FixClient.Catalog.Build
import FixClient.Client.Basic
import FixClient.Scenario.Basic

/-!
# Running scenarios

A run takes a client through the steps of a scenario and tells an observer what
happens. The observer may ask the run to stop: it is looked at before every step
and before every read, and a run that stops on request has not failed.
-/

namespace FixClient

inductive Event where
  | sent (frame : Bytes)
  | frame (chunk : Bytes)
  /-- The Logon has been acknowledged. -/
  | logon
  | closed
  deriving DecidableEq, Repr

/-- When a run is to stop, given the events so far, the latest first. -/
abbrev StopRule := List Event → Bool

/-- A client and the events of its run so far, the latest first. -/
structure Progress where
  client : Client
  log : List Event
  deriving DecidableEq

namespace Progress

/-- Notes a chunk, after the acknowledgement if this chunk brought it. -/
def noteChunk (before : Progress) (after : Client) (chunk : Bytes) : Progress :=
  let logsOn := before.client.session.logonPending && after.session.state == .loggedOn
  ⟨after, .frame chunk :: (if logsOn then .logon :: before.log else before.log)⟩

/-- Receives one chunk. The answer is whether to go on. -/
def receiveOne (stop : StopRule) (p : Progress) : Outcome Bool × Progress :=
  if stop p.log then (.done false, p)
  else
    match p.client.receive with
    | (.done (some chunk), after) => (.done true, p.noteChunk after chunk)
    | (.done none, after) => (.done false, ⟨after, .closed :: p.log⟩)
    | (.failed e, after) => (.failed e, ⟨after, p.log⟩)
    | (.waiting, after) => (.waiting, ⟨after, p.log⟩)

theorem backlog_lt_of_receiveOne {stop : StopRule} {p after : Progress}
    (h : p.receiveOne stop = (.done true, after)) :
    after.client.connection.backlog < p.client.connection.backlog := by
  unfold receiveOne at h
  split at h
  · simp at h
  split at h
  · next heq =>
    obtain ⟨-, rfl⟩ := Prod.mk.inj h
    exact Client.backlog_lt_of_receive heq
  all_goals simp at h

/-- Receives until the stream closes, a read fails or the run is to stop. -/
def follow (stop : StopRule) (p : Progress) : Outcome Unit × Progress :=
  match _h : p.receiveOne stop with
  | (.done true, after) => follow stop after
  | (.done false, after) => (.done (), after)
  | (.failed e, after) => (.failed e, after)
  | (.waiting, after) => (.waiting, after)
termination_by p.client.connection.backlog
decreasing_by exact backlog_lt_of_receiveOne _h

def sendOne (id : Identity) (request : Request) (p : Progress) : Outcome Bool × Progress :=
  match p.client.send (request.build id) with
  | (.ok frame, after) => (.done true, ⟨after, .sent frame :: p.log⟩)
  | (.error e, after) => (.failed e, ⟨after, p.log⟩)

/-- Takes one step. The answer is whether to go on. -/
def step (stop : StopRule) (id : Identity) (s : Step) (p : Progress) : Outcome Bool × Progress :=
  if stop p.log then (.done false, p)
  else
    match s with
    | .send request => p.sendOne id request
    | .receive => p.receiveOne stop

/-- Takes steps until one does not go on. The answer is whether all were taken. -/
def steps (stop : StopRule) (id : Identity) : List Step → Progress → Outcome Bool × Progress
  | [], p => (.done true, p)
  | s :: rest, p =>
    match p.step stop id s with
    | (.done true, after) => steps stop id rest after
    | other => other

def run (stop : StopRule) (id : Identity) (s : Scenario) (p : Progress) :
    Outcome Unit × Progress :=
  match p.steps stop id s.steps with
  | (.done true, after) => if s.follows then after.follow stop else (.done (), after)
  | (.done false, after) => (.done (), after)
  | (.failed e, after) => (.failed e, after)
  | (.waiting, after) => (.waiting, after)

end Progress

end FixClient
