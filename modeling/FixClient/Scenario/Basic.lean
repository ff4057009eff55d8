import FixClient.Catalog.Request

/-!
# Scenarios

A scenario is a list of steps to run over one session, after which it may go on
reading until the counterparty closes the stream.
-/

namespace FixClient

inductive Step where
  | send (r : Request)
  /-- Read one chunk. -/
  | receive
  deriving Repr

structure Scenario where
  name : String
  steps : List Step := []
  /-- Whether to go on reading after the last step. -/
  follows : Bool := false
  deriving Repr

namespace Scenario

def send (s : Scenario) (r : Request) : Scenario := { s with steps := s.steps ++ [.send r] }

def receive (s : Scenario) : Scenario := { s with steps := s.steps ++ [.receive] }

/-- Adds a request and a read for its answer. -/
def exchange (s : Scenario) (r : Request) : Scenario := (s.send r).receive

def follow (s : Scenario) : Scenario := { s with follows := true }

/-- The requests of a scenario, in order. -/
def requests (s : Scenario) : List Request :=
  s.steps.filterMap fun
    | .send r => some r
    | .receive => none

end Scenario

end FixClient
