import FixClient.Client.Run

/-!
# Calls on a client

The four things that can be asked of a client, with one type of answer.
-/

namespace FixClient

inductive Call where
  | send (m : Message)
  | receive
  | follow
  | run (s : Scenario)
  deriving Repr

inductive Answer where
  | done
  | frame (bytes : Bytes)
  /-- The chunk that was received, or nothing from a closed stream. -/
  | chunk (bytes : Option Bytes)
  | failed (e : Error)
  | waiting
  deriving DecidableEq, Repr

def Answer.ofOutcome {α : Type} (answer : α → Answer) : Outcome α → Answer
  | .done a => answer a
  | .failed e => .failed e
  | .waiting => .waiting

/-- Makes a call. Only following and running have events. -/
def Client.call (stop : StopRule) (id : Identity) (call : Call) (c : Client) : Answer × Progress :=
  match call with
  | .send m =>
    match c.send m with
    | (.ok frame, after) => (.frame frame, ⟨after, []⟩)
    | (.error e, after) => (.failed e, ⟨after, []⟩)
  | .receive =>
    let (outcome, after) := c.receive
    (.ofOutcome .chunk outcome, ⟨after, []⟩)
  | .follow =>
    let (outcome, after) := Progress.follow stop ⟨c, []⟩
    (.ofOutcome (fun _ => .done) outcome, after)
  | .run s =>
    let (outcome, after) := Progress.run stop id s ⟨c, []⟩
    (.ofOutcome (fun _ => .done) outcome, after)

end FixClient
