import FixClient.Console
import FixClient.Network
import FixClient.Peer

/-!
# Harnesses

A harness collects what a run needs, connects and runs. Parts that are missing are
reported in the order settings, identity, scenario.
-/

namespace FixClient

structure Harness where
  settings : Option Settings := none
  identity : Option Identity := none
  scenario : Option Scenario := none

structure Report where
  outcome : Outcome Unit
  /-- The events in order. -/
  events : List Event
  deriving DecidableEq, Repr

namespace Report

def failed (e : SessionError) : Report := ⟨.failed (.session e), []⟩

def output (r : Report) : String := String.ofList (Console.output r.events)

end Report

namespace Harness

def run (network : Network) (stop : StopRule) (h : Harness) : Report :=
  match h.settings, h.identity, h.scenario with
  | none, _, _ => .failed (.configuration .sessionMissing)
  | some _, none, _ => .failed (.configuration .catalogMissing)
  | some _, some _, none => .failed (.configuration .scenarioMissing)
  | some settings, some id, some scenario =>
    match Client.connect network settings with
    | .error e => .failed e
    | .ok client =>
      let (outcome, p) := Progress.run stop id scenario ⟨client, []⟩
      ⟨outcome, p.log.reverse⟩

/-- The number of frames a harness is to send. -/
def frameCount (h : Harness) : Nat :=
  match h.scenario with
  | some s => s.requests.length
  | none => 0

/-- Where a peer of one's own is reached. -/
def localEndpoint : Endpoint := .unix "./peer.sock"

/-- Runs against a peer of one's own, whatever endpoint the settings name. -/
def runWith (peer : Peer) (stop : StopRule) (h : Harness) : Report :=
  let redirected := h.settings.map fun s => { s with endpoint := localEndpoint.text }
  run (.everywhere (peer.connection h.frameCount)) stop { h with settings := redirected }

end Harness

end FixClient
