import FixClient.Client.Run

/-!
# Scripted counterparties

A peer answers the frames it reads with replies laid down in advance, one for one.
It closes right after its reply to the last frame it expects, and at the first
frame for which it has no reply.
-/

namespace FixClient

structure Peer where
  /-- The replies in order. Without a list the peer stays silent and never closes. -/
  replies : Option (List Bytes)
  deriving DecidableEq, Repr

namespace Peer

/-- What a reply brings on. An empty reply is no arrival. -/
def said : Bytes → List Arrival
  | [] => []
  | reply => [.data reply]

/-- What each of the frames that are still expected brings on. -/
def reactions : Nat → List Bytes → List (List Arrival)
  | 0, _ => []
  | _ + 1, [] => [[.endOfStream]]
  | 1, reply :: _ => [said reply ++ [.endOfStream]]
  | expected + 2, reply :: rest => said reply :: reactions (expected + 1) rest

/-- The connection to a peer that expects a number of frames. -/
def connection (p : Peer) (expected : Nat) : Connection :=
  match p.replies with
  | none => {}
  | some replies =>
    { arriving := if expected = 0 then [.endOfStream] else []
      reactions := reactions expected replies }

/-- The frames the peer reads out of those sent: it stops at the first without a
reply. -/
def received (p : Peer) (sent : List Bytes) : List Bytes :=
  match p.replies with
  | none => sent
  | some replies => sent.take (replies.length + 1)

end Peer

def Event.sentFrames (events : List Event) : List Bytes :=
  events.filterMap fun
    | .sent bytes => some bytes
    | _ => none

end FixClient
