import FixClient.Client.Run
import FixClient.Text.Utf8

/-!
# The console

A person watching a run sees one line for every frame sent and one for every
chunk received. A frame is shown as text in which every separator is a vertical
bar. Bytes that are no UTF-8 show as U+FFFD; nothing is refused.
-/

namespace FixClient

namespace Frame

def bar : Char := '|'

def printed (bs : Bytes) : List Char :=
  (Utf8.decodeLossy bs).map fun c => if c = '\x01' then bar else c

end Frame

namespace Console

def sentMark : List Char := ['>', ' ']

/-- The line of an event, if it has one. -/
def line : Event → Option (List Char)
  | .sent frame => some (sentMark ++ Frame.printed frame)
  | .frame chunk => some (Frame.printed chunk)
  | .logon => none
  | .closed => none

/-- The lines of events in order, each with a line feed. -/
def output (events : List Event) : List Char :=
  (events.filterMap line).flatMap fun l => l ++ ['\n']

end Console

end FixClient
