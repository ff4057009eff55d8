import FixClient.Environment
import FixClient.Harness
import FixClient.Scenario.Builtin

/-!
# The command line

The command line runs the built-in scenario that the variables name and prints
the frames. What goes wrong is reported with its causes, from the outermost to the
innermost.
-/

namespace FixClient

structure Complaint where
  message : String
  causes : List String := []
  deriving DecidableEq, Repr

namespace Complaint

/-- The lines of a text after the first, moved to the right. -/
def hang (indent : List Char) (text : String) : List Char :=
  text.toList.flatMap fun c => if c = '\n' then c :: indent else [c]

/-- A cause with its number, which stands right-aligned in five columns. -/
def numbered (n : Nat) (cause : String) : List Char :=
  let number := Numeral.digits n
  List.replicate (5 - number.length) ' ' ++ number ++ [':', ' '] ++
    hang (List.replicate 7 ' ') cause

def unnumbered (cause : String) : List Char :=
  List.replicate 4 ' ' ++ hang (List.replicate 4 ' ') cause

/-- The causes, one paragraph each. A single one has no number. -/
def paragraphs : List String → List (List Char)
  | [cause] => [unnumbered cause]
  | causes => causes.mapIdx numbered

def text (c : Complaint) : String :=
  let causes := (paragraphs c.causes).map fun p => '\n' :: p
  let chain := if causes.isEmpty then [] else "\n\nCaused by:".toList ++ causes.flatten
  String.ofList ("Error: ".toList ++ c.message.toList ++ chain ++ ['\n'])

def unknownScenario (name : String) : Complaint where
  message := "unknown scenario " ++ Text.quoted name ++ "; expected one of: " ++
    ", ".intercalate Scenario.builtinNames

def badIdentity (fault : ConfigurationFault) : Complaint where
  message := "invalid FIX_SENDER or FIX_TARGET"
  causes := [(SessionError.configuration fault).message]

def badRun (endpoint : String) (e : Error) : Complaint where
  message := "session with " ++ endpoint ++ " failed"
  causes := [e.message, e.cause]

end Complaint

namespace CommandLine

def peerSocket : String := "peer.sock"

structure Verdict where
  output : String
  complaint : Option Complaint
  /-- The events of the run, if it came to one. -/
  events : List Event

def Verdict.status (v : Verdict) : Nat := if v.complaint.isSome then 1 else 0

def Verdict.report (v : Verdict) : String := (v.complaint.map Complaint.text).getD ""

/-- The network of a command: a peer at its socket, or nothing at all. -/
def network (peer : Option Peer) (s : Scenario) : Network :=
  match peer with
  | some p => .socket peerSocket (p.connection s.requests.length)
  | none => .silent

/-- Runs the command. The scenario is looked at first, then the identity. -/
def run (lookup : String → Option String) (peer : Option Peer) : Verdict :=
  let e := Environment.ofLookup lookup
  match Scenario.builtin? e.scenario e.logon with
  | none => ⟨"", some (.unknownScenario e.scenario), []⟩
  | some scenario =>
    match e.identity with
    | .error fault => ⟨"", some (.badIdentity fault), []⟩
    | .ok id =>
      let h : Harness := ⟨some e.settings, some id, some scenario⟩
      let r := h.run (network peer scenario) fun _ => false
      match r.outcome with
      | .failed error => ⟨r.output, some (.badRun e.endpoint error), r.events⟩
      | _ => ⟨r.output, none, r.events⟩

end CommandLine

end FixClient
