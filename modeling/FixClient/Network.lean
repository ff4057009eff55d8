import FixClient.Client.Basic
import FixClient.Endpoint

/-!
# Networks

A network says what answers at an endpoint: a connection, or the reason why there
is none.
-/

namespace FixClient

abbrev Network := Endpoint → Except String Connection

namespace Network

def noSuchFile : String := "No such file or directory (os error 2)"

def notADirectory : String := "Not a directory (os error 20)"

def refused : String := "Connection refused (os error 111)"

/-- The longest path of a socket, in bytes. -/
def maxPathSize : Nat := 107

/-- Why a path cannot name a socket, if it cannot. -/
def pathFault? (path : String) : Option String :=
  if path.toList.contains '\x00' then some "paths must not contain interior null bytes"
  else if maxPathSize < path.utf8ByteSize then some "path must be shorter than SUN_LEN"
  else none

/-- The parts of a path, without those that stay where they are. -/
def pathParts (path : String) : List String :=
  (path.splitOn "/").filter fun part => part ≠ "" && part ≠ "."

/-- A network on which nothing answers. Hosts refuse, and so do directories, of which
only the root and those above the working directory are known. -/
def silent : Network
  | .tcp _ => .error refused
  | .unix path =>
    match pathFault? path with
    | some reason => .error reason
    | none =>
      if (pathParts path).all (· = "..") then .error refused else .error noSuchFile

def isAbsolute (path : String) : Bool := path.toList.head? = some '/'

/-- A network on which one connection answers, at a socket of the working directory.
Nothing is below a socket. -/
def socket (name : String) (c : Connection) : Network
  | .tcp address => silent (.tcp address)
  | .unix path =>
    if (pathFault? path).isSome || isAbsolute path || (pathParts path).head? ≠ some name then
      silent (.unix path)
    else if pathParts path = [name] && (path.splitOn "/").getLast? = some name then .ok c
    else .error notADirectory

/-- A network on which one connection answers everywhere. -/
def everywhere (c : Connection) : Network := fun _ => .ok c

end Network

/-- Opens a session over what answers at the endpoint of the settings. -/
def Client.connect (network : Network) (settings : Settings) : Except SessionError Client :=
  match settings.fault? with
  | some fault => .error (.configuration fault)
  | none =>
    match Endpoint.parse settings.endpoint with
    | .error fault => .error (.configuration fault)
    | .ok endpoint =>
      match network endpoint with
      | .error reason => .error (.connection (endpoint.text ++ ": " ++ reason))
      | .ok connection => Client.start settings connection

end FixClient
