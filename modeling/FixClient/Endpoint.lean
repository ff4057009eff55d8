import FixClient.Session.Error
import FixClient.Text.Characters
import FixClient.Text.Numeral

/-!
# Endpoints

An address names a socket of the local machine by its path, or a host and a
port. A path may stand alone if it starts with a slash or a dot.
-/

namespace FixClient

inductive Endpoint where
  | unix (path : String)
  | tcp (address : String)
  deriving DecidableEq, Repr

namespace Endpoint

def unixScheme : List Char := ['u', 'n', 'i', 'x', ':']

def tcpScheme : List Char := ['t', 'c', 'p', ':']

/-- What stands before and after the last occurrence of `sep`. -/
def cutLast? (sep : Char) : List Char → Option (List Char × List Char)
  | [] => none
  | c :: rest =>
    match cutLast? sep rest with
    | some (l, r) => some (c :: l, r)
    | none => if c = sep then some ([], rest) else none

/-- Whether an address is a host and a port below 2^16, split at the last colon. -/
def isHostAndPort (cs : List Char) : Bool :=
  match cutLast? ':' cs with
  | some (host, port) => !host.isEmpty && (Numeral.unsigned? (2 ^ 16) port).isSome
  | none => false

/-- Whether a text is a path without its scheme. -/
def isBarePath : List Char → Bool
  | c :: _ => c == '/' || c == '.'
  | [] => false

/-- Reads an address. Blanks around it do not count. -/
def parse (s : String) : Except ConfigurationFault Endpoint :=
  let cs := Text.trimChars s.toList
  if cs.isEmpty then .error .addressEmpty
  else
    match unixScheme.isPrefixOf? cs with
    | some path => if path.isEmpty then .error .pathMissing else .ok (.unix (String.ofList path))
    | none =>
      match tcpScheme.isPrefixOf? cs with
      | some address =>
        if isHostAndPort address then .ok (.tcp (String.ofList address))
        else .error (.notHostAndPort (String.ofList address))
      | none =>
        if isBarePath cs then .ok (.unix (String.ofList cs))
        else .error (.addressUnrecognized (String.ofList cs))

/-- An endpoint as an address with its scheme. -/
def text : Endpoint → String
  | unix path => "unix:" ++ path
  | tcp address => "tcp:" ++ address

end Endpoint

end FixClient
