import FixClient.Catalog.Request
import FixClient.Identity
import FixClient.Session.Settings
import FixClient.Text.Numeral

/-!
# Environment variables

The command line takes everything it needs from variables, each with a usual
value. A number that cannot be read counts as unset.
-/

namespace FixClient

structure Environment where
  endpoint : String
  sender : String
  target : String
  username : String
  password : String
  account : String
  exchange : String
  symbol : String
  scenario : String
  /-- The deadline of a read, in seconds. -/
  readTimeout : Option Nat
  verifyLogon : Bool
  deriving DecidableEq, Repr

namespace Environment

/-- The socket below the home directory used unless an endpoint is given. -/
def usualSocket : String := "run/fix-proxy.sock"

/-- The spellings that switch the check of the Logon answer on. -/
def affirmations : List (List Char) := ["1".toList, "true".toList, "yes".toList, "y".toList]

/-- Whether a text affirms, in capitals or not. -/
def affirms (s : String) : Bool := affirmations.contains (s.toList.map Char.toLower)

def ofLookup (lookup : String → Option String) : Environment :=
  let var (name usual : String) := (lookup name).getD usual
  { endpoint := (lookup "FIX_ENDPOINT").getD (var "HOME" "" ++ "/" ++ usualSocket)
    sender := var "FIX_SENDER" "test"
    target := var "FIX_TARGET" "proxy"
    username := var "FIX_USERNAME" "trader"
    password := var "FIX_PASSWORD" "secret"
    account := var "FIX_ACCOUNT" "A1"
    exchange := var "FIX_EXCHANGE" "deribit"
    symbol := var "FIX_SYMBOL" "BTC-PERPETUAL"
    scenario := var "FIX_SCENARIO" "positions"
    readTimeout :=
      ((lookup "FIX_READ_TIMEOUT_SECS").bind fun s =>
        Numeral.unsigned? (2 ^ 64) s.toList).filter (0 < ·)
    verifyLogon := ((lookup "FIX_VERIFY_LOGON").map affirms).getD false }

def settings (e : Environment) : Settings :=
  { Settings.standard e.endpoint with
    readTimeout := e.readTimeout.map (· * 1000)
    verifyLogon := e.verifyLogon }

/-- A component identifier, which must not be empty here. -/
def compId (s : String) : Except ConfigurationFault CompId :=
  if s = "" then .error .compIdEmpty
  else
    match CompId.ofText? s with
    | some id => .ok id
    | none => .error (.compIdTooLong s)

/-- The identity of the client. The sender is checked first. -/
def identity (e : Environment) : Except ConfigurationFault Identity :=
  match compId e.sender, compId e.target with
  | .error fault, _ => .error fault
  | .ok _, .error fault => .error fault
  | .ok sender, .ok target =>
    .ok { sender := sender, target := target, account := e.account, exchange := e.exchange,
          symbol := e.symbol }

def logon (e : Environment) : Logon := { username := e.username, password := e.password }

end Environment

end FixClient
