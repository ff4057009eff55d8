import FixClient.CommandLine

/-!
# The program

Reads the variables, runs the command and prints what it comes to. Each argument
is one reply of a peer, with a vertical bar for every separator; without arguments
nothing listens.
-/

namespace FixClient.CommandLine

def variableNames : List String :=
  ["HOME", "FIX_ENDPOINT", "FIX_SENDER", "FIX_TARGET", "FIX_USERNAME", "FIX_PASSWORD",
    "FIX_ACCOUNT", "FIX_EXCHANGE", "FIX_SYMBOL", "FIX_SCENARIO", "FIX_READ_TIMEOUT_SECS",
    "FIX_VERIFY_LOGON"]

/-- A reply as given on the command line. -/
def replyOfArgument (arg : String) : Bytes :=
  (Utf8.encode arg).map fun b => if b = 0x7c then Bytes.soh else b

def peerOfArguments : List String → Option Peer
  | [] => none
  | args => some ⟨some (args.map replyOfArgument)⟩

end FixClient.CommandLine

open FixClient in
/-- Runs the command with the variables of the process. -/
def main (args : List String) : IO UInt32 := do
  let vars ← CommandLine.variableNames.mapM fun name => do return (name, ← IO.getEnv name)
  let verdict := CommandLine.run (fun name => (vars.lookup name).join)
    (CommandLine.peerOfArguments args)
  IO.print verdict.output
  IO.eprint verdict.report
  return verdict.status.toUInt32
