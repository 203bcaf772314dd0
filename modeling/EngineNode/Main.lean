import EngineNode.JsonRpc.Exchange
import EngineNode.Settings.Basic

/-!
# The program

Sets a node up as the command line says and answers the messages on standard input, one a line.
Answers go to standard output, log messages to standard error. Payloads are improved while the
program waits for the next message.
-/

namespace EngineNode

/-- The program with its version. -/
def versionText : String := ownVersion.name ++ " " ++ ownVersion.version

/-- The node of some settings. -/
def Settings.node (settings : Settings) : Node :=
  { Node.new settings.chain with
    miner := settings.miner
    features := settings.features
    haltLevel := settings.haltLevel
    metrics := settings.metricsAddress.map fun _ => {} }

/-- Shows messages, apart from those for debugging. -/
def printLogs (entries : List LogEntry) : IO Unit :=
  (entries.filter (·.level ≠ .debug)).forM fun entry =>
    IO.eprintln (entry.level.name ++ " " ++ entry.message)

/-- Answers messages until the input ends, the node halts or a number leaves its width. `since` is
the time up to which the clock of the node has gone. -/
partial def serve (node : Node) (since : Nat) (input : IO.FS.Stream) : IO UInt32 := do
  let line ← input.getLine
  if line.isEmpty then return 0
  let now ← IO.monoMsNow
  let ((), node, entries) := (NodeM.advance (now - since)).exec node
  printLogs entries
  let (result, node, entries) := (JsonRpc.answerText line).run.exec node
  printLogs entries
  match result with
  | .error .overflow =>
    IO.eprintln "arithmetic overflow"
    return 1
  | .ok response =>
    IO.println response.toJson.render
    (← IO.getStdout).flush
    if node.halted then return 0 else serve node now input

/-- What a file holds, if it can be read. -/
def readText? (path : String) : IO (Option String) := do
  try
    return some (← IO.FS.readFile path)
  catch _ => return none

/-- Runs the program with arguments that were understood. -/
def runWith (args : Arguments) : IO UInt32 := do
  let file ←
    match args.chainConfig with
    | some path => readText? path
    | none => pure none
  match args.settings file with
  | .error error =>
    IO.eprintln ("error: " ++ error.message)
    return 2
  | .ok settings =>
    printLogs (settings.featureReport ++ settings.report)
    serve settings.node (← IO.monoMsNow) (← IO.getStdin)

/-- Runs the program with the arguments of its command line. -/
def program (args : List String) : IO UInt32 := do
  match Arguments.parse args with
  | .error .help =>
    IO.println usage
    return 0
  | .error .version =>
    IO.println versionText
    return 0
  | .error error =>
    IO.eprintln ("error: " ++ error.message)
    return 2
  | .ok arguments => runWith arguments

end EngineNode

def main (args : List String) : IO UInt32 := EngineNode.program args
