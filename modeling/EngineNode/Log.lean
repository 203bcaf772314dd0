/-!
# Log messages
-/

namespace EngineNode

inductive LogLevel where
  | error
  | warn
  | info
  | debug
deriving DecidableEq, Repr

def LogLevel.name : LogLevel → String
  | .error => "ERROR"
  | .warn => "WARN"
  | .info => "INFO"
  | .debug => "DEBUG"

structure LogEntry where
  level : LogLevel
  message : String
deriving DecidableEq, Repr

/-- What the node last reported about its head, which stands in front of some messages. -/
structure HeadReport where
  number : UInt64 := 0
  synced : Bool := false
deriving DecidableEq, Repr

/-- A message with the report about the head in front of it. -/
def HeadReport.mark (report : HeadReport) (message : String) : String :=
  "[head: " ++ toString report.number.toNat ++ ", synced: " ++
    (if report.synced then "true" else "false") ++ "] " ++ message

end EngineNode
