import EngineNode.Log

/-!
# Features

Optional behaviour that is off unless it is asked for, most of it logging.
-/

namespace EngineNode

inductive Feature where
  | debugPayloadBuilder
  | injectSyncFailures
  | logEngineApiCalls
  | logHttpBodies
  | logHttpHeaders
  | logHttpRequests
  | warnOnJsonRpcLatency
deriving DecidableEq, Repr

namespace Feature

def all : List Feature :=
  [debugPayloadBuilder, injectSyncFailures, logEngineApiCalls, logHttpBodies, logHttpHeaders,
    logHttpRequests, warnOnJsonRpcLatency]

def name : Feature → String
  | .debugPayloadBuilder => "DebugPayloadBuilder"
  | .injectSyncFailures => "InjectSyncFailures"
  | .logEngineApiCalls => "LogEngineApiCalls"
  | .logHttpBodies => "LogHttpBodies"
  | .logHttpHeaders => "LogHttpHeaders"
  | .logHttpRequests => "LogHttpRequests"
  | .warnOnJsonRpcLatency => "WarnOnJsonRpcLatency"

def ofName? (name : String) : Option Feature := all.find? (·.name = name)

/-- What a feature logs says which feature it is. -/
def entry (feature : Feature) (message : String) : LogEntry :=
  ⟨.info, "[" ++ feature.name ++ "] " ++ message⟩

end Feature

end EngineNode
