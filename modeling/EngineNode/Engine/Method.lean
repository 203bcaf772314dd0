import EngineNode.Engine.Versions

/-!
# The methods of the engine

Each method has a name, under which it is called.
-/

namespace EngineNode

/-- The versions of the methods that fetch bodies of blocks. They do the same. -/
inductive BodiesVersion where
  | v1
  | v2
deriving DecidableEq, Repr

def BodiesVersion.number : BodiesVersion → Nat
  | .v1 => 1
  | .v2 => 2

/-- A method that the consensus layer may call. -/
inductive Method where
  | forkchoiceUpdated (version : ForkchoiceVersion) (wantWitness : Bool)
  | exchangeTransitionConfiguration
  | getPayload (version : GetPayloadVersion)
  | getBlobs
  | newPayload (version : NewPayloadVersion) (wantWitness : Bool)
  | executeStatelessPayload (version : NewPayloadVersion)
  | bodiesByHash (version : BodiesVersion)
  | bodiesByRange (version : BodiesVersion)
  | clientVersion
  | exchangeCapabilities
  | signalSuperchain
deriving DecidableEq, Repr

namespace Method

/-- A version behind the name of a method. -/
def versioned (name : String) (version : Nat) : String :=
  "engine_" ++ name ++ "V" ++ toString version

/-- The mark of the methods that ask for a witness. -/
def witnessMark (wantWitness : Bool) : String := if wantWitness then "WithWitness" else ""

def name : Method → String
  | .forkchoiceUpdated version wantWitness =>
    versioned ("forkchoiceUpdated" ++ witnessMark wantWitness) version.toByte.toNat
  | .exchangeTransitionConfiguration => versioned "exchangeTransitionConfiguration" 1
  | .getPayload version => versioned "getPayload" version.number
  | .getBlobs => versioned "getBlobs" 1
  | .newPayload version wantWitness =>
    versioned ("newPayload" ++ witnessMark wantWitness) version.number
  | .executeStatelessPayload version => versioned "executeStatelessPayload" version.number
  | .bodiesByHash version => versioned "getPayloadBodiesByHash" version.number
  | .bodiesByRange version => versioned "getPayloadBodiesByRange" version.number
  | .clientVersion => versioned "getClientVersion" 1
  | .exchangeCapabilities => "engine_exchangeCapabilities"
  | .signalSuperchain => versioned "signalSuperchain" 1

/-- The methods that the node tells the consensus layer about. -/
def advertised : List Method :=
  [.forkchoiceUpdated .v1 false, .forkchoiceUpdated .v2 false, .forkchoiceUpdated .v3 false,
    .forkchoiceUpdated .v1 true, .forkchoiceUpdated .v2 true, .forkchoiceUpdated .v3 true,
    .exchangeTransitionConfiguration,
    .getPayload .v1, .getPayload .v2, .getPayload .v3, .getPayload .v4, .getBlobs,
    .newPayload .v1 false, .newPayload .v2 false, .newPayload .v3 false, .newPayload .v4 false,
    .newPayload .v1 true, .newPayload .v2 true, .newPayload .v3 true, .newPayload .v4 true,
    .executeStatelessPayload .v1, .executeStatelessPayload .v2, .executeStatelessPayload .v3,
    .executeStatelessPayload .v4,
    .bodiesByHash .v1, .bodiesByHash .v2, .bodiesByRange .v1, .bodiesByRange .v2, .clientVersion]

def all : List Method := advertised ++ [.exchangeCapabilities, .signalSuperchain]

theorem mem_all (method : Method) : method ∈ all := by
  cases method with
  | forkchoiceUpdated version wantWitness => cases version <;> cases wantWitness <;> decide
  | getPayload version => cases version <;> decide
  | newPayload version wantWitness => cases version <;> cases wantWitness <;> decide
  | executeStatelessPayload version => cases version <;> decide
  | bodiesByHash version => cases version <;> decide
  | bodiesByRange version => cases version <;> decide
  | _ => decide

/-- The method of a name. -/
def ofName? (name : String) : Option Method := all.find? fun method => method.name = name

end Method

end EngineNode
