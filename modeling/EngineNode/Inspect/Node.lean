import EngineNode.Engine.Node
import EngineNode.Inspect.Build

/-!
# Summaries in JSON

What a configuration means, and where a node stands.
-/

namespace EngineNode

namespace ChainConfig

/-- What is active at a time. -/
def factsAt (config : ChainConfig) (time : UInt64) : Json :=
  .obj [
    ("latestFork", (config.latestFork time).toJson),
    ("active", .ofList (fun fork => .bool (config.isForkActive fork time)) Fork.all),
    ("shanghai", .bool (config.isShanghai time)), ("cancun", .bool (config.isCancun time)),
    ("prague", .bool (config.isPrague time)), ("osaka", .bool (config.isOsaka time)),
    ("canyon", .bool (config.isCanyon time)), ("holocene", .bool (config.isHolocene time)),
    ("isthmus", .bool (config.isIsthmus time)),
    ("denominator", Wire.encodeUInt64 (config.baseFeeChangeDenominator time))]

/-- A configuration with everything that follows from it; `valid` says whether it is consistent. -/
def facts (config : ChainConfig) (valid : Json) (times : List UInt64) : Json :=
  .obj [
    ("config", config.toJson), ("valid", valid), ("optimism", .bool config.isRollup),
    ("elasticity", Wire.encodeUInt64 config.elasticityMultiplier),
    ("forkTimes",
      .ofList (fun fork => .ofOption Wire.encodeUInt64 (config.forkTime fork)) Fork.all),
    ("genesis", Wire.encodeFixed (genesisBlock config).hash),
    ("times", .ofList config.factsAt times)]

end ChainConfig

namespace SyncRequest

def toJson : SyncRequest → Json
  | .sync mode head finalized =>
    .obj [("sync", Wire.encodeFixed head), ("mode", .str mode.name),
      ("finalized", .ofOption Wire.encodeFixed finalized)]
  | .extend mode head => .obj [("extend", Wire.encodeFixed head), ("mode", .str mode.name)]

end SyncRequest

/-- The hash of a header, if there is one. -/
def Header.hashJson (header : Option Header) : Json :=
  .ofOption (fun h => Wire.encodeFixed h.hash) header

/-- The requests of a downloader and its target. -/
def Downloader.fields (d : Downloader) : List (String × Json) :=
  [("requests", .ofList SyncRequest.toJson d.requests), ("target", Header.hashJson d.target)]

namespace Node

/-- The canonical chain, what has been asked for and what has been seen. -/
def summary (node : Node) : Json :=
  let chain := node.chain
  let head := chain.head.number
  let seen (time : Option Nat) : Json := .bool time.isSome
  .obj <| [
    ("head", .arr [.ofNat head.toNat, Wire.encodeFixed chain.head.hash]),
    ("canonical",
      .ofList (fun n => .ofOption Wire.encodeFixed (chain.canonicalHash? (UInt64.ofNat n)))
        (List.range (head.toNat + 1))),
    ("above", .ofOption Wire.encodeFixed (chain.canonicalHash? (head + 1))),
    ("safe", Header.hashJson chain.safe), ("finalized", Header.hashJson chain.finalized),
    ("synced", .bool chain.synced), ("syncMode", .str chain.syncMode.name)] ++
    node.downloader.fields ++ [
    ("activity", .ofList seen
      [node.activity.transition, node.activity.forkchoice, node.activity.newPayload]),
    ("closed", .bool node.closed), ("shutdown", .bool node.halted)]

end Node

end EngineNode
