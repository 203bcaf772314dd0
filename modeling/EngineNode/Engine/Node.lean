import EngineNode.Build.Pending
import EngineNode.Build.Queue
import EngineNode.Engine.BadChains
import EngineNode.Engine.Error
import EngineNode.Engine.Halt
import EngineNode.Engine.HeaderQueue
import EngineNode.Engine.Liveness
import EngineNode.Metrics

/-!
# The state of a node

`Node` is everything that a later answer can depend on. The methods of the engine are programs over
it: a `NodeM` program changes the node and logs, an `EngineM` program may also fail, and a failure
keeps what was changed before.

The clock of the node counts milliseconds. Payloads are improved when the node is told to catch up
with its clock (`NodeM.settle`). What is then left to chance is a part of the node (`Node.lots`).
-/

namespace EngineNode

/-- The lots of all payloads, for one time that a node catches up with its clock. -/
structure Lots where
  ordered : PayloadId → List Wake := fun _ => []
  own : PayloadId → List Wake := fun _ => []

structure Node where
  config : ChainConfig
  chain : Chain
  downloader : Downloader := {}
  pool : TxPool := {}
  miner : MinerConfig := {}
  features : List Feature := []
  /-- All payloads are stopped. -/
  closed : Bool := false
  /-- The pending block that was built last. -/
  pendingBlock : Option Block := none
  /-- Headers of payloads that could not be imported. -/
  remoteHeaders : HeaderQueue headerQueueCapacity := {}
  /-- Payloads that the consensus layer has ordered. -/
  payloads : PayloadQueue payloadQueueCapacity := {}
  /-- Payloads that the operator has ordered. -/
  ownPayloads : RecencyMap PayloadId PayloadJob := {}
  badChains : BadChains := {}
  activity : Activity := {}
  haltLevel : Option HaltLevel := none
  /-- The node was told to shut down. -/
  halted : Bool := false
  report : HeadReport := {}
  metrics : Option Metrics := none
  clock : Nat := 0
  /-- The lots for the next times that the node catches up. -/
  lots : List Lots := []

/-- A program over a node that logs. -/
abbrev NodeM := StateT Node (StateM (List LogEntry))

/-- A program over a node that logs and may fail. -/
abbrev EngineM := ExceptT EngineError NodeM

namespace Node

/-- A node at the start of its chain. -/
def new (config : ChainConfig) : Node := { config, chain := .new config }

def hasFeature (node : Node) (feature : Feature) : Bool := node.features.contains feature

/-- What the node builds blocks from. -/
def generator (node : Node) : Generator where
  config := node.config
  miner := node.miner
  pool := node.pool
  logSkipped := node.hasFeature .debugPayloadBuilder

/-- Changes the metrics, if there are any. -/
def count (node : Node) (change : Metrics → Metrics) : Node :=
  { node with metrics := node.metrics.map change }

end Node

namespace NodeM

/-- Runs a program on a node: its result, the node afterwards, and what was logged. -/
def exec {α : Type} (program : NodeM α) (node : Node) : α × Node × List LogEntry :=
  let ((result, node), logs) := program.run node []
  (result, node, logs)

/-- Logs entries. -/
def logAll (entries : List LogEntry) : NodeM Unit :=
  fun node => do
    modify (· ++ entries)
    return ((), node)

def log (level : LogLevel) (message : String) : NodeM Unit := logAll [⟨level, message⟩]

/-- Logs a message with the report about the head in front. -/
def logWithHead (level : LogLevel) (message : String) : NodeM Unit := do
  log level ((← get).report.mark message)

/-- Logs what a feature has to say, if it is on. -/
def logFeature (feature : Feature) (message : String) : NodeM Unit := do
  if (← get).hasFeature feature then logAll [feature.entry message]

def setChain (chain : Chain) : NodeM Unit := modify fun node => { node with chain }

def count (change : Metrics → Metrics) : NodeM Unit := modify (·.count change)

/-- Tells the metrics how many tips of bad chains there are. -/
def countTips : NodeM Unit :=
  modify fun node => node.count fun m => { m with invalidTips := node.badChains.tips.size }

/-- Tells the report and the metrics about the head. -/
def reportHead : NodeM Unit :=
  modify fun node =>
    let number := node.chain.currentHeader.number
    { node with report := ⟨number, true⟩ }.count fun m => { m with headNumber := number.toNat }

/-- Marks the chain of `origin`, in which the downloader found a bad block. -/
def markBadBlock (bad : BadBlock) : NodeM Unit := do
  log .warn ("Marking chain as invalid (bad number: " ++ toString bad.invalid.number.toNat ++
    ", bad hash: " ++ Hex.text bad.invalid.hash.toList ++ ", origin: " ++
    Hex.text bad.origin.hash.toList ++ ")")
  modify fun node => { node with badChains := node.badChains.mark bad.invalid bad.origin }
  countTips

/-- The rejection of a block that belongs to a bad chain. -/
def checkBadChains (check head : Hash) : NodeM (Option PayloadStatus) := do
  let node ← get
  let (status, badChains, logs) := node.badChains.check node.chain check head
  set { node with badChains }
  logAll logs
  countTips
  return status

/-- Lets all payloads catch up with the clock. -/
def settle : NodeM Unit := do
  let node ← get
  let g := node.generator
  let lots := node.lots.headD {}
  let ordered := PayloadQueue.advance node.payloads g node.closed node.clock lots.ordered
  let own := node.ownPayloads.mapValues fun id job =>
    job.advance g node.closed node.clock (lots.own id)
  let progress := ordered.values ++ own.values
  set { node with
    payloads := .ofProgress ordered
    ownPayloads := own.mapValues fun _ p => p.job
    lots := node.lots.tail }
  logAll (progress.flatMap (·.logs))
  count fun m =>
    { m with improvements := progress.foldr (·.improvements + ·) m.improvements }

/-- The longest step in which the clock moves. -/
def clockSlice : Nat := 500

/-- Moves the clock in steps and catches up after each. -/
def passTime (duration : Nat) : NodeM Unit := do
  let step := min duration clockSlice
  modify fun node => { node with clock := node.clock + step }
  settle
  if duration > clockSlice then passTime (duration - clockSlice)
termination_by duration
decreasing_by
  simp only [clockSlice] at *
  omega

/-- Lets time pass. -/
def advance (duration : Nat) : NodeM Unit := do
  settle
  if duration > 0 then passTime duration

/-- Stops the improvement of all payloads. -/
def close : NodeM Unit := modify fun node => { node with closed := true }

/-- The block that the node would build next. -/
def pending (now : UInt64) : NodeM (Except BuildError (Option Block)) := do
  let node ← get
  match node.generator.pending node.chain node.pendingBlock now with
  | .error error => return .error error
  | .ok (block, last, logs) =>
    set { node with pendingBlock := last }
    logAll logs
    return .ok block

/-- Starts a payload for the operator, in place of one of the same name. -/
def buildOwn (args : BuildArgs) (wantWitness : Bool) : NodeM (Except BuildError PayloadId) := do
  let node ← get
  match node.chain.startPayload node.generator node.clock args wantWitness with
  | .error error => return .error error
  | .ok job =>
    set { node with ownPayloads := node.ownPayloads.insert job.id job }
    logAll [startLog args]
    return .ok job.id

/-- Hands out the best block of the operator's payload so far. -/
def resolveOwn (id : PayloadId) : NodeM (Option Envelope) := do
  let node ← get
  match node.ownPayloads.get? id with
  | none => return none
  | some job =>
    let (stopped, logs) := job.deliver node.closed
    set { node with
      ownPayloads := node.ownPayloads.mapValues fun key job => if key = id then stopped else job }
    logAll logs
    return some (job.best.envelope node.config)

/-- Waits for the first block from the pool before handing out the operator's payload. -/
def resolveOwnFull (id : PayloadId) : NodeM (Option Envelope) := do
  if ((← get).ownPayloads.get? id).any (!·.isReady) then settle
  resolveOwn id

/-- Gives the operator's payload up; says whether there was one. -/
def dropOwn (id : PayloadId) : NodeM Bool := do
  let node ← get
  set { node with ownPayloads := node.ownPayloads.filter fun entry => entry.1 ≠ id }
  return node.ownPayloads.contains id

end NodeM

end EngineNode
