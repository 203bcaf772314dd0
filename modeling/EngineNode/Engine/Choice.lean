import EngineNode.Engine.Node
import EngineNode.Engine.Versions

/-!
# Choosing the head

The consensus layer chooses the head of the chain, says which of its ancestors are safe and final,
and may order a payload on top. An unknown head starts a sync when its header has been seen.
-/

namespace EngineNode

namespace ForkchoiceResponse

/-- The answer that a block is valid, with the payload that was ordered on it. -/
def valid (hash : Hash) (payloadId : Option PayloadId) : ForkchoiceResponse :=
  ⟨.valid hash, payloadId⟩

/-- An answer without a payload. -/
def ofStatus (status : PayloadStatus) : ForkchoiceResponse := ⟨status, none⟩

end ForkchoiceResponse

namespace EngineM

open NodeM

/-- Starts a sync to an unknown head, if its header has been seen. -/
def syncToUnknownHead (head finalized : Hash) : EngineM ForkchoiceResponse := do
  if let some status ← checkBadChains head head then return .ofStatus status
  let node ← get
  match node.remoteHeaders.get? head with
  | none =>
    logWithHead .warn
      ("Forkchoice requested unknown head (hash: " ++ Hex.text head.toList ++ ")")
    return .ofStatus .syncing
  | some header =>
    logWithHead .info ("Forkchoice requested sync to new head (number: " ++
      toString header.number.toNat ++ ", hash: " ++ Hex.text head.toList ++ ")")
    match node.downloader.sync (node.hasFeature .injectSyncFailures) node.chain.syncMode header
        (node.remoteHeaders.get? finalized) with
    | .error error => throw (.internal (.download error))
    | .ok downloader =>
      modify fun node => { node with downloader }
      return .ofStatus .syncing

/-- Whether the head is a proof-of-work block on top of a block from after the merge. -/
def isPastMerge (head : Block) : EngineM Bool := do
  if head.header.isPreMerge ∧ 0 < head.number then
    match (← get).chain.headerByHash? head.parentHash with
    | none => throw (.internal .parentUnavailable)
    | some parent => return !parent.isPreMerge
  else return false

/-- Makes a stored block the head. The result is false if the update is passed over: only rollup
nodes move their head back to an ancestor. -/
def makeHead (head : Block) : EngineM Bool := do
  let node ← get
  if node.chain.isCanonical head.number head.hash then
    if node.chain.currentHeader.hash = head.hash ∨ node.config.isRollup then return true
    else
      logWithHead .info ("Ignoring beacon update to old head (number: " ++
        toString head.number.toNat ++ ", hash: " ++ Hex.text head.hash.toList ++ ", have: " ++
        toString node.chain.currentHeader.number.toNat ++ ")")
      return false
  else
    match node.chain.setCanonical head.hash with
    | .ok (chain, logs) =>
      setChain chain
      logAll logs
      return true
    | .error failure =>
      logWithHead .warn ("Failed to set canonical head (hash: " ++ Hex.text head.hash.toList ++
        ", latest valid: " ++ Hex.text failure.latestValidHash.toList ++ "): " ++ failure.message)
      throw (.internal (.canonical failure.error))

/-- The canonical block of a hash; `label` says what the block is for. -/
def canonicalBlock (hash : Hash) (label : String) : EngineM Block := do
  let chain := (← get).chain
  match chain.blockByHash? hash with
  | none =>
    logWithHead .warn ("Forkchoice " ++ label ++ " block not available in database (hash: " ++
      Hex.text hash.toList ++ ")")
    throw (.invalidForkchoiceState (label ++ " block not available in database"))
  | some block =>
    if chain.isCanonical block.number hash then return block
    else
      logWithHead .warn ("Forkchoice " ++ label ++ " block not in canonical chain (number: " ++
        toString block.number.toNat ++ ", hash: " ++ Hex.text hash.toList ++ ")")
      throw (.invalidForkchoiceState (label ++ " block not in canonical chain"))

/-- Records the final and the safe block; a zero hash leaves the one that is known. -/
def recordFinality (choice : ForkchoiceState) : EngineM Unit := do
  unless choice.finalizedBlockHash.isZero do
    let finalized ← canonicalBlock choice.finalizedBlockHash "final"
    modify fun node => { node with chain := node.chain.setFinalized finalized.header }
  unless choice.safeBlockHash.isZero do
    let safe ← canonicalBlock choice.safeBlockHash "safe"
    modify fun node => { node with chain := node.chain.setSafe safe.header }

/-- The fee parameters of an order. Only rollup chains have them, since Holocene; they also need a
gas limit. -/
def feeParamsOf (config : ChainConfig) (attributes : PayloadAttributes) :
    Except EngineError (Option Bytes) := do
  unless config.isRollup do return none
  if attributes.gasLimit.isNone then
    throw (.invalidPayloadAttributes "gasLimit parameter is required")
  if config.isHolocene attributes.timestamp then
    match FeeParams.validate attributes.eip1559Params with
    | .error error => throw (.invalidPayloadAttributes error.message)
    | .ok _ => return some attributes.eip1559Params
  else if attributes.eip1559Params.isEmpty then return none
  else
    throw (.invalidPayloadAttributes "eip155Params not supported prior to Holocene upgrade")

/-- Decodes the transactions of an order; `index` counts those before these. -/
def orderedTransactions (index : Nat) : List Bytes → Except EngineError (List Transaction)
  | [] => .ok []
  | bytes :: rest =>
    match Transaction.decode bytes with
    | .error error => .error (.internal (.invalidTransaction index error))
    | .ok tx => (tx :: ·) <$> orderedTransactions (index + 1) rest

/-- The arguments of the build that an order asks for. -/
def buildArgs (config : ChainConfig) (parent : Hash) (attributes : PayloadAttributes)
    (version : ForkchoiceVersion) : Except EngineError BuildArgs := do
  let feeParams ← feeParamsOf config attributes
  let transactions ← orderedTransactions 0 attributes.transactions
  return {
    parent
    timestamp := attributes.timestamp
    feeRecipient := attributes.suggestedFeeRecipient
    random := attributes.prevRandao
    withdrawals := attributes.withdrawals
    beaconRoot := attributes.parentBeaconBlockRoot
    version
    noTxPool := attributes.noTxPool
    transactions
    gasLimit := attributes.gasLimit
    feeParams }

/-- Starts the payload of an order, unless it is there already. -/
def startPayload (parent : Hash) (attributes : PayloadAttributes) (version : ForkchoiceVersion)
    (wantWitness : Bool) : EngineM PayloadId := do
  let node ← get
  let args ← buildArgs node.config parent attributes version
  if node.payloads.contains args.id then return args.id
  count fun m => { m with builds := m.builds + 1 }
  match node.chain.startPayload node.generator node.clock args wantWitness with
  | .error .overflow =>
    count fun m => { m with timedBuilds := m.timedBuilds + 1 }
    throw .overflow
  | .error error =>
    logWithHead .error ("Failed to build payload: " ++ error.message)
    throw (.invalidPayloadAttributes error.message)
  | .ok job =>
    logAll [startLog args]
    count fun m => { m with timedBuilds := m.timedBuilds + 1 }
    modify fun node => { node with payloads := node.payloads.insert args.id job }
    return args.id

/-- Follows a choice whose head is stored. -/
def chooseStoredHead (head : Block) (version : ForkchoiceVersion) (choice : ForkchoiceState)
    (attributes : Option PayloadAttributes) (wantWitness : Bool) : EngineM ForkchoiceResponse := do
  if ← isPastMerge head then
    logWithHead .error ("Parent block is already post-ttd (number: " ++
      toString head.number.toNat ++ ", hash: " ++ Hex.text head.hash.toList ++
      ", difficulty: " ++ toString head.header.difficulty.toNat ++ ")")
    return .ofStatus { status := .invalidTerminalBlock }
  if ← makeHead head then
    modify fun node => { node with chain := { node.chain with synced := true } }
    reportHead
    recordFinality choice
    match attributes with
    | none => return .valid choice.headBlockHash none
    | some attributes =>
      let id ← startPayload choice.headBlockHash attributes version wantWitness
      return .valid choice.headBlockHash (some id)
  else return .valid choice.headBlockHash none

/-- Follows a choice. -/
def choose (version : ForkchoiceVersion) (choice : ForkchoiceState)
    (attributes : Option PayloadAttributes) (wantWitness : Bool) : EngineM ForkchoiceResponse := do
  if choice.headBlockHash.isZero then
    logWithHead .warn "Forkchoice requested update to zero hash"
    return .ofStatus { status := .invalid }
  modify fun node => { node with activity := { node.activity with forkchoice := some node.clock } }
  match (← get).chain.blockByHash? choice.headBlockHash with
  | none => syncToUnknownHead choice.headBlockHash choice.finalizedBlockHash
  | some head => chooseStoredHead head version choice attributes wantWitness

/-- Follows a choice if the version of the method accepts the order that comes with it. -/
def forkchoiceUpdated (version : ForkchoiceVersion) (choice : ForkchoiceState)
    (attributes : Option PayloadAttributes) (wantWitness : Bool) : EngineM ForkchoiceResponse := do
  if let some attributes := attributes then
    version.checkAttributes (← get).config attributes
  let response ← choose version choice attributes wantWitness
  count fun m => { m with
    forkchoiceStatuses := m.forkchoiceStatuses.add response.payloadStatus.status.name }
  return response

end EngineM

end EngineNode
