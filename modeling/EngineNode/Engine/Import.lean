import EngineNode.Engine.Choice

/-!
# Importing payloads

A payload that fits on a stored block with state is executed and stored. Otherwise its header is
remembered and the sync in progress is extended, if there is one. Payloads that descend from a bad
block are rejected at once.
-/

namespace EngineNode

/-- The sidecar of a request. -/
def PayloadRequest.sidecar (request : PayloadRequest) : Sidecar where
  versionedHashes := request.versionedHashes.getD []
  parentBeaconBlockRoot := request.beaconRoot
  executionRequests := request.executionRequests

/-- The verdict that a payload is invalid. A newest valid ancestor from before the merge is
reported as zero. -/
def PayloadStatus.invalid (details : String) (latestValid : Option Header) : PayloadStatus where
  status := .invalid
  latestValidHash := latestValid.map fun header =>
    if header.isPreMerge then .zero 32 else header.hash
  validationError := some details

namespace EngineM

open NodeM

/-- What is wrong with the extra data of a payload of a rollup chain: since Holocene it holds fee
parameters, before it is empty. -/
def extraDataFault (config : ChainConfig) (payload : Payload) : Option String :=
  if config.isRollup then
    if config.isHolocene payload.timestamp then
      match FeeParams.validateExtraData payload.extraData with
      | .ok _ => none
      | .error error => some error.message
    else if payload.extraData.isEmpty then none
    else some "extraData must be empty before Holocene"
  else none

/-- A number and a hash in a message. -/
def blockText (number : UInt64) (hash : Hash) : String :=
  "number: " ++ toString number.toNat ++ ", hash: " ++ Hex.text hash.toList

/-- Remembers the header of a block. -/
def rememberHeader (block : Block) : EngineM Unit :=
  modify fun node =>
    { node with remoteHeaders := node.remoteHeaders.insert block.hash block.header }

/-- Puts a block off that cannot be imported yet and extends the sync in progress with it. -/
def delayImport (block : Block) : EngineM PayloadStatus := do
  if let some status ← checkBadChains block.parentHash block.hash then return status
  rememberHeader block
  let node ← get
  match node.downloader.extend node.chain.syncMode block.header with
  | .ok downloader =>
    modify fun node => { node with downloader }
    logWithHead .debug
      ("Payload accepted for sync extension (" ++ blockText block.number block.hash ++ ")")
  | .error error =>
    match node.chain.syncMode with
    | .full =>
      logWithHead .warn ("Ignoring payload with missing parent (" ++
        blockText block.number block.hash ++ ", parent: " ++ Hex.text block.parentHash.toList ++
        ", reason: " ++ error.message ++ ")")
    | .snap =>
      logWithHead .warn ("Ignoring payload while snap syncing (" ++
        blockText block.number block.hash ++ ", reason: " ++ error.message ++ ")")
  return .syncing

/-- Executes a block on its parent and stores it. -/
def execute (block parent : Block) (wantWitness : Bool) : EngineM PayloadStatus := do
  let node ← get
  match node.chain.insert node.config block wantWitness with
  | .ok (chain, witness) =>
    setChain chain
    return { PayloadStatus.valid block.hash with witness := witness.map Witness.encode }
  | .error .overflow => throw .overflow
  | .error error =>
    logWithHead .warn ("NewPayload: inserting block failed: " ++ error.message)
    modify fun node => { node with badChains := node.badChains.recordFailure block.header }
    countTips
    return .invalid error.message (some parent.header)

/-- Imports a block whose parent is stored. A node in snap sync fetches the state itself and takes
no blocks out of the order. -/
def importOn (block parent : Block) (wantWitness : Bool) : EngineM PayloadStatus := do
  let chain := (← get).chain
  if block.timestamp ≤ parent.timestamp then
    logWithHead .warn ("Invalid timestamp (parent: " ++ toString parent.timestamp.toNat ++
      ", block: " ++ toString block.timestamp.toNat ++ ")")
    return .invalid "invalid timestamp" (some parent.header)
  else if chain.syncMode = .snap then delayImport block
  else if chain.hasState block.parentHash then execute block parent wantWitness
  else
    rememberHeader block
    logWithHead .warn "State not available, ignoring new payload"
    return .accepted

/-- Imports the block of a payload. -/
def importBlock (block : Block) (wantWitness : Bool) : EngineM PayloadStatus := do
  modify fun node => { node with activity := { node.activity with newPayload := some node.clock } }
  let chain := (← get).chain
  match chain.blockByHash? block.hash with
  | some known =>
    logWithHead .warn ("Ignoring already known beacon payload (" ++
      blockText known.number known.hash ++ ")")
    return .valid known.hash
  | none =>
    if let some status ← checkBadChains block.hash block.hash then return status
    match chain.blockByHash? block.parentHash with
    | none => delayImport block
    | some parent => importOn block parent wantWitness

/-- Imports a payload. -/
def importPayload (request : PayloadRequest) (wantWitness : Bool) : EngineM PayloadStatus := do
  let config := (← get).config
  let payload := request.payload
  match extraDataFault config payload with
  | some fault => return .invalid fault none
  | none =>
    match payload.toBlock config request.sidecar with
    | .error error =>
      logWithHead .warn ("Invalid NewPayload params (" ++
        blockText payload.blockNumber payload.blockHash ++ "): " ++ error.message)
      return .invalid error.message none
    | .ok block => importBlock block wantWitness

/-- Imports a payload if the version of the method accepts it. -/
def newPayload (version : NewPayloadVersion) (request : PayloadRequest) (wantWitness : Bool) :
    EngineM PayloadStatus := do
  let method := if wantWitness then PayloadMethod.newPayloadWithWitness else .newPayload
  version.check method (← get).config request
  match Requests.validate (request.executionRequests.getD []) with
  | .error error => throw (.invalidParams error.message)
  | .ok _ =>
    let status ← importPayload request wantWitness
    count fun m => { m with payloadStatuses := m.payloadStatuses.add status.status.name }
    return status

/-- Executes a payload from a witness and compares the roots. -/
def verifyStateless (block : Block) (witness : Witness) : Except ExecutionError StatelessStatus :=
  (executeStateless block witness).map fun outcome =>
    let fault :=
      if outcome.stateRoot ≠ block.header.stateRoot then some "state root mismatch"
      else if outcome.receiptsRoot ≠ block.header.receiptsRoot then
        some "receipts root mismatch"
      else none
    { status := if fault.isSome then .invalid else .valid
      stateRoot := outcome.stateRoot
      receiptsRoot := outcome.receiptsRoot
      validationError := fault }

/-- Executes a payload from a witness alone and stores nothing. -/
def executeStatelessPayload (version : NewPayloadVersion) (request : PayloadRequest)
    (witness : Bytes) : EngineM StatelessStatus := do
  let config := (← get).config
  version.check .executeStateless config request
  let payload := request.payload
  match payload.toBlockUnchecked config request.sidecar with
  | .error error =>
    log .warn ("Invalid ExecuteStatelessPayload params (" ++
      blockText payload.blockNumber payload.blockHash ++ "): " ++ error.message)
    return .invalid error.message
  | .ok block =>
    match Witness.decode witness with
    | .error error =>
      log .warn ("Invalid ExecuteStatelessPayload witness: " ++ error.message)
      return .invalid error.message
    | .ok witness =>
      modify fun node =>
        { node with activity := { node.activity with newPayload := some node.clock } }
      match verifyStateless block witness with
      | .ok status => return status
      | .error .overflow => throw .overflow
      | .error error =>
        log .warn ("ExecuteStatelessPayload: execution failed: " ++ error.message)
        return .invalid error.message

end EngineM

end EngineNode
