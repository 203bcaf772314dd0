import EngineNode.Engine.Import
import EngineNode.Engine.Method

/-!
# The remaining methods

Fetching payloads, blobs and bodies of blocks, and the exchange of configuration between the
consensus layer and the node.
-/

namespace EngineNode

/-- How many blobs may be asked for at once. -/
def maxBlobRequest : Nat := 128

/-- How many bodies may be asked for at once. -/
def maxBodyRequest : Nat := 1024

/-- How this node presents itself. The commit of the build is not known. -/
def ownVersion : ClientVersion where
  code := "RE"
  name := "RollupEngine"
  version := "0.3.0"
  commit := "0x00000000"

namespace EngineM

open NodeM

/-- Hands out the best block of a payload so far and stops its improvement. -/
def getPayload (version : GetPayloadVersion) (id : PayloadId) : EngineM Envelope := do
  version.check id
  let node ← get
  let (built, payloads, logs) := PayloadQueue.deliver node.payloads node.closed id
  match built with
  | none => throw .unknownPayload
  | some built =>
    set { node with payloads }
    logAll logs
    return built.envelope node.config

/-- The blobs of some hashes that are in the pool. -/
def getBlobs (hashes : List Hash) : EngineM (List (Option BlobAndProof)) := do
  if maxBlobRequest < hashes.length then
    throw (.tooLargeRequest ("requested blob count too large: " ++ toString hashes.length))
  return (← get).pool.blobsOf hashes

/-- The bodies of the blocks of some hashes. -/
def bodiesByHash (hashes : List Hash) : EngineM (List (Option PayloadBody)) := do
  if maxBodyRequest < hashes.length then
    throw (.tooLargeRequest ("requested count too large: " ++ toString hashes.length))
  let chain := (← get).chain
  return hashes.map fun hash => (chain.blockByHash? hash).map PayloadBody.ofBlock

/-- The bodies of canonical blocks from a number on. None lie behind the head. -/
def bodiesByRange (start count : UInt64) : EngineM (List (Option PayloadBody)) := do
  if start = 0 ∨ count = 0 then
    throw (.invalidParams ("invalid start or count, start: " ++ toString start.toNat ++
      " count: " ++ toString count.toNat))
  if maxBodyRequest < count.toNat then
    throw (.tooLargeRequest ("requested count too large: " ++ toString count.toNat))
  let chain := (← get).chain
  let available := chain.currentHeader.number.toNat + 1 - start.toNat
  return (List.range (min count.toNat available)).map fun i =>
    (chain.blockByNumber? (start + UInt64.ofNat i)).map PayloadBody.ofBlock

/-- Compares the terminal difficulty of the consensus layer with that of the chain. -/
def exchangeTransitionConfiguration (remote : TransitionConfiguration) :
    EngineM TransitionConfiguration := do
  match remote.terminalTotalDifficulty with
  | none => throw (.internal .missingTerminalDifficulty)
  | some remoteDifficulty =>
    modify fun node =>
      { node with activity := { node.activity with transition := some node.clock } }
    let node ← get
    let ownDifficulty := node.config.terminalTotalDifficulty
    if ownDifficulty ≠ some remoteDifficulty then
      log .warn ("Invalid TTD configured (local: " ++ terminalDifficultyText ownDifficulty ++
        ", consensus: " ++ toString remoteDifficulty.toNat ++ ")")
      throw (.internal (.terminalDifficultyMismatch ownDifficulty remoteDifficulty))
    else if remote.terminalBlockHash.isZero then
      return { remote with terminalBlockNumber := 0 }
    else if node.chain.isCanonical remote.terminalBlockNumber remote.terminalBlockHash then
      return remote
    else throw (.internal .terminalBlockMismatch)

/-- A list of texts in a message. -/
def textList (texts : List String) : String :=
  "[" ++ String.intercalate ", " (texts.map Text.quoted) ++ "]"

/-- The methods that the node advertises, whatever those of the consensus layer are. -/
def exchangeCapabilities (remote : List String) : EngineM (List String) := do
  log .debug ("Consensus client capabilities: " ++ textList remote)
  return Method.advertised.map Method.name

/-- How this node presents itself. -/
def clientVersion (remote : ClientVersion) : EngineM (List ClientVersion) := do
  log .debug ("Consensus client version: " ++ remote.toText)
  return [ownVersion]

/-- Logs how the node stands to the versions of the protocol, and halts it if it has to. -/
def signalSuperchain (signal : Option SuperchainSignal) : EngineM ProtocolVersion := do
  let ours := ProtocolVersion.supported
  match signal with
  | none =>
    log .info ("Received empty superchain version signal (local: " ++ ours.toText ++ ")")
    return ours
  | some signal =>
    logAll [ours.supportLog signal.recommended "recommended",
      ours.supportLog signal.required "required"]
    if shouldHalt (← get).haltLevel ours signal.required then
      logWithHead .error ("Opted to halt, unprepared for protocol change (required: " ++
        signal.required.toText ++ ", local: " ++ ours.toText ++ ")")
      modify fun node => { node with closed := true, halted := true }
    return ours

end EngineM

end EngineNode
