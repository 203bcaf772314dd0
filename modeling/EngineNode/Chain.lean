import EngineNode.Execution
import EngineNode.FeeMarket
import EngineNode.Log
import EngineNode.Payload.Conversion

/-!
# The development chain

Blocks in memory, those of them whose state is available, and the canonical chain from the genesis
block to the head. A block is inserted when executing it on its parent gives what its header says.
-/

namespace EngineNode

/-- How the node catches up with the network. In snap sync payloads are never executed. -/
inductive SyncMode where
  | full
  | snap
deriving DecidableEq, Repr

def SyncMode.name : SyncMode → String
  | .full => "full"
  | .snap => "snap"

/-- The gas limit of the genesis block. -/
def defaultGasLimit : UInt64 := 30000000

/-- The first block of a chain. Fields of forks are there if the fork is active at time zero, and
a chain with a terminal total difficulty other than zero starts with proof of work. -/
def genesisBlock (config : ChainConfig) : Block where
  header := {
    stateRoot := keccak256 (Bytes.ofNatPadded 8 config.chainId.toNat)
    transactionsRoot := emptyRoot
    receiptsRoot := emptyRoot
    difficulty := if config.terminalTotalDifficulty.any (· ≠ 0) then 1 else 0
    gasLimit := defaultGasLimit
    baseFeePerGas := some initialBaseFee
    withdrawalsRoot := if config.isShanghai 0 then some emptyRoot else none
    blobGasUsed := if config.isCancun 0 then some 0 else none
    excessBlobGas := if config.isCancun 0 then some 0 else none
    parentBeaconBlockRoot := if config.isCancun 0 then some (.zero 32) else none
    requestsHash := if config.isPrague 0 then some (Requests.hash []) else none }
  body := { withdrawals := if config.isShanghai 0 then some [] else none }

/-- Why a block is not inserted. -/
inductive ChainError where
  | parentStateMissing (parent : Hash)
  | unknownAncestor (parent : Hash)
  | invalidNumber (parent block : UInt64)
  | invalidTimestamp (parent block : UInt64)
  | invalidBaseFee (given : Option U256) (want : U256) (parentFee : Option U256)
      (parentGasUsed : UInt64)
  | execution (error : ExecutionError)
  | transaction (index : Nat) (hash : Hash) (error : ExecutionError)
  | gasUsedMismatch (remote : UInt64) (computed : Nat)
  | blobGasUsedMismatch (remote : UInt64) (computed : Nat)
  | receiptsRootMismatch (remote computed : Hash)
  | stateRootMismatch (remote computed : Hash)
  /-- A number left its fixed width. -/
  | overflow
deriving DecidableEq

/-- An optional fee in a message. -/
def feeText : Option U256 → String
  | some fee => "Some(" ++ toString fee.toNat ++ ")"
  | none => "None"

def ChainError.message : ChainError → String
  | .parentStateMissing parent =>
    "parent state " ++ Hex.text parent.toList ++ " not available"
  | .unknownAncestor parent => "unknown ancestor " ++ Hex.text parent.toList
  | .invalidNumber parent block =>
    "invalid block number (parent: " ++ toString parent.toNat ++ ", block: " ++
      toString block.toNat ++ ")"
  | .invalidTimestamp parent block =>
    "invalid timestamp (parent: " ++ toString parent.toNat ++ ", block: " ++
      toString block.toNat ++ ")"
  | .invalidBaseFee given want parentFee parentGasUsed =>
    "invalid baseFee: have " ++ feeText given ++ ", want " ++ toString want.toNat ++
      ", parentBaseFee " ++ feeText parentFee ++ ", parentGasUsed " ++
      toString parentGasUsed.toNat
  | .execution error => error.message
  | .transaction index hash error =>
    "could not apply tx " ++ toString index ++ " [" ++ Hex.text hash.toList ++ "]: " ++
      error.message
  | .gasUsedMismatch remote computed =>
    "invalid gas used (remote: " ++ toString remote.toNat ++ " local: " ++ toString computed ++ ")"
  | .blobGasUsedMismatch remote computed =>
    "blob gas used mismatch (header " ++ toString remote.toNat ++ ", calculated " ++
      toString computed ++ ")"
  | .receiptsRootMismatch remote computed =>
    "invalid receipt root hash (remote: " ++ hashDigits remote ++ " local: " ++
      hashDigits computed ++ ")"
  | .stateRootMismatch remote computed =>
    "invalid merkle root (remote: " ++ hashDigits remote ++ " local: " ++
      hashDigits computed ++ ")"
  | .overflow => "arithmetic overflow"

/-- Why the head does not change. -/
inductive CanonicalError where
  | unknownBlock (hash : Hash)
  | stateMissing (hash : Hash)
  | missingAncestor (hash : Hash)
deriving DecidableEq

def CanonicalError.message : CanonicalError → String
  | .unknownBlock hash => "unknown block " ++ Hex.text hash.toList
  | .stateMissing hash => "block " ++ Hex.text hash.toList ++ " has no state"
  | .missingAncestor hash => "missing ancestor " ++ Hex.text hash.toList

/-- A head that does not change: why, and which block it is. -/
structure CanonicalFailure where
  latestValidHash : Hash
  error : CanonicalError
deriving DecidableEq

def CanonicalFailure.message (failure : CanonicalFailure) : String := failure.error.message

/-- The blocks of a node. Of two blocks stored under one hash the first in the list counts. -/
structure Chain where
  blocks : List (Hash × Block)
  withState : List Hash
  canonical : List (UInt64 × Hash)
  head : Block
  safe : Option Header := none
  finalized : Option Header := none
  syncMode : SyncMode := .full
  synced : Bool := false

namespace Chain

/-- A chain that holds its genesis block only. -/
def new (config : ChainConfig) : Chain :=
  let genesis := genesisBlock config
  { blocks := [(genesis.hash, genesis)]
    withState := [genesis.hash]
    canonical := [(0, genesis.hash)]
    head := genesis }

def blockByHash? (chain : Chain) (hash : Hash) : Option Block := chain.blocks.lookup hash

def headerByHash? (chain : Chain) (hash : Hash) : Option Header :=
  (chain.blockByHash? hash).map Block.header

/-- The hash of the canonical block of a number. -/
def canonicalHash? (chain : Chain) (number : UInt64) : Option Hash :=
  chain.canonical.lookup number

/-- The canonical block of a number. -/
def blockByNumber? (chain : Chain) (number : UInt64) : Option Block :=
  chain.canonicalHash? number >>= chain.blockByHash?

def currentHeader (chain : Chain) : Header := chain.head.header

/-- Whether the state behind a block is available. -/
def hasState (chain : Chain) (hash : Hash) : Bool := chain.withState.contains hash

/-- Stores a block whose state is not available. -/
def insertWithoutState (chain : Chain) (block : Block) : Chain :=
  { chain with blocks := (block.hash, block) :: chain.blocks }

/-- A block follows its parent in number, time and base fee. -/
def validateHeader (config : ChainConfig) (parent header : Header) : Except ChainError Unit := do
  match nextNumber? parent.number with
  | none => throw .overflow
  | some next =>
    if header.number ≠ next then throw (.invalidNumber parent.number header.number)
  unless parent.timestamp < header.timestamp do
    throw (.invalidTimestamp parent.timestamp header.timestamp)
  match nextBaseFee config parent header.timestamp with
  | none => throw .overflow
  | some fee =>
    if header.baseFeePerGas ≠ some fee then
      throw (.invalidBaseFee header.baseFeePerGas fee parent.baseFeePerGas parent.gasUsed)

/-- Applies the transactions of a block; `index` counts those before them. -/
def applyTransactions (session : Session) (index : Nat) :
    List Transaction → Except ChainError Session
  | [] => .ok session
  | tx :: rest =>
    match session.apply tx with
    | .ok session => applyTransactions session (index + 1) rest
    | .error error => .error (.transaction index tx.hash error)

/-- The outcome of executing a block on its parent. -/
def execute (parent : Header) (block : Block) (wantWitness : Bool) :
    Except ChainError ExecutionOutcome :=
  match Session.begin parent (.ofHeader block.header) with
  | .error .overflow => .error .overflow
  | .error error => .error (.execution error)
  | .ok session => do
    let session ← applyTransactions session 0 block.transactions
    return session.finish (block.withdrawals.getD []) wantWitness

/-- The header says what the execution came to. -/
def checkOutcome (header : Header) (outcome : ExecutionOutcome) : Except ChainError Unit := do
  if outcome.gasUsed ≠ header.gasUsed.toNat then
    throw (.gasUsedMismatch header.gasUsed outcome.gasUsed)
  match header.blobGasUsed with
  | some blobGasUsed =>
    if outcome.blobGasUsed ≠ blobGasUsed.toNat then
      throw (.blobGasUsedMismatch blobGasUsed outcome.blobGasUsed)
  | none => pure ()
  if outcome.receiptsRoot ≠ header.receiptsRoot then
    throw (.receiptsRootMismatch header.receiptsRoot outcome.receiptsRoot)
  if outcome.stateRoot ≠ header.stateRoot then
    throw (.stateRootMismatch header.stateRoot outcome.stateRoot)

/-- The stored parent of a block, when its state is available. -/
def parentWithState (chain : Chain) (block : Block) : Except ChainError Block :=
  if chain.hasState block.parentHash then
    match chain.blockByHash? block.parentHash with
    | some parent => .ok parent
    | none => .error (.unknownAncestor block.parentHash)
  else .error (.parentStateMissing block.parentHash)

/-- Executes a block on its parent and stores it with its state, without making it the head. -/
def insert (config : ChainConfig) (chain : Chain) (block : Block) (wantWitness : Bool) :
    Except ChainError (Chain × Option Witness) := do
  let parent ← chain.parentWithState block
  validateHeader config parent.header block.header
  let outcome ← execute parent.header block wantWitness
  checkOutcome block.header outcome
  return ({ chain with
    blocks := (block.hash, block) :: chain.blocks
    withState := block.hash :: chain.withState }, outcome.witness)

/-- Whether a block of this number and hash is canonical. -/
def isCanonical (chain : Chain) (number : UInt64) (hash : Hash) : Bool :=
  chain.canonicalHash? number = some hash

/-- The blocks from a hash down to the first canonical one, and the number of that one. No walk
visits more blocks than are stored, which bounds the fuel. -/
def newBranch (chain : Chain) :
    (fuel : Nat) → Hash → Except CanonicalError (List (UInt64 × Hash) × UInt64)
  | 0, hash => .error (.missingAncestor hash)
  | fuel + 1, hash =>
    match chain.blockByHash? hash with
    | none => .error (.missingAncestor hash)
    | some block =>
      if chain.isCanonical block.number hash then .ok ([], block.number)
      else do
        let (branch, ancestor) ← chain.newBranch fuel block.parentHash
        return ((block.number, hash) :: branch, ancestor)

/-- Tells how many canonical blocks were dropped, if there were any. -/
def reorganizationLog (ancestor : UInt64) (dropped added : Nat) : List LogEntry :=
  if dropped = 0 then []
  else
    [⟨.debug, "chain reorganized (common ancestor: " ++ toString ancestor.toNat ++
      ", dropped blocks: " ++ toString dropped ++ ", added blocks: " ++ toString added ++ ")"⟩]

/-- Makes a stored block the head. The canonical chain keeps the blocks up to the last ancestor of
the new head that it holds. A failure tells the head that stays. -/
def setCanonical (chain : Chain) (hash : Hash) :
    Except CanonicalFailure (Chain × List LogEntry) :=
  match chain.blockByHash? hash with
  | none => .error ⟨chain.head.hash, .unknownBlock hash⟩
  | some head =>
    if chain.hasState hash then do
      let (branch, ancestor) ←
        (chain.newBranch (chain.blocks.length + 1) hash).mapError (⟨chain.head.hash, ·⟩)
      let kept := chain.canonical.filter fun entry => entry.1 ≤ ancestor
      let dropped := chain.canonical.length - kept.length
      return ({ chain with canonical := branch ++ kept, head },
        reorganizationLog ancestor dropped branch.length)
    else .error ⟨chain.head.hash, .stateMissing hash⟩

def setSafe (chain : Chain) (header : Header) : Chain := { chain with safe := some header }

def setFinalized (chain : Chain) (header : Header) : Chain :=
  { chain with finalized := some header }

end Chain

end EngineNode
