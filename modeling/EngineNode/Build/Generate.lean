import EngineNode.Build.Args
import EngineNode.Build.Limits
import EngineNode.Build.MinerConfig
import EngineNode.Chain
import EngineNode.Features
import EngineNode.TxPool

/-!
# Generating a block

A block is generated by running its transactions on the parent and writing down what they come to.
First come the transactions that the plan demands, each of which must succeed, then those of the
pool that fit; the ones that do not are left out.
-/

namespace EngineNode

/-- What a block shall contain. -/
structure BlockPlan where
  parent : Header
  timestamp : UInt64
  feeRecipient : Address
  random : Hash
  withdrawals : Option (List Withdrawal)
  beaconRoot : Option Hash
  transactions : List Transaction
  gasLimit : Option UInt64
  feeParams : Option Bytes
  wantWitness : Bool
deriving DecidableEq

/-- The plan of the arguments on top of their parent. -/
def BuildArgs.plan (args : BuildArgs) (parent : Header) (wantWitness : Bool) : BlockPlan where
  parent := parent
  timestamp := args.timestamp
  feeRecipient := args.feeRecipient
  random := args.random
  withdrawals := args.withdrawals
  beaconRoot := args.beaconRoot
  transactions := args.transactions
  gasLimit := args.gasLimit
  feeParams := args.feeParams
  wantWitness := wantWitness

/-- Why a block cannot be generated. -/
inductive BuildError where
  | missingParent (parent : Hash)
  | missingParentState (parent : Hash)
  | invalidTimestamp (parent given : UInt64)
  | missingGasLimit
  | missingFeeParams
  | invalidFeeParams (error : FeeParamsError)
  | unexpectedFeeParams
  | missingWithdrawals
  | execution (error : ExecutionError)
  | demandedTransaction (hash : Hash) (type : TransactionType) (error : ExecutionError)
  /-- A number left its fixed width. -/
  | overflow
deriving DecidableEq

def BuildError.message : BuildError → String
  | .missingParent parent => "missing parent " ++ Hex.text parent.toList
  | .missingParentState parent => "missing state of parent " ++ Hex.text parent.toList
  | .invalidTimestamp parent given =>
    "invalid timestamp, parent " ++ toString parent.toNat ++ " given " ++ toString given.toNat
  | .missingGasLimit => "missing gas limit in payload attributes"
  | .missingFeeParams => "expected eip1559 params, got none"
  | .invalidFeeParams error => error.message
  | .unexpectedFeeParams => "got eip1559 params, expected none"
  | .missingWithdrawals => "missing withdrawals post-shanghai"
  | .execution error => error.message
  | .demandedTransaction hash type error =>
    "failed to force-include tx: " ++ Hex.text hash.toList ++ " type: " ++
      toString type.toByte.toNat ++ ": " ++ error.message
  | .overflow => "arithmetic overflow"

/-- A generated block and what goes beside it. -/
structure BuiltBlock where
  block : Block
  fees : Nat
  blobsBundle : Option BlobsBundle
  executionRequests : Option (List Bytes)
  witness : Option Witness
deriving DecidableEq

/-- The form in which a built block is handed out. -/
def BuiltBlock.envelope (config : ChainConfig) (built : BuiltBlock) : Envelope :=
  .ofBlock config built.block (BitVec.ofNat 256 built.fees) built.blobsBundle
    built.executionRequests (built.witness.map Witness.encode)

/-- What blocks are generated from, next to the plan. -/
structure Generator where
  config : ChainConfig
  miner : MinerConfig
  pool : TxPool
  /-- Logs the transactions of the pool that are left out because they fail. -/
  logSkipped : Bool

namespace Generator

/-- The gas limit of the plan; without one, that of the parent moved towards the wanted one. Rollup
chains demand it. -/
def gasLimit (g : Generator) (plan : BlockPlan) : Except BuildError UInt64 :=
  match plan.gasLimit with
  | some gasLimit => .ok gasLimit
  | none =>
    if g.config.isRollup then .error .missingGasLimit
    else
      match nextGasLimit plan.parent.gasLimit g.miner.gasCeil with
      | some gasLimit => .ok gasLimit
      | none => .error .overflow

/-- The extra data of the operator, or since Holocene the fee parameters of the plan. -/
def extraData (g : Generator) (plan : BlockPlan) : Except BuildError Bytes :=
  if g.config.isHolocene plan.timestamp then
    match plan.feeParams with
    | none => .error .missingFeeParams
    | some params =>
      match FeeParams.validate params with
      | .error error => .error (.invalidFeeParams error)
      | .ok _ =>
        .ok ((FeeParams.decode params).orChainDefaults g.config plan.timestamp).encodeExtraData
  else if plan.feeParams.isSome then .error .unexpectedFeeParams
  else .ok g.miner.extraData

/-- The fields of the header that are known before anything is executed. -/
def openHeader (g : Generator) (plan : BlockPlan) : Except BuildError Header := do
  unless plan.parent.timestamp < plan.timestamp do
    throw (.invalidTimestamp plan.parent.timestamp plan.timestamp)
  let gasLimit ← g.gasLimit plan
  let extraData ← g.extraData plan
  if g.config.isShanghai plan.timestamp ∧ plan.withdrawals.isNone then throw .missingWithdrawals
  match nextNumber? plan.parent.number, nextBaseFee g.config plan.parent plan.timestamp,
      nextExcessBlobGas plan.parent with
  | some number, some baseFee, excess =>
    let cancun := g.config.isCancun plan.timestamp
    if cancun ∧ excess.isNone then throw .overflow
    return {
      parentHash := plan.parent.hash
      feeRecipient := plan.feeRecipient
      number
      gasLimit
      timestamp := plan.timestamp
      extraData
      mixHash := plan.random
      baseFeePerGas := some baseFee
      excessBlobGas := if cancun then excess else none
      parentBeaconBlockRoot := if cancun then some (plan.beaconRoot.getD (.zero 32)) else none }
  | _, _, _ => throw .overflow

/-- Applies the transactions that the plan demands. -/
def applyDemanded (session : Session) : List Transaction → Except BuildError Session
  | [] => .ok session
  | tx :: rest =>
    match session.apply tx with
    | .ok session => applyDemanded session rest
    | .error error => .error (.demandedTransaction tx.hash tx.type error)

/-- A block being filled from the pool. -/
structure Filling where
  session : Session
  included : List Transaction
  dataSize : Nat
  logs : List LogEntry := []

/-- Whether a transaction of the pool is passed over: deposits, those that are in the block, and
those that are too large. -/
def passesOver (g : Generator) (f : Filling) (tx : Transaction) : Bool :=
  tx.isDeposit || f.included.contains tx ||
    g.miner.maxTransactionSize.any (·.toNat < tx.dataSize) ||
    g.miner.maxBlockSize.any (·.toNat < f.dataSize + tx.dataSize)

/-- Adds the transactions that fit, until there is no gas left for even the smallest. -/
def fill (g : Generator) (gasLimit : UInt64) (f : Filling) : List Transaction → Filling
  | [] => f
  | tx :: rest =>
    if gasLimit.toNat < f.session.gasUsed + transactionBaseGas then
      { f with logs := f.logs ++ [⟨.debug, "not enough gas for further transactions (gas limit: " ++
          toString gasLimit.toNat ++ ")"⟩] }
    else if g.passesOver f tx then g.fill gasLimit f rest
    else
      match f.session.apply tx with
      | .ok session =>
        g.fill gasLimit { f with
          session
          included := f.included ++ [tx]
          dataSize := f.dataSize + tx.dataSize } rest
      | .error error =>
        if g.logSkipped then
          g.fill gasLimit { f with logs := f.logs ++ [Feature.debugPayloadBuilder.entry
            ("skipping transaction " ++ Hex.text tx.hash.toList ++ ": " ++ error.message)] } rest
        else g.fill gasLimit f rest

/-- Writes what the transactions came to into the header. -/
def close (g : Generator) (plan : BlockPlan) (header : Header) (f : Filling) : BuiltBlock :=
  let shanghai := g.config.isShanghai plan.timestamp
  let cancun := g.config.isCancun plan.timestamp
  let prague := g.config.isPrague plan.timestamp
  let withdrawals := if shanghai then plan.withdrawals.getD [] else []
  let outcome := f.session.finish withdrawals plan.wantWitness
  let requests : Option (List Bytes) := if prague then some [] else none
  { block := {
      header := { header with
        stateRoot := outcome.stateRoot
        receiptsRoot := outcome.receiptsRoot
        logsBloom := outcome.logsBloom
        gasUsed := UInt64.ofNat outcome.gasUsed
        transactionsRoot := Transaction.root f.included
        withdrawalsRoot := if shanghai then some (Withdrawal.root withdrawals) else none
        blobGasUsed := if cancun then some (UInt64.ofNat outcome.blobGasUsed) else none
        requestsHash := requests.map Requests.hash }
      body := {
        transactions := f.included
        withdrawals := if shanghai then some withdrawals else none } }
    fees := outcome.fees
    blobsBundle := if cancun then some {} else none
    executionRequests := requests
    witness := outcome.witness }

/-- The block of a plan, with transactions of the pool if they are wanted, and what was logged on
the way. -/
def generate (g : Generator) (plan : BlockPlan) (usePool : Bool) :
    Except BuildError (BuiltBlock × List LogEntry) := do
  let header ← g.openHeader plan
  match Session.begin plan.parent (.ofHeader header) with
  | .error error => throw (.execution error)
  | .ok session =>
    let session ← applyDemanded session plan.transactions
    let demanded : Filling :=
      { session
        included := plan.transactions
        dataSize := plan.transactions.foldr (fun tx size => tx.dataSize + size) 0 }
    let filled := if usePool then g.fill header.gasLimit demanded g.pool.transactions else demanded
    return (g.close plan header filled, filled.logs)

end Generator

end EngineNode
