import EngineNode.Header

/-!
# Settings of the builder

The operator's choices about the blocks that this node builds.
-/

namespace EngineNode

structure MinerConfig where
  /-- Earns the fees of the pending block. -/
  pendingFeeRecipient : Address := .zero 20
  extraData : Bytes := []
  /-- The wanted gas limit, where the consensus layer does not set it. -/
  gasCeil : UInt64 := 30000000
  /-- The milliseconds between two attempts to improve a payload. -/
  recommit : Nat := 2000
  /-- Builds the pending block from the pool on rollup chains too. -/
  computePendingBlock : Bool := false
  /-- Limits on the size of a transaction, and of a block, where its data is published. -/
  maxTransactionSize : Option UInt64 := none
  maxBlockSize : Option UInt64 := none
deriving DecidableEq

namespace MinerConfig

/-- Sets the extra data, or says how long it is if that is too long. -/
def setExtraData (miner : MinerConfig) (extraData : Bytes) : Except Nat MinerConfig :=
  if maximumExtraDataSize < extraData.length then .error extraData.length
  else .ok { miner with extraData }

/-- Sets the limits on sizes; zero stands for none. -/
def setMaxSizes (miner : MinerConfig) (transaction block : UInt64) : MinerConfig :=
  { miner with
    maxTransactionSize := if transaction = 0 then none else some transaction
    maxBlockSize := if block = 0 then none else some block }

end MinerConfig

/-- The complaint about extra data that is too long. -/
def extraDataTooLong (length : Nat) : String :=
  "extra exceeds max length. " ++ toString length ++ " > " ++ toString maximumExtraDataSize

end EngineNode
