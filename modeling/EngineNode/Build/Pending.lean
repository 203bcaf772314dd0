import EngineNode.Build.Generate

/-!
# The pending block

The block that the node would build next for itself. Rollup nodes serve their head in its place
unless they are told to build.
-/

namespace EngineNode

namespace Generator

/-- The plan of the pending block on a head, at a time not before the next one that is possible. -/
def pendingPlan (g : Generator) (head : Header) (now : UInt64) : Option BlockPlan :=
  (nextNumber? head.timestamp).map fun next =>
    let timestamp := max now next
    { parent := head
      timestamp
      feeRecipient := g.miner.pendingFeeRecipient
      random := .zero 32
      withdrawals := if g.config.isShanghai timestamp then some [] else none
      beaconRoot := none
      transactions := []
      gasLimit := if g.config.isRollup then some head.gasLimit else none
      feeParams := if g.config.isHolocene timestamp then some ({} : FeeParams).encode else none
      wantWitness := false }

/-- The pending block, given the one served last, and what was logged. A block that was built is
served again until the head changes. -/
def pending (g : Generator) (chain : Chain) (last : Option Block) (now : UInt64) :
    Except BuildError (Option Block × Option Block × List LogEntry) :=
  let head := chain.currentHeader
  if g.config.isRollup ∧ ¬ g.miner.computePendingBlock then
    .ok (chain.blockByHash? head.hash, last, [])
  else
    match last.filter (·.parentHash = head.hash) with
    | some block => .ok (some block, last, [])
    | none =>
      match g.pendingPlan head now with
      | none => .error .overflow
      | some plan => do
        let (built, logs) ← g.generate plan true
        return (some built.block, some built.block, logs)

end Generator

end EngineNode
