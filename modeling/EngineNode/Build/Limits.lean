import EngineNode.Execution

/-!
# Limits of the next block

How far the gas limit of a block may be from that of its parent, and how much blob gas is carried
over from block to block. Both have no value when a sum leaves 64 bits.
-/

namespace EngineNode

/-- No gas limit is chosen below this one. -/
def minimumGasLimit : Nat := 5000

/-- By how much the gas limit may change after a block with this limit: less than 1/1024 of it. -/
def gasLimitStep (parent : Nat) : Nat := parent / 1024 - 1

/-- The gas limit of the block after one with the limit `parent`, moved towards `desired`. -/
def nextGasLimit (parent desired : UInt64) : Option UInt64 :=
  let limit := parent.toNat
  let target := max desired.toNat minimumGasLimit
  let step := gasLimitStep limit
  if limit < target then
    if limit + step < UInt64.size then some (UInt64.ofNat (min (limit + step) target)) else none
  else some (UInt64.ofNat (max (limit - step) target))

/-- The blob gas that a block may use for free: that of three blobs. -/
def blobGasTarget : Nat := 3 * gasPerBlob

/-- The blob gas beyond the target that has piled up before the block after `parent`. -/
def nextExcessBlobGas (parent : Header) : Option UInt64 :=
  let total := (parent.excessBlobGas.getD 0).toNat + (parent.blobGasUsed.getD 0).toNat
  if total < UInt64.size then some (UInt64.ofNat (total - blobGasTarget)) else none

end EngineNode
