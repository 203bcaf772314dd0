import EngineNode.Header
import EngineNode.Transaction
import EngineNode.Withdrawal

/-!
# Blocks

A header with its transactions and, since Shanghai, its withdrawals.
-/

namespace EngineNode

/-- What a header commits to. -/
structure Body where
  transactions : List Transaction := []
  withdrawals : Option (List Withdrawal) := none
deriving DecidableEq

structure Block where
  header : Header
  body : Body
deriving DecidableEq

namespace Block

/-- A block is named by the hash of its header. -/
def hash (b : Block) : Hash := b.header.hash

def number (b : Block) : UInt64 := b.header.number

def parentHash (b : Block) : Hash := b.header.parentHash

def timestamp (b : Block) : UInt64 := b.header.timestamp

def transactions (b : Block) : List Transaction := b.body.transactions

def withdrawals (b : Block) : Option (List Withdrawal) := b.body.withdrawals

end Block

end EngineNode
