import EngineNode.Payload.Basic
import EngineNode.Transaction

/-!
# The transaction pool

Transactions wait in the order in which they came, and stay after they have been included.
-/

namespace EngineNode

structure TxPool where
  transactions : List Transaction := []
  blobs : List (Hash × BlobAndProof) := []
deriving DecidableEq

namespace TxPool

def add (pool : TxPool) (tx : Transaction) : TxPool :=
  { pool with transactions := pool.transactions ++ [tx] }

/-- Adds a blob under its hash, in place of one that was there. -/
def addBlob (pool : TxPool) (hash : Hash) (blob : BlobAndProof) : TxPool :=
  { pool with blobs := (hash, blob) :: pool.blobs }

/-- Forgets the transactions, but no blobs. -/
def clear (pool : TxPool) : TxPool := { pool with transactions := [] }

/-- The blobs of some hashes, in their order. -/
def blobsOf (pool : TxPool) (hashes : List Hash) : List (Option BlobAndProof) :=
  hashes.map fun hash => pool.blobs.lookup hash

end TxPool

end EngineNode
