import EngineNode.Chain
import EngineNode.Forkchoice
import EngineNode.RecencyMap

/-!
# Chains with a bad block

The node remembers the tips of chains that build on a block which failed to import, so that it can
reject them without trying again. A bad block is forgotten after it has been hit often, in case the
failure was a passing one. Nothing of this is kept over a restart.
-/

namespace EngineNode

/-- A bad block is forgotten when it is hit this often. -/
def badBlockHitLimit : Nat := 128

/-- No tip is added by a check before there are fewer tips than this. -/
def badTipCapacity : Nat := 512

/-- The tips of bad chains. -/
structure BadChains where
  /-- How often each bad block was hit. -/
  hits : RecencyMap Hash Nat := {}
  /-- The bad ancestor of each tip. -/
  tips : RecencyMap Hash Header := {}

namespace BadChains

def hitsOf (chains : BadChains) (hash : Hash) : Nat := (chains.hits.get? hash).getD 0

/-- The chain of `origin` contains the bad block `invalid`. -/
def mark (chains : BadChains) (invalid origin : Header) : BadChains where
  hits := chains.hits.insert invalid.hash (chains.hitsOf invalid.hash + 1)
  tips := chains.tips.insert origin.hash invalid

/-- A block that failed to import is the tip of its own bad chain. -/
def recordFailure (chains : BadChains) (header : Header) : BadChains where
  hits := chains.hits.insert header.hash 1
  tips := chains.tips.insert header.hash header

/-- Forgets a bad block and all tips above it. -/
def forget (chains : BadChains) (invalid : Hash) : BadChains where
  hits := chains.hits.filter fun entry => entry.1 ≠ invalid
  tips := chains.tips.filter fun entry => entry.2.hash ≠ invalid

/-- Adds a tip above a bad block, after dropping the oldest tips if there are too many. -/
def addTip (chains : BadChains) (tip : Hash) (invalid : Header) : BadChains :=
  { chains with tips := (chains.tips.trim (badTipCapacity - 1)).insert tip invalid }

/-- The verdict on chains with a bad block. The newest valid ancestor is the parent of the bad
block; a parent from before the merge is reported as zero. -/
def rejection (chain : Chain) (invalid : Header) : PayloadStatus :=
  let parentIsPreMerge := (chain.headerByHash? invalid.parentHash).any Header.isPreMerge
  { status := .invalid
    latestValidHash := some (if parentIsPreMerge then .zero 32 else invalid.parentHash)
    validationError := some "links to previously rejected block" }

/-- Rejects the block `head` if `check`, which is itself or its parent, is the tip of a bad chain.
Then `head` becomes a tip too. -/
def check (chains : BadChains) (chain : Chain) (check head : Hash) :
    Option PayloadStatus × BadChains × List LogEntry :=
  match chains.tips.get? check with
  | none => (none, chains, [])
  | some invalid =>
    let hits := chains.hitsOf invalid.hash + 1
    if badBlockHitLimit ≤ hits then
      (none, chains.forget invalid.hash,
        [⟨.warn, "Too many bad block import attempt, trying (number: " ++
          toString invalid.number.toNat ++ ", hash: " ++ Hex.text invalid.hash.toList ++ ")"⟩])
    else
      let counted := { chains with hits := chains.hits.insert invalid.hash hits }
      if check = head then (some (rejection chain invalid), counted, [])
      else
        (some (rejection chain invalid), counted.addTip head invalid,
          [⟨.warn, "Marked new chain head as invalid (hash: " ++ Hex.text head.toList ++
            ", bad number: " ++ toString invalid.number.toNat ++ ", bad hash: " ++
            Hex.text invalid.hash.toList ++ ")"⟩])

end BadChains

end EngineNode
