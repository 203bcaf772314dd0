import EngineNode.Trie

/-!
# Withdrawals

Payments from the consensus layer to accounts of the execution layer.
-/

namespace EngineNode

/-- A payment of `amount` Gwei to an account. -/
structure Withdrawal where
  index : UInt64
  validatorIndex : UInt64
  address : Address
  amount : UInt64
deriving DecidableEq

namespace Withdrawal

/-- The encoding that withdrawal roots commit to. -/
def encode (w : Withdrawal) : Bytes :=
  Rlp.encodeList (Rlp.encodeNat w.index.toNat ++ Rlp.encodeNat w.validatorIndex.toNat ++
    Rlp.encodeFixed w.address ++ Rlp.encodeNat w.amount.toNat)

/-- Reads the fields of a withdrawal in their order. -/
def decodeContents : Rlp.Decoder Withdrawal := do
  let index ← Rlp.decodeUInt64
  let validatorIndex ← Rlp.decodeUInt64
  let address ← Rlp.decodeFixed 20
  let amount ← Rlp.decodeUInt64
  return { index, validatorIndex, address, amount }

/-- Reads a withdrawal off the front of a byte string. -/
def decode : Rlp.Decoder Withdrawal := Rlp.decodeFields decodeContents .unexpectedLength

/-- The root that commits to a list of withdrawals. -/
def root (withdrawals : List Withdrawal) : Hash := Trie.listRoot (withdrawals.map encode)

end Withdrawal

end EngineNode
