import EngineNode.Header

/-!
# Execution witnesses

What is needed to execute a block without the state of its parent: the headers of ancestors, the
parent first, the contract codes and the nodes of the state trie.
-/

namespace EngineNode

/-- The state that the execution of one block touches. -/
structure Witness where
  headers : List Header := []
  codes : List Bytes := []
  state : List Bytes := []
deriving DecidableEq

namespace Witness

/-- The header of the block's parent. -/
def parentHeader? (w : Witness) : Option Header := w.headers.head?

/-- The list of an encoding for each item. -/
def encodeListOf {α : Type} (encodeItem : α → Bytes) (items : List α) : Bytes :=
  Rlp.encodeList (items.flatMap encodeItem)

def encode (w : Witness) : Bytes :=
  Rlp.encodeList (encodeListOf Header.encode w.headers ++ encodeListOf Rlp.encodeString w.codes ++
    encodeListOf Rlp.encodeString w.state)

/-- Reads the three lists in their order. -/
def decodeContents : Rlp.Decoder Witness := do
  let headers ← Rlp.decodeListOf Header.decode
  let codes ← Rlp.decodeListOf Rlp.decodeString
  let state ← Rlp.decodeListOf Rlp.decodeString
  return { headers, codes, state }

/-- Reads a witness that is the whole of a byte string. -/
def decode (bytes : Bytes) : Except Rlp.Error Witness := do
  let (witness, rest) ← (Rlp.decodeFields decodeContents .unexpectedLength).run bytes
  unless rest.isEmpty do throw .trailingWitnessBytes
  return witness

end Witness

end EngineNode
