import EngineNode.Trie

/-!
# Block headers

The last six fields came with later forks and are optional. They are encoded up to the last one
that is present; an absent field before it is encoded as zero.
-/

namespace EngineNode

/-- Headers may carry at most this many bytes of extra data. -/
def maximumExtraDataSize : Nat := 32

/-- The hash of an empty list, which stands in place of ommers after the merge. -/
def emptyOmmersHash : Hash := keccak256 (Rlp.encodeList [])

/-- The hash of an empty byte string. -/
def emptyHash : Hash := keccak256 []

/-- The root of a trie that holds nothing. -/
def emptyRoot : Hash := Trie.listRoot []

/-- The header of a block of the execution layer. -/
structure Header where
  parentHash : Hash := .zero 32
  ommersHash : Hash := emptyOmmersHash
  feeRecipient : Address := .zero 20
  stateRoot : Hash := .zero 32
  transactionsRoot : Hash := .zero 32
  receiptsRoot : Hash := .zero 32
  logsBloom : Bloom := .zero 256
  difficulty : U256 := 0
  number : UInt64 := 0
  gasLimit : UInt64 := 0
  gasUsed : UInt64 := 0
  timestamp : UInt64 := 0
  extraData : Bytes := []
  mixHash : Hash := .zero 32
  nonce : FixedBytes 8 := .zero 8
  baseFeePerGas : Option U256 := none
  withdrawalsRoot : Option Hash := none
  blobGasUsed : Option UInt64 := none
  excessBlobGas : Option UInt64 := none
  parentBeaconBlockRoot : Option Hash := none
  requestsHash : Option Hash := none
deriving DecidableEq

namespace Header

/-- Headers that carry a difficulty belong to the proof-of-work part of the chain. -/
def isPreMerge (h : Header) : Bool := h.difficulty ≠ 0

/-- The fields that every header has, encoded one after another. -/
def encodeRequired (h : Header) : Bytes :=
  Rlp.encodeFixed h.parentHash ++ Rlp.encodeFixed h.ommersHash ++
    Rlp.encodeFixed h.feeRecipient ++ Rlp.encodeFixed h.stateRoot ++
    Rlp.encodeFixed h.transactionsRoot ++ Rlp.encodeFixed h.receiptsRoot ++
    Rlp.encodeFixed h.logsBloom ++ Rlp.encodeNat h.difficulty.toNat ++
    Rlp.encodeNat h.number.toNat ++ Rlp.encodeNat h.gasLimit.toNat ++
    Rlp.encodeNat h.gasUsed.toNat ++ Rlp.encodeNat h.timestamp.toNat ++
    Rlp.encodeString h.extraData ++ Rlp.encodeFixed h.mixHash ++ Rlp.encodeFixed h.nonce

/-- The fields that later forks added, each with the encoding of its absence before a present
one. -/
def optionalFields (h : Header) : List (Option Bytes × Bytes) :=
  let zeroNumber := Rlp.encodeNat 0
  let zeroHash := Rlp.encodeFixed (.zero 32)
  [ (h.baseFeePerGas.map fun fee => Rlp.encodeNat fee.toNat, zeroNumber),
    (h.withdrawalsRoot.map Rlp.encodeFixed, zeroHash),
    (h.blobGasUsed.map fun gas => Rlp.encodeNat gas.toNat, zeroNumber),
    (h.excessBlobGas.map fun gas => Rlp.encodeNat gas.toNat, zeroNumber),
    (h.parentBeaconBlockRoot.map Rlp.encodeFixed, zeroHash),
    (h.requestsHash.map Rlp.encodeFixed, zeroHash) ]

/-- The encoding that is hashed. -/
def encode (h : Header) : Bytes :=
  Rlp.encodeList (h.encodeRequired ++ Rlp.encodeOptionalFields h.optionalFields)

/-- The hash that names the block. -/
def hash (h : Header) : Hash := keccak256 h.encode

/-- Reads the fields of a header in their order. -/
def decodeContents : Rlp.Decoder Header := do
  let parentHash ← Rlp.decodeFixed 32
  let ommersHash ← Rlp.decodeFixed 32
  let feeRecipient ← Rlp.decodeFixed 20
  let stateRoot ← Rlp.decodeFixed 32
  let transactionsRoot ← Rlp.decodeFixed 32
  let receiptsRoot ← Rlp.decodeFixed 32
  let logsBloom ← Rlp.decodeFixed 256
  let difficulty ← Rlp.decodeU256
  let number ← Rlp.decodeUInt64
  let gasLimit ← Rlp.decodeUInt64
  let gasUsed ← Rlp.decodeUInt64
  let timestamp ← Rlp.decodeUInt64
  let extraData ← Rlp.decodeString
  let mixHash ← Rlp.decodeFixed 32
  let nonce ← Rlp.decodeFixed 8
  let baseFeePerGas ← Rlp.decodeOptional Rlp.decodeU256
  let withdrawalsRoot ← Rlp.decodeOptional (Rlp.decodeFixed 32)
  let blobGasUsed ← Rlp.decodeOptional Rlp.decodeUInt64
  let excessBlobGas ← Rlp.decodeOptional Rlp.decodeUInt64
  let parentBeaconBlockRoot ← Rlp.decodeOptional (Rlp.decodeFixed 32)
  let requestsHash ← Rlp.decodeOptional (Rlp.decodeFixed 32)
  return ⟨parentHash, ommersHash, feeRecipient, stateRoot, transactionsRoot, receiptsRoot,
    logsBloom, difficulty, number, gasLimit, gasUsed, timestamp, extraData, mixHash, nonce,
    baseFeePerGas, withdrawalsRoot, blobGasUsed, excessBlobGas, parentBeaconBlockRoot,
    requestsHash⟩

/-- Reads a header off the front of a byte string. -/
def decode : Rlp.Decoder Header := Rlp.decodeFields decodeContents .trailingHeaderFields

end Header

end EngineNode
