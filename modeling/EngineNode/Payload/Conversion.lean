import EngineNode.Block
import EngineNode.ChainConfig
import EngineNode.Payload.Basic
import EngineNode.Requests

/-!
# Payloads and blocks

A payload leaves out what follows from it, so a block is built from a payload together with the
fields that travel beside it. The block must have the hash that the payload announces.
-/

namespace EngineNode

/-- What travels beside a payload. -/
structure Sidecar where
  versionedHashes : List Hash := []
  parentBeaconBlockRoot : Option Hash := none
  executionRequests : Option (List Bytes) := none
deriving DecidableEq

/-- Why no block can be built from a payload. -/
inductive ConversionError where
  | transaction (index : Nat) (error : TransactionError)
  | extraDataLength (length : Nat)
  | logsBloomLength (length : Nat)
  | missingBaseFee
  | versionedHashCount (given inTransactions : Nat)
  | versionedHashMismatch (index : Nat) (given inTransaction : Hash)
  | missingIsthmusWithdrawalsRoot
  | nonEmptyIsthmusWithdrawals
  | blockHashMismatch (want got : Hash)
deriving DecidableEq

/-- The digits of a hash without their mark. -/
def hashDigits (hash : Hash) : String := String.ofList (Hex.encode hash.toList)

def ConversionError.message : ConversionError → String
  | .transaction index error => "invalid transaction " ++ toString index ++ ": " ++ error.message
  | .extraDataLength length => "invalid extradata length: " ++ toString length
  | .logsBloomLength length => "invalid logsBloom length: " ++ toString length
  | .missingBaseFee => "invalid baseFeePerGas: nil"
  | .versionedHashCount given inTransactions =>
    "invalid number of versionedHashes: " ++ toString given ++ " blobHashes: " ++
      toString inTransactions
  | .versionedHashMismatch index given inTransaction =>
    "invalid versionedHash at " ++ toString index ++ ": " ++ Hex.text given.toList ++
      " blobHashes: " ++ Hex.text inTransaction.toList
  | .missingIsthmusWithdrawalsRoot => "attribute WithdrawalsRoot is required for Isthmus blocks"
  | .nonEmptyIsthmusWithdrawals => "expected non-nil empty withdrawals operation list in Isthmus"
  | .blockHashMismatch want got =>
    "blockhash mismatch, want " ++ hashDigits want ++ ", got " ++ hashDigits got

namespace Payload

/-- Decodes transactions; `index` counts those before these. -/
def decodeTransactions (index : Nat) : List Bytes → Except ConversionError (List Transaction)
  | [] => .ok []
  | bytes :: rest => do
    match Transaction.decode bytes with
    | .error error => throw (.transaction index error)
    | .ok tx => return tx :: (← decodeTransactions (index + 1) rest)

/-- The blob hashes of all transactions, in order. -/
def blobHashes (index : Nat) : List Transaction → Except ConversionError (List Hash)
  | [] => .ok []
  | tx :: rest => do
    match tx.blobVersionedHashes with
    | .error error => throw (.transaction index error)
    | .ok hashes => return hashes ++ (← blobHashes (index + 1) rest)

/-- Compares hashes pair by pair. -/
def matchVersionedHashes (index : Nat) : (inTransactions given : List Hash) →
    Except ConversionError Unit
  | a :: as, b :: bs =>
    if a = b then matchVersionedHashes (index + 1) as bs
    else .error (.versionedHashMismatch index b a)
  | _, _ => .ok ()

/-- The hashes beside the payload are those of its transactions. -/
def checkVersionedHashes (inTransactions given : List Hash) : Except ConversionError Unit :=
  if inTransactions.length = given.length then matchVersionedHashes 0 inTransactions given
  else .error (.versionedHashCount given.length inTransactions.length)

/-- Isthmus blocks carry a withdrawals root of their own and an empty list of withdrawals. -/
def checkIsthmus (p : Payload) : Except ConversionError Unit :=
  if p.withdrawalsRoot.isNone then .error .missingIsthmusWithdrawalsRoot
  else if p.withdrawals = some [] then .ok ()
  else .error .nonEmptyIsthmusWithdrawals

/-- The header of the block that a payload and its sidecar describe. -/
def header (p : Payload) (sidecar : Sidecar) (transactions : List Transaction) (baseFee : U256)
    (bloom : Bloom) : Header where
  parentHash := p.parentHash
  ommersHash := emptyOmmersHash
  feeRecipient := p.feeRecipient
  stateRoot := p.stateRoot
  transactionsRoot := Transaction.root transactions
  receiptsRoot := p.receiptsRoot
  logsBloom := bloom
  difficulty := 0
  number := p.blockNumber
  gasLimit := p.gasLimit
  gasUsed := p.gasUsed
  timestamp := p.timestamp
  extraData := p.extraData
  mixHash := p.prevRandao
  nonce := .zero 8
  baseFeePerGas := some baseFee
  withdrawalsRoot := p.withdrawalsRoot <|> p.withdrawals.map Withdrawal.root
  blobGasUsed := p.blobGasUsed
  excessBlobGas := p.excessBlobGas
  parentBeaconBlockRoot := sidecar.parentBeaconBlockRoot
  requestsHash := sidecar.executionRequests.map Requests.hash

/-- The block of a payload, whatever its hash. -/
def toBlockUnchecked (config : ChainConfig) (p : Payload) (sidecar : Sidecar) :
    Except ConversionError Block := do
  let transactions ← decodeTransactions 0 p.transactions
  if maximumExtraDataSize < p.extraData.length then throw (.extraDataLength p.extraData.length)
  match FixedBytes.ofBytes? 256 p.logsBloom with
  | none => throw (.logsBloomLength p.logsBloom.length)
  | some bloom =>
    match p.baseFeePerGas with
    | none => throw .missingBaseFee
    | some baseFee =>
      let hashes ← blobHashes 0 transactions
      checkVersionedHashes hashes sidecar.versionedHashes
      if config.isIsthmus p.timestamp then p.checkIsthmus
      return ⟨p.header sidecar transactions baseFee bloom, ⟨transactions, p.withdrawals⟩⟩

/-- The block of a payload, which has the hash that the payload announces. -/
def toBlock (config : ChainConfig) (p : Payload) (sidecar : Sidecar) :
    Except ConversionError Block := do
  let block ← p.toBlockUnchecked config sidecar
  if block.hash ≠ p.blockHash then throw (.blockHashMismatch p.blockHash block.hash)
  return block

/-- The payload of a block. The withdrawals root is only sent from Isthmus on. -/
def ofBlock (config : ChainConfig) (block : Block) : Payload where
  parentHash := block.header.parentHash
  feeRecipient := block.header.feeRecipient
  stateRoot := block.header.stateRoot
  receiptsRoot := block.header.receiptsRoot
  logsBloom := block.header.logsBloom.toList
  prevRandao := block.header.mixHash
  blockNumber := block.header.number
  gasLimit := block.header.gasLimit
  gasUsed := block.header.gasUsed
  timestamp := block.header.timestamp
  extraData := block.header.extraData
  baseFeePerGas := block.header.baseFeePerGas
  blockHash := block.hash
  transactions := block.body.transactions.map Transaction.bytes
  withdrawals := block.body.withdrawals
  blobGasUsed := block.header.blobGasUsed
  excessBlobGas := block.header.excessBlobGas
  withdrawalsRoot :=
    if config.isIsthmus block.header.timestamp then block.header.withdrawalsRoot else none

end Payload

/-- Wraps a built block. -/
def Envelope.ofBlock (config : ChainConfig) (block : Block) (blockValue : U256)
    (blobsBundle : Option BlobsBundle) (executionRequests : Option (List Bytes))
    (witness : Option Bytes) : Envelope where
  payload := Payload.ofBlock config block
  blockValue := blockValue
  blobsBundle := blobsBundle
  executionRequests := executionRequests
  shouldOverrideBuilder := false
  witness := witness
  parentBeaconBlockRoot := block.header.parentBeaconBlockRoot

/-- The body of a block; one with a withdrawals root always has a list of withdrawals. -/
def PayloadBody.ofBlock (block : Block) : PayloadBody where
  transactions := block.body.transactions.map Transaction.bytes
  withdrawals :=
    match block.body.withdrawals with
    | some withdrawals => some withdrawals
    | none => if block.header.withdrawalsRoot.isSome then some [] else none

end EngineNode
