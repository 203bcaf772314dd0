import EngineNode.Block
import EngineNode.Witness

/-!
# Execution of blocks

The state of the development chain is a hash over what was applied to it: the state root of a block
commits to the root of its parent, the fee recipient, the gas used, the transactions and the
withdrawals. A transaction costs a base amount and an amount for each of its bytes.

A `Session` applies transactions one after another; one that is refused leaves it as it was.
-/

namespace EngineNode

/-- The gas of one blob. -/
def gasPerBlob : Nat := 131072

/-- Blocks hold at most six blobs. -/
def maxBlobGas : Nat := 6 * gasPerBlob

/-- The gas that every transaction costs. -/
def transactionBaseGas : Nat := 21000

def gasPerByte : Nat := 16

/-- The message of an error with the message of its cause behind it. -/
def TransactionError.messageWithCause : TransactionError → String
  | .rlp error => (TransactionError.rlp error).message ++ ": " ++ error.message
  | error => error.message

/-- Why transactions or blocks cannot be executed. -/
inductive ExecutionError where
  | numberMismatch (number parent : UInt64)
  | gasLimitReached (used gas limit : Nat)
  | transaction (error : TransactionError)
  | blobLimitReached
  | missingParentHeader (hash : Hash)
  | missingStateNode (root : Hash)
  /-- A number left its 64 bits. -/
  | overflow
deriving DecidableEq

def ExecutionError.message : ExecutionError → String
  | .numberMismatch number parent =>
    "block number " ++ toString number.toNat ++ " does not follow parent " ++
      toString parent.toNat
  | .gasLimitReached used gas limit =>
    "gas limit reached (used: " ++ toString used ++ ", transaction: " ++ toString gas ++
      ", limit: " ++ toString limit ++ ")"
  | .transaction error => error.messageWithCause
  | .blobLimitReached => "max data blobs reached"
  | .missingParentHeader hash =>
    "missing parent header " ++ Hex.text hash.toList ++ " in witness"
  | .missingStateNode root =>
    "missing state node for root " ++ Hex.text root.toList ++ " in witness"
  | .overflow => "arithmetic overflow"

/-- What is known about a block before its transactions are applied. -/
structure BlockEnv where
  number : UInt64
  feeRecipient : Address
  gasLimit : UInt64
deriving DecidableEq

def BlockEnv.ofHeader (h : Header) : BlockEnv := ⟨h.number, h.feeRecipient, h.gasLimit⟩

/-- The number behind another one, while there is one. -/
def nextNumber? (n : UInt64) : Option UInt64 :=
  if n.toNat + 1 < UInt64.size then some (n + 1) else none

/-- Transactions being applied on top of a parent. -/
structure Session where
  parent : Header
  env : BlockEnv
  gasUsed : Nat := 0
  blobGasUsed : Nat := 0
  fees : Nat := 0
  transactionHashes : List Hash := []
  receipts : List Bytes := []

/-- What the execution of a block comes to. -/
structure ExecutionOutcome where
  stateRoot : Hash
  receiptsRoot : Hash
  logsBloom : Bloom
  gasUsed : Nat
  blobGasUsed : Nat
  /-- What the fee recipient earns. -/
  fees : Nat
  witness : Option Witness
deriving DecidableEq

namespace Session

/-- Opens a session for the block that follows the parent. -/
def begin (parent : Header) (env : BlockEnv) : Except ExecutionError Session :=
  match nextNumber? parent.number with
  | none => .error .overflow
  | some next =>
    if env.number = next then .ok { parent, env }
    else .error (.numberMismatch env.number parent.number)

/-- The gas that a transaction costs. -/
def transactionGas (tx : Transaction) : Nat := transactionBaseGas + gasPerByte * tx.bytes.length

/-- The receipt of a transaction: its success and the gas that the block has used with it. -/
def receipt (tx : Transaction) (cumulativeGas : Nat) : Bytes :=
  (if tx.type = .legacy then [] else [tx.type.toByte]) ++
    Rlp.encodeList (Rlp.encodeNat 1 ++ Rlp.encodeNat cumulativeGas)

/-- Applies a transaction, if there is room for its gas and its blobs. -/
def apply (s : Session) (tx : Transaction) : Except ExecutionError Session := do
  let gas := transactionGas tx
  if s.env.gasLimit.toNat < s.gasUsed + gas then
    throw (.gasLimitReached s.gasUsed gas s.env.gasLimit.toNat)
  match tx.blobVersionedHashes with
  | .error error => throw (.transaction error)
  | .ok hashes =>
    let blobGas := gasPerBlob * hashes.length
    if maxBlobGas < s.blobGasUsed + blobGas then throw .blobLimitReached
    return { s with
      gasUsed := s.gasUsed + gas
      blobGasUsed := s.blobGasUsed + blobGas
      fees := if tx.isDeposit then s.fees else s.fees + gas
      transactionHashes := s.transactionHashes ++ [tx.hash]
      receipts := s.receipts ++ [receipt tx (s.gasUsed + gas)] }

/-- Applies transactions in order and stops at the first that is refused. -/
def applyAll (s : Session) (transactions : List Transaction) : Except ExecutionError Session :=
  transactions.foldlM apply s

/-- The root that commits to all that was applied. -/
def stateRoot (s : Session) (withdrawals : List Withdrawal) : Hash :=
  keccak256 (s.parent.stateRoot.toList ++ s.env.feeRecipient.toList ++
    Bytes.ofNatPadded 8 s.gasUsed ++ s.transactionHashes.flatMap FixedBytes.toList ++
    withdrawals.flatMap Withdrawal.encode)

/-- The witness of a session: the parent and the root of its state. -/
def witness (s : Session) : Witness where
  headers := [s.parent]
  state := [s.parent.stateRoot.toList]

/-- Ends a session. -/
def finish (s : Session) (withdrawals : List Withdrawal) (wantWitness : Bool) :
    ExecutionOutcome where
  stateRoot := s.stateRoot withdrawals
  receiptsRoot := Trie.listRoot s.receipts
  logsBloom := .zero 256
  gasUsed := s.gasUsed
  blobGasUsed := s.blobGasUsed
  fees := s.fees
  witness := if wantWitness then some s.witness else none

end Session

/-- The roots that a stateless execution comes to. -/
structure StatelessOutcome where
  stateRoot : Hash
  receiptsRoot : Hash
deriving DecidableEq

/-- Executes a block from a witness alone. -/
def executeStateless (block : Block) (witness : Witness) :
    Except ExecutionError StatelessOutcome := do
  match witness.headers.find? fun h => h.hash = block.parentHash with
  | none => throw (.missingParentHeader block.parentHash)
  | some parent =>
    unless witness.state.any fun node => node = parent.stateRoot.toList do
      throw (.missingStateNode parent.stateRoot)
    let session ← Session.begin parent (.ofHeader block.header)
    let session ← session.applyAll block.transactions
    let outcome := session.finish (block.withdrawals.getD []) false
    return ⟨outcome.stateRoot, outcome.receiptsRoot⟩

end EngineNode
