import EngineNode.Proofs.BaseFee
import EngineNode.Proofs.Chain.Insert
import EngineNode.Proofs.Payload.Slices
import Mathlib.Tactic.Ring

/-!
Execution in machine words.

A machine counts gas and blob gas in 64 bits and fees in 256, and it stops where a count leaves its
word. Executing a block from a witness does so in two ways: the parent has the last number there
is, or the block is so large that its gas cannot be counted.

* `Session.applyChecked_agrees`, `Session.Room.step`: a step that has room agrees with the plain
  one, and leaves the room that the others need (`Session.Room`).
* `Session.applyAllChecked_agrees`: so do all steps together.
* `executeStatelessChecked_agrees`, `executeStatelessChecked_stops`: what an execution from a
  witness comes to, with a parent of the last number (`Block.FollowsLast`) or without.
-/

namespace EngineNode

open Checked

namespace Session

/-- Opens a session for the block that follows the parent. -/
def beginChecked (parent : Header) (env : BlockEnv) : ExceptT ExecutionError Option Session := do
  let next ← fits? UInt64.size (parent.number.toNat + 1)
  if env.number.toNat = next then return { parent, env }
  else throw (.numberMismatch env.number parent.number)

/-- Applies a transaction, with every product and every sum kept to its word. -/
def applyChecked (s : Session) (tx : Transaction) : ExceptT ExecutionError Option Session := do
  let byteGas ← fits? UInt64.size (gasPerByte * tx.bytes.length)
  let gas ← fits? UInt64.size (transactionBaseGas + byteGas)
  let gasUsed ← fits? UInt64.size (s.gasUsed + gas)
  if s.env.gasLimit.toNat < gasUsed then
    throw (.gasLimitReached s.gasUsed gas s.env.gasLimit.toNat)
  match ← tx.blobVersionedHashesChecked.run with
  | .error error => throw (.transaction error)
  | .ok hashes =>
    let blobGas ← fits? UInt64.size (gasPerBlob * hashes.length)
    let blobGasUsed ← fits? UInt64.size (s.blobGasUsed + blobGas)
    if maxBlobGas < blobGasUsed then throw .blobLimitReached
    let fees ← fits? U256.size (if tx.isDeposit then s.fees else s.fees + gas)
    return { s with
      gasUsed
      blobGasUsed
      fees
      transactionHashes := s.transactionHashes ++ [tx.hash]
      receipts := s.receipts ++ [receipt tx gasUsed] }

/-- Applies transactions in order and stops at the first that is refused. -/
def applyAllChecked (s : Session) (transactions : List Transaction) :
    ExceptT ExecutionError Option Session :=
  transactions.foldlM applyChecked s

/-- The blob gas of a transaction, within the limit on a block or not, can be counted. -/
def BlobRoom (tx : Transaction) : Prop :=
  ∀ hashes, tx.blobVersionedHashes = .ok hashes →
    maxBlobGas + gasPerBlob * hashes.length < UInt64.size

/-- There is room in 64 bits for the gas of some transactions on top of what a session has used. -/
structure Room (s : Session) (transactions : List Transaction) : Prop where
  gas : s.gasUsed + (transactions.map transactionGas).sum < UInt64.size
  blobs : ∀ tx ∈ transactions, BlobRoom tx
  blobGasUsed : s.blobGasUsed ≤ maxBlobGas
  fees : s.fees ≤ s.gasUsed

variable {s s' : Session} {tx : Transaction} {rest transactions : List Transaction}

/-- A transaction that is applied takes its own room only. -/
theorem Room.step (room : s.Room (tx :: rest)) (applied : s.apply tx = .ok s') : s'.Room rest := by
  obtain ⟨hashes, -, -, bounded, rfl⟩ := apply_eq_ok applied
  refine ⟨?_, fun tx member => room.blobs tx (List.mem_cons_of_mem _ member), bounded, ?_⟩
  · have gas := room.gas
    rw [List.map_cons, List.sum_cons] at gas
    dsimp only
    omega
  · have fees := room.fees
    dsimp only
    split <;> omega

/-- **A step that has room agrees with the plain one.** -/
theorem applyChecked_agrees (room : s.Room (tx :: rest)) :
    Agrees (s.applyChecked tx) (s.apply tx) := by
  have total := room.gas
  rw [List.map_cons, List.sum_cons] at total
  have gas : transactionGas tx = transactionBaseGas + gasPerByte * tx.bytes.length := rfl
  have fees := room.fees
  unfold applyChecked apply
  refine Agrees.operation (fits?_of_lt (by omega)) ?_
  refine Agrees.operation (fits?_of_lt (by omega)) ?_
  refine Agrees.operation (fits?_of_lt (by omega)) ?_
  rw [← gas]
  dsimp only
  split
  · exact .throw _
  refine Agrees.operation tx.blobVersionedHashesChecked_agrees ?_
  cases told : tx.blobVersionedHashes with
  | error e => exact .throw _
  | ok hashes =>
      have blobs := room.blobs tx List.mem_cons_self hashes told
      have used := room.blobGasUsed
      refine Agrees.operation (fits?_of_lt (by omega)) ?_
      refine Agrees.operation (fits?_of_lt (by omega)) ?_
      dsimp only
      split
      · exact .throw _
      have wide : UInt64.size < U256.size := by decide
      refine Agrees.operation (fits?_of_lt ?_) (.pure _)
      split <;> omega

/-- **Transactions that have room are applied as if there were no end of it.** -/
theorem applyAllChecked_agrees (room : s.Room transactions) :
    Agrees (s.applyAllChecked transactions) (s.applyAll transactions) := by
  induction transactions generalizing s with
  | nil => exact .pure s
  | cons tx rest ih =>
      exact (applyChecked_agrees room).bind fun next applied => ih (room.step applied)

/-- There is no number behind the last one. -/
theorem beginChecked_stops {parent : Header} (last : parent.number.toNat + 1 = UInt64.size)
    (env : BlockEnv) : (beginChecked parent env).run = none ∧
      begin parent env = .error .overflow := by
  constructor
  · rw [beginChecked, fits?_of_le last.ge]
    rfl
  · rw [begin, nextNumber?, if_neg last.not_lt]

/-- Before the last number a session is opened or refused. -/
theorem beginChecked_agrees {parent : Header} (room : parent.number.toNat + 1 < UInt64.size)
    (env : BlockEnv) : Agrees (beginChecked parent env) (begin parent env) ∧
      begin parent env ≠ .error .overflow := by
  have next : nextNumber? parent.number = some (parent.number + 1) :=
    nextNumber?_eq_some_iff.mpr (toNat_add_one room)
  have same : env.number = parent.number + 1 ↔ env.number.toNat = parent.number.toNat + 1 := by
    rw [← toNat_add_one room, UInt64.toNat_inj]
  rw [begin, next]
  constructor
  · refine Agrees.operation (fits?_of_lt room) ?_
    simp only [same]
    split
    · exact .pure _
    · exact .throw _
  · dsimp only
    split <;> nofun

/-- The gas of transactions, from their number and their size. -/
theorem sum_transactionGas (transactions : List Transaction) :
    (transactions.map transactionGas).sum = transactionBaseGas * transactions.length +
      gasPerByte * (transactions.map fun tx => tx.bytes.length).sum := by
  induction transactions with
  | nil => rfl
  | cons tx rest ih =>
      simp only [List.map_cons, List.sum_cons, List.length_cons, ih, transactionGas]
      ring

/-- There is room for less than `2 ^ 48` transactions of less than `2 ^ 59` bytes together, if their
blobs can be counted. -/
theorem room_begin {parent : Header} {env : BlockEnv}
    (size : (transactions.map fun tx => tx.bytes.length).sum < 2 ^ 59)
    (count : transactions.length < 2 ^ 48) (blobs : ∀ tx ∈ transactions, BlobRoom tx) :
    Room { parent, env } transactions := by
  refine ⟨?_, blobs, Nat.zero_le _, Nat.le_refl _⟩
  rw [sum_transactionGas]
  simp only [transactionBaseGas, gasPerByte, UInt64.size]
  omega

theorem apply_ne_overflow : s.apply tx ≠ .error .overflow := by
  unfold apply
  by_cases gas : s.env.gasLimit.toNat < s.gasUsed + transactionGas tx
  · simp [gas]
  · cases tx.blobVersionedHashes with
    | error e => simp [gas]
    | ok hashes =>
        by_cases blobs : maxBlobGas < s.blobGasUsed + gasPerBlob * hashes.length
        · simp [gas, blobs]
        · simp [gas, blobs]

theorem applyAll_ne_overflow : s.applyAll transactions ≠ .error .overflow := by
  induction transactions generalizing s with
  | nil => nofun
  | cons tx rest ih =>
      rw [applyAll, List.foldlM_cons]
      cases applied : s.apply tx with
      | error e =>
          rw [error_bind, ← applied]
          exact apply_ne_overflow
      | ok next => exact ih

end Session

/-! ### Executions from a witness -/

/-- Executes a block from a witness alone. -/
def executeStatelessChecked (block : Block) (witness : Witness) :
    ExceptT ExecutionError Option StatelessOutcome := do
  match witness.headers.find? fun h => h.hash = block.parentHash with
  | none => throw (.missingParentHeader block.parentHash)
  | some parent =>
    unless witness.state.any fun node => node = parent.stateRoot.toList do
      throw (.missingStateNode parent.stateRoot)
    let session ← Session.beginChecked parent (.ofHeader block.header)
    let session ← session.applyAllChecked block.transactions
    let outcome := session.finish (block.withdrawals.getD []) false
    return ⟨outcome.stateRoot, ← Trie.listRootChecked? session.receipts⟩

/-- The parent that a witness has for a block is there with its state, and has the last number. -/
def Block.FollowsLast (block : Block) (witness : Witness) : Prop :=
  ∃ parent, witness.headers.find? (fun h => h.hash = block.parentHash) = some parent ∧
    parent.stateRoot.toList ∈ witness.state ∧ parent.number.toNat + 1 = UInt64.size

/-- A block is small enough for its gas to be counted: less than `2 ^ 48` transactions of less than
`2 ^ 59` bytes together, with less than `2 ^ 46` blobs in each. -/
structure Block.Countable (block : Block) : Prop where
  size : (block.transactions.map fun tx => tx.bytes.length).sum < 2 ^ 59
  count : block.transactions.length < 2 ^ 48
  blobs : ∀ tx ∈ block.transactions, ∀ hashes, tx.blobVersionedHashes = .ok hashes →
    hashes.length < 2 ^ 46

variable {block : Block} {witness : Witness}

theorem Block.Countable.room (countable : block.Countable) (parent : Header) (env : BlockEnv) :
    Session.Room { parent, env } block.transactions := by
  refine Session.room_begin countable.size countable.count ?_
  intro tx member hashes told
  have blobs := countable.blobs tx member hashes told
  simp only [maxBlobGas, gasPerBlob, UInt64.size]
  omega

/-- **An execution on the last number stops.** -/
theorem executeStatelessChecked_stops (last : block.FollowsLast witness) :
    (executeStatelessChecked block witness).run = none ∧
      executeStateless block witness = .error .overflow := by
  obtain ⟨parent, found, there, number⟩ := last
  obtain ⟨stops, overflows⟩ := Session.beginChecked_stops number (.ofHeader block.header)
  have listed : (witness.state.any fun node => node = parent.stateRoot.toList) = true := by
    simpa using there
  constructor
  · unfold executeStatelessChecked
    simp only [found, listed, if_true]
    rw [ExceptT.run_bind, stops]
    rfl
  · unfold executeStateless
    simp only [found, listed, if_true, overflows, error_bind]

/-- **Every other execution of a block that is small enough comes to an end**, and to what it would
come to without any limits. -/
theorem executeStatelessChecked_agrees (countable : block.Countable)
    (notLast : ¬ block.FollowsLast witness) :
    Agrees (executeStatelessChecked block witness) (executeStateless block witness) ∧
      executeStateless block witness ≠ .error .overflow := by
  unfold executeStatelessChecked executeStateless
  cases found : witness.headers.find? fun h => h.hash = block.parentHash with
  | none => exact ⟨.throw _, nofun⟩
  | some parent =>
      dsimp only
      cases listed : witness.state.any fun node => node = parent.stateRoot.toList with
      | false =>
          exact ⟨rfl, nofun⟩
      | true =>
          have there : parent.stateRoot.toList ∈ witness.state := by simpa using listed
          have bound : parent.number.toNat < UInt64.size := parent.number.toNat_lt
          have number : parent.number.toNat + 1 ≠ UInt64.size := fun last =>
            notLast ⟨parent, found, there, last⟩
          have room : parent.number.toNat + 1 < UInt64.size := by omega
          obtain ⟨opens, begun⟩ := Session.beginChecked_agrees room (.ofHeader block.header)
          simp only [if_true]
          constructor
          · refine opens.bind fun start opened => ?_
            obtain rfl := Session.eq_of_begin opened
            have applies := Session.applyAllChecked_agrees
              (countable.room parent (.ofHeader block.header))
            refine applies.bind fun session _ => ?_
            exact Agrees.operation (Trie.listRootChecked?_eq session.receipts) (.pure _)
          · cases opened : Session.begin parent (.ofHeader block.header) with
            | error e =>
                rw [error_bind]
                rintro ⟨⟩
                exact begun opened
            | ok start =>
                rw [ok_bind]
                cases applied : start.applyAll block.transactions with
                | error e =>
                    rw [error_bind]
                    rintro ⟨⟩
                    exact Session.applyAll_ne_overflow applied
                | ok session => nofun

end EngineNode
