import EngineNode.Chain
import Mathlib.Tactic.ByContra

/-!
What a chain checks before it stores a block with its state.

Insertion is a row of programs that throw. Each is read here as a predicate on headers, blocks and
outcomes, and the row as their conjunction:

* `validateHeader_eq_ok_iff`, `execute_eq_ok_iff`, `checkOutcome_eq_ok_iff`: each program succeeds
  exactly when its predicate holds.
* `insert_eq_ok_iff`: a block is stored exactly when its parent is stored with state, it follows
  the parent, and executing it on the parent comes to what its header says. Nothing but the block
  and its state is added.
* `Block.Extends`: what the block itself has to do for that.
* `Block.ExecutesTo.gasUsed_le`: an execution keeps the gas limit, so a stored block does.
-/

namespace EngineNode

/-- Two programs in a row succeed when both do. -/
theorem bind_eq_ok_iff {ε α β : Type} {x : Except ε α} {f : α → Except ε β} {b : β} :
    (x >>= f) = .ok b ↔ ∃ a, x = .ok a ∧ f a = .ok b := by
  cases x with
  | error e => exact ⟨nofun, nofun⟩
  | ok a => exact ⟨fun h => ⟨a, rfl, h⟩, fun ⟨_, h, hf⟩ => Except.ok.inj h ▸ hf⟩

theorem toOption_eq_some_iff {ε α : Type} {x : Except ε α} {a : α} :
    x.toOption = some a ↔ x = .ok a := by
  cases x <;> simp [Except.toOption]

@[simp] theorem error_bind {ε α β : Type} {e : ε} {f : α → Except ε β} :
    (.error e >>= f : Except ε β) = .error e := rfl

@[simp] theorem ok_bind {ε α β : Type} {a : α} {f : α → Except ε β} :
    (.ok a >>= f : Except ε β) = f a := rfl

@[simp] theorem throw_eq_error {ε α : Type} {e : ε} : (throw e : Except ε α) = .error e := rfl

@[simp] theorem pure_eq_ok {ε α : Type} {a : α} : (pure a : Except ε α) = .ok a := rfl

@[simp] theorem mapError_eq_ok_iff {ε ε' α : Type} {x : Except ε α} {f : ε → ε'} {a : α} :
    x.mapError f = .ok a ↔ x = .ok a := by
  cases x <;> simp [Except.mapError]

/-- A check that stands before a program is passed. -/
theorem ite_error_eq_ok_iff {ε α : Type} {c : Prop} [Decidable c] {e : ε} {x : Except ε α} {a : α} :
    (if c then .error e else x) = .ok a ↔ ¬c ∧ x = .ok a := by
  split <;> simp [*]

/-- Adding one does not wrap around while there is room. -/
theorem toNat_add_one {n : UInt64} (room : n.toNat + 1 < UInt64.size) :
    (n + 1).toNat = n.toNat + 1 := by
  rw [UInt64.toNat_add]
  exact Nat.mod_eq_of_lt room

theorem nextNumber?_eq_some_iff {n next : UInt64} :
    nextNumber? n = some next ↔ next.toNat = n.toNat + 1 := by
  unfold nextNumber?
  split
  · rename_i room
    rw [Option.some.injEq, ← toNat_add_one room]
    constructor
    · rintro rfl
      rfl
    · intro same
      exact (UInt64.toNat_inj.mp same).symm
  · rename_i full
    have bound : next.toNat < UInt64.size := next.toNat_lt
    constructor
    · nofun
    · intro same
      exact absurd (same ▸ bound) full

/-! ### Headers -/

/-- A header follows another one in number, time and base fee. -/
structure Header.Follows (header : Header) (config : ChainConfig) (parent : Header) : Prop where
  number : header.number.toNat = parent.number.toNat + 1
  timestamp : parent.timestamp < header.timestamp
  baseFee : ∃ fee, nextBaseFee config parent header.timestamp = some fee ∧
    header.baseFeePerGas = some fee

theorem Chain.validateHeader_eq_ok_iff {config : ChainConfig} {parent header : Header} :
    Chain.validateHeader config parent header = .ok () ↔ header.Follows config parent := by
  unfold Chain.validateHeader
  constructor
  · intro accepted
    cases hnext : nextNumber? parent.number with
    | none => simp [hnext] at accepted
    | some next =>
        by_cases hnumber : header.number = next
        · by_cases htime : parent.timestamp < header.timestamp
          · cases hfee : nextBaseFee config parent header.timestamp with
            | none => simp [hnext, hnumber, htime, hfee] at accepted
            | some fee =>
                by_cases hgiven : header.baseFeePerGas = some fee
                · exact ⟨hnumber ▸ nextNumber?_eq_some_iff.mp hnext, htime, fee, hfee, hgiven⟩
                · simp [hnext, hnumber, htime, hfee, hgiven] at accepted
          · simp [hnext, hnumber, htime] at accepted
        · simp [hnext, hnumber] at accepted
  · rintro ⟨number, time, fee, hfee, hgiven⟩
    simp [nextNumber?_eq_some_iff.mpr number, time, hfee, hgiven]

/-! ### Executions -/

/-- Executing a block on a parent header, transaction after transaction, ends in a session. -/
def Block.ExecutesTo (block : Block) (parent : Header) (session : Session) : Prop :=
  ∃ start, Session.begin parent (.ofHeader block.header) = .ok start ∧
    start.applyAll block.transactions = .ok session

/-- An outcome is what a header says it is. -/
structure ExecutionOutcome.Matches (outcome : ExecutionOutcome) (header : Header) : Prop where
  gasUsed : outcome.gasUsed = header.gasUsed.toNat
  blobGasUsed : ∀ gas, header.blobGasUsed = some gas → outcome.blobGasUsed = gas.toNat
  receiptsRoot : outcome.receiptsRoot = header.receiptsRoot
  stateRoot : outcome.stateRoot = header.stateRoot

/-- Counting transactions for the message of a refusal does not change which are applied. -/
theorem Chain.applyTransactions_eq_ok_iff {start session : Session} {index : Nat}
    {transactions : List Transaction} :
    Chain.applyTransactions start index transactions = .ok session ↔
      start.applyAll transactions = .ok session := by
  induction transactions generalizing start index with
  | nil => simp [Chain.applyTransactions, Session.applyAll]
  | cons tx rest ih =>
      simp only [Chain.applyTransactions, Session.applyAll, List.foldlM_cons]
      cases happly : start.apply tx with
      | ok next => exact ih
      | error e => exact ⟨nofun, nofun⟩

theorem Chain.execute_eq_ok_iff {parent : Header} {block : Block} {wantWitness : Bool}
    {outcome : ExecutionOutcome} :
    Chain.execute parent block wantWitness = .ok outcome ↔
      ∃ session, block.ExecutesTo parent session ∧
        outcome = session.finish (block.withdrawals.getD []) wantWitness := by
  unfold Chain.execute Block.ExecutesTo
  cases hbegin : Session.begin parent (.ofHeader block.header) with
  | error e => cases e <;> simp
  | ok start =>
      simp only [bind_eq_ok_iff, applyTransactions_eq_ok_iff, pure_eq_ok, Except.ok.injEq,
        exists_eq_left', eq_comm (b := outcome)]

theorem Chain.checkOutcome_eq_ok_iff {header : Header} {outcome : ExecutionOutcome} :
    Chain.checkOutcome header outcome = .ok () ↔ outcome.Matches header := by
  unfold Chain.checkOutcome
  constructor
  · intro accepted
    by_cases hgas : outcome.gasUsed = header.gasUsed.toNat
    · have hblob : ∀ gas, header.blobGasUsed = some gas → outcome.blobGasUsed = gas.toNat := by
        intro gas present
        by_contra differs
        simp [hgas, present, differs] at accepted
      by_cases hreceipts : outcome.receiptsRoot = header.receiptsRoot
      · by_cases hstate : outcome.stateRoot = header.stateRoot
        · exact ⟨hgas, hblob, hreceipts, hstate⟩
        · cases present : header.blobGasUsed <;>
            simp_all
      · cases present : header.blobGasUsed <;>
          simp_all
    · simp [hgas] at accepted
  · rintro ⟨gas, blobGas, receipts, state⟩
    cases hblob : header.blobGasUsed with
    | none => simp [gas, receipts, state]
    | some blob => simp [gas, blobGas blob hblob, receipts, state]

/-! ### Gas -/

namespace Session

/-- A session starts with nothing applied. -/
theorem eq_of_begin {parent : Header} {env : BlockEnv} {s : Session}
    (begun : Session.begin parent env = .ok s) : s = { parent, env } := by
  unfold Session.begin at begun
  split at begun
  · cases begun
  · split at begun
    · exact (Except.ok.inj begun).symm
    · cases begun

/-- What applying a transaction comes to. -/
theorem apply_eq_ok {s s' : Session} {tx : Transaction} (applied : s.apply tx = .ok s') :
    ∃ hashes, tx.blobVersionedHashes = .ok hashes ∧
      s.gasUsed + transactionGas tx ≤ s.env.gasLimit.toNat ∧
      s.blobGasUsed + gasPerBlob * hashes.length ≤ maxBlobGas ∧
      s' = { s with
        gasUsed := s.gasUsed + transactionGas tx
        blobGasUsed := s.blobGasUsed + gasPerBlob * hashes.length
        fees := if tx.isDeposit then s.fees else s.fees + transactionGas tx
        transactionHashes := s.transactionHashes ++ [tx.hash]
        receipts := s.receipts ++ [receipt tx (s.gasUsed + transactionGas tx)] } := by
  unfold apply at applied
  by_cases room : s.env.gasLimit.toNat < s.gasUsed + transactionGas tx
  · simp [room] at applied
  · cases hblobs : tx.blobVersionedHashes with
    | error e => simp [room, hblobs] at applied
    | ok hashes =>
        by_cases blobRoom : maxBlobGas < s.blobGasUsed + gasPerBlob * hashes.length
        · simp only [room, hblobs, blobRoom, if_true, if_false, throw_eq_error, error_bind,
            reduceCtorEq] at applied
        · simp only [room, hblobs, blobRoom, if_false, pure_eq_ok, Except.ok.injEq] at applied
          exact ⟨hashes, rfl, Nat.not_lt.mp room, Nat.not_lt.mp blobRoom, applied.symm⟩

/-- A transaction is applied only if its gas fits in what is left. -/
theorem gasUsed_le_of_apply {s s' : Session} {tx : Transaction} (applied : s.apply tx = .ok s') :
    s'.env = s.env ∧ s'.gasUsed ≤ s.env.gasLimit.toNat := by
  obtain ⟨_, -, room, -, rfl⟩ := apply_eq_ok applied
  exact ⟨rfl, room⟩

theorem gasUsed_le_of_applyAll {s s' : Session} {transactions : List Transaction}
    (fits : s.gasUsed ≤ s.env.gasLimit.toNat) (applied : s.applyAll transactions = .ok s') :
    s'.env = s.env ∧ s'.gasUsed ≤ s.env.gasLimit.toNat := by
  induction transactions generalizing s with
  | nil =>
      cases applied
      exact ⟨rfl, fits⟩
  | cons tx rest ih =>
      obtain ⟨next, first, others⟩ := bind_eq_ok_iff.mp applied
      obtain ⟨sameEnv, fits'⟩ := gasUsed_le_of_apply first
      rw [← sameEnv] at fits' ⊢
      exact ih fits' others

end Session

/-- An execution keeps the gas limit of its block. -/
theorem Block.ExecutesTo.gasUsed_le {block : Block} {parent : Header} {session : Session}
    (executes : block.ExecutesTo parent session) :
    session.gasUsed ≤ block.header.gasLimit.toNat := by
  obtain ⟨start, opened, applied⟩ := executes
  obtain rfl := Session.eq_of_begin opened
  exact (Session.gasUsed_le_of_applyAll (Nat.zero_le _) applied).2

/-! ### Insertion -/

/-- A chain with a block added whose state is available. -/
def Chain.withBlock (chain : Chain) (block : Block) : Chain :=
  { chain.insertWithoutState block with withState := block.hash :: chain.withState }

/-- **What insertion accepts.** -/
theorem Chain.insert_eq_ok_iff {config : ChainConfig} {chain chain' : Chain} {block : Block}
    {wantWitness : Bool} {witness : Option Witness} :
    chain.insert config block wantWitness = .ok (chain', witness) ↔
      ∃ parent session, chain.hasState block.parentHash = true ∧
        chain.blockByHash? block.parentHash = some parent ∧
        block.header.Follows config parent.header ∧ block.ExecutesTo parent.header session ∧
        (session.finish (block.withdrawals.getD []) wantWitness).Matches block.header ∧
        chain' = chain.withBlock block ∧
        witness = (session.finish (block.withdrawals.getD []) wantWitness).witness := by
  unfold Chain.insert Chain.parentWithState
  cases hstate : chain.hasState block.parentHash with
  | false => simp [bind, Except.bind]
  | true =>
      cases hparent : chain.blockByHash? block.parentHash with
      | none => simp [bind, Except.bind]
      | some parent =>
          constructor
          · intro inserted
            simp only [if_true, bind_eq_ok_iff, execute_eq_ok_iff, pure_eq_ok, Except.ok.injEq,
              Prod.mk.injEq, exists_eq_left'] at inserted
            obtain ⟨⟨⟩, valid, _, ⟨session, executes, rfl⟩, ⟨⟩, accepted, rfl, rfl⟩ := inserted
            exact ⟨parent, session, rfl, rfl, validateHeader_eq_ok_iff.mp valid, executes,
              checkOutcome_eq_ok_iff.mp accepted, rfl, rfl⟩
          · rintro ⟨_, session, -, ⟨⟩, follows, executes, agrees, rfl, rfl⟩
            simp only [if_true, bind_eq_ok_iff, execute_eq_ok_iff, pure_eq_ok, Except.ok.injEq,
              Prod.mk.injEq, exists_eq_left']
            exact ⟨(), validateHeader_eq_ok_iff.mpr follows, _, ⟨session, executes, rfl⟩, (),
              checkOutcome_eq_ok_iff.mpr agrees, rfl, rfl⟩

/-- A block extends a parent: its header follows that of the parent and says what executing the
block comes to. -/
structure Block.Extends (block : Block) (config : ChainConfig) (parent : Header) : Prop where
  follows : block.header.Follows config parent
  executes : ∃ session, block.ExecutesTo parent session ∧
    ∀ wantWitness, (session.finish (block.withdrawals.getD []) wantWitness).Matches block.header

/-- A block that extends its parent is stored, where the parent is with its state. -/
theorem Block.Extends.insert {config : ChainConfig} {chain : Chain} {block parent : Block}
    (fits : block.Extends config parent.header)
    (hasState : chain.hasState block.parentHash = true)
    (stored : chain.blockByHash? block.parentHash = some parent) (wantWitness : Bool) :
    ∃ witness, chain.insert config block wantWitness = .ok (chain.withBlock block, witness) := by
  obtain ⟨session, executes, agrees⟩ := fits.executes
  exact ⟨_, Chain.insert_eq_ok_iff.mpr ⟨parent, session, hasState, stored, fits.follows, executes,
    agrees wantWitness, rfl, rfl⟩⟩

/-- What is inserted extends its stored parent, whether or not a witness is wanted. -/
theorem Block.extends_of_insert {config : ChainConfig} {chain chain' : Chain} {block : Block}
    {wantWitness : Bool} {witness : Option Witness}
    (inserted : chain.insert config block wantWitness = .ok (chain', witness)) :
    ∃ parent, chain.blockByHash? block.parentHash = some parent ∧
      block.Extends config parent.header ∧ chain' = chain.withBlock block := by
  obtain ⟨parent, session, -, stored, follows, executes, agrees, same, -⟩ :=
    Chain.insert_eq_ok_iff.mp inserted
  exact ⟨parent, stored, ⟨follows, session, executes, fun _ =>
    ⟨agrees.gasUsed, agrees.blobGasUsed, agrees.receiptsRoot, agrees.stateRoot⟩⟩, same⟩

/-! ### Empty blocks -/

/-- The session of an empty block on top of a parent. -/
def Session.idle (parent : Block) : Session where
  parent := parent.header
  env := ⟨parent.number + 1, .zero 20, parent.header.gasLimit⟩

/-- The block at a time on top of a parent in which nothing happens. -/
def Block.emptyChild (config : ChainConfig) (parent : Block) (timestamp : UInt64) : Block where
  header := {
    parentHash := parent.hash
    stateRoot := (Session.idle parent).stateRoot []
    transactionsRoot := Transaction.root []
    receiptsRoot := Trie.listRoot []
    number := parent.number + 1
    gasLimit := parent.header.gasLimit
    timestamp
    baseFeePerGas := nextBaseFee config parent.header timestamp }
  body := {}

theorem Block.emptyChild_executesTo {config : ChainConfig} {parent : Block} {timestamp : UInt64}
    (next : (parent.number + 1).toNat = parent.number.toNat + 1) :
    (emptyChild config parent timestamp).ExecutesTo parent.header (Session.idle parent) := by
  refine ⟨Session.idle parent, ?_, rfl⟩
  unfold Session.begin
  rw [show nextNumber? parent.header.number = some (parent.number + 1) from
    nextNumber?_eq_some_iff.mpr next]
  exact if_pos rfl

/-- Every stored block with state can be built on, unless a number runs out. -/
theorem Chain.insert_emptyChild {config : ChainConfig} {chain : Chain} {parent : Block}
    {timestamp : UInt64} {wantWitness : Bool} (hasState : chain.hasState parent.hash = true)
    (stored : chain.blockByHash? parent.hash = some parent)
    (room : parent.number.toNat + 1 < UInt64.size) (later : parent.timestamp < timestamp)
    (fee : (nextBaseFee config parent.header timestamp).isSome) :
    ∃ witness, chain.insert config (.emptyChild config parent timestamp) wantWitness =
      .ok (chain.withBlock (.emptyChild config parent timestamp), witness) := by
  have next : (parent.number + 1).toNat = parent.number.toNat + 1 := toNat_add_one room
  obtain ⟨fee, hfee⟩ := Option.isSome_iff_exists.mp fee
  have agrees : ∀ wantWitness, ((Session.idle parent).finish [] wantWitness).Matches
      (Block.emptyChild config parent timestamp).header := by
    intro wantWitness
    constructor <;> simp only [Block.emptyChild, Session.finish, Session.idle] <;> simp
  have fits : (Block.emptyChild config parent timestamp).Extends config parent.header :=
    ⟨⟨next, later, fee, hfee, hfee⟩, _, Block.emptyChild_executesTo next, agrees⟩
  exact fits.insert hasState stored wantWitness

namespace Siblings

/-- A genesis block, on which two others compete. -/
def genesis : Block := genesisBlock {}

def first : Block := .emptyChild {} genesis 12

def second : Block := .emptyChild {} genesis 13

/-- The three blocks can be told apart by their hashes, and none of these is zero. -/
theorem hashes_nodup :
    (FixedBytes.zero 32 ::
      [genesis.header, first.header, second.header].map Header.hash).Nodup := by
  decide +kernel

end Siblings

end EngineNode
