import EngineNode.Proofs.Build.Replay
import Mathlib.Algebra.GroupWithZero.Nat

/-!
Which transactions of the pool a block takes.

The pool is gone through once, from the front. A transaction is appended unless something speaks
against it at its turn, and what speaks against it depends on what is in the block by then.

* `Generator.LeavesOut`: what can speak against a transaction.
* `Generator.Picks`: which transactions are appended, turn by turn.
* `Generator.fill_picks`: filling a block goes through the pool in this way.
* `Generator.generate_selects`: what this means for a generated block (`Generator.Selects`): the
  demanded transactions come first, those of the pool follow in its order, and all limits are kept.
-/

namespace EngineNode

/-- The size of transactions that counts against the limit on a block. -/
def Transaction.totalDataSize (transactions : List Transaction) : Nat :=
  (transactions.map dataSize).sum

namespace Generator

variable {g : Generator} {plan : BlockPlan} {s : Session} {tx : Transaction}
  {included pool appended : List Transaction}

/-! ### Turns -/

/-- What speaks against a transaction when `included` is in the block and `s` has applied it. -/
inductive LeavesOut (g : Generator) (s : Session) (included : List Transaction)
    (tx : Transaction) : Prop where
  /-- Not even the smallest transaction has gas left. -/
  | exhausted : s.env.gasLimit.toNat < s.gasUsed + transactionBaseGas → LeavesOut g s included tx
  | deposit : tx.isDeposit = true → LeavesOut g s included tx
  | repeated : tx ∈ included → LeavesOut g s included tx
  | tooLarge {limit : UInt64} : g.miner.maxTransactionSize = some limit →
      limit.toNat < tx.dataSize → LeavesOut g s included tx
  | noRoom {limit : UInt64} : g.miner.maxBlockSize = some limit →
      limit.toNat < Transaction.totalDataSize included + tx.dataSize → LeavesOut g s included tx
  | refused {error : ExecutionError} : s.apply tx = .error error → LeavesOut g s included tx

/-- Going through the pool: each transaction is appended to what is included, or left out because
something speaks against it at its turn. -/
inductive Picks (g : Generator) :
    Session → List Transaction → (pool appended : List Transaction) → Prop where
  | done (s : Session) (included : List Transaction) : Picks g s included [] []
  | append {s s' : Session} {included rest later : List Transaction} {tx : Transaction} :
      ¬ g.LeavesOut s included tx → s.apply tx = .ok s' →
      Picks g s' (included ++ [tx]) rest later → Picks g s included (tx :: rest) (tx :: later)
  | leaveOut {s : Session} {included rest later : List Transaction} {tx : Transaction} :
      g.LeavesOut s included tx → Picks g s included rest later →
      Picks g s included (tx :: rest) later

/-- When gas has run out the rest of the pool is left out. -/
theorem picks_nil (exhausted : s.env.gasLimit.toNat < s.gasUsed + transactionBaseGas)
    (included pool : List Transaction) : g.Picks s included pool [] := by
  induction pool with
  | nil => exact .done s included
  | cons tx rest ih => exact .leaveOut (.exhausted exhausted) ih

/-- The transactions that are passed over are those with something against them that is known before
they are applied, gas apart. -/
theorem passesOver_iff {f : Filling} (size : f.dataSize = Transaction.totalDataSize f.included) :
    g.passesOver f tx = true ↔ tx.isDeposit = true ∨ tx ∈ f.included ∨
      (∃ limit, g.miner.maxTransactionSize = some limit ∧ limit.toNat < tx.dataSize) ∨
      ∃ limit, g.miner.maxBlockSize = some limit ∧
        limit.toNat < Transaction.totalDataSize f.included + tx.dataSize := by
  simp only [passesOver, Bool.or_eq_true, List.contains_iff_mem, Option.any_eq_true,
    decide_eq_true_eq, size, or_assoc]

theorem LeavesOut.of_passesOver {f : Filling}
    (size : f.dataSize = Transaction.totalDataSize f.included)
    (passed : g.passesOver f tx = true) : g.LeavesOut f.session f.included tx := by
  rcases (passesOver_iff size).mp passed with deposit | repeated | ⟨limit, set, large⟩ |
    ⟨limit, set, full⟩
  · exact .deposit deposit
  · exact .repeated repeated
  · exact .tooLarge set large
  · exact .noRoom set full

/-- Nothing speaks against a transaction that is reached, not passed over and not refused. -/
theorem not_leavesOut {f : Filling} {s' : Session}
    (size : f.dataSize = Transaction.totalDataSize f.included)
    (gas : ¬ f.session.env.gasLimit.toNat < f.session.gasUsed + transactionBaseGas)
    (kept : ¬ g.passesOver f tx = true) (applied : f.session.apply tx = .ok s') :
    ¬ g.LeavesOut f.session f.included tx := by
  rw [passesOver_iff size] at kept
  rintro (exhausted | deposit | repeated | ⟨set, large⟩ | ⟨set, full⟩ | refused)
  · exact gas exhausted
  · exact kept (.inl deposit)
  · exact kept (.inr (.inl repeated))
  · exact kept (.inr (.inr (.inl ⟨_, set, large⟩)))
  · exact kept (.inr (.inr (.inr ⟨_, set, full⟩)))
  · cases applied.symm.trans refused

/-- **Filling a block goes through the pool.** -/
theorem fill_picks {f : Filling} (size : f.dataSize = Transaction.totalDataSize f.included)
    (pool : List Transaction) :
    ∃ appended, (g.fill f.session.env.gasLimit f pool).included = f.included ++ appended ∧
      g.Picks f.session f.included pool appended := by
  induction pool generalizing f with
  | nil => exact ⟨[], (List.append_nil _).symm, .done _ _⟩
  | cons tx rest ih =>
      rw [fill]
      split
      · rename_i exhausted
        exact ⟨[], (List.append_nil _).symm, picks_nil exhausted _ _⟩
      · rename_i gas
        split
        · rename_i passed
          obtain ⟨appended, same, picks⟩ := ih size
          exact ⟨appended, same, .leaveOut (.of_passesOver size passed) picks⟩
        · rename_i kept
          cases applied : f.session.apply tx with
          | ok s' =>
              have env := (Session.gasUsed_le_of_apply applied).1
              obtain ⟨later, same, picks⟩ := @ih
                { f with
                  session := s'
                  included := f.included ++ [tx]
                  dataSize := f.dataSize + tx.dataSize } (by
                simp [Transaction.totalDataSize, size])
              refine ⟨tx :: later, ?_, .append (not_leavesOut size gas kept applied) applied picks⟩
              rw [env] at same
              rw [same, List.append_assoc, List.singleton_append]
          | error e =>
              dsimp only
              split
              · generalize f.logs ++ _ = logs
                obtain ⟨appended, same, picks⟩ := @ih { f with logs } size
                exact ⟨appended, same, .leaveOut (.refused applied) picks⟩
              · obtain ⟨appended, same, picks⟩ := ih size
                exact ⟨appended, same, .leaveOut (.refused applied) picks⟩

/-! ### What is appended -/

theorem Picks.sublist (picks : g.Picks s included pool appended) : appended.Sublist pool := by
  induction picks with
  | done => exact .slnil
  | append _ _ _ ih => exact ih.cons_cons _
  | leaveOut _ _ ih => exact ih.cons _

/-- What is in the block already is not appended. -/
theorem Picks.disjoint (picks : g.Picks s included pool appended) :
    ∀ tx ∈ appended, tx ∉ included := by
  induction picks with
  | done => nofun
  | append fits _ _ ih =>
      intro tx member among
      rcases List.mem_cons.mp member with rfl | later
      · exact fits (.repeated among)
      · exact ih tx later (List.mem_append_left _ among)
  | leaveOut _ _ ih => exact ih

theorem Picks.nodup (picks : g.Picks s included pool appended) : appended.Nodup := by
  induction picks with
  | done => exact .nil
  | append _ _ more ih =>
      refine List.nodup_cons.mpr ⟨?_, ih⟩
      intro again
      exact more.disjoint _ again (List.mem_append_right _ (List.mem_singleton_self _))
  | leaveOut _ _ ih => exact ih

theorem Picks.isDeposit (picks : g.Picks s included pool appended) :
    ∀ tx ∈ appended, tx.isDeposit = false := by
  induction picks with
  | done => nofun
  | append fits _ _ ih =>
      intro tx member
      rcases List.mem_cons.mp member with rfl | later
      · exact Bool.eq_false_iff.mpr fun deposit => fits (.deposit deposit)
      · exact ih tx later
  | leaveOut _ _ ih => exact ih

theorem Picks.dataSize_le (picks : g.Picks s included pool appended) {limit : UInt64}
    (set : g.miner.maxTransactionSize = some limit) :
    ∀ tx ∈ appended, tx.dataSize ≤ limit.toNat := by
  induction picks with
  | done => nofun
  | append fits _ _ ih =>
      intro tx member
      rcases List.mem_cons.mp member with rfl | later
      · exact Nat.not_lt.mp fun large => fits (.tooLarge set large)
      · exact ih tx later
  | leaveOut _ _ ih => exact ih

/-- The limit on the block is looked at whenever a transaction is appended, so it holds after the
last one, however large the block was before the first. -/
theorem Picks.totalDataSize_le (picks : g.Picks s included pool appended) {limit : UInt64}
    (set : g.miner.maxBlockSize = some limit) (some : appended ≠ []) :
    Transaction.totalDataSize (included ++ appended) ≤ limit.toNat := by
  induction picks with
  | done => exact absurd rfl some
  | @append s s' included rest later tx fits _ more ih =>
      have room : Transaction.totalDataSize (included ++ [tx]) ≤ limit.toNat := by
        refine Nat.not_lt.mp fun full => fits (.noRoom set ?_)
        simpa [Transaction.totalDataSize] using full
      by_cases last : later = []
      · exact last ▸ room
      · rw [← List.singleton_append, ← List.append_assoc]
        exact ih last
  | leaveOut _ _ ih => exact ih some

/-! ### Generated blocks -/

/-- A block holds what its plan demands and then some transactions of the pool. -/
structure Selects (g : Generator) (plan : BlockPlan) (built : BuiltBlock)
    (appended : List Transaction) : Prop where
  transactions : built.block.transactions = plan.transactions ++ appended
  subsequence : appended.Sublist g.pool.transactions
  nodup : appended.Nodup
  eligible : ∀ tx ∈ appended, tx.isDeposit = false ∧ tx ∉ plan.transactions
  small : ∀ limit, g.miner.maxTransactionSize = some limit →
    ∀ tx ∈ appended, tx.dataSize ≤ limit.toNat
  fits : ∀ limit, g.miner.maxBlockSize = some limit → appended ≠ [] →
    Transaction.totalDataSize built.block.transactions ≤ limit.toNat
  /-- What the whole block uses. Its header says how much gas that is, and how much blob gas since
  there are blobs. -/
  limits : ∃ session, built.block.ExecutesTo plan.parent session ∧
    session.gasUsed = built.block.header.gasUsed.toNat ∧
    session.gasUsed ≤ built.block.header.gasLimit.toNat ∧
    (∀ gas, built.block.header.blobGasUsed = some gas → session.blobGasUsed = gas.toNat) ∧
    session.blobGasUsed ≤ 6 * gasPerBlob
  /-- The pool is gone through from the session of the demanded transactions on. -/
  turns : ∃ start session,
    Session.begin plan.parent (.ofHeader built.block.header) = .ok start ∧
    start.applyAll plan.transactions = .ok session ∧
    g.Picks session plan.transactions g.pool.transactions appended

theorem totalDataSize_demanded (plan : BlockPlan) (session : Session) :
    (Filling.demanded plan session).dataSize = Transaction.totalDataSize plan.transactions := by
  rw [Transaction.totalDataSize, List.sum_eq_foldr, List.foldr_map]
  rfl

/-- **A block with the pool takes the transactions that nothing speaks against**, behind the
demanded ones and within the limits. -/
theorem generate_selects {built : BuiltBlock} {logs : List LogEntry}
    (generated : g.generate plan true = .ok (built, logs)) :
    ∃ appended, g.Selects plan built appended := by
  obtain ⟨header, start, session, opens, begun, demanded, rfl⟩ := generate_inversion generated
  have env : session.env = .ofHeader header := by
    obtain rfl := Session.eq_of_begin begun
    exact (Session.gasUsed_le_of_applyAll (Nat.zero_le _) demanded).1
  obtain ⟨appended, included, picks⟩ := g.fill_picks (totalDataSize_demanded plan session)
    g.pool.transactions
  rw [show (Filling.demanded plan session).session.env.gasLimit = header.gasLimit from
    congrArg BlockEnv.gasLimit env] at included
  have replays : (g.fill header.gasLimit (.demanded plan session) g.pool.transactions).Replays
      start := fill_replays (f := .demanded plan session) demanded _
  rw [if_pos rfl]
  generalize g.fill header.gasLimit (.demanded plan session) g.pool.transactions = filled at *
  have executes := close_executesTo (g := g) begun replays
  have agrees := close_matches (g := g) begun replays false
  have transactions : (g.close plan header filled).block.transactions =
      plan.transactions ++ appended := included
  refine ⟨appended, transactions, picks.sublist, picks.nodup, ?_, ?_, ?_, ?_, ?_⟩
  · exact fun tx member => ⟨picks.isDeposit tx member, picks.disjoint tx member⟩
  · exact fun limit set => picks.dataSize_le set
  · intro limit set some
    rw [transactions]
    exact picks.totalDataSize_le set some
  · exact ⟨filled.session, executes, agrees.gasUsed, executes.gasUsed_le, agrees.blobGasUsed,
      Session.blobGasUsed_le_of_begin begun replays⟩
  · exact ⟨start, session, begun, demanded, picks⟩

end Generator

/-! ### A pool with all kinds of transactions -/

namespace MixedPool

def demanded : Transaction := ⟨[0xc1, 0x01], .legacy, rfl⟩

def fitting : Transaction := ⟨[0xc1, 0x02], .legacy, rfl⟩

def deposit : Transaction := ⟨[0x7e, 0xc0], .deposit, rfl⟩

def large : Transaction := ⟨[0xc2, 0x01, 0x02], .legacy, rfl⟩

/-- Blocks have room for two of the small transactions. -/
def generator : Generator where
  config := {}
  miner := { maxTransactionSize := some 2, maxBlockSize := some 4 }
  pool := { transactions := [deposit, demanded, large, fitting, fitting] }
  logSkipped := true

def args : BuildArgs where
  parent := (genesisBlock {}).hash
  timestamp := 12
  feeRecipient := .zero 20
  random := .zero 32
  withdrawals := none
  beaconRoot := none
  version := .v1
  noTxPool := false
  transactions := [demanded]
  gasLimit := some 100000
  feeParams := none

def plan : BlockPlan := args.plan (genesisBlock {}).header false

/-- One transaction of the pool is appended, once. -/
theorem selects_fitting : ∃ built logs, generator.generate plan true = .ok (built, logs) ∧
    built.block.transactions = [demanded, fitting] ∧
      ∃ appended, generator.Selects plan built appended := by
  obtain ⟨built, logs, generated, transactions⟩ : ∃ built logs,
      generator.generate plan true = .ok (built, logs) ∧
        built.block.transactions = [demanded, fitting] := ⟨_, _, rfl, rfl⟩
  exact ⟨built, logs, generated, transactions, Generator.generate_selects generated⟩

end MixedPool

end EngineNode
