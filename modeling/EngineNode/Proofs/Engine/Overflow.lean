import EngineNode.Proofs.Build.Overflow
import EngineNode.Proofs.Engine.Siblings

/-!
Builds on what was imported.

The numbers that a build starts from come out of payloads. Blocks are numbered one after another
and hold few blobs, so their numbers and their blob gas stay small. Nothing bounds the gas limit,
the excess of blob gas and the time that a payload claims, and builds on such a block overflow.

* `Node.run_number_le`, `Node.run_blobGasUsed_le`: what is bounded in what a run stores.
* `Node.builds_overflow_iff`: where payloads and pending blocks overflow after a run.
* `Node.run_moderate`: on which stored blocks they never do.
* `LastMoment.pending_overflows`: a block of the last moment leaves no time for a pending block.
-/

namespace EngineNode

/-! ### What is bounded -/

/-- The blob gas of a valid block is that of its transactions, which is limited. -/
theorem Block.ValidOn.blobGasUsed_le {block parent : Block} {config : ChainConfig}
    (valid : block.ValidOn config parent) :
    (block.header.blobGasUsed.getD 0).toNat ≤ maxBlobGas := by
  cases given : block.header.blobGasUsed with
  | none => exact Nat.zero_le _
  | some gas =>
      obtain ⟨outcome, executed, agrees⟩ := valid.executes false
      obtain ⟨session, ⟨start, begun, applied⟩, rfl⟩ := Chain.execute_eq_ok_iff.mp executed
      have used : session.blobGasUsed = gas.toNat := agrees.blobGasUsed gas given
      rw [Option.getD_some, ← used]
      exact Session.blobGasUsed_le_of_begin begun applied

namespace Node

/-- After a run no stored block has a greater number than there were events: an event stores at most
one block, on a parent that was stored before. -/
theorem run_number_le (node : Node) (events : List Event) {hash : Hash} {block : Block}
    (stored : (node.fresh.run events).chain.blockByHash? hash = some block) :
    block.number.toNat ≤ events.length := by
  induction events using List.reverseRecOn generalizing hash block with
  | nil =>
      obtain ⟨-, rfl⟩ := Chain.lookup_new stored
      exact Nat.le_refl 0
  | append_singleton events event ih =>
      have more : events.length ≤ (events ++ [event]).length := by simp
      rw [run_concat] at stored
      rcases (node.fresh.run events).after_store event with
        ⟨blocks, -⟩ | ⟨added, _, _, -, -, inserted⟩
      · rw [Chain.blockByHash?, blocks] at stored
        exact (ih stored).trans more
      · obtain ⟨parent, found, extends_, same⟩ := Block.extends_of_insert inserted
        rw [same, Chain.blockByHash?_withBlock] at stored
        split at stored
        · cases stored
          have next : block.number.toNat = parent.number.toNat + 1 := extends_.follows.number
          rw [next, List.length_append]
          exact Nat.succ_le_succ (ih found)
        · exact (ih stored).trans more

/-- No stored block uses more blob gas than a block may. -/
theorem run_blobGasUsed_le (node : Node) (events : List Event) {hash : Hash} {block : Block}
    (stored : (node.fresh.run events).chain.blockByHash? hash = some block) :
    (block.header.blobGasUsed.getD 0).toNat ≤ maxBlobGas := by
  obtain ⟨-, rfl | ⟨_, -, valid⟩⟩ := node.run_storesValid events hash block stored
  · show ((if node.config.isCancun 0 then some 0 else none : Option UInt64).getD 0).toNat ≤ _
    split <;> exact Nat.zero_le _
  · exact valid.blobGasUsed_le

/-! ### Builds -/

/-- **Where builds overflow after a run.** Whatever calls came before and whatever the operator and
the order ask for, a payload on a stored block with state overflows exactly if its plan does, and
the pending block exactly if its plan does or the head leaves no time for it. Of the numbers that
plans start from, the number of the parent is at most that of the calls, and its blob gas at most
that of six blobs. -/
theorem builds_overflow_iff (node : Node) (events : List Event) (g : Generator) :
    let chain := (node.fresh.run events).chain
    (∀ hash header, chain.headerByHash? hash = some header →
      header.number.toNat ≤ events.length ∧
        (header.blobGasUsed.getD 0).toNat ≤ maxBlobGas) ∧
    (∀ args parent, chain.headerByHash? args.parent = some parent →
      chain.hasState args.parent = true → ∀ now wantWitness,
        (chain.startPayload g now args wantWitness = .error .overflow ↔
          g.Overflows (args.plan parent wantWitness))) ∧
    ∀ last now, (g.pending chain last now = .error .overflow ↔ g.Computes chain last ∧
      (chain.currentHeader.timestamp.toNat + 1 = UInt64.size ∨
        ∃ plan, g.pendingPlan chain.currentHeader now = some plan ∧ g.Overflows plan)) := by
  intro chain
  refine ⟨?_, ?_, ?_⟩
  · intro hash header stored
    obtain ⟨block, found, rfl⟩ := Option.map_eq_some_iff.mp stored
    exact ⟨node.run_number_le events found, node.run_blobGasUsed_le events found⟩
  · intro args parent stored hasState now wantWitness
    exact Chain.startPayload_eq_overflow_iff stored hasState now wantWitness
  · intro last now
    exact Generator.pending_eq_overflow_iff

/-- **On which stored blocks builds never overflow**: those with a gas limit, a base fee, an excess
of blob gas and a time that leave some room. -/
theorem run_moderate (node : Node) (events : List Event) {hash : Hash} {block : Block}
    (stored : (node.fresh.run events).chain.blockByHash? hash = some block)
    (short : events.length + 1 < UInt64.size)
    (timestamp : block.timestamp.toNat + 1 < UInt64.size)
    (gasLimit : block.header.gasLimit.toNat < 2 ^ 63)
    (baseFee : ∀ fee, block.header.baseFeePerGas = some fee → fee.toNat < UInt64.size ^ 3)
    (excess : (block.header.excessBlobGas.getD 0).toNat < 2 ^ 63) : block.header.Moderate := by
  have number := node.run_number_le events stored
  have blobGas := node.run_blobGasUsed_le events stored
  have half : UInt64.size = 2 ^ 63 + 2 ^ 63 := by decide
  constructor
  case number =>
    show block.number.toNat + 1 < UInt64.size
    omega
  case timestamp => exact timestamp
  case gasLimit =>
    have step : gasLimitStep block.header.gasLimit.toNat ≤ block.header.gasLimit.toNat :=
      (Nat.sub_le _ _).trans (Nat.div_le_self _ _)
    omega
  case baseFee => exact baseFee
  case excessBlobGas =>
    have few : maxBlobGas < 2 ^ 63 := by decide
    omega

end Node

/-! ### The last moment -/

namespace LastMoment

open Siblings

/-- An empty block at the last time there is. -/
def block : Block := .emptyChild {} genesis (UInt64.ofNat (UInt64.size - 1))

/-- The choice of the block as the head. -/
def choice : ForkchoiceState := ⟨block.hash, .zero 32, .zero 32⟩

/-- Its payload comes in. -/
def imported : List Event := [.payload {} block]

/-- Its payload comes in, and it is chosen. -/
def run : List Event :=
  [.payload {} block, .call (.forkchoiceUpdated .v1 choice none false)]

theorem hashes_apart : [FixedBytes.zero 32, genesis.hash, block.hash].Nodup := by
  decide +kernel

theorem block_fresh : (Chain.new {}).blockByHash? block.hash = none := by
  have apart := hashes_apart
  simp only [List.nodup_cons, List.mem_cons, List.not_mem_nil, or_false, not_or] at apart
  exact blockByHash?_new apart.2.1

theorem imported_chain :
    ((Node.new {}).fresh.run imported).chain = (Chain.new {}).withBlock block := by
  have start : (Node.new {}).fresh.chain = Chain.new {} := rfl
  obtain ⟨-, chain, -⟩ : ((Node.new {}).fresh.after (.payload {} block)).config = {} ∧
      ((Node.new {}).fresh.after (.payload {} block)).chain = (Chain.new {}).withBlock block ∧
      ((Node.new {}).fresh.after (.payload {} block)).badChains = {} :=
    Node.after_payload_emptyChild rfl start rfl rfl genesis_hasState genesis_stored block_fresh
      (by decide) (by decide +kernel) (by decide +kernel) rfl rfl
  rw [imported, Node.run_singleton]
  exact chain

theorem imported_genesis :
    ((Chain.new {}).withBlock block).blockByHash? genesis.hash = some genesis :=
  Chain.blockByHash?_withBlock_of_some block_fresh genesis_stored

theorem imported_hasState : ((Chain.new {}).withBlock block).hasState genesis.hash = true :=
  Chain.hasState_eq_true_iff.mpr (List.mem_cons_of_mem _ (List.mem_singleton_self _))

theorem run_head : ((Node.new {}).fresh.run run).chain.head = block := by
  have apart := hashes_apart
  simp only [List.nodup_cons, List.mem_cons, List.not_mem_nil, or_false, not_or] at apart
  obtain ⟨⟨-, notZero⟩, -⟩ := apart
  have chain := imported_chain
  rw [imported, Node.run_singleton] at chain
  have stored : ((Chain.new {}).withBlock block).blockByHash? block.hash = some block :=
    (Chain.blockByHash?_withBlock _ _ _).trans (if_pos rfl)
  have storedParent := imported_genesis
  have canonical : ((Chain.new {}).withBlock block).isCanonical genesis.number genesis.hash =
      true := Chain.isCanonical_eq_true_iff.mpr List.lookup_cons_self
  have contends : ((Chain.new {}).withBlock block).Contender genesis block :=
    ⟨stored, Chain.hasState_eq_true_iff.mpr List.mem_cons_self, rfl, rfl, decide_eq_false nofun,
      rfl, FixedBytes.isZero_eq_false (Ne.symm notZero)⟩
  rw [← chain] at storedParent canonical contends
  have head : choice.headBlockHash = block.hash := rfl
  have chosen := (Node.answer_plain_choice head rfl rfl storedParent canonical contends).2
  rw [run, Node.run_cons, Node.run_cons, Node.run_nil, Node.after_call, chosen]
  rfl

/-- **A block of the last moment leaves no time for a pending block.** -/
theorem pending_overflows :
    ({ config := {}, miner := {}, pool := {}, logSkipped := false } : Generator).pending
      ((Node.new {}).fresh.run run).chain none 12 = .error .overflow := by
  refine Generator.pending_eq_overflow_iff.mpr ⟨⟨nofun, nofun⟩, .inl ?_⟩
  rw [Chain.currentHeader, run_head]
  decide +kernel

/-- A build on the genesis block. -/
def args : BuildArgs where
  parent := genesis.hash
  timestamp := 12
  feeRecipient := .zero 20
  random := .zero 32
  withdrawals := none
  beaconRoot := none
  version := .v1
  noTxPool := true
  transactions := []
  gasLimit := none
  feeParams := none

theorem genesis_moderate : genesis.header.Moderate where
  number := by decide
  timestamp := by decide
  gasLimit := by decide +kernel
  baseFee := by
    rintro _ ⟨⟩
    decide +kernel
  excessBlobGas := by decide +kernel

/-- A payload on the genesis block does not overflow after the block has come in. -/
theorem genesis_builds :
    ((Node.new {}).fresh.run imported).chain.headerByHash? args.parent = some genesis.header ∧
    ((Node.new {}).fresh.run imported).chain.hasState args.parent = true ∧
    ((Node.new {}).fresh.run imported).chain.startPayload (Node.new {}).generator 0 args false ≠
      .error .overflow := by
  have stored : ((Node.new {}).fresh.run imported).chain.headerByHash? args.parent =
      some genesis.header := by
    rw [imported_chain]
    exact congrArg (Option.map Block.header) imported_genesis
  have hasState : ((Node.new {}).fresh.run imported).chain.hasState args.parent = true := by
    rw [imported_chain]
    exact imported_hasState
  have builds := ((Node.new {}).builds_overflow_iff imported (Node.new {}).generator).2.1 args
    genesis.header stored hasState 0 false
  have moderate : (args.plan genesis.header false).parent.Moderate := genesis_moderate
  exact ⟨stored, hasState, builds.not.mpr moderate.not_overflows⟩

end LastMoment

end EngineNode
