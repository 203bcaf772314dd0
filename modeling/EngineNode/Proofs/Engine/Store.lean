import EngineNode.Proofs.Chain.Canonical
import EngineNode.Proofs.Engine.Run

/-!
What a node stores.

The checks on a payload are spread over its conversion, its import, its header and its execution.
Together they see to it that only valid blocks are stored, and nothing that happens later unsettles
this: a block is stored once, under a hash that was not taken.

* `Step.line`: a step keeps the blocks and the canonical chain, moves the head, or stores a block.
* `Node.after_store`: an event that adds a block to the store sends the payload of this block.
* `Node.run_coherent`: every run keeps the chain coherent. No assumption on hashes is needed, since
  a block whose hash is taken is not stored again.
* `Node.run_storesValid`: every stored block other than the genesis block is valid on its parent.
-/

namespace EngineNode

namespace Chain

variable {config : ChainConfig} {chain chain' : Chain} {root : Hash}

/-! ### Steps -/

/-- Two chains differ at most in what is recorded beside their blocks. -/
structure SameLine (chain chain' : Chain) : Prop where
  blocks : chain'.blocks = chain.blocks
  withState : chain'.withState = chain.withState
  canonical : chain'.canonical = chain.canonical
  head : chain'.head = chain.head

theorem SameLine.refl (chain : Chain) : chain.SameLine chain := ⟨rfl, rfl, rfl, rfl⟩

theorem SameLine.trans {chain'' : Chain} (first : chain.SameLine chain')
    (second : chain'.SameLine chain'') : chain.SameLine chain'' :=
  ⟨second.blocks.trans first.blocks, second.withState.trans first.withState,
    second.canonical.trans first.canonical, second.head.trans first.head⟩

theorem SameLine.blockByHash? (line : chain.SameLine chain') (hash : Hash) :
    chain'.blockByHash? hash = chain.blockByHash? hash :=
  congrArg (List.lookup hash) line.blocks

theorem SameLine.isCanonical (line : chain.SameLine chain') (n : UInt64) (hash : Hash) :
    chain'.isCanonical n hash = chain.isCanonical n hash := by
  rw [Bool.eq_iff_iff, isCanonical_eq_true_iff, isCanonical_eq_true_iff, canonicalHash?,
    canonicalHash?, line.canonical]

theorem sameLine_setFinalized (chain : Chain) (header : Header) :
    chain.SameLine (chain.setFinalized header) := ⟨rfl, rfl, rfl, rfl⟩

theorem sameLine_setSafe (chain : Chain) (header : Header) :
    chain.SameLine (chain.setSafe header) := ⟨rfl, rfl, rfl, rfl⟩

theorem sameLine_of_record? {mark : Chain → Header → Chain} {hash : Hash}
    (marks : ∀ header, chain.SameLine (mark chain header))
    (recorded : chain.record? mark hash = some chain') : chain.SameLine chain' := by
  unfold record? at recorded
  split at recorded
  · cases recorded
    exact .refl chain
  · obtain ⟨block, -, rfl⟩ := Option.map_eq_some_iff.mp recorded
    exact marks block.header

theorem FinalityRecorded.sameLine {choice : ForkchoiceState} {done : Bool}
    (recorded : FinalityRecorded choice chain done chain') : chain.SameLine chain' := by
  cases recorded with
  | notFinal => exact .refl chain
  | notSafe final => exact sameLine_of_record? (sameLine_setFinalized chain) final
  | done final safe =>
      exact (sameLine_of_record? (sameLine_setFinalized chain) final).trans
        (sameLine_of_record? (sameLine_setSafe _) safe)

/-- A choice keeps the canonical chain or moves the head. -/
theorem Chosen.line {choice : ForkchoiceState} {attributes : Option PayloadAttributes}
    {result : Except EngineError ForkchoiceResponse}
    (chosen : Chosen config chain choice attributes result chain') :
    chain.SameLine chain' ∨ ∃ hash moved logs,
      chain.setCanonical hash = .ok (moved, logs) ∧ moved.SameLine chain' := by
  cases chosen with
  | refused => exact .inl (.refl chain)
  | ignored => exact .inl (.refl chain)
  | followed _ made recorded =>
      have line := recorded.sameLine
      cases made with
      | kept => exact .inl ⟨line.blocks, line.withState, line.canonical, line.head⟩
      | moved _ moves =>
          exact .inr ⟨_, _, _, moves, line.blocks, line.withState, line.canonical, line.head⟩

/-- **What a step does to the blocks and the canonical chain.** -/
theorem Step.line (step : chain.Step config chain') :
    chain.SameLine chain' ∨
      (∃ hash moved logs, chain.setCanonical hash = .ok (moved, logs) ∧ moved.SameLine chain') ∨
      ∃ block wantWitness witness, block.header.transactionsRoot =
          Transaction.root block.transactions ∧
        chain.blockByHash? block.hash = none ∧
        chain.insert config block wantWitness = .ok (chain', witness) := by
  cases step with
  | other mode => exact .inl ⟨rfl, rfl, rfl, rfl⟩
  | chosen chosen => exact chosen.line.imp_right .inl
  | imported imported =>
      cases imported with
      | passed => exact .inl (.refl chain)
      | known => exact .inl (.refl chain)
      | stored converted fresh _ inserted =>
          have root := (Payload.toBlock_eq_ok_iff.mp converted).1.transactionsRoot
          exact .inr (.inr ⟨_, _, _, root, fresh, inserted⟩)

/-! ### Coherence -/

theorem Coherent.of_sameLine (coherent : chain.Coherent root) (line : chain.SameLine chain') :
    chain'.Coherent root := by
  constructor
  · rw [line.blocks]
    exact coherent.keyed
  · rw [line.blocks, line.withState]
    exact coherent.descends
  · rw [line.blocks, line.canonical, line.head]
    exact coherent.canonical

theorem Coherent.step (coherent : chain.Coherent root) (step : chain.Step config chain') :
    chain'.Coherent root := by
  rcases step.line with line | ⟨hash, moved, logs, moves, line⟩ |
    ⟨block, _, _, -, fresh, inserted⟩
  · exact coherent.of_sameLine line
  · exact (coherent.setCanonical moves).of_sameLine line
  · refine coherent.insert ?_ inserted
    intro old stored
    cases stored.symm.trans fresh

end Chain

/-! ### Validity -/

/-- A block is valid on a parent: its header follows that of the parent and commits to the
transactions, it keeps its gas limit, and executing it on the parent succeeds and comes to what the
header says. -/
structure Block.ValidOn (block : Block) (config : ChainConfig) (parent : Block) : Prop where
  follows : block.header.Follows config parent.header
  transactionsRoot : block.header.transactionsRoot = Transaction.root block.transactions
  gasLimit : block.header.gasUsed ≤ block.header.gasLimit
  executes : ∀ wantWitness, ∃ outcome,
    Chain.execute parent.header block wantWitness = .ok outcome ∧ outcome.Matches block.header

/-- Every stored block is the genesis block or is valid on its parent, which is stored too. -/
def Chain.StoresValid (chain : Chain) (config : ChainConfig) : Prop :=
  ∀ hash block, chain.blockByHash? hash = some block → block.hash = hash ∧
    (block = genesisBlock config ∨
      ∃ parent, chain.blockByHash? block.parentHash = some parent ∧ block.ValidOn config parent)

/-- What insertion accepts is valid. The gas limit is kept by the execution, which the gas of the
header is compared with. -/
theorem Block.validOn_of_insert {config : ChainConfig} {chain chain' : Chain} {block : Block}
    {wantWitness : Bool} {witness : Option Witness}
    (root : block.header.transactionsRoot = Transaction.root block.transactions)
    (inserted : chain.insert config block wantWitness = .ok (chain', witness)) :
    ∃ parent, chain.blockByHash? block.parentHash = some parent ∧ block.ValidOn config parent ∧
      chain' = chain.withBlock block := by
  obtain ⟨parent, session, -, stored, follows, executes, agrees, rfl, -⟩ :=
    Chain.insert_eq_ok_iff.mp inserted
  refine ⟨parent, stored, ⟨follows, root, ?_, ?_⟩, rfl⟩
  · have used : session.gasUsed = block.header.gasUsed.toNat := agrees.gasUsed
    exact UInt64.le_iff_toNat_le.mpr (used ▸ executes.gasUsed_le)
  · intro wanted
    exact ⟨_, Chain.execute_eq_ok_iff.mpr ⟨session, executes, rfl⟩, agrees.gasUsed,
      agrees.blobGasUsed, agrees.receiptsRoot, agrees.stateRoot⟩

namespace Chain

variable {config : ChainConfig} {chain chain' : Chain} {block : Block}

theorem blockByHash?_withBlock (chain : Chain) (block : Block) (hash : Hash) :
    (chain.withBlock block).blockByHash? hash =
      if hash = block.hash then some block else chain.blockByHash? hash :=
  lookup_insertWithoutState chain block hash

/-- Storing a block under a hash that is not taken keeps the others. -/
theorem blockByHash?_withBlock_of_some (fresh : chain.blockByHash? block.hash = none) {hash : Hash}
    {old : Block} (stored : chain.blockByHash? hash = some old) :
    (chain.withBlock block).blockByHash? hash = some old := by
  rw [blockByHash?_withBlock, if_neg, stored]
  rintro rfl
  cases stored.symm.trans fresh

/-- A choice adds no blocks. -/
theorem Chosen.store {choice : ForkchoiceState} {attributes : Option PayloadAttributes}
    {result : Except EngineError ForkchoiceResponse}
    (chosen : Chosen config chain choice attributes result chain') :
    chain'.blocks = chain.blocks ∧ chain'.withState = chain.withState := by
  rcases chosen.line with line | ⟨hash, moved, logs, moves, line⟩
  · exact ⟨line.blocks, line.withState⟩
  · obtain ⟨_, _, _, _, _, _, rfl⟩ := setCanonical_eq_ok moves
    exact ⟨line.blocks, line.withState⟩

/-- **What is stored stays stored.** -/
theorem Step.blockByHash? (step : chain.Step config chain') {hash : Hash}
    (stored : chain.blockByHash? hash = some block) : chain'.blockByHash? hash = some block := by
  rcases step.line with line | ⟨_, moved, logs, moves, line⟩ | ⟨new, _, _, _, fresh, inserted⟩
  · rwa [line.blockByHash?]
  · obtain ⟨_, _, _, _, _, _, rfl⟩ := setCanonical_eq_ok moves
    rw [line.blockByHash?]
    exact stored
  · obtain ⟨_, _, _, _, _, _, _, rfl, _⟩ := insert_eq_ok_iff.mp inserted
    exact blockByHash?_withBlock_of_some fresh stored

theorem storesValid_new (config : ChainConfig) : (Chain.new config).StoresValid config := by
  intro hash block stored
  obtain ⟨rfl, rfl⟩ := lookup_new stored
  exact ⟨rfl, .inl rfl⟩

/-- Storing a valid block under a hash that is not taken keeps the others and their parents. -/
theorem StoresValid.withBlock (valid : chain.StoresValid config)
    (fresh : chain.blockByHash? block.hash = none) {parent : Block}
    (stored : chain.blockByHash? block.parentHash = some parent)
    (validOn : block.ValidOn config parent) : (chain.withBlock block).StoresValid config := by
  intro hash found h
  rw [blockByHash?_withBlock] at h
  split at h
  · rename_i same
    cases h
    exact ⟨same.symm, .inr ⟨parent, blockByHash?_withBlock_of_some fresh stored, validOn⟩⟩
  · obtain ⟨keyed, genesis | ⟨parent, known, validOn⟩⟩ := valid hash found h
    · exact ⟨keyed, .inl genesis⟩
    · exact ⟨keyed, .inr ⟨parent, blockByHash?_withBlock_of_some fresh known, validOn⟩⟩

theorem StoresValid.of_blocks (valid : chain.StoresValid config)
    (blocks : chain'.blocks = chain.blocks) : chain'.StoresValid config := by
  have same : chain'.blockByHash? = chain.blockByHash? :=
    funext fun hash => congrArg (List.lookup hash) blocks
  unfold StoresValid
  rw [same]
  exact valid

theorem StoresValid.step (valid : chain.StoresValid config) (step : chain.Step config chain') :
    chain'.StoresValid config := by
  rcases step.line with line | ⟨hash, moved, logs, moves, line⟩ |
    ⟨block, _, _, root, fresh, inserted⟩
  · exact valid.of_blocks line.blocks
  · obtain ⟨_, _, _, _, _, _, rfl⟩ := setCanonical_eq_ok moves
    exact valid.of_blocks line.blocks
  · obtain ⟨parent, stored, validOn, rfl⟩ := Block.validOn_of_insert root inserted
    exact valid.withBlock fresh stored validOn

end Chain

/-! ### Runs -/

/-- **An event that adds to the store sends the payload of the block that it adds.** -/
theorem Node.after_store (node : Node) (event : Event) :
    (node.after event).chain.blocks = node.chain.blocks ∧
        (node.after event).chain.withState = node.chain.withState ∨
      ∃ block wantWitness witness, event.block? node.config = some block ∧
        node.chain.blockByHash? block.hash = none ∧
        node.chain.insert node.config block wantWitness =
          .ok ((node.after event).chain, witness) := by
  rcases node.after_cases event with beside |
    ⟨version, choice, attributes, wantWitness, rfl⟩ | ⟨version, request, wantWitness, rfl⟩ |
    ⟨bad, rfl⟩ | ⟨mode, rfl⟩ | ⟨miner, rfl⟩
  · rw [beside.chain]
    exact .inl ⟨rfl, rfl⟩
  · exact .inl (node.answer_forkchoiceUpdated version choice attributes wantWitness).2.store
  · have imported := (node.answer_newPayload version request wantWitness).2
    rw [after_call]
    generalize (node.answer (.newPayload version request wantWitness)).1 = result at imported
    generalize (node.answer (.newPayload version request wantWitness)).2.chain = chain'
      at imported ⊢
    cases imported with
    | passed => exact .inl ⟨rfl, rfl⟩
    | known => exact .inl ⟨rfl, rfl⟩
    | stored converted fresh _ inserted =>
        exact .inr ⟨_, _, _, Event.block?_newPayload version wantWitness converted, fresh, inserted⟩
  · exact .inl ⟨rfl, rfl⟩
  · exact .inl ⟨rfl, rfl⟩
  · exact .inl ⟨rfl, rfl⟩

/-- What is stored stays stored over a run. -/
theorem Node.run_blockByHash? (node : Node) (events : List Event) {hash : Hash} {block : Block}
    (stored : node.chain.blockByHash? hash = some block) :
    (node.run events).chain.blockByHash? hash = some block := by
  induction events generalizing node with
  | nil => exact stored
  | cons event rest ih =>
      exact ih (node.after event) ((node.after_step event).2.blockByHash? stored)

theorem Node.run_coherent (node : Node) (events : List Event) :
    (node.fresh.run events).chain.Coherent (genesisBlock node.config).hash := by
  refine node.run_induction (motive := (Chain.Coherent · (genesisBlock node.config).hash)) events
    (Chain.coherent_new node.config) ?_
  intro chain chain' coherent step
  exact coherent.step step

/-- **Every block that a node stores is valid.** -/
theorem Node.run_storesValid (node : Node) (events : List Event) :
    (node.fresh.run events).chain.StoresValid node.config := by
  refine node.run_induction (motive := (Chain.StoresValid · node.config)) events
    (Chain.storesValid_new node.config) ?_
  intro chain chain' valid step
  exact valid.step step

end EngineNode
