import EngineNode.Proofs.Engine.Order

/-!
Blocks that will never be stored.

The tips of bad chains are remembered by their hashes alone. Each of them is doomed: the block that
was sent under the hash does not extend its parent, or its parent is doomed itself. Where no two
blocks are sent under one hash, no stored block is doomed, so the list of bad chains never stands in
the way of a block that could be stored.

* `Node.run_orderly`: after every run the tips are doomed, and stored blocks extend their parents.
* `Chain.Doomed.not_stored`: a doomed block is not stored.
* `Node.Orderly.not_tip`: a block that extends a stored parent is no tip.
-/

namespace EngineNode

/-- The blocks that a row of events describes. -/
def Event.blocks (config : ChainConfig) (events : List Event) : List Block :=
  events.filterMap (block? config)

/-- No two blocks of a list have one hash. -/
def Block.Unambiguous (blocks : List Block) : Prop :=
  ∀ block ∈ blocks, ∀ other ∈ blocks, block.hash = other.hash → block = other

theorem Event.mem_blocks {config : ChainConfig} {events : List Event} {event : Event}
    {block : Block} (member : event ∈ events) (described : event.block? config = some block) :
    block ∈ blocks config events :=
  List.mem_filterMap.mpr ⟨event, member, described⟩

theorem Event.blocks_subset_append (config : ChainConfig) (events later : List Event) :
    blocks config events ⊆ blocks config (events ++ later) := by
  rw [blocks, blocks, List.filterMap_append]
  exact List.subset_append_left _ _

/-! ### What is stored -/

namespace Chain

variable {config : ChainConfig} {chain chain' : Chain} {known : List Block} {block parent : Block}
  {tip : Hash}

/-- The genesis block is stored. Every other stored block is one of those that are known, and
extends its parent. All of them have their state. -/
structure Founded (chain : Chain) (config : ChainConfig) (known : List Block) : Prop where
  genesis : chain.blockByHash? (genesisBlock config).hash = some (genesisBlock config)
  keyed : ∀ hash block, chain.blockByHash? hash = some block → block.hash = hash
  hasState : ∀ hash block, chain.blockByHash? hash = some block → chain.hasState hash = true
  descends : ∀ hash block, chain.blockByHash? hash = some block →
    block = genesisBlock config ∨ block ∈ known ∧ ∃ parent,
      chain.blockByHash? block.parentHash = some parent ∧ block.Extends config parent.header

theorem founded_new (config : ChainConfig) (known : List Block) :
    (new config).Founded config known where
  genesis := List.lookup_cons_self
  keyed hash block stored := by
    obtain ⟨rfl, rfl⟩ := lookup_new stored
    rfl
  hasState hash block stored := by
    obtain ⟨rfl, -⟩ := lookup_new stored
    exact List.contains_iff_mem.mpr List.mem_cons_self
  descends hash block stored := .inl (lookup_new stored).2

theorem Founded.of_store (founded : chain.Founded config known)
    (blocks : chain'.blocks = chain.blocks) (withState : chain'.withState = chain.withState) :
    chain'.Founded config known := by
  have same : chain'.blockByHash? = chain.blockByHash? :=
    funext fun hash => congrArg (List.lookup hash) blocks
  have sameState : chain'.hasState = chain.hasState :=
    funext fun hash => congrArg (List.contains · hash) withState
  obtain ⟨genesis, keyed, hasState, descends⟩ := founded
  rw [← same] at genesis keyed hasState descends
  rw [← sameState] at hasState
  exact ⟨genesis, keyed, hasState, descends⟩

/-- A known block that extends its stored parent may be stored under a hash that is not taken. -/
theorem Founded.withBlock (founded : chain.Founded config known)
    (fresh : chain.blockByHash? block.hash = none) (member : block ∈ known)
    (stored : chain.blockByHash? block.parentHash = some parent)
    (fits : block.Extends config parent.header) : (chain.withBlock block).Founded config known := by
  have kept {hash : Hash} {old : Block} (found : chain.blockByHash? hash = some old) :
      (chain.withBlock block).blockByHash? hash = some old :=
    blockByHash?_withBlock_of_some fresh found
  have cases {hash : Hash} {found : Block}
      (h : (chain.withBlock block).blockByHash? hash = some found) :
      hash = block.hash ∧ found = block ∨ chain.blockByHash? hash = some found := by
    rw [blockByHash?_withBlock] at h
    split at h
    · rename_i same
      exact .inl ⟨same, (Option.some.inj h).symm⟩
    · exact .inr h
  constructor
  case genesis => exact kept founded.genesis
  case keyed =>
    intro hash found h
    rcases cases h with ⟨rfl, rfl⟩ | old
    · rfl
    · exact founded.keyed hash found old
  case hasState =>
    intro hash found h
    refine List.contains_iff_mem.mpr ?_
    rcases cases h with ⟨rfl, -⟩ | old
    · exact List.mem_cons_self
    · exact List.mem_cons_of_mem _ (List.contains_iff_mem.mp (founded.hasState hash found old))
  case descends =>
    intro hash found h
    rcases cases h with ⟨-, rfl⟩ | old
    · exact .inr ⟨member, parent, kept stored, fits⟩
    · refine (founded.descends hash found old).imp_right ?_
      rintro ⟨among, below, storedBelow, extends_⟩
      exact ⟨among, below, kept storedBelow, extends_⟩

/-! ### What will never be stored -/

/-- A hash is doomed: a block that is known under it does not extend its parent, or its parent is
doomed. -/
inductive Doomed (chain : Chain) (config : ChainConfig) (known : List Block) : Hash → Prop where
  | failed {block parent : Block} : block ∈ known → block.hash ≠ (genesisBlock config).hash →
      chain.blockByHash? block.parentHash = some parent → ¬block.Extends config parent.header →
      Doomed chain config known block.hash
  | above {block : Block} : block ∈ known → block.hash ≠ (genesisBlock config).hash →
      Doomed chain config known block.parentHash → Doomed chain config known block.hash

theorem Doomed.mono (doomed : chain.Doomed config known tip)
    (kept : ∀ hash block, chain.blockByHash? hash = some block →
      chain'.blockByHash? hash = some block) : chain'.Doomed config known tip := by
  induction doomed with
  | failed member other stored refused => exact .failed member other (kept _ _ stored) refused
  | above member other _ ih => exact .above member other ih

/-- **A doomed block is not stored.** -/
theorem Doomed.not_stored (doomed : chain.Doomed config known tip)
    (founded : chain.Founded config known) (unambiguous : Block.Unambiguous known) :
    chain.blockByHash? tip = none := by
  -- A block stored under the hash would be the known one, whose parent does not allow for it.
  have contradicts {block : Block} (member : block ∈ known)
      (other : block.hash ≠ (genesisBlock config).hash)
      (refuted : ∀ parent, chain.blockByHash? block.parentHash = some parent →
        ¬block.Extends config parent.header) : chain.blockByHash? block.hash = none := by
    refine Option.eq_none_iff_forall_ne_some.mpr ?_
    intro stored found
    have keyed := founded.keyed _ _ found
    rcases founded.descends _ _ found with rfl | ⟨among, parent, below, fits⟩
    · exact other keyed.symm
    · obtain rfl := unambiguous _ among _ member keyed
      exact refuted parent below fits
  induction doomed with
  | failed member other stored refused =>
      refine contradicts member other ?_
      intro parent found
      cases stored.symm.trans found
      exact refused
  | above member other _ ih =>
      refine contradicts member other ?_
      intro parent found
      cases ih.symm.trans found

end Chain

/-! ### Runs -/

namespace Node

variable {node : Node} {known : List Block} {event : Event}

/-- Stored blocks extend their parents, and the tips of bad chains are doomed. -/
structure Orderly (node : Node) (known : List Block) : Prop where
  founded : node.chain.Founded node.config known
  tips : ∀ tip bad, node.badChains.tips.get? tip = some bad →
    node.chain.Doomed node.config known tip

/-- One event keeps what is stored in order. -/
theorem founded_after (founded : node.chain.Founded node.config known)
    (described : ∀ block ∈ event.block? node.config, block ∈ known) :
    (node.after event).chain.Founded node.config known := by
  rcases node.after_store event with ⟨blocks, withState⟩ | ⟨block, _, _, sent, fresh, inserted⟩
  · exact founded.of_store blocks withState
  · obtain ⟨parent, stored, fits, same⟩ := Block.extends_of_insert inserted
    rw [same]
    exact founded.withBlock fresh (described block sent) stored fits

/-- Only payloads add tips: one that fails, and one on top of another tip. -/
theorem doomed_after (orderly : node.Orderly known) (unreported : ∀ bad, event ≠ .badBlock bad)
    (described : ∀ block ∈ event.block? node.config, block ∈ known) {tip : Hash} {bad : Header}
    (found : (node.after event).badChains.tips.get? tip = some bad) :
    node.chain.Doomed node.config known tip := by
  rcases node.after_cases event with beside |
    ⟨version, choice, attributes, wantWitness, rfl⟩ | ⟨version, request, wantWitness, rfl⟩ |
    ⟨bad, rfl⟩ | ⟨mode, rfl⟩ | ⟨miner, rfl⟩
  · rw [beside.badChains] at found
    exact orderly.tips tip bad found
  · have ordered := node.answer_forkchoiceUpdated_orders version choice attributes wantWitness
    exact orderly.tips tip bad (ordered.badChains tip bad found)
  · obtain ⟨-, judged⟩ := node.answer_newPayload_judges version request wantWitness
    rw [after_call] at found
    generalize (node.answer (.newPayload version request wantWitness)).1 = result at judged
    generalize (node.answer (.newPayload version request wantWitness)).2.badChains = chains'
      at found judged
    have sent {block : Block}
        (converted : request.payload.toBlock node.config request.sidecar = .ok block) :
        block ∈ known :=
      described block (Event.block?_newPayload version wantWitness converted)
    have other {block : Block} (fresh : node.chain.blockByHash? block.hash = none) :
        block.hash ≠ (genesisBlock node.config).hash := by
      intro same
      rw [same, orderly.founded.genesis] at fresh
      cases fresh
    cases judged with
    | passed covers => exact orderly.tips tip bad (covers tip bad found)
    | @rejected block worse _ converted fresh before gains =>
        rcases gains tip bad found with earlier | ⟨rfl, -⟩
        · exact orderly.tips tip bad earlier
        · rcases before with itself | parent
          · exact orderly.tips _ worse itself
          · exact .above (sent converted) (other fresh) (orderly.tips _ worse parent)
    | @failed block parent error _ converted fresh stored hasState refused gains =>
        rcases gains tip bad found with earlier | ⟨rfl, -⟩
        · exact orderly.tips tip bad earlier
        · refine .failed (sent converted) (other fresh) stored ?_
          intro fits
          obtain ⟨witness, inserted⟩ := fits.insert hasState stored wantWitness
          cases inserted.symm.trans refused
  · exact absurd rfl (unreported bad)
  · exact orderly.tips tip bad found
  · exact orderly.tips tip bad found

theorem Orderly.after (orderly : node.Orderly known) (unreported : ∀ bad, event ≠ .badBlock bad)
    (described : ∀ block ∈ event.block? node.config, block ∈ known) :
    (node.after event).Orderly known := by
  obtain ⟨config, step⟩ := node.after_step event
  constructor
  · rw [config]
    exact founded_after orderly.founded described
  · intro tip bad found
    rw [config]
    exact (doomed_after orderly unreported described found).mono fun _ _ => step.blockByHash?

/-- **After every run stored blocks extend their parents and tips are doomed.** -/
theorem run_orderly (node : Node) (events : List Event)
    (unreported : ∀ bad, .badBlock bad ∉ events)
    (described : Event.blocks node.config events ⊆ known) :
    (node.started.run events).Orderly known := by
  induction events using List.reverseRecOn with
  | nil => exact ⟨Chain.founded_new node.config known, fun _ _ found => by cases found⟩
  | append_singleton events event ih =>
      have orderly := ih (fun bad member => unreported bad (List.mem_append_left _ member))
        (List.Subset.trans (Event.blocks_subset_append _ _ _) described)
      rw [run_concat]
      refine orderly.after ?_ ?_
      · rintro bad rfl
        exact unreported bad (List.mem_append_right _ List.mem_cons_self)
      · intro block sent
        rw [run_config] at sent
        exact described (Event.mem_blocks (List.mem_append_right _ List.mem_cons_self) sent)

/-- **A block that extends a stored parent is no tip of a bad chain.** -/
theorem Orderly.not_tip (orderly : node.Orderly known) (unambiguous : Block.Unambiguous known)
    {block parent : Block} (member : block ∈ known)
    (stored : node.chain.blockByHash? block.parentHash = some parent)
    (fits : block.Extends node.config parent.header) :
    node.badChains.tips.get? block.hash = none := by
  refine Option.eq_none_iff_forall_ne_some.mpr ?_
  intro bad found
  have doomed := orderly.tips _ bad found
  generalize named : block.hash = tip at doomed
  cases doomed with
  | @failed other parent' among _ stored' refused =>
      obtain rfl := unambiguous block member other among named
      cases stored.symm.trans stored'
      exact refused fits
  | @above other among _ below =>
      obtain rfl := unambiguous block member other among named
      cases stored.symm.trans (below.not_stored orderly.founded unambiguous)

end Node

end EngineNode
