import EngineNode.Proofs.Engine.Admission

/-!
The order of payloads.

A node in full sync keeps a list of bad chains, a queue of headers and a sync in progress, and what
is on them depends on the order in which payloads come in. What becomes of the payloads does not, as
long as none of them comes before that of its parent: a payload is valid exactly if its block is
stored in the end, and a block is stored exactly if it extends a parent that is stored in the end.

* `Node.Ready.submitAll_new`: a block that is new at the end of a row of payloads was presented by
  one of them, on top of a stored parent.
* `Node.Ready.parent_first`: a parent that is stored in the end was stored in time.
* `Node.Ready.stored_in_any_order`, `Node.Ready.validates_in_any_order`: what is stored and what is
  valid in one order is so in the other.
* `Node.order_immaterial`: so two orders come to the same, from every state of a run.
-/

namespace EngineNode

/-- A payload as it is sent. -/
structure Submission where
  version : NewPayloadVersion
  request : PayloadRequest
  wantWitness : Bool

namespace Submission

def event (s : Submission) : Event := .call (.newPayload s.version s.request s.wantWitness)

/-- No payload of a row comes before one that describes its parent. -/
def ParentsFirst (row : List Submission) : Prop :=
  row.Pairwise fun earlier later =>
    later.request.payload.blockHash ≠ earlier.request.payload.parentHash

/-- A submission passes everything that is checked before the chain is looked at. -/
abbrev Presents (s : Submission) (config : ChainConfig) (block : Block) : Prop :=
  s.request.Presents s.version config s.wantWitness block

end Submission

namespace Node

open Submission

variable {node : Node} {known : List Block} {s : Submission} {row row' : List Submission}
  {block parent : Block} {hash : Hash}

/-- The node after a row of payloads. -/
def submitAll (node : Node) (row : List Submission) : Node := node.run (row.map event)

@[simp] theorem submitAll_config (node : Node) (row : List Submission) :
    (node.submitAll row).config = node.config :=
  node.run_config _

@[simp] theorem submitAll_nil (node : Node) : node.submitAll [] = node := rfl

theorem submitAll_cons (node : Node) (s : Submission) (row : List Submission) :
    node.submitAll (s :: row) = (node.after s.event).submitAll row := rfl

theorem submitAll_append (node : Node) (row later : List Submission) :
    node.submitAll (row ++ later) = (node.submitAll row).submitAll later := by
  rw [submitAll, List.map_append, run_append]
  rfl

theorem submitAll_concat (node : Node) (row : List Submission) (s : Submission) :
    node.submitAll (row ++ [s]) = (node.submitAll row).after s.event :=
  node.submitAll_append row [s]

/-- What is stored stays stored. -/
theorem submitAll_blockByHash? (row : List Submission)
    (stored : node.chain.blockByHash? hash = some block) :
    (node.submitAll row).chain.blockByHash? hash = some block :=
  node.run_blockByHash? _ stored

/-- A submission is answered to be valid. -/
abbrev Accepts (node : Node) (s : Submission) : Prop :=
  node.Validates s.version s.request s.wantWitness

/-- A node in full sync that has met no blocks but the known ones, and is in order. -/
structure Ready (node : Node) (known : List Block) : Prop where
  orderly : node.Orderly known
  coherent : node.chain.Coherent (genesisBlock node.config).hash
  full : node.chain.syncMode = .full

/-! ### One payload -/

/-- **A block that a payload adds to the store is the one that it presents**, and extends a stored
parent. -/
theorem after_submit_new (fresh : node.chain.blockByHash? hash = none)
    (stored : (node.after s.event).chain.blockByHash? hash = some block) :
    block.hash = hash ∧ s.Presents node.config block ∧ ∃ parent,
      node.chain.blockByHash? block.parentHash = some parent ∧
        block.Extends node.config parent.header := by
  have imported := (node.answer_newPayload s.version s.request s.wantWitness).2
  have valid : node.Accepts s → ∃ block, s.Presents node.config block := presents_of_valid
  rw [event, after_call] at stored
  unfold Accepts Validates at valid
  generalize (node.answer (.newPayload s.version s.request s.wantWitness)).1 = result
    at imported valid
  generalize (node.answer (.newPayload s.version s.request s.wantWitness)).2.chain = chain'
    at imported stored
  cases imported with
  | passed => cases fresh.symm.trans stored
  | known => cases fresh.symm.trans stored
  | stored converted _ _ inserted =>
      obtain ⟨presented, presents⟩ := valid ⟨_, rfl, rfl⟩
      cases converted.symm.trans presents.converted
      obtain ⟨parent, below, fits, rfl⟩ := Block.extends_of_insert inserted
      rw [Chain.blockByHash?_withBlock] at stored
      split at stored
      · rename_i same
        cases stored
        exact ⟨same.symm, presents, parent, below, fits⟩
      · cases fresh.symm.trans stored

/-- What a submission presents is among the blocks that its event describes. -/
theorem block?_of_presents {config : ChainConfig} (presents : s.Presents config block) :
    s.event.block? config = some block :=
  Event.block?_newPayload s.version s.wantWitness presents.converted

/-- A payload does not change how the node catches up. -/
theorem after_submit_syncMode : (node.after s.event).chain.syncMode = node.chain.syncMode := by
  have imported := (node.answer_newPayload s.version s.request s.wantWitness).2
  rw [event, after_call]
  generalize (node.answer (.newPayload s.version s.request s.wantWitness)).1 = result at imported
  generalize (node.answer (.newPayload s.version s.request s.wantWitness)).2.chain = chain'
    at imported ⊢
  cases imported with
  | passed => rfl
  | known => rfl
  | stored _ _ _ inserted =>
      obtain ⟨_, _, _, rfl⟩ := Block.extends_of_insert inserted
      rfl

/-! ### Rows of payloads -/

/-- The blocks of the first part of a row are among those of the row. -/
theorem blocks_before_subset (config : ChainConfig) (before after : List Submission) :
    Event.blocks config (before.map event) ⊆ Event.blocks config ((before ++ after).map event) := by
  rw [List.map_append]
  exact Event.blocks_subset_append _ _ _

/-- What is presented in a row is among the blocks of the row. -/
theorem mem_blocks_of_presents {config : ChainConfig} (member : s ∈ row)
    (presents : s.Presents config block) : block ∈ Event.blocks config (row.map event) :=
  Event.mem_blocks (List.mem_map_of_mem member) (block?_of_presents presents)

/-- A payload that is valid in its place is stored in the end. -/
theorem stored_of_accepts {before : List Submission} (after : List Submission)
    (presents : s.Presents node.config block) (valid : (node.submitAll before).Accepts s) :
    ∃ old, (node.submitAll (before ++ s :: after)).chain.blockByHash? block.hash = some old := by
  rw [← node.submitAll_config before] at presents
  obtain ⟨old, stored⟩ := stored_of_valid presents valid
  rw [submitAll_append, submitAll_cons]
  exact ⟨old, submitAll_blockByHash? after stored⟩

/-- A block that is new after a row of payloads was presented by one of them. -/
theorem submitAll_new (fresh : node.chain.blockByHash? hash = none)
    (stored : (node.submitAll row).chain.blockByHash? hash = some block) :
    block.hash = hash ∧ ∃ before s after parent, row = before ++ s :: after ∧
      s.Presents node.config block ∧
      (node.submitAll before).chain.blockByHash? block.parentHash = some parent ∧
      block.Extends node.config parent.header := by
  induction row generalizing node with
  | nil => cases fresh.symm.trans stored
  | cons first rest ih =>
      rw [submitAll_cons] at stored
      have config := (node.after_step first.event).1
      cases found : (node.after first.event).chain.blockByHash? hash with
      | some other =>
          obtain ⟨keyed, presents, parent, below, fits⟩ := after_submit_new fresh found
          cases stored.symm.trans (submitAll_blockByHash? rest found)
          exact ⟨keyed, [], first, rest, parent, rfl, presents, below, fits⟩
      | none =>
          obtain ⟨keyed, before, s, after, parent, rfl, presents, below, fits⟩ := ih found stored
          rw [config] at presents fits
          exact ⟨keyed, first :: before, s, after, parent, rfl, presents, below, fits⟩

/-- **A parent that is stored in the end was stored in time**, if no payload comes before that of
its parent. A payload that names its own block as the parent is no exception, since its block would
have to be stored before. -/
theorem parent_first {before after : List Submission} {s : Submission}
    (ordered : ParentsFirst (before ++ s :: after))
    (stored : (node.submitAll (before ++ s :: after)).chain.blockByHash?
      s.request.payload.parentHash = some parent) :
    (node.submitAll before).chain.blockByHash? s.request.payload.parentHash = some parent := by
  rw [submitAll_append] at stored
  cases found : (node.submitAll before).chain.blockByHash? s.request.payload.parentHash with
  | some other =>
      rw [submitAll_blockByHash? (s :: after) found] at stored
      exact stored
  | none =>
      obtain ⟨keyed, earlier, later, rest, _, split, presents, below, -⟩ :=
        submitAll_new found stored
      rcases List.cons_eq_append_iff.mp split with ⟨rfl, same⟩ | ⟨between, rfl, same⟩
      · -- The payload would be its own parent.
        obtain ⟨rfl, -⟩ := List.cons.inj same
        rw [presents.parentHash_eq, submitAll_nil] at below
        cases found.symm.trans below
      · have behind : later ∈ after := by
          rw [same]
          exact List.mem_append_right _ List.mem_cons_self
        have apart := List.rel_of_pairwise_cons (List.pairwise_append.mp ordered).2.1 behind
        exact absurd (presents.hash_eq.symm.trans keyed) apart

namespace Ready

/-- One payload keeps a node ready. -/
theorem after (ready : node.Ready known)
    (described : ∀ block ∈ s.event.block? node.config, block ∈ known) :
    (node.after s.event).Ready known := by
  obtain ⟨config, step⟩ := node.after_step s.event
  have unreported : ∀ bad, s.event ≠ .badBlock bad := by
    intro bad same
    cases same
  refine ⟨ready.orderly.after unreported described, ?_, after_submit_syncMode.trans ready.full⟩
  rw [config]
  exact ready.coherent.step step

/-- A row of payloads keeps a node ready. -/
theorem submitAll (ready : node.Ready known)
    (described : Event.blocks node.config (row.map event) ⊆ known) :
    (node.submitAll row).Ready known := by
  induction row generalizing node with
  | nil => exact ready
  | cons s rest ih =>
      have config := (node.after_step s.event).1
      rw [submitAll_cons]
      refine ih (ready.after ?_) ?_
      · intro block sent
        exact described (Event.mem_blocks List.mem_cons_self sent)
      · intro block sent
        rw [config] at sent
        obtain ⟨event, member, sent⟩ := List.mem_filterMap.mp sent
        exact described (Event.mem_blocks (List.mem_cons_of_mem _ member) sent)

/-- Two nodes that are ready agree on what they store under a hash. -/
theorem block_unique {node' : Node} (ready : node.Ready known) (ready' : node'.Ready known)
    (unambiguous : Block.Unambiguous known) (config : node'.config = node.config) {block' : Block}
    (stored : node.chain.blockByHash? hash = some block)
    (stored' : node'.chain.blockByHash? hash = some block') : block' = block := by
  have founded := ready.orderly.founded
  have founded' := ready'.orderly.founded
  have keyed := founded.keyed _ _ stored
  have keyed' := founded'.keyed _ _ stored'
  rw [config] at founded'
  rcases founded.descends _ _ stored with rfl | ⟨among, -⟩
  · rw [← keyed, founded'.genesis] at stored'
    exact (Option.some.inj stored').symm
  · rcases founded'.descends _ _ stored' with rfl | ⟨among', -⟩
    · rw [← keyed', founded.genesis] at stored
      exact Option.some.inj stored
    · exact unambiguous _ among' _ among (keyed'.trans keyed.symm)

/-- The blocks with state are those that are stored. -/
theorem hasState_eq (ready : node.Ready known) (hash : Hash) :
    node.chain.hasState hash = (node.chain.blockByHash? hash).isSome := by
  rw [Bool.eq_iff_iff, Option.isSome_iff_exists]
  constructor
  · intro there
    obtain ⟨_, _, line⟩ := ready.coherent.descends hash (Chain.hasState_eq_true_iff.mp there)
    exact line.stored
  · rintro ⟨block, stored⟩
    exact ready.orderly.founded.hasState hash block stored

/-- A payload is valid if its block extends a parent that is stored in the end. -/
theorem accepts_of_extends (ready : node.Ready known) (unambiguous : Block.Unambiguous known)
    {before after : List Submission}
    (described : Event.blocks node.config ((before ++ s :: after).map event) ⊆ known)
    (ordered : ParentsFirst (before ++ s :: after)) (presents : s.Presents node.config block)
    (stored : (node.submitAll (before ++ s :: after)).chain.blockByHash? block.parentHash =
      some parent) (fits : block.Extends node.config parent.header) :
    (node.submitAll before).Accepts s := by
  have member : block ∈ known :=
    described (mem_blocks_of_presents (List.mem_append_right _ List.mem_cons_self) presents)
  have ready' : (node.submitAll before).Ready known :=
    ready.submitAll (List.Subset.trans (blocks_before_subset _ _ _) described)
  rw [presents.parentHash_eq] at stored
  have inTime := parent_first ordered stored
  rw [← presents.parentHash_eq] at inTime
  have config : (node.submitAll before).config = node.config := node.submitAll_config before
  rw [← config] at presents fits
  exact ready'.orderly.validates_of_extends unambiguous ready'.full presents member inTime fits

variable (ready : node.Ready known) (unambiguous : Block.Unambiguous known)
  (described : Event.blocks node.config (row.map event) ⊆ known)
  (described' : Event.blocks node.config (row'.map event) ⊆ known)
  (ordered' : ParentsFirst row')

include ready unambiguous described described' ordered'

/-- **What is stored in one order is stored in every other.** The induction is on the first row: a
block that is new in it extends a parent that is stored in the end of the second row, so the payload
that presents it is valid there, too. -/
theorem stored_in_any_order (sent : row ⊆ row')
    (stored : (node.submitAll row).chain.blockByHash? hash = some block) :
    (node.submitAll row').chain.blockByHash? hash = some block := by
  induction row using List.reverseRecOn generalizing hash block with
  | nil => exact submitAll_blockByHash? row' stored
  | append_singleton row s ih =>
      have sent' : row ⊆ row' := fun _ member => sent (List.mem_append_left _ member)
      have described₀ : Event.blocks node.config (row.map event) ⊆ known :=
        List.Subset.trans (blocks_before_subset _ _ _) described
      cases found : (node.submitAll row).chain.blockByHash? hash with
      | some other =>
          have kept := submitAll_blockByHash? [s] found
          rw [← submitAll_append] at kept
          cases kept.symm.trans stored
          exact ih described₀ sent' found
      | none =>
          have added := stored
          rw [submitAll_concat] at added
          obtain ⟨rfl, presents, parent, below, fits⟩ := after_submit_new found added
          rw [submitAll_config] at presents fits
          have below' := ih described₀ sent' below
          obtain ⟨before, after, rfl⟩ :=
            List.append_of_mem (sent (List.mem_append_right _ List.mem_cons_self))
          have valid :=
            ready.accepts_of_extends unambiguous described' ordered' presents below' fits
          obtain ⟨again, final⟩ := stored_of_accepts after presents valid
          have config : (node.submitAll (before ++ s :: after)).config =
              (node.submitAll (row ++ [s])).config := by
            rw [submitAll_config, submitAll_config]
          rw [final, (ready.submitAll described).block_unique (ready.submitAll described')
            unambiguous config stored final]

/-- **What is valid in one order is valid in every other.** -/
theorem validates_in_any_order (sent : row ⊆ row') {before after before' after' : List Submission}
    (place : row = before ++ s :: after) (place' : row' = before' ++ s :: after')
    (valid : (node.submitAll before).Accepts s) : (node.submitAll before').Accepts s := by
  obtain ⟨block, presents⟩ := presents_of_valid valid
  rw [submitAll_config] at presents
  obtain ⟨old, final⟩ := stored_of_accepts after presents valid
  rw [← place] at final
  have final' := ready.stored_in_any_order unambiguous described described' ordered' sent final
  have presents' := presents
  rw [← node.submitAll_config before'] at presents'
  cases found : (node.submitAll before').chain.blockByHash? block.hash with
  | some early => exact validates_of_stored presents' found
  | none =>
      -- The block comes in with this payload or a later one, on a parent that is stored then.
      rw [place', submitAll_append] at final'
      obtain ⟨keyed, earlier, later, rest, parent, split, presented, below, fits⟩ :=
        submitAll_new found final'
      rw [submitAll_config] at presented fits
      have laterSent : later ∈ row' := by
        rw [place', split]
        exact List.mem_append_right _ (List.mem_append_right _ List.mem_cons_self)
      have ownSent : s ∈ row' := by
        rw [place']
        exact List.mem_append_right _ List.mem_cons_self
      obtain rfl := unambiguous _ (described' (mem_blocks_of_presents laterSent presented)) _
        (described' (mem_blocks_of_presents ownSent presents)) keyed
      subst place'
      refine ready.accepts_of_extends unambiguous described' ordered' presents ?_ fits
      rw [split, submitAll_append, submitAll_append]
      exact submitAll_blockByHash? (later :: rest) below

end Ready

/-! ### Two orders -/

/-- **The order of payloads does not matter** to a node in full sync, as long as none comes before
that of its parent and no two payloads describe different blocks of one hash. After both orders the
same blocks are stored, and the same have their state, and each payload is valid in its place in one
order exactly if it is in its place in the other. -/
theorem order_immaterial (node : Node) (events : List Event) (row row' : List Submission)
    (unreported : ∀ bad, .badBlock bad ∉ events)
    (full : (node.started.run events).chain.syncMode = .full) (permuted : row.Perm row')
    (ordered : ParentsFirst row) (ordered' : ParentsFirst row')
    (unambiguous : Block.Unambiguous (Event.blocks node.config (events ++ row.map event))) :
    let start := node.started.run events
    (∀ hash, (start.submitAll row).chain.blockByHash? hash =
      (start.submitAll row').chain.blockByHash? hash) ∧
    (∀ hash, (start.submitAll row).chain.hasState hash =
      (start.submitAll row').chain.hasState hash) ∧
    ∀ before s after before' after', row = before ++ s :: after → row' = before' ++ s :: after' →
      ((start.submitAll before).Accepts s ↔ (start.submitAll before').Accepts s) := by
  intro start
  have config : start.config = node.config := node.started.run_config events
  have described : Event.blocks start.config (row.map event) ⊆
      Event.blocks node.config (events ++ row.map event) := by
    rw [config, Event.blocks, Event.blocks, List.filterMap_append]
    exact List.subset_append_right _ _
  have described' : Event.blocks start.config (row'.map event) ⊆
      Event.blocks node.config (events ++ row.map event) := by
    intro block sent
    obtain ⟨event, member, sent⟩ := List.mem_filterMap.mp sent
    exact described (Event.mem_blocks ((permuted.map _).mem_iff.mpr member) sent)
  have ready : start.Ready (Event.blocks node.config (events ++ row.map event)) := by
    refine ⟨node.run_orderly events unreported (Event.blocks_subset_append _ _ _), ?_, full⟩
    rw [config]
    exact node.started.run_coherent events
  have same (hash : Hash) : (start.submitAll row).chain.blockByHash? hash =
      (start.submitAll row').chain.blockByHash? hash := by
    refine Option.ext fun block => ⟨?_, ?_⟩
    · exact ready.stored_in_any_order unambiguous described described' ordered' permuted.subset
    · exact ready.stored_in_any_order unambiguous described' described ordered permuted.symm.subset
  refine ⟨same, ?_, ?_⟩
  · intro hash
    rw [(ready.submitAll described).hasState_eq, (ready.submitAll described').hasState_eq, same]
  · intro before s after before' after' place place'
    constructor
    · exact ready.validates_in_any_order unambiguous described described' ordered' permuted.subset
        place place'
    · exact ready.validates_in_any_order unambiguous described' described ordered
        permuted.symm.subset place' place

end Node

/-! ### Two siblings and a child -/

namespace Family

open Siblings Submission

/-- A block on top of the first of two siblings. -/
def child : Block := .emptyChild {} first 24

/-- The payload of a block, sent in the first version of the method. -/
def submission (block : Block) : Submission := ⟨.v1, { payload := .ofBlock {} block }, false⟩

/-- The second sibling comes last. -/
def secondLast : List Submission := [submission first, submission child] ++ [submission second]

/-- The second sibling comes first. -/
def secondFirst : List Submission := [submission second] ++ [submission first, submission child]

theorem family_nodup : ([genesis, first, child, second].map Block.hash).Nodup := by
  decide +kernel

theorem secondLast_parentsFirst : ParentsFirst secondLast ∧ ParentsFirst secondFirst := by
  have apart := family_nodup
  simp only [List.map_cons, List.map_nil, List.nodup_cons, List.mem_cons, List.not_mem_nil,
    or_false, not_or] at apart
  obtain ⟨⟨genesisFirst, genesisChild, genesisSecond⟩, ⟨firstChild, firstSecond⟩, childSecond, -⟩ :=
    apart
  have blockHash (block : Block) : (submission block).request.payload.blockHash = block.hash := rfl
  have parentHash (block : Block) :
      (submission block).request.payload.parentHash = block.parentHash := rfl
  have onGenesis : first.parentHash = genesis.hash ∧ second.parentHash = genesis.hash := ⟨rfl, rfl⟩
  have onFirst : child.parentHash = first.hash := rfl
  constructor <;>
    simp [ParentsFirst, secondLast, secondFirst, blockHash, parentHash, onGenesis, onFirst,
      Ne.symm genesisFirst, Ne.symm genesisChild, Ne.symm genesisSecond, Ne.symm firstSecond]

theorem blocks_secondLast :
    Event.blocks {} ([] ++ secondLast.map event) = [first, child, second] := by
  have described {parent : Block} {timestamp : UInt64}
      (fee : (nextBaseFee {} parent.header timestamp).isSome) :
      (submission (.emptyChild {} parent timestamp)).event.block? {} =
        some (.emptyChild {} parent timestamp) :=
    Node.block?_of_presents (.of_emptyChild fee rfl rfl)
  have firstDescribed : (submission first).event.block? {} = some first :=
    described (by decide +kernel)
  have childDescribed : (submission child).event.block? {} = some child :=
    described (by decide +kernel)
  have secondDescribed : (submission second).event.block? {} = some second :=
    described (by decide +kernel)
  simp [Event.blocks, secondLast, firstDescribed, childDescribed, secondDescribed]

/-- **Two siblings and a child of the first come to the same in both orders.** -/
theorem siblings_immaterial :
    let start := (Node.new {}).started.run []
    (∀ hash, (start.submitAll secondLast).chain.blockByHash? hash =
      (start.submitAll secondFirst).chain.blockByHash? hash) ∧
    (∀ hash, (start.submitAll secondLast).chain.hasState hash =
      (start.submitAll secondFirst).chain.hasState hash) ∧
    ∀ before s after before' after', secondLast = before ++ s :: after →
      secondFirst = before' ++ s :: after' →
      ((start.submitAll before).Accepts s ↔ (start.submitAll before').Accepts s) := by
  have unambiguous : Block.Unambiguous (Event.blocks {} ([] ++ secondLast.map event)) := by
    intro block member other member' same
    rw [blocks_secondLast] at member member'
    exact List.inj_on_of_nodup_map family_nodup (List.mem_cons_of_mem _ member)
      (List.mem_cons_of_mem _ member') same
  have unreported : ∀ bad, Event.badBlock bad ∉ ([] : List Event) := fun _ => List.not_mem_nil
  have permuted : secondLast.Perm secondFirst := List.perm_append_comm
  have full : ((Node.new {}).started.run []).chain.syncMode = .full := rfl
  exact Node.order_immaterial (Node.new {}) [] secondLast secondFirst unreported full permuted
    secondLast_parentsFirst.1 secondLast_parentsFirst.2 unambiguous

end Family

end EngineNode
