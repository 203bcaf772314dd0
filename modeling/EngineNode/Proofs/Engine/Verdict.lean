import EngineNode.Proofs.Engine.Siblings
import EngineNode.Proofs.Header.Filled

/-!
What the answer to a payload says of the store.

A chain is shared with those who put blocks into it without their state, so a payload may meet
blocks that no payload has brought. Where no hashes collide, a block that is stored under the hash
of a payload is still the one that the payload describes.

* `Chain.Truthful`: what an answer promises of the chain afterwards.
* `Chain.Imported.truthful`: whatever comes of a payload, its answer is truthful on a coherent
  chain.
* `Node.newPayload_truthful`: so it is after everything that may happen to a node and to its chain.
-/

namespace EngineNode

/-! ### Everything that happens to a chain -/

/-- Something that happens to a node, or that is done to its chain directly. -/
inductive Action where
  | event (event : Event)
  | operation (operation : Chain.Operation)

/-- The header of the block that an action is to store. -/
def Action.header? (config : ChainConfig) : Action → Option Header
  | .event happened => (happened.block? config).map Block.header
  | .operation done => done.storedHeader?

/-- The headers of all blocks that a row of actions may store. -/
def Action.headers (config : ChainConfig) (actions : List Action) : List Header :=
  (genesisBlock config).header :: actions.filterMap (header? config)

theorem Action.headers_subset_concat (config : ChainConfig) (actions : List Action)
    (action : Action) : headers config actions ⊆ headers config (actions ++ [action]) := by
  rw [headers, headers, List.filterMap_append]
  exact List.cons_subset_cons _ (List.subset_append_left _ _)

theorem Action.mem_headers_concat {config : ChainConfig} (actions : List Action) {action : Action}
    {header : Header} (stored : action.header? config = some header) :
    header ∈ headers config (actions ++ [action]) :=
  List.mem_cons_of_mem _ (List.mem_filterMap.mpr
    ⟨action, List.mem_append_right _ List.mem_cons_self, stored⟩)

namespace Node

/-- The node after an action. -/
def act (node : Node) : Action → Node
  | .event event => node.after event
  | .operation operation => { node with chain := node.chain.perform node.config operation }

/-- The node after a row of actions. -/
def actAll (node : Node) (actions : List Action) : Node := actions.foldl act node

theorem actAll_concat (node : Node) (actions : List Action) (action : Action) :
    node.actAll (actions ++ [action]) = (node.actAll actions).act action :=
  List.foldl_append

theorem act_config (node : Node) (action : Action) : (node.act action).config = node.config := by
  cases action with
  | event event => exact (node.after_step event).1
  | operation => rfl

@[simp] theorem actAll_config (node : Node) (actions : List Action) :
    (node.actAll actions).config = node.config := by
  induction actions using List.reverseRecOn with
  | nil => rfl
  | append_singleton actions action ih => rw [actAll_concat, act_config, ih]

/-- One action keeps a chain coherent and its headers among those that are known. -/
theorem act_coherent {node : Node} {root : Hash} {headers : List Header}
    (free : Header.CollisionFree headers) (coherent : node.chain.Coherent root)
    (among : node.chain.HeadersAmong headers) (action : Action)
    (known : ∀ header ∈ action.header? node.config, header ∈ headers) :
    (node.act action).chain.Coherent root ∧ (node.act action).chain.HeadersAmong headers := by
  cases action with
  | operation operation =>
      exact Chain.perform_coherent node.config free coherent among operation known
  | event event =>
      refine ⟨coherent.step (node.after_step event).2, ?_⟩
      rcases node.after_store event with ⟨blocks, -⟩ | ⟨block, _, _, described, -, inserted⟩
      · intro hash block stored
        exact among hash block (blocks ▸ stored)
      · obtain ⟨_, _, _, _, _, _, _, chain, _⟩ := Chain.insert_eq_ok_iff.mp inserted
        have member : block.header ∈ headers :=
          known block.header (Option.mem_map_of_mem Block.header described)
        have added := among.insertWithoutState member
        intro hash found stored
        have sent : node.act (.event event) = node.after event := rfl
        rw [sent, chain] at stored
        exact added hash found stored

/-- **Whatever happens to a new chain, it stays coherent.** -/
theorem actAll_coherent (node : Node) (actions : List Action) {headers : List Header}
    (free : Header.CollisionFree headers) (known : Action.headers node.config actions ⊆ headers) :
    (node.fresh.actAll actions).chain.Coherent (genesisBlock node.config).hash ∧
      (node.fresh.actAll actions).chain.HeadersAmong headers := by
  induction actions using List.reverseRecOn with
  | nil =>
      refine ⟨Chain.coherent_new node.config, ?_⟩
      intro hash block stored
      obtain ⟨-, rfl⟩ := Chain.lookup_new stored
      exact known List.mem_cons_self
  | append_singleton actions action ih =>
      obtain ⟨coherent, among⟩ := ih
        (List.Subset.trans (Action.headers_subset_concat node.config actions action) known)
      rw [actAll_concat]
      refine act_coherent free coherent among action ?_
      intro header stored
      rw [actAll_config] at stored
      exact known (Action.mem_headers_concat actions stored)

end Node

/-! ### Answers -/

namespace Chain

variable {config : ChainConfig} {chain chain' : Chain} {request : PayloadRequest}
  {result : Except EngineError PayloadStatus}

/-- The answer to a payload tells the truth about the chain afterwards. If it is that the payload is
valid, then a block with the announced hash is stored, and its header is the one that the payload
and its sidecar describe. If it is anything else, and whenever a node in snap sync does not know the
block, nothing has been stored. The canonical chain and what is safe and final never change. -/
structure Truthful (config : ChainConfig) (chain : Chain) (request : PayloadRequest)
    (result : Except EngineError PayloadStatus) (chain' : Chain) : Prop where
  valid : ∀ status, result = .ok status → status.status = .valid →
    status.latestValidHash = some request.payload.blockHash ∧
      ∃ built stored, request.payload.toBlock config request.sidecar = .ok built ∧
        chain'.blockByHash? request.payload.blockHash = some stored ∧
        stored.hash = request.payload.blockHash ∧ stored.header.filled = built.header.filled
  other : (∀ status, result = .ok status → status.status ≠ .valid) →
    chain'.blocks = chain.blocks ∧ chain'.withState = chain.withState
  snap : chain.syncMode = .snap → chain.blockByHash? request.payload.blockHash = none →
    chain'.blocks = chain.blocks ∧ chain'.withState = chain.withState
  canonical : chain'.canonical = chain.canonical
  head : chain'.head = chain.head
  safe : chain'.safe = chain.safe
  finalized : chain'.finalized = chain.finalized

/-- **Whatever comes of a payload, its answer is truthful.** A block that is known was not
necessarily stored by a payload, and its header may differ from the one described in fields that
are encoded identically. -/
theorem Imported.truthful {root : Hash} {headers : List Header}
    (imported : chain.Imported config request result chain') (coherent : chain.Coherent root)
    (among : chain.HeadersAmong headers) (free : Header.CollisionFree headers)
    (known : ∀ block, request.payload.toBlock config request.sidecar = .ok block →
      block.header ∈ headers) : chain.Truthful config request result chain' := by
  cases imported with
  | passed notValid =>
      refine ⟨?_, fun _ => ⟨rfl, rfl⟩, fun _ _ => ⟨rfl, rfl⟩, rfl, rfl, rfl, rfl⟩
      intro status answered valid
      exact absurd valid (notValid status answered)
  | @known block old converted stored =>
      obtain ⟨describes, announced⟩ := Payload.toBlock_eq_ok_iff.mp converted
      have keyed : old.hash = block.hash := coherent.keyed _ _ stored
      have same : old.header.encode = block.header.encode :=
        free _ (among _ _ stored) _ (known block converted) keyed
      have short : block.header.extraData.length ≤ maximumExtraDataSize :=
        describes.extraData_eq ▸ describes.extraData
      refine ⟨?_, fun _ => ⟨rfl, rfl⟩, fun _ _ => ⟨rfl, rfl⟩, rfl, rfl, rfl, rfl⟩
      intro status answered _
      cases answered
      rw [announced] at stored keyed
      exact ⟨congrArg some keyed, block, old, converted, stored, keyed,
        (Header.filled_eq_of_encode_eq same.symm short).symm⟩
  | @stored block _ _ _ converted fresh full inserted =>
      obtain ⟨_, announced⟩ := Payload.toBlock_eq_ok_iff.mp converted
      obtain ⟨_, _, _, _, _, _, _, rfl, _⟩ := insert_eq_ok_iff.mp inserted
      refine ⟨?_, ?_, fun snap => absurd snap full, rfl, rfl, rfl, rfl⟩
      · intro status answered _
        cases answered
        have found :
            (chain.withBlock block).blockByHash? request.payload.blockHash = some block := by
          rw [blockByHash?_withBlock, announced, if_pos rfl]
        exact ⟨congrArg some announced, block, block, converted, found, announced, rfl⟩
      · intro notValid
        exact absurd rfl (notValid _ rfl)

end Chain

/-- **The answer to every payload is truthful**, whatever has happened to the node and to its chain
before, as long as no two headers that are encoded differently have one hash. -/
theorem Node.newPayload_truthful (node : Node) (actions : List Action)
    (version : NewPayloadVersion) (request : PayloadRequest) (wantWitness : Bool)
    (free : Header.CollisionFree (Action.headers node.config
      (actions ++ [.event (.call (.newPayload version request wantWitness))]))) :
    let before := node.fresh.actAll actions
    let answer := before.answer (.newPayload version request wantWitness)
    before.chain.Truthful node.config request answer.1 answer.2.chain := by
  intro before answer
  obtain ⟨coherent, among⟩ := node.actAll_coherent actions free
    (Action.headers_subset_concat node.config actions _)
  have imported := (before.answer_newPayload version request wantWitness).2
  rw [show before.config = node.config from node.fresh.actAll_config actions] at imported
  refine imported.truthful coherent among free ?_
  intro block converted
  refine Action.mem_headers_concat actions ?_
  rw [Action.header?, Event.block?_newPayload version wantWitness converted]
  rfl

namespace Siblings

/-- One block comes in with its payload, the other one is stored without its state. -/
def storedApart : List Action :=
  [.event (.payload {} first), .operation (.insertWithoutState second)]

/-- The payload of the second block, which is stored already. -/
def secondRequest : PayloadRequest := { payload := .ofBlock {} second }

theorem secondRequest_truthful :
    Header.CollisionFree (Action.headers {}
        (storedApart ++ [.event (.call (.newPayload .v1 secondRequest false))])) ∧
      ((Node.new {}).fresh.actAll storedApart).chain.Truthful {} secondRequest
        (((Node.new {}).fresh.actAll storedApart).answer (.newPayload .v1 secondRequest false)).1
        (((Node.new {}).fresh.actAll storedApart).answer
          (.newPayload .v1 secondRequest false)).2.chain := by
  have described (timestamp : UInt64)
      (fee : (nextBaseFee {} genesis.header timestamp).isSome) :
      Event.block? {} (.payload {} (.emptyChild {} genesis timestamp)) =
        some (.emptyChild {} genesis timestamp) :=
    Event.block?_newPayload .v1 false (Payload.toBlock_emptyChild fee rfl)
  have firstDescribed : Event.block? {} (.payload {} first) = some first :=
    described 12 (by decide +kernel)
  have secondDescribed : Event.block? {} (.call (.newPayload .v1 secondRequest false)) =
      some second :=
    described 13 (by decide +kernel)
  have free : Header.CollisionFree (Action.headers {}
      (storedApart ++ [.event (.call (.newPayload .v1 secondRequest false))])) := by
    refine (Header.collisionFree_of_nodup hashes_nodup.of_cons).subset ?_
    simp [Action.headers, storedApart, Action.header?, firstDescribed, secondDescribed,
      Chain.Operation.storedHeader?, genesis]
  exact ⟨free, Node.newPayload_truthful (Node.new {}) storedApart .v1 secondRequest false free⟩

end Siblings

end EngineNode
