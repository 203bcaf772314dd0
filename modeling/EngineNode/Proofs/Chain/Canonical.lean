import EngineNode.Proofs.Chain.Insert
import EngineNode.Proofs.Chain.Lineage
import EngineNode.Proofs.Header.Encoding

/-!
The canonical chain under arbitrary operations.

Blocks of any number and parent can be stored without state, so the stored blocks by themselves
say nothing about the canonical chain. What keeps it in one piece is a second fact: blocks with
state descend from the genesis block in steps of one. `Chain.Coherent` holds both, every operation
keeps it, and reorganizations replace the canonical chain by the lineage of the new head
(`Coherent.newBranch_append`).

* `Coherent.contiguous`: in a coherent chain the canonical numbers run from zero to that of the
  head, and each canonical block is the child of the one before it.
* `run_contiguous`: so it is after every sequence of operations from a genesis block, as long as
  no two headers that are encoded differently have one hash.
-/

namespace EngineNode

namespace Chain

/-- The canonical hashes are those of a row of blocks from the genesis block to the head, one for
each number. -/
structure Contiguous (chain : Chain) (root : Hash) : Prop where
  keys : ∀ n, (chain.canonicalHash? n).isSome ↔ n ≤ chain.head.number
  genesis : chain.canonicalHash? 0 = some root
  head : chain.canonicalHash? chain.head.number = some chain.head.hash
  linked : ∀ n, 0 < n → n ≤ chain.head.number → ∃ hash block,
    chain.canonicalHash? n = some hash ∧ chain.blockByHash? hash = some block ∧
      block.number = n ∧ chain.canonicalHash? (n - 1) = some block.parentHash

/-- Blocks are stored under their hashes, those with state descend from the genesis block, and the
canonical chain is the lineage of the head. -/
structure Coherent (chain : Chain) (root : Hash) : Prop where
  keyed : ∀ hash block, chain.blocks.lookup hash = some block → block.hash = hash
  descends : ∀ hash ∈ chain.withState, ∃ n l, Lineage chain.blocks root n hash l
  canonical : Lineage chain.blocks root chain.head.number chain.head.hash chain.canonical

/-- A block that is stored already under the hash of this one has its number and parent. -/
def LinksAs (chain : Chain) (block : Block) : Prop :=
  ∀ old, chain.blocks.lookup block.hash = some old →
    old.number = block.number ∧ old.parentHash = block.parentHash

variable {chain chain' : Chain} {root hash : Hash} {block : Block}

/-! ### Reading a coherent chain -/

namespace Coherent

theorem canonicalHash?_eq_some_iff (coherent : chain.Coherent root) {n : UInt64} :
    chain.canonicalHash? n = some hash ↔ (n, hash) ∈ chain.canonical :=
  coherent.canonical.lookup_eq_some_iff

/-- **A coherent chain is contiguous.** -/
theorem contiguous (coherent : chain.Coherent root) : chain.Contiguous root where
  keys n := by
    constructor
    · intro found
      obtain ⟨hash, found⟩ := Option.isSome_iff_exists.mp found
      exact coherent.canonical.le_of_mem (coherent.canonicalHash?_eq_some_iff.mp found)
    · intro le
      obtain ⟨hash, member⟩ := coherent.canonical.exists_mem_of_le le
      exact Option.isSome_iff_exists.mpr ⟨hash, coherent.canonicalHash?_eq_some_iff.mpr member⟩
  genesis := coherent.canonicalHash?_eq_some_iff.mpr coherent.canonical.root_mem
  head := coherent.canonicalHash?_eq_some_iff.mpr coherent.canonical.mem_self
  linked n pos le := by
    obtain ⟨hash, member⟩ := coherent.canonical.exists_mem_of_le le
    obtain ⟨block, stored, number, previous⟩ := coherent.canonical.link member pos
    exact ⟨hash, block, coherent.canonicalHash?_eq_some_iff.mpr member, stored, number,
      coherent.canonicalHash?_eq_some_iff.mpr previous⟩

end Coherent

theorem isCanonical_eq_true_iff {n : UInt64} :
    chain.isCanonical n hash = true ↔ chain.canonicalHash? n = some hash :=
  decide_eq_true_iff

theorem hasState_eq_true_iff : chain.hasState hash = true ↔ hash ∈ chain.withState :=
  List.contains_iff_mem

/-! ### Storing blocks -/

theorem lookup_insertWithoutState (chain : Chain) (block : Block) (hash : Hash) :
    (chain.insertWithoutState block).blocks.lookup hash =
      if hash = block.hash then some block else chain.blocks.lookup hash := by
  by_cases same : hash = block.hash
  · simp [insertWithoutState, same]
  · simp [insertWithoutState, List.lookup_cons, beq_eq_false_iff_ne.mpr same, same]

/-- Storing a block keeps the lineages that were there. -/
theorem lineage_insertWithoutState {n : UInt64} {l : List (UInt64 × Hash)}
    (links : chain.LinksAs block) (line : Lineage chain.blocks root n hash l) :
    Lineage (chain.insertWithoutState block).blocks root n hash l := by
  refine line.mono ?_
  intro at_ old stored
  rw [lookup_insertWithoutState]
  by_cases same : at_ = block.hash
  · obtain ⟨number, parent⟩ := links old (same ▸ stored)
    exact ⟨block, by rw [if_pos same], number.symm, parent.symm⟩
  · exact ⟨old, by rw [if_neg same, stored], rfl, rfl⟩

namespace Coherent

theorem insertWithoutState (coherent : chain.Coherent root) (links : chain.LinksAs block) :
    (chain.insertWithoutState block).Coherent root where
  keyed hash stored h := by
    rw [lookup_insertWithoutState] at h
    split at h
    · rename_i same
      cases h
      exact same.symm
    · exact coherent.keyed hash stored h
  descends hash h := by
    obtain ⟨n, l, line⟩ := coherent.descends hash h
    exact ⟨n, l, lineage_insertWithoutState links line⟩
  canonical := lineage_insertWithoutState links coherent.canonical

/-- A block that follows a parent with state joins the blocks with state. -/
theorem withBlock (coherent : chain.Coherent root) (links : chain.LinksAs block) {parent : Block}
    (hasState : chain.hasState block.parentHash = true)
    (stored : chain.blockByHash? block.parentHash = some parent)
    (next : block.number.toNat = parent.number.toNat + 1) :
    (chain.withBlock block).Coherent root where
  keyed := (coherent.insertWithoutState links).keyed
  canonical := (coherent.insertWithoutState links).canonical
  descends hash member := by
    rcases List.mem_cons.mp member with rfl | member
    · obtain ⟨n, l, line⟩ := coherent.descends _ (hasState_eq_true_iff.mp hasState)
      refine ⟨block.number, (block.number, block.hash) :: l, ?_⟩
      have line' := lineage_insertWithoutState links line
      refine .child ?_ (line.number_eq stored ▸ next) line'
      rw [show (chain.withBlock block).blocks = (chain.insertWithoutState block).blocks from rfl,
        lookup_insertWithoutState, if_pos rfl]
    · exact (coherent.insertWithoutState links).descends hash member

/-- Inserting a block with state keeps a chain coherent. -/
theorem insert (coherent : chain.Coherent root) (links : chain.LinksAs block)
    {config : ChainConfig} {wantWitness : Bool} {witness : Option Witness}
    (inserted : chain.insert config block wantWitness = .ok (chain', witness)) :
    chain'.Coherent root := by
  obtain ⟨parent, _, hasState, stored, follows, _, _, rfl, _⟩ := insert_eq_ok_iff.mp inserted
  exact coherent.withBlock links hasState stored follows.number

/-! ### Moving the head -/

/-- The branch found on the way down and what is kept of the canonical chain make up the lineage
of the block where the walk began. -/
theorem newBranch_append (coherent : chain.Coherent root) {fuel : Nat}
    {branch : List (UInt64 × Hash)} {ancestor : UInt64}
    (walked : chain.newBranch fuel hash = .ok (branch, ancestor)) {n : UInt64}
    {l : List (UInt64 × Hash)} (line : Lineage chain.blocks root n hash l) :
    branch ++ chain.canonical.filter (fun entry => entry.1 ≤ ancestor) = l := by
  induction fuel generalizing hash branch n l with
  | zero => cases walked
  | succ fuel ih =>
      unfold newBranch at walked
      cases stored : chain.blockByHash? hash with
      | none => simp [stored] at walked
      | some block =>
          simp only [stored] at walked
          split at walked
          · rename_i canonical
            cases walked
            have member := coherent.canonicalHash?_eq_some_iff.mp
              (isCanonical_eq_true_iff.mp canonical)
            exact ((coherent.canonical.truncate member).unique line).2
          · rename_i other
            obtain ⟨⟨lower, _⟩, below, same⟩ := bind_eq_ok_iff.mp walked
            cases same
            cases line with
            | root stored' zero =>
                -- The genesis block is canonical, so the walk has not gone past it.
                cases stored.symm.trans stored'
                refine absurd (isCanonical_eq_true_iff.mpr ?_) other
                rw [zero]
                exact coherent.contiguous.genesis
            | child stored' _ line' =>
                cases stored.symm.trans stored'
                rw [List.cons_append, ih below line']

end Coherent

/-- What a successful change of the head comes to. -/
theorem setCanonical_eq_ok {logs : List LogEntry}
    (moved : chain.setCanonical hash = .ok (chain', logs)) :
    ∃ head branch ancestor, chain.blockByHash? hash = some head ∧ chain.hasState hash = true ∧
      chain.newBranch (chain.blocks.length + 1) hash = .ok (branch, ancestor) ∧
      chain' = { chain with
        canonical := branch ++ chain.canonical.filter (fun entry => entry.1 ≤ ancestor)
        head } := by
  unfold setCanonical at moved
  split at moved
  · cases moved
  · rename_i head stored
    split at moved
    · rename_i hasState
      obtain ⟨⟨branch, ancestor⟩, walked, same⟩ := bind_eq_ok_iff.mp moved
      cases same
      exact ⟨head, branch, ancestor, stored, hasState, mapError_eq_ok_iff.mp walked, rfl⟩
    · cases moved

/-- A child of a canonical block that is not canonical itself takes the place of all above its
parent when it becomes the head. -/
theorem setCanonical_child {parent : Block}
    (hasState : chain.hasState block.hash = true)
    (stored : chain.blockByHash? block.hash = some block)
    (other : chain.isCanonical block.number block.hash = false)
    (storedParent : chain.blockByHash? block.parentHash = some parent)
    (canonical : chain.isCanonical parent.number block.parentHash = true) :
    ∃ logs, chain.setCanonical block.hash = .ok ({ chain with
      canonical := (block.number, block.hash) ::
        chain.canonical.filter (fun entry => entry.1 ≤ parent.number),
      head := block }, logs) := by
  obtain ⟨n, length⟩ : ∃ n, chain.blocks.length = n + 1 := by
    cases blocks : chain.blocks with
    | nil => simp [blockByHash?, blocks] at stored
    | cons entry rest => exact ⟨rest.length, rfl⟩
  have walked : chain.newBranch (chain.blocks.length + 1) block.hash =
      .ok ([(block.number, block.hash)], parent.number) := by
    rw [length, newBranch]
    simp only [stored, other, Bool.false_eq_true, if_false]
    rw [newBranch]
    simp only [storedParent, canonical, if_true]
    rfl
  simp only [setCanonical, stored, hasState, if_true, walked]
  exact ⟨_, rfl⟩

/-- The new canonical chain is the lineage of the new head. -/
theorem Coherent.setCanonical (coherent : chain.Coherent root) {logs : List LogEntry}
    (moved : chain.setCanonical hash = .ok (chain', logs)) : chain'.Coherent root := by
  obtain ⟨head, branch, ancestor, stored, hasState, walked, rfl⟩ := setCanonical_eq_ok moved
  obtain ⟨n, l, line⟩ := coherent.descends hash (hasState_eq_true_iff.mp hasState)
  refine ⟨coherent.keyed, coherent.descends, ?_⟩
  rw [coherent.newBranch_append walked line]
  obtain rfl := line.number_eq stored
  obtain rfl := coherent.keyed hash head stored
  exact line

/-! ### Runs -/

/-- A change to a chain. -/
inductive Operation where
  | insertWithoutState (block : Block)
  | insert (block : Block) (wantWitness : Bool)
  | setCanonical (block : Block)
  | setSafe (header : Header)
  | setFinalized (header : Header)

/-- The header of the block that an operation is to store. -/
def Operation.storedHeader? : Operation → Option Header
  | .insertWithoutState block | .insert block _ => some block.header
  | .setCanonical _ | .setSafe _ | .setFinalized _ => none

/-- Carries an operation out. One that fails leaves the chain as it is. -/
def perform (config : ChainConfig) (chain : Chain) : Operation → Chain
  | .insertWithoutState block => chain.insertWithoutState block
  | .insert block wantWitness =>
    match chain.insert config block wantWitness with
    | .ok (chain', _) => chain'
    | .error _ => chain
  | .setCanonical block =>
    match chain.setCanonical block.hash with
    | .ok (chain', _) => chain'
    | .error _ => chain
  | .setSafe header => chain.setSafe header
  | .setFinalized header => chain.setFinalized header

theorem perform_insert {config : ChainConfig} {wantWitness : Bool} {witness : Option Witness}
    (inserted : chain.insert config block wantWitness = .ok (chain', witness)) :
    chain.perform config (.insert block wantWitness) = chain' := by
  rw [perform, inserted]

theorem perform_setCanonical {config : ChainConfig} {logs : List LogEntry}
    (moved : chain.setCanonical block.hash = .ok (chain', logs)) :
    chain.perform config (.setCanonical block) = chain' := by
  rw [perform, moved]

/-- Carries operations out on a new chain. -/
def run (config : ChainConfig) (operations : List Operation) : Chain :=
  operations.foldl (perform config) (.new config)

/-- The headers of all blocks that a run may store. -/
def runHeaders (config : ChainConfig) (operations : List Operation) : List Header :=
  (genesisBlock config).header :: operations.filterMap Operation.storedHeader?

/-- Every stored block has one of these headers. -/
def HeadersAmong (chain : Chain) (headers : List Header) : Prop :=
  ∀ hash block, chain.blocks.lookup hash = some block → block.header ∈ headers

variable {headers : List Header}

/-- A new chain holds nothing but its genesis block. -/
theorem lookup_new {config : ChainConfig}
    (stored : (Chain.new config).blocks.lookup hash = some block) :
    hash = (genesisBlock config).hash ∧ block = genesisBlock config := by
  obtain ⟨_, _, same, -⟩ := List.lookup_eq_some_iff.mp stored
  cases List.mem_singleton.mp (same ▸ List.mem_append_right _ List.mem_cons_self)
  exact ⟨rfl, rfl⟩

theorem coherent_new (config : ChainConfig) :
    (Chain.new config).Coherent (genesisBlock config).hash := by
  have line : Lineage (Chain.new config).blocks (genesisBlock config).hash 0
      (genesisBlock config).hash [(0, (genesisBlock config).hash)] :=
    .root List.lookup_cons_self rfl
  constructor
  · intro hash block stored
    obtain ⟨rfl, rfl⟩ := lookup_new stored
    rfl
  · intro hash member
    cases List.mem_singleton.mp member
    exact ⟨_, _, line⟩
  · exact line

/-- Where no hashes collide, storing a block a second time does not change its link. -/
theorem Coherent.linksAs (coherent : chain.Coherent root) (free : Header.CollisionFree headers)
    (among : chain.HeadersAmong headers) (member : block.header ∈ headers) :
    chain.LinksAs block := by
  intro old stored
  have same : old.header.encode = block.header.encode :=
    free _ (among _ _ stored) _ member (coherent.keyed _ _ stored)
  exact ⟨Header.number_eq_of_encode_eq same, Header.parentHash_eq_of_encode_eq same⟩

theorem HeadersAmong.insertWithoutState (among : chain.HeadersAmong headers)
    (member : block.header ∈ headers) :
    (chain.insertWithoutState block).HeadersAmong headers := by
  intro hash stored h
  rw [lookup_insertWithoutState] at h
  split at h
  · cases h
    exact member
  · exact among hash stored h

/-- One operation keeps a chain coherent. -/
theorem perform_coherent (config : ChainConfig) (free : Header.CollisionFree headers)
    (coherent : chain.Coherent root) (among : chain.HeadersAmong headers) (operation : Operation)
    (known : ∀ header ∈ operation.storedHeader?, header ∈ headers) :
    (chain.perform config operation).Coherent root ∧
      (chain.perform config operation).HeadersAmong headers := by
  cases operation with
  | insertWithoutState block =>
      have member := known block.header rfl
      exact ⟨coherent.insertWithoutState (coherent.linksAs free among member),
        among.insertWithoutState member⟩
  | insert block wantWitness =>
      have member := known block.header rfl
      cases inserted : chain.insert config block wantWitness with
      | error e =>
          simp only [perform, inserted]
          exact ⟨coherent, among⟩
      | ok result =>
          simp only [perform, inserted]
          refine ⟨coherent.insert (coherent.linksAs free among member) inserted, ?_⟩
          obtain ⟨_, _, _, _, _, _, _, same, _⟩ := insert_eq_ok_iff.mp inserted
          exact same ▸ among.insertWithoutState member
  | setCanonical block =>
      cases moved : chain.setCanonical block.hash with
      | error e =>
          simp only [perform, moved]
          exact ⟨coherent, among⟩
      | ok result =>
          simp only [perform, moved]
          refine ⟨coherent.setCanonical moved, ?_⟩
          obtain ⟨_, _, _, _, _, _, same⟩ := setCanonical_eq_ok moved
          exact same ▸ among
  | setSafe header => exact ⟨⟨coherent.keyed, coherent.descends, coherent.canonical⟩, among⟩
  | setFinalized header => exact ⟨⟨coherent.keyed, coherent.descends, coherent.canonical⟩, among⟩

/-- A row of operations keeps a chain coherent, wherever it begins. -/
theorem foldl_perform_coherent (config : ChainConfig) (free : Header.CollisionFree headers)
    (coherent : chain.Coherent root) (among : chain.HeadersAmong headers)
    (operations : List Operation)
    (known : ∀ operation ∈ operations, ∀ header ∈ operation.storedHeader?, header ∈ headers) :
    (operations.foldl (perform config) chain).Coherent root := by
  induction operations generalizing chain with
  | nil => exact coherent
  | cons operation rest ih =>
      obtain ⟨coherent', among'⟩ := perform_coherent config free coherent among operation
        (known operation List.mem_cons_self)
      refine ih coherent' among' ?_
      intro later member
      exact known later (List.mem_cons_of_mem _ member)

/-- **Whatever is done to a new chain, its canonical chain stays in one piece.** Only the headers
of blocks that are to be stored have to be free of collisions. -/
theorem run_contiguous (config : ChainConfig) (operations : List Operation)
    (free : Header.CollisionFree (runHeaders config operations)) :
    (run config operations).Contiguous (genesisBlock config).hash := by
  have among : (Chain.new config).HeadersAmong (runHeaders config operations) := by
    intro hash block stored
    obtain ⟨-, rfl⟩ := lookup_new stored
    exact List.mem_cons_self
  have known : ∀ operation ∈ operations, ∀ header ∈ operation.storedHeader?,
      header ∈ runHeaders config operations := by
    intro operation member header stored
    exact List.mem_cons_of_mem _ (List.mem_filterMap.mpr ⟨operation, member, stored⟩)
  have coherent : (run config operations).Coherent (genesisBlock config).hash :=
    foldl_perform_coherent config free (coherent_new config) among operations known
  exact coherent.contiguous

open Siblings in
/-- A block becomes the head, is stored again with another body, and gives way to a sibling. -/
def siblingRun : List Operation :=
  [.insert first false, .setCanonical first, .setFinalized first.header,
    .insertWithoutState ⟨first.header, { withdrawals := some [] }⟩, .insert second true,
    .setCanonical second]

theorem siblingRun_contiguous :
    Header.CollisionFree (runHeaders {} siblingRun) ∧
      (run {} siblingRun).Contiguous (genesisBlock {}).hash := by
  have free : Header.CollisionFree (runHeaders {} siblingRun) :=
    (Header.collisionFree_of_nodup Siblings.hashes_nodup.of_cons).subset
      (by simp [runHeaders, siblingRun, Siblings.genesis, Operation.storedHeader?,
        List.filterMap_cons])
  exact ⟨free, run_contiguous {} siblingRun free⟩

end Chain

end EngineNode
