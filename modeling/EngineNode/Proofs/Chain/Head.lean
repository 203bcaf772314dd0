import EngineNode.Proofs.Chain.Canonical

/-!
Changing the head of a chain.

A new head is joined to the canonical chain by a walk from parent to parent. Among the blocks that
it could run into are blocks without state, of any number and any parent. It begins at blocks with
state only, and these lead down to the genesis block, which is canonical.

* `Walk`: the walk as the parents have it. `newBranch_eq_ok_iff`: the program takes this walk and
  no other, if its fuel lasts.
* `Coherent.exists_walk`: from a block with state the walk ends. Each of its steps lowers the number
  by one, so there is fuel enough.
* `Coherent.headChange`: a change of the head fails for two reasons, both of them found out before
  the walk.
* `changeAll_makesHead`: so it is after everything that can be done to a new chain.
-/

namespace EngineNode

namespace Chain

variable {chain : Chain} {root hash : Hash}

/-! ### The walk down to the canonical chain -/

/-- The walk from a hash down to the first canonical block, however long it is: the blocks above
that one, and its number. -/
inductive Walk (chain : Chain) : Hash → List (UInt64 × Hash) → UInt64 → Prop where
  | ends {hash : Hash} {block : Block} : chain.blockByHash? hash = some block →
      chain.isCanonical block.number hash = true → Walk chain hash [] block.number
  | passes {hash : Hash} {block : Block} {branch : List (UInt64 × Hash)} {ancestor : UInt64} :
      chain.blockByHash? hash = some block → ¬chain.isCanonical block.number hash = true →
      Walk chain block.parentHash branch ancestor →
      Walk chain hash ((block.number, hash) :: branch) ancestor

/-- The program finds what the walk passes, if its fuel is for more blocks than that. -/
theorem newBranch_eq_ok_iff {fuel : Nat} {branch : List (UInt64 × Hash)} {ancestor : UInt64} :
    chain.newBranch fuel hash = .ok (branch, ancestor) ↔
      chain.Walk hash branch ancestor ∧ branch.length < fuel := by
  induction fuel generalizing hash branch with
  | zero => simp [newBranch]
  | succ fuel ih =>
      constructor
      · intro walked
        unfold newBranch at walked
        cases stored : chain.blockByHash? hash with
        | none => simp [stored] at walked
        | some block =>
            simp only [stored] at walked
            split at walked
            · rename_i canonical
              cases walked
              exact ⟨.ends stored canonical, Nat.succ_pos fuel⟩
            · rename_i other
              obtain ⟨⟨lower, _⟩, below, same⟩ := bind_eq_ok_iff.mp walked
              cases same
              obtain ⟨walk, enough⟩ := ih.mp below
              exact ⟨.passes stored other walk, Nat.succ_lt_succ enough⟩
      · rintro ⟨walk, enough⟩
        cases walk with
        | ends stored canonical => simp [newBranch, stored, canonical]
        | passes stored other walk =>
            have below := ih.mpr ⟨walk, Nat.lt_of_succ_lt_succ enough⟩
            simp [newBranch, stored, other, below]

/-- **From a block that descends from the genesis block the walk ends**, at the latest there. -/
theorem Coherent.exists_walk (coherent : chain.Coherent root) {n : UInt64}
    {l : List (UInt64 × Hash)} (line : Lineage chain.blocks root n hash l) :
    ∃ branch ancestor, chain.Walk hash branch ancestor ∧
      branch.length + ancestor.toNat = n.toNat := by
  induction line with
  | @root block stored zero =>
      have canonical : chain.isCanonical block.number root = true := by
        rw [zero]
        exact isCanonical_eq_true_iff.mpr coherent.contiguous.genesis
      exact ⟨[], block.number, .ends stored canonical, by simp [zero]⟩
  | @child hash block number below stored step line ih =>
      by_cases canonical : chain.isCanonical block.number hash = true
      · exact ⟨[], block.number, .ends stored canonical, by simp⟩
      · obtain ⟨branch, ancestor, walk, length⟩ := ih
        refine ⟨(block.number, hash) :: branch, ancestor, .passes stored canonical walk, ?_⟩
        rw [List.length_cons, step, ← length]
        omega

/-- A block with state is stored, and fewer blocks lie on the way down from it than are stored. -/
theorem Coherent.walk_of_hasState (coherent : chain.Coherent root)
    (hasState : chain.hasState hash = true) :
    ∃ head branch ancestor, chain.blockByHash? hash = some head ∧
      chain.Walk hash branch ancestor ∧
      branch.length + ancestor.toNat < chain.blocks.length := by
  obtain ⟨n, l, line⟩ := coherent.descends hash (hasState_eq_true_iff.mp hasState)
  obtain ⟨head, stored⟩ := line.stored
  obtain ⟨branch, ancestor, walk, length⟩ := coherent.exists_walk line
  exact ⟨head, branch, ancestor, stored, walk, length ▸ line.number_lt⟩

/-! ### The change -/

/-- What changing the head comes to. The block is not stored, its state is missing, or it is the
new head, and the walk from it replaces the canonical blocks above the one where it ends. -/
inductive HeadChange (chain : Chain) (hash : Hash) :
    Except CanonicalFailure (Chain × List LogEntry) → Prop where
  | unknown : chain.blockByHash? hash = none →
      HeadChange chain hash (.error ⟨chain.head.hash, .unknownBlock hash⟩)
  | stateless {head : Block} : chain.blockByHash? hash = some head →
      ¬chain.hasState hash = true →
      HeadChange chain hash (.error ⟨chain.head.hash, .stateMissing hash⟩)
  | moved {head : Block} {branch : List (UInt64 × Hash)} {ancestor : UInt64}
      {logs : List LogEntry} : chain.blockByHash? hash = some head →
      chain.hasState hash = true → chain.Walk hash branch ancestor →
      HeadChange chain hash (.ok ({ chain with
        canonical := branch ++ chain.canonical.filter (fun entry => entry.1 ≤ ancestor)
        head }, logs))

/-- **The walk is not what makes a change of the head fail.** -/
theorem Coherent.headChange (coherent : chain.Coherent root) (hash : Hash) :
    chain.HeadChange hash (chain.setCanonical hash) := by
  unfold Chain.setCanonical
  cases stored : chain.blockByHash? hash with
  | none => exact .unknown stored
  | some head =>
      by_cases hasState : chain.hasState hash = true
      · obtain ⟨_, branch, ancestor, -, walk, length⟩ := coherent.walk_of_hasState hasState
        have walked : chain.newBranch (chain.blocks.length + 1) hash = .ok (branch, ancestor) :=
          newBranch_eq_ok_iff.mpr ⟨walk, by omega⟩
        simp only [hasState, if_true, walked]
        exact .moved stored hasState walk
      · simp only [hasState]
        exact .stateless stored hasState

/-- How a chain takes a block for its head. -/
structure MakesHead (config : ChainConfig) (chain : Chain) (block : Block) : Prop where
  /-- The walk from a block with state ends, within the blocks that are stored. -/
  walk : chain.hasState block.hash = true → ∃ branch ancestor,
    chain.Walk block.hash branch ancestor ∧ branch.length + ancestor.toNat < chain.blocks.length
  /-- Every block that is stored with its state can be made the head. -/
  succeeds : (∃ moved logs, chain.setCanonical block.hash = .ok (moved, logs)) ↔
    (chain.blockByHash? block.hash).isSome ∧ chain.hasState block.hash = true
  /-- Only the head and the canonical chain change. -/
  moves : ∀ moved logs, chain.setCanonical block.hash = .ok (moved, logs) →
    chain.blockByHash? block.hash = some moved.head ∧
      moved = { chain with canonical := moved.canonical, head := moved.head }
  /-- A failure tells the head, which stays, like everything else. -/
  fails : ∀ failure, chain.setCanonical block.hash = .error failure →
    failure.latestValidHash = chain.head.hash ∧
      (∀ hash, failure.error ≠ .missingAncestor hash) ∧
      chain.perform config (.setCanonical block) = chain

theorem Coherent.makesHead (coherent : chain.Coherent root) (config : ChainConfig)
    (block : Block) : chain.MakesHead config block := by
  have change := coherent.headChange block.hash
  constructor
  case walk =>
    intro hasState
    obtain ⟨_, branch, ancestor, -, walk, length⟩ := coherent.walk_of_hasState hasState
    exact ⟨branch, ancestor, walk, length⟩
  case succeeds =>
    generalize chain.setCanonical block.hash = result at change
    cases change with
    | unknown missing => simp [missing]
    | stateless stored stateless => simp [stateless]
    | moved stored hasState walk => simp [stored, hasState]
  case moves =>
    intro moved logs succeeded
    rw [succeeded] at change
    cases change with
    | moved stored => exact ⟨stored, rfl⟩
  case fails =>
    intro failure failed
    have stays : chain.perform config (.setCanonical block) = chain := by
      rw [perform, failed]
    rw [failed] at change
    cases change with
    | unknown => exact ⟨rfl, by simp, stays⟩
    | stateless => exact ⟨rfl, by simp, stays⟩

/-! ### Everything that can be done to a chain -/

/-- A change to a chain or to how it takes part in the network. -/
inductive Change where
  | perform (operation : Operation)
  | setSyncMode (mode : SyncMode)
  | setSynced

/-- The header of the block that a change is to store. -/
def Change.storedHeader? : Change → Option Header
  | .perform operation => operation.storedHeader?
  | .setSyncMode _ | .setSynced => none

/-- Makes a change. -/
def change (config : ChainConfig) (chain : Chain) : Change → Chain
  | .perform operation => chain.perform config operation
  | .setSyncMode syncMode => { chain with syncMode }
  | .setSynced => { chain with synced := true }

/-- Makes changes to a new chain. -/
def changeAll (config : ChainConfig) (changes : List Change) : Chain :=
  changes.foldl (change config) (.new config)

/-- The headers of all blocks that changes may store. -/
def changeHeaders (config : ChainConfig) (changes : List Change) : List Header :=
  (genesisBlock config).header :: changes.filterMap Change.storedHeader?

variable {headers : List Header}

theorem change_coherent (config : ChainConfig) (free : Header.CollisionFree headers)
    (coherent : chain.Coherent root) (among : chain.HeadersAmong headers) (change : Change)
    (known : ∀ header ∈ change.storedHeader?, header ∈ headers) :
    (chain.change config change).Coherent root ∧
      (chain.change config change).HeadersAmong headers := by
  cases change with
  | perform operation => exact perform_coherent config free coherent among operation known
  | setSyncMode => exact ⟨⟨coherent.keyed, coherent.descends, coherent.canonical⟩, among⟩
  | setSynced => exact ⟨⟨coherent.keyed, coherent.descends, coherent.canonical⟩, among⟩

/-- What is done to a new chain keeps it coherent. -/
theorem changeAll_coherent (config : ChainConfig) (changes : List Change)
    (free : Header.CollisionFree (changeHeaders config changes)) :
    (changeAll config changes).Coherent (genesisBlock config).hash ∧
      (changeAll config changes).HeadersAmong (changeHeaders config changes) := by
  refine List.foldlRecOn changes (change config) (motive := fun chain : Chain =>
    chain.Coherent (genesisBlock config).hash ∧
      chain.HeadersAmong (changeHeaders config changes)) ⟨coherent_new config, ?_⟩ ?_
  · intro hash block stored
    obtain ⟨-, rfl⟩ := lookup_new stored
    exact List.mem_cons_self
  · rintro chain ⟨coherent, among⟩ change member
    refine change_coherent config free coherent among change ?_
    intro header stored
    exact List.mem_cons_of_mem _ (List.mem_filterMap.mpr ⟨change, member, stored⟩)

/-- **Whatever was done to a chain, every block that is stored with its state can be made its head,
and every other one is turned down without a trace.** -/
theorem changeAll_makesHead (config : ChainConfig) (changes : List Change) (block : Block)
    (free : Header.CollisionFree (changeHeaders config changes)) :
    (changeAll config changes).MakesHead config block :=
  (changeAll_coherent config changes free).1.makesHead config block

open Siblings in
/-- During a snap sync one of two siblings becomes the head, and the other comes in without its
state. -/
def partialRun : List Change :=
  [.setSyncMode .snap, .perform (.insert first false), .perform (.insertWithoutState second),
    .perform (.setCanonical first), .perform (.setSafe first.header), .setSynced]

theorem partialRun_makesHead :
    Header.CollisionFree (changeHeaders {} partialRun) ∧
      (changeAll {} partialRun).MakesHead {} Siblings.second := by
  have free : Header.CollisionFree (changeHeaders {} partialRun) :=
    (Header.collisionFree_of_nodup Siblings.hashes_nodup.of_cons).subset
      (by simp [changeHeaders, partialRun, Siblings.genesis, Change.storedHeader?,
        Operation.storedHeader?, List.filterMap_cons])
  exact ⟨free, changeAll_makesHead {} partialRun Siblings.second free⟩

end Chain

end EngineNode
