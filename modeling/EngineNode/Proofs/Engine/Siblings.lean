import EngineNode.Proofs.Engine.Store
import EngineNode.Proofs.Payload.RoundTrip

/-!
Blocks that compete for a place.

Any number of blocks with state may be stored on top of one canonical block. Each of them can be
made the head, whatever was recorded of the others.

* `Node.answer_choice`: a contender that is chosen becomes the head, and
  what the choice calls final is recorded with it.
* `Node.after_payload_emptyChild`: the payload of an empty block brings a contender in.
* `Siblings.run_contends`: so two blocks come to compete on a new chain.
-/

namespace EngineNode

/-! ### Contenders -/

namespace Chain

variable {chain : Chain} {parent first second : Block}

/-- A block with state that competes for the place on top of a canonical block. -/
structure Contender (chain : Chain) (parent block : Block) : Prop where
  stored : chain.blockByHash? block.hash = some block
  hasState : chain.hasState block.hash = true
  onParent : block.parentHash = parent.hash
  number : block.number.toNat = parent.number.toNat + 1
  other : chain.isCanonical block.number block.hash = false
  merged : block.header.isPreMerge = false
  notZero : block.hash.isZero = false

/-- The chain with a contender for its head. -/
def withHead (chain : Chain) (parent block : Block) : Chain :=
  { chain with
    canonical := (block.number, block.hash) ::
      chain.canonical.filter (fun entry => entry.1 ≤ parent.number)
    head := block
    synced := true }

theorem lookup_filter_le {entries : List (UInt64 × Hash)} {n m : UInt64} (le : n ≤ m) :
    (entries.filter fun entry => entry.1 ≤ m).lookup n = entries.lookup n := by
  induction entries with
  | nil => rfl
  | cons entry rest ih =>
      obtain ⟨number, hash⟩ := entry
      by_cases same : n = number
      · subst same
        rw [List.filter_cons_of_pos (by simpa using le), List.lookup_cons_self,
          List.lookup_cons_self]
      · have passed (below : List (UInt64 × Hash)) :
            ((number, hash) :: below).lookup n = below.lookup n := by
          rw [List.lookup_cons, beq_eq_false_iff_ne.mpr same]
        rw [List.filter_cons, passed, ← ih]
        split
        · exact passed _
        · rfl

namespace Contender

theorem number_eq (contends : chain.Contender parent first)
    (contends' : chain.Contender parent second) : first.number = second.number :=
  UInt64.toNat_inj.mp (contends.number.trans contends'.number.symm)

theorem isCanonical_parent (contends : chain.Contender parent first)
    (canonical : chain.isCanonical parent.number parent.hash = true) :
    (chain.withHead parent first).isCanonical parent.number parent.hash = true := by
  have below : parent.number ≠ first.number := by
    intro same
    have := contends.number
    rw [same] at this
    omega
  rw [isCanonical_eq_true_iff] at canonical ⊢
  rw [canonicalHash?, withHead, List.lookup_cons, beq_eq_false_iff_ne.mpr below]
  exact (lookup_filter_le (UInt64.le_refl _)).trans canonical

end Contender

/-- Of the blocks of its number the head alone is canonical. -/
theorem isCanonical_withHead (same : second.number = first.number) :
    (chain.withHead parent first).isCanonical second.number second.hash =
      decide (first.hash = second.hash) := by
  rw [Bool.eq_iff_iff, isCanonical_eq_true_iff, decide_eq_true_iff, canonicalHash?, withHead,
    same, List.lookup_cons_self, Option.some_inj]

theorem record?_of_isCanonical (mark : Chain → Header → Chain) {block : Block}
    (notZero : block.hash.isZero = false) (stored : chain.blockByHash? block.hash = some block)
    (canonical : chain.isCanonical block.number block.hash = true) :
    chain.record? mark block.hash = some (mark chain block.header) := by
  rw [record?, notZero, canonicalBlock?_eq_some_iff.mpr ⟨stored, canonical⟩]
  rfl

end Chain

section Choices

open Chain

variable {node : Node} {choice : ForkchoiceState} {parent first : Block} {recorded : Chain}

/-- **A contender that is chosen becomes the head.** The choice is known by its head only, so that
nothing has to be computed of the hashes in it. -/
theorem Node.answer_choice (head : choice.headBlockHash = first.hash)
    (storedParent : node.chain.blockByHash? parent.hash = some parent)
    (canonical : node.chain.isCanonical parent.number parent.hash = true)
    (contends : node.chain.Contender parent first)
    (records : FinalityRecorded choice (node.chain.withHead parent first) true recorded) :
    let answer := node.answer (.forkchoiceUpdated .v1 choice none false)
    answer.1 = .ok (.valid choice.headBlockHash none) ∧ answer.2.chain = recorded := by
  have notZero : choice.headBlockHash.isZero = false := by
    rw [head]
    exact contends.notZero
  have stored : node.chain.blockByHash? choice.headBlockHash = some first := by
    rw [head]
    exact contends.stored
  obtain ⟨logs, moved⟩ := setCanonical_child contends.hasState contends.stored
    contends.other (contends.onParent ▸ storedParent) (contends.onParent ▸ canonical)
  have chosen := (node.answer_forkchoiceUpdated .v1 choice none false).2
  refine chosen.eq_of_followable notZero stored contends.merged (.moved ?_ moved) records
  rw [contends.other]
  nofun

/-- A contender that is chosen can be final and safe at once. -/
theorem Node.answer_final_choice (head : choice.headBlockHash = first.hash)
    (final : choice.finalizedBlockHash = first.hash) (safe : choice.safeBlockHash = first.hash)
    (storedParent : node.chain.blockByHash? parent.hash = some parent)
    (canonical : node.chain.isCanonical parent.number parent.hash = true)
    (contends : node.chain.Contender parent first) :
    let answer := node.answer (.forkchoiceUpdated .v1 choice none false)
    answer.1 = .ok (.valid choice.headBlockHash none) ∧
      answer.2.chain =
        ((node.chain.withHead parent first).setFinalized first.header).setSafe first.header := by
  have firstCanonical : (node.chain.withHead parent first).isCanonical first.number first.hash =
      true := by
    rw [isCanonical_withHead rfl]
    exact decide_eq_true rfl
  have finals : (node.chain.withHead parent first).record? setFinalized choice.finalizedBlockHash =
      some ((node.chain.withHead parent first).setFinalized first.header) := by
    rw [final]
    exact record?_of_isCanonical setFinalized contends.notZero contends.stored firstCanonical
  have safes :
      ((node.chain.withHead parent first).setFinalized first.header).record? setSafe
          choice.safeBlockHash =
        some (((node.chain.withHead parent first).setFinalized first.header).setSafe
          first.header) := by
    rw [safe]
    exact record?_of_isCanonical setSafe contends.notZero contends.stored firstCanonical
  exact answer_choice head storedParent canonical contends (.done finals safes)

/-- A choice that calls nothing final keeps what is recorded. -/
theorem Node.answer_plain_choice (head : choice.headBlockHash = first.hash)
    (noFinal : choice.finalizedBlockHash = .zero 32) (noSafe : choice.safeBlockHash = .zero 32)
    (storedParent : node.chain.blockByHash? parent.hash = some parent)
    (canonical : node.chain.isCanonical parent.number parent.hash = true)
    (contends : node.chain.Contender parent first) :
    let answer := node.answer (.forkchoiceUpdated .v1 choice none false)
    answer.1 = .ok (.valid choice.headBlockHash none) ∧
      answer.2.chain = node.chain.withHead parent first := by
  have finals : (node.chain.withHead parent first).record? setFinalized choice.finalizedBlockHash =
      some (node.chain.withHead parent first) := by
    rw [noFinal]
    exact record?_zero _ _
  have safes : (node.chain.withHead parent first).record? setSafe choice.safeBlockHash =
      some (node.chain.withHead parent first) := by
    rw [noSafe]
    exact record?_zero _ _
  exact answer_choice head storedParent canonical contends (.done finals safes)

end Choices

/-! ### Payloads of empty blocks -/

/-- The payload of an empty block says everything about it before Isthmus. -/
theorem Payload.toBlock_emptyChild {config : ChainConfig} {parent : Block} {timestamp : UInt64}
    (fee : (nextBaseFee config parent.header timestamp).isSome)
    (early : config.isIsthmus timestamp = false) :
    (Payload.ofBlock config (.emptyChild config parent timestamp)).toBlock config {} =
      .ok (.emptyChild config parent timestamp) :=
  toBlock_ofBlock
    { ommersHash := rfl
      difficulty := rfl
      nonce := rfl
      extraData := Nat.zero_le _
      baseFee := fee
      transactionsRoot := rfl
      withdrawalsRoot := fun _ => rfl
      isthmus := fun active => absurd (early.symm.trans active) nofun
      beaconRoot := rfl
      requestsHash := rfl
      blobHashes := rfl }

/-- The payload of a block, sent in the first version of the method. -/
def Event.payload (config : ChainConfig) (block : Block) : Event :=
  .call (.newPayload .v1 { payload := .ofBlock config block } false)

/-- An empty block is stored when its payload comes by a version of the method that accepts it. -/
theorem Node.after_newPayload_emptyChild {node : Node} {config : ChainConfig} {chain : Chain}
    {parent : Block} {timestamp : UInt64} {version : NewPayloadVersion}
    (hconfig : node.config = config) (hchain : node.chain = chain) (good : node.badChains = {})
    (full : chain.syncMode = .full)
    (hasState : chain.hasState parent.hash = true)
    (stored : chain.blockByHash? parent.hash = some parent)
    (fresh : chain.blockByHash? (Block.emptyChild config parent timestamp).hash = none)
    (room : parent.number.toNat + 1 < UInt64.size) (later : parent.timestamp < timestamp)
    (fee : (nextBaseFee config parent.header timestamp).isSome) (plain : config.isRollup = false)
    (early : config.isIsthmus timestamp = false)
    (accepted : version.check .newPayload config
      { payload := .ofBlock config (.emptyChild config parent timestamp) } = .ok ()) :
    let node' := node.after (.call (.newPayload version
      { payload := .ofBlock config (.emptyChild config parent timestamp) } false))
    node'.config = config ∧ node'.chain = chain.withBlock (.emptyChild config parent timestamp) ∧
      node'.badChains = {} := by
  subst hconfig hchain
  obtain ⟨witness, inserted⟩ : ∃ witness, node.chain.insert node.config
      (.emptyChild node.config parent timestamp) false =
        .ok (node.chain.withBlock (.emptyChild node.config parent timestamp), witness) :=
    Chain.insert_emptyChild hasState stored room later fee
  have ordinary : EngineM.extraDataFault node.config
      (Payload.ofBlock node.config (.emptyChild node.config parent timestamp)) = none := by
    simp only [EngineM.extraDataFault, plain, Bool.false_eq_true, if_false]
  have untainted : node.badChains.tips.get?
      (Block.emptyChild node.config parent timestamp).hash = none := by
    rw [good]
    rfl
  have imported : EngineM.Ensures (EngineM.newPayload version
      { payload := .ofBlock node.config (.emptyChild node.config parent timestamp) } false) node []
      _ :=
    EngineM.newPayload_stores accepted rfl ordinary (Payload.toBlock_emptyChild fee early) fresh
      untainted full inserted
  exact ⟨(node.after_step _).1, imported.2.1, imported.2.2.trans good⟩

/-- The first version accepts the payloads of empty blocks. -/
theorem Node.after_payload_emptyChild {node : Node} {config : ChainConfig} {chain : Chain}
    {parent : Block} {timestamp : UInt64} (hconfig : node.config = config)
    (hchain : node.chain = chain) (good : node.badChains = {}) (full : chain.syncMode = .full)
    (hasState : chain.hasState parent.hash = true)
    (stored : chain.blockByHash? parent.hash = some parent)
    (fresh : chain.blockByHash? (Block.emptyChild config parent timestamp).hash = none)
    (room : parent.number.toNat + 1 < UInt64.size) (later : parent.timestamp < timestamp)
    (fee : (nextBaseFee config parent.header timestamp).isSome) (plain : config.isRollup = false)
    (early : config.isIsthmus timestamp = false) :
    let node' := node.after (.payload config (.emptyChild config parent timestamp))
    node'.config = config ∧ node'.chain = chain.withBlock (.emptyChild config parent timestamp) ∧
      node'.badChains = {} :=
  after_newPayload_emptyChild hconfig hchain good full hasState stored fresh room later fee plain
    early rfl

/-! ### Two blocks on a new chain -/

theorem FixedBytes.isZero_eq_false {n : Nat} {bytes : FixedBytes n} (other : bytes ≠ .zero n) :
    bytes.isZero = false := by
  by_contra zero
  refine other (FixedBytes.ext ?_)
  have all : ∀ byte ∈ bytes.toList, byte = 0 := by simpa [isZero] using zero
  rw [List.eq_replicate_iff.mpr ⟨bytes.length_toList, all⟩]
  rfl

namespace Siblings

/-- Two blocks come in. -/
def run : List Event := [.payload {} first, .payload {} second]

/-- The node after both have come in. -/
def node : Node := (Node.new {}).fresh.run run

/-- The first block is made the head, and final and safe. -/
def firstChoice : ForkchoiceState := ⟨first.hash, first.hash, first.hash⟩

/-- The second block is made the head, and nothing is said of what is final. -/
def secondChoice : ForkchoiceState := ⟨second.hash, .zero 32, .zero 32⟩

theorem run_eq_node : (Node.new {}).fresh.run run = node := rfl

/-- The three hashes can be told apart, and none of them is zero. -/
theorem hashes_distinct : genesis.hash ≠ first.hash ∧ genesis.hash ≠ second.hash ∧
    first.hash ≠ second.hash ∧ first.hash.isZero = false ∧ second.hash.isZero = false := by
  have distinct := hashes_nodup
  have hash (block : Block) : block.header.hash = block.hash := rfl
  simp only [List.map_cons, List.map_nil, List.nodup_cons, List.mem_cons, List.not_mem_nil,
    or_false, not_or, hash] at distinct
  obtain ⟨⟨-, zeroFirst, zeroSecond⟩, ⟨genesisFirst, genesisSecond⟩, firstSecond, -⟩ := distinct
  exact ⟨genesisFirst, genesisSecond, firstSecond,
    FixedBytes.isZero_eq_false (Ne.symm zeroFirst), FixedBytes.isZero_eq_false (Ne.symm zeroSecond)⟩

theorem genesis_stored : (Chain.new {}).blockByHash? genesis.hash = some genesis :=
  List.lookup_cons_self

theorem genesis_hasState : (Chain.new {}).hasState genesis.hash = true :=
  Chain.hasState_eq_true_iff.mpr (List.mem_singleton_self _)

theorem blockByHash?_new {hash : Hash} (other : genesis.hash ≠ hash) :
    (Chain.new {}).blockByHash? hash = none := by
  cases stored : (Chain.new {}).blockByHash? hash with
  | none => rfl
  | some block => exact absurd (Chain.lookup_new stored).1.symm other

theorem first_fresh : (Chain.new {}).blockByHash? first.hash = none :=
  blockByHash?_new hashes_distinct.1

theorem second_fresh : ((Chain.new {}).withBlock first).blockByHash? second.hash = none := by
  obtain ⟨-, genesisSecond, firstSecond, -⟩ := hashes_distinct
  rw [Chain.blockByHash?_withBlock, if_neg firstSecond.symm]
  exact blockByHash?_new genesisSecond

theorem node_chain : node.chain = ((Chain.new {}).withBlock first).withBlock second := by
  have start : (Node.new {}).fresh.chain = Chain.new {} := rfl
  obtain ⟨config, chain, badChains⟩ : ((Node.new {}).fresh.after (.payload {} first)).config = {} ∧
      ((Node.new {}).fresh.after (.payload {} first)).chain = (Chain.new {}).withBlock first ∧
      ((Node.new {}).fresh.after (.payload {} first)).badChains = {} :=
    Node.after_payload_emptyChild rfl start rfl rfl genesis_hasState genesis_stored first_fresh
      (by decide) (by decide) (by decide +kernel) rfl rfl
  have hasState : ((Chain.new {}).withBlock first).hasState genesis.hash = true :=
    Chain.hasState_eq_true_iff.mpr (List.mem_cons_of_mem _ (List.mem_singleton_self _))
  have stored : ((Chain.new {}).withBlock first).blockByHash? genesis.hash = some genesis :=
    Chain.blockByHash?_withBlock_of_some first_fresh genesis_stored
  have last : (((Node.new {}).fresh.after (.payload {} first)).after (.payload {} second)).chain =
      ((Chain.new {}).withBlock first).withBlock second :=
    (Node.after_payload_emptyChild config chain badChains rfl hasState stored second_fresh
      (by decide) (by decide) (by decide +kernel) rfl rfl).2.1
  rw [← run_eq_node, run, Node.run_cons, Node.run_cons, Node.run_nil]
  exact last

/-- **Two blocks compete on the genesis block.** -/
theorem run_contends : node.chain.blockByHash? genesis.hash = some genesis ∧
    node.chain.isCanonical genesis.number genesis.hash = true ∧
    node.chain.Contender genesis first ∧ node.chain.Contender genesis second := by
  obtain ⟨-, -, -, firstNotZero, secondNotZero⟩ := hashes_distinct
  rw [node_chain]
  have canonical : (((Chain.new {}).withBlock first).withBlock second).isCanonical genesis.number
      genesis.hash = true :=
    Chain.isCanonical_eq_true_iff.mpr List.lookup_cons_self
  have noOther (hash : Hash) :
      (((Chain.new {}).withBlock first).withBlock second).isCanonical 1 hash = false :=
    decide_eq_false nofun
  have secondStored := (Chain.blockByHash?_withBlock ((Chain.new {}).withBlock first) second
    second.hash).trans (if_pos rfl)
  have firstStored := Chain.blockByHash?_withBlock_of_some second_fresh
    ((Chain.blockByHash?_withBlock (Chain.new {}) first first.hash).trans (if_pos rfl))
  have secondState : (((Chain.new {}).withBlock first).withBlock second).hasState second.hash =
      true := Chain.hasState_eq_true_iff.mpr List.mem_cons_self
  have firstState : (((Chain.new {}).withBlock first).withBlock second).hasState first.hash =
      true := Chain.hasState_eq_true_iff.mpr (List.mem_cons_of_mem _ List.mem_cons_self)
  exact ⟨Chain.blockByHash?_withBlock_of_some second_fresh
      (Chain.blockByHash?_withBlock_of_some first_fresh genesis_stored), canonical,
    ⟨firstStored, firstState, rfl, rfl, noOther _, rfl, firstNotZero⟩,
    ⟨secondStored, secondState, rfl, rfl, noOther _, rfl, secondNotZero⟩⟩

end Siblings

end EngineNode
