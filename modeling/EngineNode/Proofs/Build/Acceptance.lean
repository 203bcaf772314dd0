import EngineNode.Build.Pending
import EngineNode.Proofs.Build.Job
import EngineNode.Proofs.Build.Selection
import EngineNode.Proofs.Chain.Canonical
import EngineNode.Proofs.Header.Filled

/-!
Chains accept the blocks that are generated on them.

A block is generated on a header. It can be inserted as long as that header is the one that is
stored under its hash: two headers of one hash may differ in base fees that are encoded alike, and
what follows the one need not follow the other.

* `Chain.Generates`: the blocks of payloads, at any time of their improvement, and pending blocks.
* `Chain.run_accepts_generated`: after every sequence of operations they are accepted, while the
  header is stored; the blocks of a payload are when the payload is started.
* `Chain.pending_not_accepted`: a head can be stored again without its base fee, and then its
  pending block is refused.
-/

namespace EngineNode

/-! ### What is generated -/

/-- A payload goes through rounds of improvement and deliveries. The settings of the operator, the
pool and the lots may be others in each round, those of the chain are not. -/
inductive PayloadJob.Grows (config : ChainConfig) : PayloadJob → PayloadJob → Prop where
  | refl (job : PayloadJob) : Grows config job job
  | advance {job job' : PayloadJob} (g : Generator) (closed : Bool) (now : Nat)
      (lots : List Wake) : g.config = config → Grows config job job' →
      Grows config job (job'.advance g closed now lots).job
  | deliver {job job' : PayloadJob} (closed : Bool) :
      Grows config job job' → Grows config job (job'.deliver closed).1

theorem PayloadJob.Grows.built {config : ChainConfig} {job job' : PayloadJob}
    (grows : job.Grows config job') (blocks : job.Built (·.config = config)) :
    job'.plan = job.plan ∧ job'.Built (·.config = config) := by
  induction grows with
  | refl => exact ⟨rfl, blocks⟩
  | @advance job' g closed now lots same _ ih =>
      have goes := advance_continues g closed now lots job'
      exact ⟨goes.plan.trans ih.1, ih.2.continues goes fun _ config _ => config.trans same⟩
  | deliver closed _ ih => exact ⟨ih.1, ⟨ih.2.empty, ih.2.full⟩⟩

theorem Generator.pending_of_generate {g : Generator} {chain : Chain} {now : UInt64}
    {plan : BlockPlan} {built : BuiltBlock} {logs : List LogEntry}
    (computes : g.config.isRollup = false ∨ g.miner.computePendingBlock = true)
    (planned : g.pendingPlan chain.currentHeader now = some plan)
    (generated : g.generate plan true = .ok (built, logs)) :
    g.pending chain none now = .ok (some built.block, some built.block, logs) := by
  have itself : ¬ (g.config.isRollup ∧ ¬ g.miner.computePendingBlock) := by
    rintro ⟨rollup, serves⟩
    exact computes.elim (fun other => by simp [other] at rollup) serves
  simp only [pending, itself, if_false, Option.filter_none, planned, generated, ok_bind, pure_eq_ok]

namespace Chain

variable {chain : Chain} {config : ChainConfig} {parent : Header} {block : Block}

/-- A payload that is started on a chain comes to hold a block on top of a header. -/
def BuildsPayload (chain : Chain) (config : ChainConfig) (parent : Header) (block : Block) : Prop :=
  ∃ (g : Generator) (now : Nat) (args : BuildArgs) (wantWitness : Bool) (job job' : PayloadJob)
    (built : BuiltBlock), g.config = config ∧
      chain.startPayload g now args wantWitness = .ok job ∧ job.Grows config job' ∧
      (job'.empty = built ∨ job'.full = some built) ∧ job.plan.parent = parent ∧
      built.block = block

/-- A pending block is computed on the head: it is not the one that was served last. -/
def ComputesPending (chain : Chain) (config : ChainConfig) (block : Block) : Prop :=
  ∃ (g : Generator) (last answer : Option Block) (now : UInt64) (logs : List LogEntry),
    g.config = config ∧ last ≠ some block ∧
      g.pending chain last now = .ok (answer, some block, logs)

/-- A block is generated on top of a header. -/
inductive Generates (chain : Chain) (config : ChainConfig) : Header → Block → Prop where
  | payload {parent : Header} {block : Block} :
      chain.BuildsPayload config parent block → Generates chain config parent block
  | pending {block : Block} :
      chain.ComputesPending config block → Generates chain config chain.currentHeader block

/-- A block can be inserted, with its witness or without. -/
def Accepts (chain : Chain) (config : ChainConfig) (block : Block) : Prop :=
  ∀ wantWitness, ∃ witness,
    chain.insert config block wantWitness = .ok (chain.withBlock block, witness)

/-- The blocks of payloads are generated on stored parents with state. -/
theorem BuildsPayload.generated (builds : chain.BuildsPayload config parent block) :
    ∃ hash, chain.headerByHash? hash = some parent ∧ chain.hasState hash = true ∧
      block.parentHash = parent.hash ∧ block.Extends config parent := by
  obtain ⟨g, now, args, wantWitness, job, job', built, rfl, started, grows, held, rfl, rfl⟩ :=
    builds
  obtain ⟨parent, stored, hasState, -, plan, blocks⟩ := startPayload_eq_ok started
  obtain ⟨samePlan, later⟩ := grows.built (blocks.mono fun _ same => congrArg Generator.config same)
  obtain ⟨g', config, generated⟩ : ∃ g' : Generator, g'.config = g.config ∧
      g'.Generated job'.plan built := by
    rcases held with rfl | full
    · exact later.empty
    · exact later.full built full
  rw [samePlan] at generated
  refine ⟨args.parent, ?_, hasState, generated.parentHash, config ▸ generated.extends⟩
  rw [plan]
  exact stored

/-- Pending blocks are generated on the head. -/
theorem ComputesPending.generated (computes : chain.ComputesPending config block) :
    block.parentHash = chain.currentHeader.hash ∧ block.Extends config chain.currentHeader := by
  obtain ⟨g, last, answer, now, logs, rfl, new, served⟩ := computes
  unfold Generator.pending at served
  split at served
  · cases served
    exact absurd rfl new
  · cases kept : last.filter (·.parentHash = chain.currentHeader.hash) with
    | some block =>
        simp only [kept] at served
        cases served
        exact absurd rfl new
    | none =>
        simp only [kept] at served
        split at served
        · cases served
        · rename_i plan planned
          obtain ⟨⟨built, logs⟩, generated, same⟩ := bind_eq_ok_iff.mp served
          cases same
          have onHead : plan.parent = chain.currentHeader := by
            obtain ⟨_, -, rfl⟩ := Option.map_eq_some_iff.mp planned
            rfl
          have generated := Generator.generate_eq_ok generated
          exact ⟨onHead ▸ generated.parentHash, onHead ▸ generated.extends⟩

/-! ### What operations keep -/

/-- Blocks are stored under their hashes, and the state of the head is available. -/
structure Upright (chain : Chain) : Prop where
  keyed : ∀ hash block, chain.blockByHash? hash = some block → block.hash = hash
  head : chain.hasState chain.head.hash = true

theorem Upright.insertWithoutState (upright : chain.Upright) (block : Block) :
    (chain.insertWithoutState block).Upright where
  keyed hash stored h := by
    rw [blockByHash?, lookup_insertWithoutState] at h
    split at h
    · rename_i same
      cases h
      exact same.symm
    · exact upright.keyed hash stored h
  head := upright.head

theorem upright_new (config : ChainConfig) : (Chain.new config).Upright where
  keyed := (coherent_new config).keyed
  head := hasState_eq_true_iff.mpr (List.mem_singleton_self _)

/-- Operations keep a chain upright, and no state gets lost. -/
theorem Upright.perform (upright : chain.Upright) (config : ChainConfig) (operation : Operation) :
    (chain.perform config operation).Upright ∧
      ∀ hash, chain.hasState hash = true →
        (chain.perform config operation).hasState hash = true := by
  cases operation with
  | insertWithoutState block => exact ⟨upright.insertWithoutState block, fun _ => id⟩
  | insert block wantWitness =>
      cases inserted : chain.insert config block wantWitness with
      | error e =>
          simp only [Chain.perform, inserted]
          exact ⟨upright, fun _ => id⟩
      | ok result =>
          simp only [Chain.perform, inserted]
          obtain ⟨_, _, _, _, _, _, _, same, _⟩ := insert_eq_ok_iff.mp inserted
          have more : ∀ hash, chain.hasState hash = true → result.1.hasState hash = true := by
            intro hash there
            rw [same]
            exact hasState_eq_true_iff.mpr
              (List.mem_cons_of_mem _ (hasState_eq_true_iff.mp there))
          have head : result.1.head = chain.head := by rw [same]; rfl
          refine ⟨⟨?_, head ▸ more _ upright.head⟩, more⟩
          rw [same]
          exact (upright.insertWithoutState block).keyed
  | setCanonical block =>
      cases moved : chain.setCanonical block.hash with
      | error e =>
          simp only [Chain.perform, moved]
          exact ⟨upright, fun _ => id⟩
      | ok result =>
          simp only [Chain.perform, moved]
          obtain ⟨head, _, _, stored, hasState, _, same⟩ := setCanonical_eq_ok moved
          rw [same]
          refine ⟨⟨upright.keyed, ?_⟩, fun _ => id⟩
          show chain.hasState head.hash = true
          rw [upright.keyed _ _ stored]
          exact hasState
  | setSafe header => exact ⟨⟨upright.keyed, upright.head⟩, fun _ => id⟩
  | setFinalized header => exact ⟨⟨upright.keyed, upright.head⟩, fun _ => id⟩

theorem Upright.foldl_perform (upright : chain.Upright) (config : ChainConfig)
    (operations : List Operation) :
    (operations.foldl (Chain.perform config) chain).Upright ∧ ∀ hash, chain.hasState hash = true →
      (operations.foldl (Chain.perform config) chain).hasState hash = true := by
  induction operations generalizing chain with
  | nil => exact ⟨upright, fun _ => id⟩
  | cons operation rest ih =>
      obtain ⟨upright', more⟩ := upright.perform config operation
      obtain ⟨upright'', more'⟩ := ih upright'
      exact ⟨upright'', fun hash there => more' hash (more hash there)⟩

/-! ### What is accepted -/

/-- A generated block extends its parent, whose state is available. -/
theorem Generates.fits (upright : chain.Upright) (generates : chain.Generates config parent block) :
    chain.hasState parent.hash = true ∧ block.parentHash = parent.hash ∧
      block.Extends config parent := by
  cases generates with
  | payload builds =>
      obtain ⟨hash, found, hasState, onParent, fits⟩ := builds.generated
      obtain ⟨stored, known, rfl⟩ := Option.map_eq_some_iff.mp found
      have keyed : stored.header.hash = hash := upright.keyed hash stored known
      exact ⟨keyed ▸ hasState, onParent, fits⟩
  | pending computes =>
      obtain ⟨onHead, fits⟩ := computes.generated
      exact ⟨upright.head, onHead, fits⟩

theorem Accepts.of_extends (hasState : chain.hasState parent.hash = true)
    (onParent : block.parentHash = parent.hash) (fits : block.Extends config parent)
    (kept : chain.headerByHash? parent.hash = some parent) : chain.Accepts config block := by
  intro wantWitness
  obtain ⟨stored, known, same⟩ := Option.map_eq_some_iff.mp kept
  exact Block.Extends.insert (same ▸ fits) (onParent ▸ hasState) (onParent ▸ known) wantWitness

/-- **Whatever is done to a new chain, it accepts what was generated on it**, from then on as long
as the header on which the block was generated is the one stored under its hash. For the blocks of
a payload it is when the payload is started. -/
theorem run_accepts_generated (config : ChainConfig) (operations : List Operation) :
    (∀ parent block, (run config operations).Generates config parent block → ∀ later,
      (run config (operations ++ later)).headerByHash? parent.hash = some parent →
        (run config (operations ++ later)).Accepts config block) ∧
    ∀ parent block, (run config operations).BuildsPayload config parent block →
      (run config operations).Accepts config block := by
  have upright : (run config operations).Upright :=
    ((upright_new config).foldl_perform config operations).1
  constructor
  · intro parent block generates later kept
    obtain ⟨hasState, onParent, fits⟩ := generates.fits upright
    refine .of_extends ?_ onParent fits kept
    rw [run, List.foldl_append]
    exact (upright.foldl_perform config later).2 _ hasState
  · intro parent block builds
    obtain ⟨hash, found, hasState, onParent, fits⟩ := builds.generated
    obtain ⟨stored, known, rfl⟩ := Option.map_eq_some_iff.mp found
    obtain rfl : stored.header.hash = hash := upright.keyed hash stored known
    exact .of_extends hasState onParent fits found

/-- A new chain builds a payload, improves it and computes a pending block. Both blocks take one
transaction of the pool and leave others out. It accepts both. -/
theorem new_accepts_generated : ∃ improved pending,
    improved.transactions = [MixedPool.demanded, MixedPool.fitting] ∧
      pending.transactions = [MixedPool.demanded, MixedPool.fitting] ∧
      (run {} []).BuildsPayload {} (genesisBlock {}).header improved ∧
      (run {} []).ComputesPending {} pending ∧
      (run {} []).Accepts {} improved ∧ (run {} []).Accepts {} pending := by
  obtain ⟨job, started, parent, built, improved, taken⟩ : ∃ job,
      PayloadJob.start MixedPool.generator 0 MixedPool.args (genesisBlock {}).header false =
        .ok job ∧ job.plan.parent = (genesisBlock {}).header ∧
        ∃ built, (job.advance MixedPool.generator false 0 []).job.full = some built ∧
          built.block.transactions = [MixedPool.demanded, MixedPool.fitting] :=
    ⟨_, rfl, rfl, _, rfl, rfl⟩
  obtain ⟨plan, pending, logs, planned, generated, served⟩ : ∃ plan pending logs,
      MixedPool.generator.pendingPlan (genesisBlock {}).header 12 = some plan ∧
        MixedPool.generator.generate plan true = .ok (pending, logs) ∧
          pending.block.transactions = [MixedPool.demanded, MixedPool.fitting] :=
    ⟨_, _, _, rfl, rfl, rfl⟩
  have stored : (run {} []).headerByHash? (genesisBlock {}).hash =
      some (genesisBlock {}).header := by
    rw [headerByHash?, show (run {} []).blockByHash? (genesisBlock {}).hash =
      some (genesisBlock {}) from List.lookup_cons_self]
    rfl
  have hasState : (run {} []).hasState (genesisBlock {}).hash = true :=
    hasState_eq_true_iff.mpr (List.mem_singleton_self _)
  have onGenesis : MixedPool.args.parent = (genesisBlock {}).hash := rfl
  have begun : (run {} []).startPayload MixedPool.generator 0 MixedPool.args false = .ok job := by
    rw [← started]
    refine startPayload_of_stored ?_ ?_ MixedPool.generator 0 false
    · rw [onGenesis]
      exact stored
    · rw [onGenesis]
      exact hasState
  have builds : (run {} []).BuildsPayload {} (genesisBlock {}).header built.block :=
    ⟨MixedPool.generator, 0, _, false, job, _, built, rfl, begun,
      .advance MixedPool.generator false 0 [] rfl (.refl job), .inr improved, parent, rfl⟩
  have computes : (run {} []).ComputesPending {} pending.block :=
    ⟨MixedPool.generator, none, some pending.block, 12, logs, rfl, nofun,
      Generator.pending_of_generate (.inl rfl) planned generated⟩
  have accepts := run_accepts_generated {} []
  exact ⟨built.block, pending.block, taken, served, builds, computes, accepts.2 _ _ builds,
    accepts.1 _ _ (.pending computes) [] stored⟩

/-! ### A head without its base fee -/

/-- Fees drop to nothing on this chain as soon as a block uses no gas. -/
def freeConfig : ChainConfig := { rollup := some { elasticity := 1, denominator := 1 } }

/-- The block after genesis, which is free. -/
def freeBlock : Block where
  header := { (Block.emptyChild freeConfig (genesisBlock freeConfig) 12).header with
    baseFeePerGas := some 0
    withdrawalsRoot := some (.zero 32) }
  body := {}

/-- The same block without its base fee. -/
def feelessBlock : Block where
  header := { freeBlock.header with baseFeePerGas := none }
  body := {}

/-- The free block becomes the head and is stored again without its base fee. -/
def feelessRun : List Operation :=
  [.insert freeBlock false, .setCanonical freeBlock, .insertWithoutState feelessBlock]

def freeGenerator : Generator where
  config := freeConfig
  miner := { computePendingBlock := true }
  pool := {}
  logSkipped := false

theorem feelessBlock_hash : feelessBlock.hash = freeBlock.hash :=
  Header.hash_without_baseFee rfl rfl

theorem freeBlock_next (t : UInt64) : nextBaseFee freeConfig freeBlock.header t = some 0 := by
  have params : feeParamsAfter freeConfig freeBlock.header t = (1, 1) := rfl
  simp only [nextBaseFee, params]
  rfl

theorem freeBlock_distinct : (genesisBlock freeConfig).hash ≠ freeBlock.hash := by
  decide +kernel

theorem freeBlock_extends : freeBlock.Extends freeConfig (genesisBlock freeConfig).header := by
  have executes : (Block.emptyChild freeConfig (genesisBlock freeConfig) 12).ExecutesTo
      (genesisBlock freeConfig).header (Session.idle (genesisBlock freeConfig)) :=
    Block.emptyChild_executesTo rfl
  have follows : freeBlock.header.Follows freeConfig (genesisBlock freeConfig).header :=
    ⟨rfl, by decide, 0, by decide, rfl⟩
  refine ⟨follows, Session.idle (genesisBlock freeConfig), executes, fun wantWitness => ?_⟩
  constructor <;>
    simp [freeBlock, Block.emptyChild, Session.finish, Session.idle, Block.withdrawals]

theorem run_feelessRun : (run freeConfig feelessRun).currentHeader = freeBlock.header ∧
    (run freeConfig feelessRun).blockByHash? freeBlock.hash = some feelessBlock := by
  have hasState : (Chain.new freeConfig).hasState freeBlock.parentHash = true :=
    hasState_eq_true_iff.mpr (List.mem_singleton_self _)
  have stored : (Chain.new freeConfig).blockByHash? freeBlock.parentHash =
    some (genesisBlock freeConfig) := List.lookup_cons_self
  obtain ⟨witness, inserted⟩ := freeBlock_extends.insert hasState stored false
  have found : ((Chain.new freeConfig).withBlock freeBlock).blockByHash? freeBlock.hash =
      some freeBlock := List.lookup_cons_self
  have parent : ((Chain.new freeConfig).withBlock freeBlock).blockByHash? freeBlock.parentHash =
      some (genesisBlock freeConfig) := by
    show ((Chain.new freeConfig).insertWithoutState freeBlock).blocks.lookup _ = _
    rw [lookup_insertWithoutState]
    show (if (genesisBlock freeConfig).hash = freeBlock.hash then _ else _) = _
    rw [if_neg freeBlock_distinct]
    exact stored
  have above :
      ((Chain.new freeConfig).withBlock freeBlock).canonicalHash? freeBlock.number = none := rfl
  have other : ((Chain.new freeConfig).withBlock freeBlock).isCanonical freeBlock.number
      freeBlock.hash = false := by
    rw [isCanonical, above]
    rfl
  obtain ⟨logs, moved⟩ := setCanonical_child (hasState_eq_true_iff.mpr List.mem_cons_self) found
    other parent (isCanonical_eq_true_iff.mpr List.lookup_cons_self)
  have performed : run freeConfig feelessRun = perform freeConfig (perform freeConfig
      (perform freeConfig (.new freeConfig) (.insert freeBlock false)) (.setCanonical freeBlock))
      (.insertWithoutState feelessBlock) := rfl
  rw [performed, perform_insert inserted, perform_setCanonical moved]
  refine ⟨rfl, ?_⟩
  rw [perform, blockByHash?, lookup_insertWithoutState, if_pos feelessBlock_hash.symm]

/-- **A pending block may be refused.** It was computed on the header that the head had when it was
made the head. -/
theorem pending_not_accepted : ∃ block,
    (run freeConfig feelessRun).ComputesPending freeConfig block ∧
      ¬ (run freeConfig feelessRun).Accepts freeConfig block := by
  obtain ⟨head, stored⟩ := run_feelessRun
  obtain ⟨plan, built, logs, planned, generated⟩ : ∃ plan built logs,
      freeGenerator.pendingPlan freeBlock.header 24 = some plan ∧
        freeGenerator.generate plan true = .ok (built, logs) := ⟨_, _, _, rfl, rfl⟩
  have computes : (run freeConfig feelessRun).ComputesPending freeConfig built.block := by
    refine ⟨freeGenerator, none, some built.block, 24, logs, rfl, nofun, ?_⟩
    exact Generator.pending_of_generate (.inr rfl) (head.symm ▸ planned) generated
  refine ⟨built.block, computes, fun accepts => ?_⟩
  obtain ⟨witness, inserted⟩ := accepts false
  obtain ⟨onHead, fits⟩ := computes.generated
  obtain ⟨parent, _, _, known, follows, -⟩ := insert_eq_ok_iff.mp inserted
  rw [onHead, head] at known
  cases stored.symm.trans known
  -- The block takes its base fee from the head, the chain asks for the one after a block without.
  obtain ⟨fee, next, given⟩ := head ▸ fits.follows.baseFee
  obtain ⟨fee', next', given'⟩ := follows.baseFee
  have free := freeBlock_next built.block.header.timestamp
  have initial : nextBaseFee freeConfig feelessBlock.header built.block.header.timestamp =
      some initialBaseFee := rfl
  cases free.symm.trans next
  cases initial.symm.trans next'
  exact absurd (given.symm.trans given') (by decide)

end Chain

end EngineNode
