import EngineNode.Proofs.Build.Job

/-!
What a generated block has of its plan.

Everything that a plan says of the block comes back in it: the fields of the header, the
withdrawals, the transactions at the beginning, and whether there is a witness. Transactions of the
pool stand behind those of the plan.

* `Generator.Yields`: a block was generated from a plan under the rules of a chain.
* `Generator.Yields.realizes`: what the block has of the plan (`BuiltBlock.Realizes`).
* `PayloadJob.Carries`: a payload was started for the arguments of a build.
* `PayloadJob.Carries.best`: its best block realizes the plan of these arguments.
-/

namespace EngineNode

/-! ### Blocks -/

/-- A block has what its plan says. Without the pool there are no other transactions. -/
structure BuiltBlock.Realizes (built : BuiltBlock) (config : ChainConfig) (plan : BlockPlan)
    (usePool : Bool) : Prop where
  parentHash : built.block.parentHash = plan.parent.hash
  timestamp : built.block.timestamp = plan.timestamp
  feeRecipient : built.block.header.feeRecipient = plan.feeRecipient
  random : built.block.header.mixHash = plan.random
  gasLimit : ∀ limit, plan.gasLimit = some limit → built.block.header.gasLimit = limit
  withdrawals : config.isShanghai plan.timestamp = true →
    built.block.withdrawals = plan.withdrawals
  beaconRoot : config.isCancun plan.timestamp = true →
    built.block.header.parentBeaconBlockRoot = some (plan.beaconRoot.getD (.zero 32))
  transactions : plan.transactions <+: built.block.transactions
  demandedOnly : usePool = false → built.block.transactions = plan.transactions
  witness : built.witness.isSome = plan.wantWitness

namespace Generator

variable {g : Generator} {plan : BlockPlan}

/-- Transactions of the pool stand behind those that are in the block already. -/
theorem prefix_fill {gasLimit : UInt64} {f : Filling} {demanded : List Transaction}
    (first : demanded <+: f.included) (pool : List Transaction) :
    demanded <+: (g.fill gasLimit f pool).included := by
  induction pool generalizing f with
  | nil => exact first
  | cons tx rest ih =>
      rw [fill]
      split
      · exact first
      · split
        · exact ih first
        · cases f.session.apply tx with
          | ok session => exact ih (first.trans (List.prefix_append _ _))
          | error e =>
              dsimp only
              split
              · exact ih first
              · exact ih first

/-- The gas limit of a plan is taken over. -/
theorem Opens.gasLimit_eq {header : Header} (opens : g.Opens plan header) {limit : UInt64}
    (given : plan.gasLimit = some limit) : header.gasLimit = limit := by
  have taken := opens.gasLimit
  rw [Generator.gasLimit, given] at taken
  exact (Except.ok.inj taken).symm

/-- Closing a block keeps what the plan says. -/
theorem Opens.realizes {header : Header} (opens : g.Opens plan header) {f : Filling}
    {usePool : Bool} (demanded : plan.transactions <+: f.included)
    (only : usePool = false → f.included = plan.transactions) :
    (g.close plan header f).Realizes g.config plan usePool := by
  constructor
  case parentHash =>
    show header.parentHash = plan.parent.hash
    rw [opens.fields]
  case timestamp =>
    show header.timestamp = plan.timestamp
    rw [opens.fields]
  case feeRecipient =>
    show header.feeRecipient = plan.feeRecipient
    rw [opens.fields]
  case random =>
    show header.mixHash = plan.random
    rw [opens.fields]
  case gasLimit =>
    intro limit given
    exact opens.gasLimit_eq given
  case withdrawals =>
    intro shanghai
    obtain ⟨list, given⟩ := Option.isSome_iff_exists.mp (opens.withdrawals shanghai)
    simp only [close, Block.withdrawals, shanghai, if_true, given, Option.getD_some]
  case beaconRoot =>
    intro cancun
    show header.parentBeaconBlockRoot = _
    rw [opens.fields, cancun]
    rfl
  case transactions => exact demanded
  case demandedOnly => exact only
  case witness =>
    show (if plan.wantWitness then some f.session.witness else none).isSome = plan.wantWitness
    cases plan.wantWitness <;> rfl

/-- A block was generated from a plan under the rules of a chain. -/
def Yields (config : ChainConfig) (plan : BlockPlan) (usePool : Bool) (built : BuiltBlock) : Prop :=
  ∃ (g : Generator) (logs : List LogEntry), g.config = config ∧
    g.generate plan usePool = .ok (built, logs)

/-- **A generated block has what its plan says.** -/
theorem Yields.realizes {config : ChainConfig} {usePool : Bool} {built : BuiltBlock}
    (yields : Yields config plan usePool built) : built.Realizes config plan usePool := by
  obtain ⟨g, logs, rfl, generated⟩ := yields
  obtain ⟨header, start, session, opens, -, -, rfl⟩ := generate_inversion generated
  cases usePool with
  | false => exact opens.realizes (List.prefix_refl _) fun _ => rfl
  | true =>
      have first : plan.transactions <+: (Filling.demanded plan session).included :=
        List.prefix_refl _
      exact opens.realizes (prefix_fill first _) nofun

end Generator

/-! ### Payloads -/

/-- A payload was started for the arguments of a build. Its plan puts them on top of their parent,
which is stored, and its blocks were generated from the plan. Without the pool it keeps its first
block. -/
structure PayloadJob.Carries (job : PayloadJob) (config : ChainConfig) (chain : Chain)
    (args : BuildArgs) (wantWitness : Bool) : Prop where
  parent : ∃ parent, chain.headerByHash? args.parent = some parent ∧
    job.plan = args.plan parent wantWitness
  empty : Generator.Yields config job.plan false job.empty
  full : ∀ built, job.full = some built →
    args.noTxPool = false ∧ Generator.Yields config job.plan true built
  ended : args.noTxPool = true → job.improvement = none

namespace PayloadJob

variable {job job' : PayloadJob} {config : ChainConfig} {miner : MinerConfig}
  {chain chain' : Chain} {args : BuildArgs} {wantWitness : Bool}

theorem carries_start {g : Generator} {now : Nat}
    (started : chain.startPayload g now args wantWitness = .ok job) :
    job.Carries g.config chain args wantWitness := by
  obtain ⟨parent, stored, -, begun⟩ := Chain.startPayload_inversion started
  obtain ⟨logs, generated, -, plan, notFull, ended⟩ := start_inversion begun
  constructor
  case parent => exact ⟨parent, stored, plan⟩
  case empty =>
    rw [plan]
    exact ⟨g, logs, rfl, generated⟩
  case full =>
    intro built full
    cases notFull.symm.trans full
  case ended => exact ended

/-- A payload that goes on carries what it did. -/
theorem Carries.continues (carries : job.Carries config chain args wantWitness)
    (goes : job.Continues config miner job') : job'.Carries config chain args wantWitness := by
  constructor
  case parent =>
    rw [goes.plan]
    exact carries.parent
  case empty =>
    rw [goes.plan, goes.empty]
    exact carries.empty
  case full =>
    intro built full
    rw [goes.plan]
    rcases goes.full with same | ⟨g, candidate, logs, sameConfig, -, generated, replaced⟩
    · exact carries.full built (same ▸ full)
    · cases replaced.symm.trans full
      refine ⟨Bool.eq_false_iff.mpr ?_, g, logs, sameConfig, generated⟩
      -- A payload without the pool is not improved, so it would have had this block before.
      intro noTxPool
      have kept := (goes.ended (carries.ended noTxPool)).2
      cases (carries.full built (kept ▸ full)).1.symm.trans noTxPool
  case ended =>
    intro noTxPool
    exact (goes.ended (carries.ended noTxPool)).1

/-- Blocks that are stored later do not matter. -/
theorem Carries.mono (carries : job.Carries config chain args wantWitness)
    (kept : ∀ hash block, chain.blockByHash? hash = some block →
      chain'.blockByHash? hash = some block) : job.Carries config chain' args wantWitness := by
  obtain ⟨parent, found, plan⟩ := carries.parent
  obtain ⟨block, stored, rfl⟩ := Option.map_eq_some_iff.mp found
  refine ⟨⟨block.header, ?_, plan⟩, carries.empty, carries.full, carries.ended⟩
  rw [Chain.headerByHash?, kept _ _ stored]
  rfl

/-- **The best block of a payload realizes its plan**, without the pool if it is left out. -/
theorem Carries.best (carries : job.Carries config chain args wantWitness) :
    ∃ usePool, job.best.Realizes config job.plan usePool ∧
      (args.noTxPool = true → usePool = false) := by
  unfold PayloadJob.best
  cases full : job.full with
  | none => exact ⟨false, carries.empty.realizes, fun _ => rfl⟩
  | some built =>
      obtain ⟨pooled, yields⟩ := carries.full built full
      refine ⟨true, yields.realizes, ?_⟩
      intro noTxPool
      cases pooled.symm.trans noTxPool

end PayloadJob

end EngineNode
