import EngineNode.Build.Pending
import EngineNode.Proofs.BaseFee
import EngineNode.Proofs.Build.Job

/-!
Where generating a block overflows.

Five numbers of a new block are computed from its parent, and each of them may leave its width: the
gas limit, the number, the base fee, the excess of blob gas, and the earliest time of a pending
block. Nothing else that a plan asks for can.

* `Generator.generate_eq_overflow_iff`: generating overflows exactly if the plan does
  (`Generator.Overflows`), which is said in inequalities of the parent's fields.
* `Chain.startPayload_eq_overflow_iff`, `Generator.pending_eq_overflow_iff`: the same for payloads
  and for the pending block.
* `Header.Moderate.not_overflows`: on parents with moderate fields nothing overflows, so neither
  does a payload (`Chain.startPayload_ne_overflow`) nor the pending block
  (`Generator.pending_ne_overflow`).
-/

namespace EngineNode

/-! ### Numbers of the next block -/

/-- Rising towards a wanted limit overflows near the end of 64 bits, although the wanted limit has
its place there. Falling does not. -/
theorem nextGasLimit_eq_none_iff {parent desired : UInt64} : nextGasLimit parent desired = none ↔
    parent.toNat < max desired.toNat minimumGasLimit ∧
      UInt64.size ≤ parent.toNat + gasLimitStep parent.toNat := by
  unfold nextGasLimit
  dsimp only
  split
  · rename_i rises
    simp [rises]
  · rename_i falls
    simp [falls]

theorem nextExcessBlobGas_eq_none_iff {parent : Header} : nextExcessBlobGas parent = none ↔
    UInt64.size ≤ (parent.excessBlobGas.getD 0).toNat + (parent.blobGasUsed.getD 0).toNat := by
  simp [nextExcessBlobGas]

theorem nextNumber?_eq_none_iff {n : UInt64} :
    nextNumber? n = none ↔ n.toNat + 1 = UInt64.size := by
  have bound : n.toNat < UInt64.size := n.toNat_lt
  unfold nextNumber?
  split
  · simp
    omega
  · simp
    omega

namespace Generator

/-- No gas limit is given, and moving that of the parent towards the wanted one overflows. -/
structure GasLimitOverflows (g : Generator) (plan : BlockPlan) : Prop where
  notGiven : plan.gasLimit = none
  notRollup : g.config.isRollup = false
  rises : plan.parent.gasLimit.toNat < max g.miner.gasCeil.toNat minimumGasLimit
  overflows : UInt64.size ≤ plan.parent.gasLimit.toNat + gasLimitStep plan.parent.gasLimit.toNat

/-- The plan has what a block of its time has to have. -/
structure Equipped (g : Generator) (plan : BlockPlan) : Prop where
  gasLimit : ∃ limit, g.gasLimit plan = .ok limit
  extraData : ∃ bytes, g.extraData plan = .ok bytes
  withdrawals : g.config.isShanghai plan.timestamp = true → plan.withdrawals.isSome

/-- A number of the header overflows. -/
inductive HeaderOverflows (g : Generator) (plan : BlockPlan) : Prop where
  | number : plan.parent.number.toNat + 1 = UInt64.size → HeaderOverflows g plan
  | baseFee : BaseFeeOverflows g.config plan.parent plan.timestamp → HeaderOverflows g plan
  | excessBlobGas : g.config.isCancun plan.timestamp = true →
      UInt64.size ≤ (plan.parent.excessBlobGas.getD 0).toNat +
        (plan.parent.blobGasUsed.getD 0).toNat → HeaderOverflows g plan

/-- A plan overflows: its time is later than that of the parent, and the gas limit overflows, or a
number of the header does where nothing else is missing. -/
structure Overflows (g : Generator) (plan : BlockPlan) : Prop where
  later : plan.parent.timestamp < plan.timestamp
  overflows : g.GasLimitOverflows plan ∨ g.Equipped plan ∧ g.HeaderOverflows plan

variable {g : Generator} {plan : BlockPlan}

theorem gasLimit_eq_overflow_iff :
    g.gasLimit plan = .error .overflow ↔ g.GasLimitOverflows plan := by
  unfold gasLimit
  cases given : plan.gasLimit with
  | some limit => exact ⟨nofun, fun overflows => by cases given.symm.trans overflows.notGiven⟩
  | none =>
      cases rollup : g.config.isRollup with
      | true => exact ⟨nofun, fun overflows => by cases rollup.symm.trans overflows.notRollup⟩
      | false =>
          cases next : nextGasLimit plan.parent.gasLimit g.miner.gasCeil with
          | some limit =>
              refine ⟨nofun, fun overflows => ?_⟩
              have none := nextGasLimit_eq_none_iff.mpr ⟨overflows.rises, overflows.overflows⟩
              cases next.symm.trans none
          | none =>
              obtain ⟨rises, overflows⟩ := nextGasLimit_eq_none_iff.mp next
              exact ⟨fun _ => ⟨given, rollup, rises, overflows⟩, fun _ => rfl⟩

/-- Extra data is chosen without arithmetic. -/
theorem extraData_ne_overflow : g.extraData plan ≠ .error .overflow := by
  unfold extraData
  split
  · split
    · nofun
    · split <;> nofun
  · split <;> nofun

/-- The number, the base fee or the excess is missing exactly if it overflows. -/
theorem headerOverflows_iff : g.HeaderOverflows plan ↔
    nextNumber? plan.parent.number = none ∨
      nextBaseFee g.config plan.parent plan.timestamp = none ∨
        g.config.isCancun plan.timestamp = true ∧ nextExcessBlobGas plan.parent = none := by
  rw [nextNumber?_eq_none_iff, nextBaseFee_eq_none_iff, nextExcessBlobGas_eq_none_iff]
  constructor
  · rintro (number | baseFee | ⟨cancun, excess⟩)
    · exact .inl number
    · exact .inr (.inl baseFee)
    · exact .inr (.inr ⟨cancun, excess⟩)
  · rintro (number | baseFee | ⟨cancun, excess⟩)
    · exact .number number
    · exact .baseFee baseFee
    · exact .excessBlobGas cancun excess

/-- A plan that has all it needs overflows with a number of the header. -/
theorem openHeader_of_equipped (later : plan.parent.timestamp < plan.timestamp)
    (equipped : g.Equipped plan) :
    g.openHeader plan = .error .overflow ↔ g.HeaderOverflows plan := by
  obtain ⟨limit, given⟩ := equipped.gasLimit
  obtain ⟨bytes, made⟩ := equipped.extraData
  have present : ¬ (g.config.isShanghai plan.timestamp ∧ plan.withdrawals.isNone) := by
    rintro ⟨shanghai, absent⟩
    have := equipped.withdrawals shanghai
    simp [Option.isNone_iff_eq_none.mp absent] at this
  rw [headerOverflows_iff]
  unfold openHeader
  simp only [later, if_true, pure_eq_ok, given, made, ok_bind, present, if_false]
  cases nextNumber? plan.parent.number with
  | none => simp
  | some number =>
      cases nextBaseFee g.config plan.parent plan.timestamp with
      | none => simp
      | some fee =>
          cases nextExcessBlobGas plan.parent with
          | some excess => simp
          | none => cases g.config.isCancun plan.timestamp <;> simp

/-- Where something else is missing only the gas limit can overflow: it is looked at first. -/
theorem openHeader_of_not_equipped (later : plan.parent.timestamp < plan.timestamp)
    (unequipped : ¬ g.Equipped plan) :
    g.openHeader plan = .error .overflow ↔ g.GasLimitOverflows plan := by
  rw [← gasLimit_eq_overflow_iff]
  unfold openHeader
  simp only [later, if_true, pure_eq_ok]
  cases given : g.gasLimit plan with
  | error e => simp
  | ok limit =>
      rw [ok_bind]
      refine iff_of_false ?_ nofun
      cases made : g.extraData plan with
      | error e =>
          rw [error_bind]
          intro failed
          cases failed
          exact extraData_ne_overflow made
      | ok bytes =>
          have missing : g.config.isShanghai plan.timestamp ∧ plan.withdrawals.isNone := by
            by_contra present
            refine unequipped ⟨⟨limit, given⟩, ⟨bytes, made⟩, fun shanghai => ?_⟩
            rw [Option.isSome_iff_ne_none]
            exact fun absent => present ⟨shanghai, by rw [absent]; rfl⟩
          simp [missing]

theorem openHeader_eq_overflow_iff :
    g.openHeader plan = .error .overflow ↔ g.Overflows plan := by
  by_cases later : plan.parent.timestamp < plan.timestamp
  case neg =>
    unfold openHeader
    simp only [later, if_false]
    exact ⟨nofun, fun overflows => absurd overflows.later later⟩
  by_cases equipped : g.Equipped plan
  · rw [openHeader_of_equipped later equipped]
    refine ⟨fun overflows => ⟨later, .inr ⟨equipped, overflows⟩⟩, ?_⟩
    rintro ⟨-, overflows | ⟨-, overflows⟩⟩
    · obtain ⟨_, given⟩ := equipped.gasLimit
      cases given.symm.trans (gasLimit_eq_overflow_iff.mpr overflows)
    · exact overflows
  · rw [openHeader_of_not_equipped later equipped]
    refine ⟨fun overflows => ⟨later, .inl overflows⟩, ?_⟩
    rintro ⟨-, overflows | ⟨equipped', -⟩⟩
    · exact overflows
    · exact absurd equipped' equipped

theorem applyDemanded_ne_overflow {start : Session} {transactions : List Transaction} :
    applyDemanded start transactions ≠ .error .overflow := by
  induction transactions generalizing start with
  | nil => simp [applyDemanded]
  | cons tx rest ih =>
      rw [applyDemanded]
      cases start.apply tx with
      | ok session => exact ih
      | error e => simp

/-- **Generating a block overflows exactly if its plan does**, with the pool or without: once a
header is opened, nothing that is applied overflows. -/
theorem generate_eq_overflow_iff {usePool : Bool} :
    g.generate plan usePool = .error .overflow ↔ g.Overflows plan := by
  rw [← openHeader_eq_overflow_iff]
  unfold generate
  cases g.openHeader plan with
  | error e => simp
  | ok header =>
      rw [ok_bind]
      refine iff_of_false ?_ nofun
      cases Session.begin plan.parent (.ofHeader header) with
      | error e => simp
      | ok start =>
          dsimp only
          cases applied : applyDemanded start plan.transactions with
          | error e =>
              rw [error_bind]
              intro failed
              cases failed
              exact applyDemanded_ne_overflow applied
          | ok session =>
              rw [ok_bind]
              nofun

/-! ### Payloads and the pending block -/

/-- A pending block is computed: the head is not served in its place, and none was computed for it
before. -/
structure Computes (g : Generator) (chain : Chain) (last : Option Block) : Prop where
  itself : g.config.isRollup = true → g.miner.computePendingBlock = true
  new : ∀ block, last = some block → block.parentHash ≠ chain.currentHeader.hash

/-- **Where the pending block overflows**: a pending block is computed, and there is no later time
than that of the head, or its plan overflows. -/
theorem pending_eq_overflow_iff {chain : Chain} {last : Option Block} {now : UInt64} :
    g.pending chain last now = .error .overflow ↔ g.Computes chain last ∧
      (chain.currentHeader.timestamp.toNat + 1 = UInt64.size ∨
        ∃ plan, g.pendingPlan chain.currentHeader now = some plan ∧ g.Overflows plan) := by
  unfold pending
  dsimp only
  by_cases serves : g.config.isRollup ∧ ¬ g.miner.computePendingBlock
  · rw [if_pos serves]
    exact iff_of_false nofun fun computes => serves.2 (computes.1.itself serves.1)
  have itself : g.config.isRollup = true → g.miner.computePendingBlock = true := by
    intro rollup
    by_contra served
    exact serves ⟨rollup, served⟩
  simp only [serves, if_false]
  cases kept : last.filter (·.parentHash = chain.currentHeader.hash) with
  | some block =>
      refine iff_of_false nofun fun computes => ?_
      obtain ⟨same, child⟩ := Option.filter_eq_some_iff.mp kept
      exact computes.1.new block same (of_decide_eq_true child)
  | none =>
      have new : ∀ block, last = some block → block.parentHash ≠ chain.currentHeader.hash := by
        rintro block rfl child
        simp [child] at kept
      have computes : g.Computes chain last := ⟨itself, new⟩
      simp only [computes, true_and]
      cases planned : g.pendingPlan chain.currentHeader now with
      | none =>
          have last : nextNumber? chain.currentHeader.timestamp = none :=
            Option.map_eq_none_iff.mp planned
          simp [nextNumber?_eq_none_iff.mp last]
      | some plan =>
          obtain ⟨next, there, -⟩ := Option.map_eq_some_iff.mp planned
          have notLast : chain.currentHeader.timestamp.toNat + 1 ≠ UInt64.size := by
            rw [Ne, ← nextNumber?_eq_none_iff, there]
            nofun
          have generates : g.generate plan true = .error .overflow ↔ g.Overflows plan :=
            generate_eq_overflow_iff
          simp only [notLast, false_or, Option.some.injEq, exists_eq_left', ← generates]
          cases g.generate plan true <;> simp

end Generator

namespace Chain

variable {chain : Chain} {g : Generator} {args : BuildArgs} {parent : Header}

/-- **A payload overflows when it is started exactly if its plan does.** -/
theorem startPayload_eq_overflow_iff (stored : chain.headerByHash? args.parent = some parent)
    (hasState : chain.hasState args.parent = true) (now : Nat) (wantWitness : Bool) :
    chain.startPayload g now args wantWitness = .error .overflow ↔
      g.Overflows (args.plan parent wantWitness) := by
  rw [startPayload_of_stored stored hasState, ← Generator.generate_eq_overflow_iff]
  unfold PayloadJob.start
  dsimp only
  cases g.generate (args.plan parent wantWitness) false <;> simp

end Chain

/-! ### Moderate parents -/

/-- Nothing that is computed from the fields of a header can overflow. -/
structure Header.Moderate (h : Header) : Prop where
  number : h.number.toNat + 1 < UInt64.size
  timestamp : h.timestamp.toNat + 1 < UInt64.size
  gasLimit : h.gasLimit.toNat + gasLimitStep h.gasLimit.toNat < UInt64.size
  baseFee : ∀ fee, h.baseFeePerGas = some fee → fee.toNat < UInt64.size ^ 3
  excessBlobGas : (h.excessBlobGas.getD 0).toNat + (h.blobGasUsed.getD 0).toNat < UInt64.size

/-- **No plan on a moderate parent overflows**, whatever the settings and the wishes are. -/
theorem Header.Moderate.not_overflows {g : Generator} {plan : BlockPlan}
    (moderate : plan.parent.Moderate) : ¬ g.Overflows plan := by
  rintro ⟨-, ⟨-, -, -, gasLimit⟩ | ⟨-, number | baseFee | ⟨-, excess⟩⟩⟩
  · exact absurd moderate.gasLimit (not_lt.mpr gasLimit)
  · exact absurd moderate.number number.ge.not_gt
  · exact not_baseFeeOverflows _ _ _ moderate.baseFee baseFee
  · exact absurd moderate.excessBlobGas (not_lt.mpr excess)

/-- A payload on a moderate parent does not overflow when it is started. -/
theorem Chain.startPayload_ne_overflow {chain : Chain} {g : Generator} {args : BuildArgs}
    {parent : Header} (stored : chain.headerByHash? args.parent = some parent)
    (hasState : chain.hasState args.parent = true) (moderate : parent.Moderate) (now : Nat)
    (wantWitness : Bool) : chain.startPayload g now args wantWitness ≠ .error .overflow := by
  rw [Ne, startPayload_eq_overflow_iff stored hasState]
  have planned : (args.plan parent wantWitness).parent.Moderate := moderate
  exact planned.not_overflows

/-- The pending block on a moderate head does not overflow. -/
theorem Generator.pending_ne_overflow {g : Generator} {chain : Chain}
    (moderate : chain.currentHeader.Moderate) (last : Option Block) (now : UInt64) :
    g.pending chain last now ≠ .error .overflow := by
  rw [Ne, pending_eq_overflow_iff]
  rintro ⟨-, timestamp | ⟨plan, planned, overflows⟩⟩
  · exact moderate.timestamp.ne timestamp
  · obtain ⟨next, -, rfl⟩ := Option.map_eq_some_iff.mp planned
    exact moderate.not_overflows overflows

end EngineNode
