import EngineNode.Proofs.Build.Envelope

/-!
Extra data of generated blocks of rollup chains.

A block is generated with fee parameters in its extra data since Holocene, and with the extra data
of the operator before. The importer wants valid fee parameters since Holocene, and nothing before.
The two agree since Holocene; before they agree where the operator sets no extra data.

* `Generator.exists_extraData`: orders with fee parameters that are accepted have extra data.
* `Generator.extraDataFault_generated`: what the importer says of the block.
* `Generator.extraData_passes`: both, for every order that is accepted.
* `LateUpgrade.marked_refused`: the importer refuses a block that the node generated.
-/

namespace EngineNode

namespace Generator

open EngineM

variable {g : Generator} {plan : BlockPlan}

/-- Fee parameters that are accepted at the time of the plan give the block its extra data. -/
theorem exists_extraData {order : PayloadAttributes} (rollup : g.config.isRollup = true)
    (asked : feeParamsOf g.config order = .ok plan.feeParams)
    (time : plan.timestamp = order.timestamp) : ∃ bytes, g.extraData plan = .ok bytes := by
  rw [feeParamsOf, if_pos rollup] at asked
  unfold extraData
  rw [time]
  by_cases limited : order.gasLimit.isNone
  · simp [limited] at asked
  · simp only [limited, Bool.false_eq_true, if_false] at asked
    cases holocene : g.config.isHolocene order.timestamp with
    | false =>
        by_cases unset : order.eip1559Params.isEmpty
        · simp only [holocene, unset, Bool.false_eq_true, if_false, if_true, pure_eq_ok,
            Except.ok.injEq] at asked
          exact ⟨_, by rw [← asked]; rfl⟩
        · simp [holocene, unset] at asked
    | true =>
        cases valid : FeeParams.validate order.eip1559Params with
        | error e => simp [holocene, valid] at asked
        | ok _ =>
            simp only [holocene, valid, if_true, pure_eq_ok, Except.ok.injEq] at asked
            exact ⟨((FeeParams.decode order.eip1559Params).orChainDefaults g.config
              order.timestamp).encodeExtraData, by simp only [if_true, ← asked, valid]⟩

/-- The extra data of a generated block is the one of its plan. -/
theorem extraData_generated {usePool : Bool} {built : BuiltBlock} {logs : List LogEntry}
    (generated : g.generate plan usePool = .ok (built, logs)) :
    built.block.timestamp = plan.timestamp ∧
      g.extraData plan = .ok built.block.header.extraData := by
  obtain ⟨header, -, f, opens, -, -, rfl⟩ := generate_eq_ok generated
  refine ⟨?_, opens.extraData⟩
  show header.timestamp = plan.timestamp
  rw [opens.fields]

/-- **What the importer says of the extra data of a generated block**: it finds fault exactly with
extra data of the operator before Holocene. -/
theorem extraDataFault_generated (accepted : g.config.Accepted)
    (rollup : g.config.isRollup = true) {usePool : Bool} {built : BuiltBlock}
    {logs : List LogEntry} (generated : g.generate plan usePool = .ok (built, logs)) :
    extraDataFault g.config (built.envelope g.config).payload =
      if g.config.isHolocene plan.timestamp = true ∨ g.miner.extraData = [] then none
      else some "extraData must be empty before Holocene" := by
  obtain ⟨time, made⟩ := extraData_generated generated
  have sameTime : (built.envelope g.config).payload.timestamp = plan.timestamp := time
  have sameData : (built.envelope g.config).payload.extraData = built.block.header.extraData := rfl
  rw [extraDataFault, if_pos rollup, sameTime, sameData]
  cases holocene : g.config.isHolocene plan.timestamp with
  | true =>
      rw [extraData_accepted accepted made holocene]
      simp
  | false =>
      rw [extraData_eq_miner made holocene]
      simp

/-- **The extra data of a generated block passes the importer, except where the operator sets some
and Holocene is not active yet.** Whatever fee parameters an order may ask for, the builder finds
extra data for them; the parent, the limits and the pool have no part in it. -/
theorem extraData_passes (g : Generator) (plan : BlockPlan) (order : PayloadAttributes)
    (accepted : g.config.validate = .ok ()) (rollup : g.config.isRollup = true)
    (asked : feeParamsOf g.config order = .ok plan.feeParams)
    (time : plan.timestamp = order.timestamp) :
    (∃ bytes, g.extraData plan = .ok bytes) ∧
    ∀ usePool built logs, g.generate plan usePool = .ok (built, logs) →
      extraDataFault g.config (built.envelope g.config).payload =
        if g.config.isHolocene plan.timestamp = true ∨ g.miner.extraData = [] then none
        else some "extraData must be empty before Holocene" :=
  ⟨exists_extraData rollup asked time, fun _ _ _ generated =>
    extraDataFault_generated (ChainConfig.accepted_of_validate accepted) rollup generated⟩

end Generator

/-! ### An upgrade that is yet to come -/

namespace LateUpgrade

open Generator EngineM

/-- A rollup chain with Holocene at time 24. -/
def config : ChainConfig := { rollup := some {}, canyonTime := some 24, holoceneTime := some 24 }

/-- Its operator sets extra data. -/
def generator : Generator where
  config := config
  miner := { extraData := [1] }
  pool := {}
  logSkipped := false

/-- An order that leaves the fee parameters to the chain. -/
def order (timestamp : UInt64) (eip1559Params : Bytes) : PayloadAttributes where
  timestamp := timestamp
  prevRandao := .zero 32
  suggestedFeeRecipient := .zero 20
  withdrawals := none
  parentBeaconBlockRoot := none
  transactions := []
  noTxPool := true
  gasLimit := some 30000000
  eip1559Params := eip1559Params

/-- The plan of the order on the genesis block. -/
def plan (timestamp : UInt64) (feeParams : Option Bytes) : BlockPlan where
  parent := (genesisBlock config).header
  timestamp := timestamp
  feeRecipient := .zero 20
  random := .zero 32
  withdrawals := none
  beaconRoot := none
  transactions := []
  gasLimit := some 30000000
  feeParams := feeParams
  wantWitness := false

/-- At the time of the upgrade the extra data of the operator does not matter. -/
theorem upgraded_passes :
    config.validate = .ok () ∧ generator.miner.extraData ≠ [] ∧
    ∃ built logs, generator.generate (plan 24 (some (List.replicate 8 0))) false =
        .ok (built, logs) ∧
      extraDataFault config (built.envelope config).payload = none := by
  refine ⟨rfl, by decide, ?_⟩
  obtain ⟨built, generated⟩ : ∃ built, generator.generate (plan 24 (some (List.replicate 8 0)))
      false = .ok (built, []) := ⟨_, rfl⟩
  have passes := (extraData_passes generator (plan 24 (some (List.replicate 8 0)))
    (order 24 (List.replicate 8 0)) rfl rfl rfl rfl).2 false built [] generated
  exact ⟨built, [], generated, passes.trans (if_pos (.inl rfl))⟩

/-- **The importer refuses a block that the node generated**: before the upgrade it carries the
extra data of the operator. -/
theorem marked_refused :
    config.validate = .ok () ∧ generator.miner.extraData.length ≤ maximumExtraDataSize ∧
    feeParamsOf config (order 12 []) = .ok none ∧
    ∃ built logs, generator.generate (plan 12 none) false = .ok (built, logs) ∧
      extraDataFault config (built.envelope config).payload =
        some "extraData must be empty before Holocene" := by
  refine ⟨rfl, by decide, rfl, ?_⟩
  obtain ⟨built, generated⟩ : ∃ built, generator.generate (plan 12 none) false = .ok (built, []) :=
    ⟨_, rfl⟩
  have fault := extraDataFault_generated (ChainConfig.accepted_of_validate rfl) rfl generated
  refine ⟨built, [], generated, fault.trans (if_neg ?_)⟩
  decide

end LateUpgrade

end EngineNode
