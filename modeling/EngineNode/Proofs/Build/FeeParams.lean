import EngineNode.Proofs.Build.ExtraData
import EngineNode.Proofs.FeeMarket.Response

/-!
Fee parameters on their way from an order to the next base fee.

An order asks for eight bytes; the builder writes parameters behind a version byte into the block;
the importer checks them; and the next block reads them back to find its base fee. Zeros leave the
choice to the chain, and the builder writes down what the chain had at the time of the block, so
that nothing is left to choose for the next one.

* `CarriesFeeParams`: extra data carries the parameters that were asked for.
* `Generator.carries_of_extraData`: the extra data of the builder does.
* `Generator.feeParams_carried`: so does that of every block generated since Holocene, and nothing
  but written parameters is accepted.
-/

namespace EngineNode

/-- Extra data of a block at `timestamp` carries the parameters that were asked for. They can be
read back from it, with those of the chain in place of zeros; the importer accepts it; and whatever
block follows, its base fee is the one that these parameters give, an elasticity of zero counting
as one. -/
structure CarriesFeeParams (config : ChainConfig) (timestamp : UInt64) (asked : FeeParams)
    (extraData : Bytes) : Prop where
  chosen : asked ≠ {} → FeeParams.decodeExtraData extraData = asked
  unchosen : asked = {} →
    (FeeParams.decodeExtraData extraData).denominator.toNat =
        min (config.baseFeeChangeDenominator timestamp).toNat (UInt32.size - 1) ∧
      (FeeParams.decodeExtraData extraData).elasticity.toNat =
        min config.elasticityMultiplier.toNat (UInt32.size - 1)
  accepted : FeeParams.validateExtraData extraData = .ok ()
  decides : ∀ (parent : Header) (fee : U256) (later : UInt64), parent.timestamp = timestamp →
    parent.extraData = extraData → parent.baseFeePerGas = some fee →
    nextBaseFee config parent later =
      movedBaseFee? (FeeParams.decodeExtraData extraData).denominator.toNat
        (parent.gasLimit.toNat / max (FeeParams.decodeExtraData extraData).elasticity.toNat 1)
        fee.toNat parent.gasUsed.toNat

/-- Parameters with a denominator are carried by writing them down. -/
theorem CarriesFeeParams.of_chosen {config : ChainConfig} {timestamp : UInt64}
    {asked chosen : FeeParams} (holocene : config.isHolocene timestamp = true)
    (choice : chosen = asked.orChainDefaults config timestamp) (given : chosen.denominator ≠ 0) :
    CarriesFeeParams config timestamp asked chosen.encodeExtraData := by
  constructor
  case chosen =>
    intro nonzero
    rw [FeeParams.decodeExtraData_encodeExtraData, choice,
      FeeParams.orChainDefaults_of_ne nonzero]
  case unchosen =>
    intro zero
    rw [FeeParams.decodeExtraData_encodeExtraData, choice, zero, FeeParams.orChainDefaults_zero]
    exact ⟨FeeParams.toNat_saturate _, FeeParams.toNat_saturate _⟩
  case accepted =>
    exact FeeParams.validateExtraData_encodeExtraData fun zero => absurd zero given
  case decides =>
    rintro parent fee later rfl carried present
    have other : chosen ≠ {} := by
      rintro rfl
      exact given rfl
    have positive : 1 ≤ chosen.denominator.toNat := by
      have : chosen.denominator.toNat ≠ 0 := fun zero => given (UInt32.toNat_inj.mp zero)
      omega
    have inForce : FeeParamsInForce config parent later chosen.denominator.toNat
        chosen.elasticity.toNat := .chosen holocene carried other
    rw [FeeParams.decodeExtraData_encodeExtraData, nextBaseFee_eq_movedBaseFee? present inForce,
      Nat.max_eq_left positive]

namespace Generator

variable {g : Generator} {plan : BlockPlan}

/-- **The builder finds extra data that carries the parameters of the plan.** -/
theorem carries_of_extraData {asked : Bytes} (accepted : g.config.Accepted)
    (holocene : g.config.isHolocene plan.timestamp = true) (planned : plan.feeParams = some asked)
    (valid : FeeParams.validate asked = .ok ()) :
    ∃ bytes, g.extraData plan = .ok bytes ∧
      CarriesFeeParams g.config plan.timestamp (.decode asked) bytes := by
  have chosen := FeeParams.denominator_orChainDefaults_ne_zero (FeeParams.validate_eq_ok_iff.mp
    valid).2 (accepted.baseFeeChangeDenominator_ne_zero (accepted.isCanyon_of_isHolocene holocene))
  refine ⟨_, ?_, .of_chosen holocene rfl chosen⟩
  simp only [extraData, holocene, if_true, planned, valid]

/-- **Fee parameters are carried from the plan to the next base fee.** Take a chain whose
configuration is accepted, a plan for a time since Holocene, and any parameters in it that are
accepted. There is extra data for the block, it carries the parameters, and every block that is
generated from the plan has it. Moreover only nine bytes with a version of zero are accepted as
extra data at all, so that writing undoes reading. -/
theorem feeParams_carried (g : Generator) (plan : BlockPlan) (asked : Bytes)
    (accepted : g.config.validate = .ok ())
    (holocene : g.config.isHolocene plan.timestamp = true) (planned : plan.feeParams = some asked)
    (valid : FeeParams.validate asked = .ok ()) :
    (FeeParams.decode asked).encode = asked ∧
    (∃ bytes, g.extraData plan = .ok bytes ∧
      CarriesFeeParams g.config plan.timestamp (.decode asked) bytes ∧
      ∀ usePool built logs, g.generate plan usePool = .ok (built, logs) →
        built.block.header.extraData = bytes ∧ built.block.timestamp = plan.timestamp ∧
          built.block.header.baseFeePerGas.isSome) ∧
    ∀ bytes, FeeParams.validateExtraData bytes = .ok () →
      bytes.length = 9 ∧ bytes.head? = some 0 ∧
        (FeeParams.decodeExtraData bytes).encodeExtraData = bytes := by
  refine ⟨FeeParams.encode_decode (FeeParams.validate_eq_ok_iff.mp valid).1, ?_, ?_⟩
  · obtain ⟨bytes, found, carries⟩ :=
      carries_of_extraData (ChainConfig.accepted_of_validate accepted) holocene planned valid
    refine ⟨bytes, found, carries, ?_⟩
    intro usePool built logs generated
    obtain ⟨time, made⟩ := extraData_generated generated
    obtain ⟨header, _, _, opens, -, -, rfl⟩ := generate_eq_ok generated
    obtain ⟨fee, -, present⟩ := opens.baseFee
    exact ⟨Except.ok.inj (made.symm.trans found), time, Option.isSome_of_eq_some present⟩
  · intro bytes taken
    obtain ⟨p, -, rfl⟩ := FeeParams.validateExtraData_eq_ok_iff.mp taken
    refine ⟨?_, rfl, by rw [FeeParams.decodeExtraData_encodeExtraData]⟩
    rw [FeeParams.encodeExtraData, List.length_cons, FeeParams.length_encode]

end Generator

namespace LateUpgrade

open Generator

/-- An order at the time of the upgrade asks for a denominator alone. -/
theorem upgraded_carries :
    config.validate = .ok () ∧ config.isHolocene 24 = true ∧
    FeeParams.validate (FeeParams.encode ⟨10, 0⟩) = .ok () ∧
    ∃ built logs, generator.generate (plan 24 (some (FeeParams.encode ⟨10, 0⟩))) false =
        .ok (built, logs) ∧
      FeeParams.decodeExtraData built.block.header.extraData = ⟨10, 0⟩ ∧
      FeeParams.validateExtraData built.block.header.extraData = .ok () := by
  refine ⟨rfl, rfl, rfl, ?_⟩
  obtain ⟨built, generated⟩ : ∃ built,
      generator.generate (plan 24 (some (FeeParams.encode ⟨10, 0⟩))) false = .ok (built, []) :=
    ⟨_, rfl⟩
  obtain ⟨-, ⟨bytes, -, carries, generates⟩, -⟩ := feeParams_carried generator
    (plan 24 (some (FeeParams.encode ⟨10, 0⟩))) (FeeParams.encode ⟨10, 0⟩) rfl rfl rfl rfl
  obtain ⟨rfl, -, -⟩ := generates false built [] generated
  rw [FeeParams.decode_encode] at carries
  exact ⟨built, [], generated, carries.chosen (by decide), carries.accepted⟩

end LateUpgrade

end EngineNode
