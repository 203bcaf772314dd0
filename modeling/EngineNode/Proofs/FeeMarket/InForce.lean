import EngineNode.Proofs.FeeMarket

/-!
Fee parameters in force.

The denominator and the elasticity that decide about the next base fee come from one of two places.
Since Holocene a block may carry them in its extra data; where it carries none, or zeros, those of
the chain stand in as far as they have 32 bits. Before Holocene they are those of the chain.

* `FeeParamsInForce`: which parameters are in force, said of the extra data as it is written.
* `feeParamsAfter_eq_iff`: these are the ones that the node finds.
-/

namespace EngineNode

/-- A denominator and an elasticity decide about the block at `timestamp` after `parent`. -/
inductive FeeParamsInForce (config : ChainConfig) (parent : Header) (timestamp : UInt64) :
    (denominator elasticity : Nat) → Prop where
  /-- The parent chose them. -/
  | chosen {p : FeeParams} : config.isHolocene parent.timestamp = true →
      parent.extraData = p.encodeExtraData → p ≠ {} →
      FeeParamsInForce config parent timestamp p.denominator.toNat p.elasticity.toNat
  /-- The parent could have chosen them. -/
  | unchosen : config.isHolocene parent.timestamp = true →
      (∀ p : FeeParams, parent.extraData = p.encodeExtraData → p = {}) →
      FeeParamsInForce config parent timestamp
        (min (config.baseFeeChangeDenominator timestamp).toNat (UInt32.size - 1))
        (min config.elasticityMultiplier.toNat (UInt32.size - 1))
  /-- The parent had no choice. -/
  | early : config.isHolocene parent.timestamp = false →
      FeeParamsInForce config parent timestamp
        (config.baseFeeChangeDenominator timestamp).toNat config.elasticityMultiplier.toNat

variable {config : ChainConfig} {parent : Header} {timestamp : UInt64} {d e : Nat}

namespace FeeParams

theorem orChainDefaults_of_ne {p : FeeParams} (given : p ≠ {}) :
    p.orChainDefaults config timestamp = p := by
  rw [orChainDefaults, if_neg (fun zero => given (isZero_eq_true_iff.mp zero))]

@[simp] theorem orChainDefaults_zero : orChainDefaults {} config timestamp =
    ⟨saturate (config.baseFeeChangeDenominator timestamp), saturate config.elasticityMultiplier⟩ :=
  if_pos (isZero_eq_true_iff.mpr rfl)

end FeeParams

/-- The node finds what is in force. -/
theorem FeeParamsInForce.feeParamsAfter_eq
    (inForce : FeeParamsInForce config parent timestamp d e) :
    feeParamsAfter config parent timestamp = (d, e) := by
  cases inForce with
  | @chosen p holocene carried given =>
      simp only [feeParamsAfter, holocene, if_true, carried,
        FeeParams.decodeExtraData_encodeExtraData, FeeParams.orChainDefaults_of_ne given]
  | unchosen holocene nothing =>
      have zero : FeeParams.decodeExtraData parent.extraData = {} := by
        rcases FeeParams.decodeExtraData_eq parent.extraData with ⟨p, carried⟩ | zero
        · rw [carried, FeeParams.decodeExtraData_encodeExtraData, nothing p carried]
        · exact zero
      simp only [feeParamsAfter, holocene, if_true, zero, FeeParams.orChainDefaults_zero,
        FeeParams.toNat_saturate]
  | early holocene =>
      simp only [feeParamsAfter, holocene, Bool.false_eq_true, if_false]

/-- Some parameters are always in force. -/
theorem exists_feeParamsInForce (config : ChainConfig) (parent : Header) (timestamp : UInt64) :
    ∃ d e, FeeParamsInForce config parent timestamp d e := by
  cases holocene : config.isHolocene parent.timestamp with
  | false => exact ⟨_, _, .early holocene⟩
  | true =>
      by_cases given : ∃ p : FeeParams, parent.extraData = p.encodeExtraData ∧ p ≠ {}
      · obtain ⟨p, carried, other⟩ := given
        exact ⟨_, _, .chosen holocene carried other⟩
      · refine ⟨_, _, .unchosen holocene ?_⟩
        intro p carried
        by_contra other
        exact given ⟨p, carried, other⟩

/-- **The node finds exactly what is in force.** -/
theorem feeParamsAfter_eq_iff :
    feeParamsAfter config parent timestamp = (d, e) ↔
      FeeParamsInForce config parent timestamp d e := by
  constructor
  · intro found
    obtain ⟨d', e', inForce⟩ := exists_feeParamsInForce config parent timestamp
    cases found.symm.trans inForce.feeParamsAfter_eq
    exact inForce
  · exact FeeParamsInForce.feeParamsAfter_eq

end EngineNode
