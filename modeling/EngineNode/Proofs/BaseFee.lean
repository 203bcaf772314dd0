import Mathlib.Data.Nat.Dist
import EngineNode.FeeMarket
import EngineNode.Proofs.Checked

/-!
Where the next base fee is defined.

Of all operations that lead to the next base fee just one can go wrong: the product of the base fee
with the distance of the gas used from its target may leave 256 bits. Base fees of up to 192 bits
are safe with every parent.

* `nextBaseFeeChecked?_eq`: checking every single operation changes nothing.
* `nextBaseFee_eq_none_iff`: where the next base fee is not defined (`BaseFeeOverflows`).
* `nextBaseFee_checked`: both, for all configurations, parents and times.
* `nextBaseFee_steep`: the product does leave 256 bits, where the base fee itself would not.
-/

namespace EngineNode

open Checked

/-- A 256-bit word has room for four 64-bit words. -/
theorem U256.size_eq : U256.size = UInt64.size ^ 4 := by decide

/-! ### Every operation checked -/

/-- The change of a base fee, in a multiplication and two divisions that are checked. -/
def baseFeeDeltaChecked? (baseFee gasDelta gasTarget denominator : Nat) : Option Nat := do
  let product ← fits? U256.size (baseFee * gasDelta)
  let share ← quotient? product gasTarget
  quotient? share denominator

/-- The base fee of the next block, with every division and every subtraction checked and every
product kept to 256 bits. The sum and the difference at the end are the ones that stop at the ends
of the word. -/
def nextBaseFeeChecked? (config : ChainConfig) (parent : Header) (timestamp : UInt64) :
    Option U256 :=
  match parent.baseFeePerGas with
  | none => some initialBaseFee
  | some parentFee => do
    let (denominator, elasticity) := feeParamsAfter config parent timestamp
    let gasTarget ← quotient? parent.gasLimit.toNat (max elasticity 1)
    let gasUsed := parent.gasUsed.toNat
    let fee := parentFee.toNat
    if gasTarget = 0 ∨ gasUsed = gasTarget then return parentFee
    else if gasTarget < gasUsed then
      let gasDelta ← difference? gasUsed gasTarget
      let delta ← baseFeeDeltaChecked? fee gasDelta gasTarget (max denominator 1)
      return BitVec.ofNat 256 (min (fee + max delta 1) (U256.size - 1))
    else
      let gasDelta ← difference? gasTarget gasUsed
      let delta ← baseFeeDeltaChecked? fee gasDelta gasTarget (max denominator 1)
      return BitVec.ofNat 256 (fee - delta)

section Delta

variable {fee gasDelta target denominator : Nat}

/-- Only the product can go wrong. -/
theorem baseFeeDeltaChecked?_eq (positive : target ≠ 0) (present : denominator ≠ 0) :
    baseFeeDeltaChecked? fee gasDelta target denominator =
      baseFeeDelta? fee gasDelta target denominator := by
  unfold baseFeeDeltaChecked? baseFeeDelta? fits?
  split
  · simp only [Option.bind_eq_bind, Option.bind_some, quotient?_of_ne_zero positive,
      quotient?_of_ne_zero present]
  · rfl

theorem baseFeeDelta?_eq_none_iff :
    baseFeeDelta? fee gasDelta target denominator = none ↔ U256.size ≤ fee * gasDelta := by
  simp [baseFeeDelta?]

end Delta

variable (config : ChainConfig) (parent : Header) (timestamp : UInt64)

/-- **Checking every single operation changes nothing**: no divisor is zero, no difference is below
zero, and the product is checked already. -/
theorem nextBaseFeeChecked?_eq :
    nextBaseFeeChecked? config parent timestamp = nextBaseFee config parent timestamp := by
  unfold nextBaseFeeChecked? nextBaseFee
  cases parent.baseFeePerGas with
  | none => rfl
  | some parentFee =>
      dsimp only
      obtain ⟨denominator, elasticity⟩ := feeParamsAfter config parent timestamp
      have multiplier : max elasticity 1 ≠ 0 := by omega
      have present : max denominator 1 ≠ 0 := by omega
      simp only [quotient?_of_ne_zero multiplier, Option.bind_eq_bind, Option.bind_some]
      generalize parent.gasLimit.toNat / max elasticity 1 = target
      split
      · rfl
      · rename_i off
        have positive : target ≠ 0 := fun zero => off (.inl zero)
        simp only [baseFeeDeltaChecked?_eq positive present]
        split
        · rename_i above
          rw [difference?_of_le above.le, Option.bind_some, Option.map_eq_bind]
          rfl
        · rename_i below
          rw [difference?_of_le (not_lt.mp below), Option.bind_some, Option.map_eq_bind]
          rfl

/-! ### The product -/

/-- The gas that a block would use for the base fee to stay what it is. -/
def baseFeeGasTarget : Nat :=
  parent.gasLimit.toNat / max (feeParamsAfter config parent timestamp).2 1

/-- The parent has a gas target, and the product of its base fee with the distance of its gas from
the target has no place in 256 bits. -/
def BaseFeeOverflows : Prop :=
  ∃ fee, parent.baseFeePerGas = some fee ∧ baseFeeGasTarget config parent timestamp ≠ 0 ∧
    U256.size ≤
      fee.toNat * Nat.dist parent.gasUsed.toNat (baseFeeGasTarget config parent timestamp)

/-- **Where the next base fee is not defined.** -/
theorem nextBaseFee_eq_none_iff :
    nextBaseFee config parent timestamp = none ↔ BaseFeeOverflows config parent timestamp := by
  unfold nextBaseFee BaseFeeOverflows baseFeeGasTarget
  cases parent.baseFeePerGas with
  | none => simp
  | some parentFee =>
      obtain ⟨denominator, elasticity⟩ := feeParamsAfter config parent timestamp
      dsimp only
      simp only [Option.some.injEq, exists_eq_left']
      generalize parent.gasLimit.toNat / max elasticity 1 = target
      split
      · rename_i settled
        rcases settled with zero | equal
        · simp [zero]
        · simp [equal, U256.size]
      · rename_i off
        have positive : target ≠ 0 := fun zero => off (.inl zero)
        split
        · rename_i above
          rw [Option.map_eq_none_iff, baseFeeDelta?_eq_none_iff,
            Nat.dist_eq_sub_of_le_right above.le]
          simp [positive]
        · rename_i below
          rw [Option.map_eq_none_iff, baseFeeDelta?_eq_none_iff,
            Nat.dist_eq_sub_of_le (not_lt.mp below)]
          simp [positive]

/-- The distance of the gas used from its target has 64 bits, whatever the parent says. -/
theorem dist_baseFeeGasTarget_lt :
    Nat.dist parent.gasUsed.toNat (baseFeeGasTarget config parent timestamp) < UInt64.size := by
  have used : parent.gasUsed.toNat < UInt64.size := parent.gasUsed.toNat_lt
  have target : baseFeeGasTarget config parent timestamp < UInt64.size :=
    (Nat.div_le_self _ _).trans_lt parent.gasLimit.toNat_lt
  rw [Nat.dist]
  omega

/-- Base fees of up to 192 bits are safe. -/
theorem not_baseFeeOverflows
    (moderate : ∀ fee, parent.baseFeePerGas = some fee → fee.toNat < UInt64.size ^ 3) :
    ¬ BaseFeeOverflows config parent timestamp := by
  rintro ⟨fee, present, -, overflows⟩
  refine absurd overflows (not_le.mpr ?_)
  have distance := dist_baseFeeGasTarget_lt config parent timestamp
  calc fee.toNat * Nat.dist parent.gasUsed.toNat (baseFeeGasTarget config parent timestamp)
    _ ≤ fee.toNat * UInt64.size := Nat.mul_le_mul_left _ distance.le
    _ < UInt64.size ^ 3 * UInt64.size :=
      Nat.mul_lt_mul_of_pos_right (moderate fee present) (by decide)
    _ = U256.size := by rw [U256.size_eq, ← pow_succ]

/-- **The next base fee is defined, with every operation checked, exactly where one product fits in
256 bits.** That is so after all parents whose base fee has no more than 192 bits, under every
configuration and whatever extra data, gas limit and gas used they have. -/
theorem nextBaseFee_checked :
    nextBaseFeeChecked? config parent timestamp = nextBaseFee config parent timestamp ∧
    (nextBaseFee config parent timestamp = none ↔ BaseFeeOverflows config parent timestamp) ∧
    ((∀ fee, parent.baseFeePerGas = some fee → fee.toNat < UInt64.size ^ 3) →
      ∃ fee, nextBaseFee config parent timestamp = some fee) := by
  refine ⟨nextBaseFeeChecked?_eq config parent timestamp,
    nextBaseFee_eq_none_iff config parent timestamp, fun moderate => ?_⟩
  rw [← Option.ne_none_iff_exists', Ne, nextBaseFee_eq_none_iff]
  exact not_baseFeeOverflows config parent timestamp moderate

/-- A full block with a base fee. -/
def fullParent (baseFee : U256) : Header where
  gasLimit := 30000000
  gasUsed := 30000000
  baseFeePerGas := some baseFee

/-- After a full block with a base fee of the usual size there is a next one. -/
theorem nextBaseFee_usual : initialBaseFee.toNat < UInt64.size ^ 3 ∧
    ∃ fee, nextBaseFee .ethereumDevnet (fullParent initialBaseFee) 12 = some fee := by
  have usual : initialBaseFee.toNat < UInt64.size ^ 3 := by decide +kernel
  refine ⟨usual, (nextBaseFee_checked .ethereumDevnet (fullParent initialBaseFee) 12).2.2 ?_⟩
  rintro _ ⟨⟩
  exact usual

/-- **The product leaves 256 bits where the base fee itself would not**: it would rise by an
eighth. -/
theorem nextBaseFee_steep :
    nextBaseFee .ethereumDevnet (fullParent (BitVec.ofNat 256 (2 ^ 255))) 12 = none ∧
      2 ^ 255 + 2 ^ 255 * (30000000 - 15000000) / 15000000 / 8 < U256.size := by
  refine ⟨?_, by decide +kernel⟩
  refine (nextBaseFee_eq_none_iff _ _ _).mpr ⟨_, rfl, ?_⟩
  decide +kernel

end EngineNode
