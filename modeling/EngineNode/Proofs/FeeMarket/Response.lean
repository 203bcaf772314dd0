import EngineNode.Proofs.BaseFee
import EngineNode.Proofs.FeeMarket.InForce

/-!
How the base fee answers to the gas that a block used.

In exact numbers the answer is a function of the denominator, the gas target, the fee and the gas
used (`movedBaseFee`). It has three truncating divisions and a least step on one side only, but it
never moves the wrong way. The next base fee is this number cut off at 256 bits, unless a product
on the way there overflows.

* `movedBaseFee_mono`: more gas used never means a lower fee.
* `BaseFeeMoves.of_movedBaseFee`: how far the fee moves on either side of the target.
* `nextBaseFee_eq_movedBaseFee?`: the next base fee in terms of the exact number.
* `nextBaseFee_follows_gasUsed`: what this comes to for blocks that differ in gas used only.
-/

namespace EngineNode

/-! ### Exact numbers -/

/-- The base fee after a block with a base fee `fee` that used `used` gas. -/
def movedBaseFee (denominator target fee used : Nat) : Nat :=
  if target = 0 ∨ used = target then fee
  else if target < used then fee + max (fee * (used - target) / target / denominator) 1
  else fee - fee * (target - used) / target / denominator

/-- A base fee keeps still on its target and without one, rises by one at least above, and falls by
no more than its share below. -/
structure BaseFeeMoves (denominator target fee used next : Nat) : Prop where
  keeps : target = 0 ∨ used = target → next = fee
  rises : target ≠ 0 → target < used → fee + 1 ≤ next
  falls : used < target → fee - fee / denominator ≤ next ∧ next ≤ fee

section Moved

variable {denominator target fee used used' : Nat}

theorem movedBaseFee_of_settled (settled : target = 0 ∨ used = target) :
    movedBaseFee denominator target fee used = fee :=
  if_pos settled

theorem movedBaseFee_of_lt (positive : target ≠ 0) (above : target < used) :
    movedBaseFee denominator target fee used =
      fee + max (fee * (used - target) / target / denominator) 1 := by
  rw [movedBaseFee, if_neg (by omega), if_pos above]

theorem movedBaseFee_of_gt (below : used < target) :
    movedBaseFee denominator target fee used =
      fee - fee * (target - used) / target / denominator := by
  rw [movedBaseFee, if_neg (by omega), if_neg (by omega)]

/-- Being further off the target never means a smaller change. -/
theorem feeChange_mono {distance distance' : Nat} (le : distance ≤ distance') :
    fee * distance / target / denominator ≤ fee * distance' / target / denominator :=
  Nat.div_le_div_right (Nat.div_le_div_right (Nat.mul_le_mul_left fee le))

/-- No more gas than the target can be missing, so the change is a share of the fee at most. -/
theorem feeChange_le_div {distance : Nat} (le : distance ≤ target) :
    fee * distance / target / denominator ≤ fee / denominator := by
  refine Nat.div_le_div_right (Nat.div_le_of_le_mul ?_)
  calc fee * distance
    _ ≤ fee * target := Nat.mul_le_mul_left fee le
    _ = target * fee := Nat.mul_comm fee target

theorem lt_movedBaseFee (positive : target ≠ 0) (above : target < used) :
    fee < movedBaseFee denominator target fee used := by
  rw [movedBaseFee_of_lt positive above]
  have : 1 ≤ max (fee * (used - target) / target / denominator) 1 := Nat.le_max_right _ _
  omega

theorem movedBaseFee_le (within : used ≤ target) :
    movedBaseFee denominator target fee used ≤ fee := by
  by_cases same : used = target
  · rw [movedBaseFee_of_settled (.inr same)]
  · rw [movedBaseFee_of_gt (by omega)]
    exact Nat.sub_le _ _

/-- **How far the base fee moves.** -/
theorem BaseFeeMoves.of_movedBaseFee (denominator target fee used : Nat) :
    BaseFeeMoves denominator target fee used (movedBaseFee denominator target fee used) where
  keeps := movedBaseFee_of_settled
  rises := lt_movedBaseFee
  falls below := by
    refine ⟨?_, movedBaseFee_le below.le⟩
    rw [movedBaseFee_of_gt below]
    exact Nat.sub_le_sub_left (feeChange_le_div (Nat.sub_le target used)) fee

/-- **More gas used never means a lower base fee.** -/
theorem movedBaseFee_mono (le : used ≤ used') :
    movedBaseFee denominator target fee used ≤ movedBaseFee denominator target fee used' := by
  by_cases zero : target = 0
  · rw [movedBaseFee_of_settled (.inl zero), movedBaseFee_of_settled (.inl zero)]
  · by_cases above' : target < used'
    · by_cases above : target < used
      · rw [movedBaseFee_of_lt zero above, movedBaseFee_of_lt zero above']
        have further : fee * (used - target) / target / denominator ≤
            fee * (used' - target) / target / denominator :=
          feeChange_mono (Nat.sub_le_sub_right le target)
        omega
      · -- Between the two lies the target, where the fee keeps still.
        calc movedBaseFee denominator target fee used
          _ ≤ fee := movedBaseFee_le (not_lt.mp above)
          _ ≤ movedBaseFee denominator target fee used' := (lt_movedBaseFee zero above').le
    · by_cases same : used' = target
      · rw [movedBaseFee_of_settled (.inr same)]
        exact movedBaseFee_le (same ▸ le)
      · have below' : used' < target := by omega
        rw [movedBaseFee_of_gt (le.trans_lt below'), movedBaseFee_of_gt below']
        exact Nat.sub_le_sub_left (feeChange_mono (Nat.sub_le_sub_left le target)) fee

/-- A fee of 192 bits has room for every move. -/
theorem movedBaseFee_lt (moderate : fee < 2 ^ 192) (word : used < UInt64.size) :
    movedBaseFee denominator target fee used < U256.size := by
  have words : U256.size = 2 ^ 256 := by decide
  have word64 : UInt64.size = 2 ^ 64 := by decide
  by_cases above : target ≠ 0 ∧ target < used
  · rw [movedBaseFee_of_lt above.1 above.2]
    have change : fee * (used - target) / target / denominator ≤ fee * (2 ^ 64 - 1) :=
      calc fee * (used - target) / target / denominator
        _ ≤ fee * (used - target) := (Nat.div_le_self _ _).trans (Nat.div_le_self _ _)
        _ ≤ fee * (2 ^ 64 - 1) := Nat.mul_le_mul_left fee (by omega)
    omega
  · have still : movedBaseFee denominator target fee used ≤ fee := by
      by_cases zero : target = 0
      · rw [movedBaseFee_of_settled (.inl zero)]
      · exact movedBaseFee_le (by omega)
    omega

end Moved

/-! ### Words -/

/-- The moved base fee as a word, at most the greatest one; none if the product on the way there
leaves 256 bits. -/
def movedBaseFee? (denominator target fee used : Nat) : Option U256 :=
  if target ≠ 0 ∧ U256.size ≤ fee * Nat.dist used target then none
  else some (BitVec.ofNat 256 (min (movedBaseFee denominator target fee used) (U256.size - 1)))

theorem movedBaseFee?_of_moderate {denominator target fee used : Nat} (moderate : fee < 2 ^ 192)
    (target64 : target < UInt64.size) (used64 : used < UInt64.size) :
    ∃ next : U256, movedBaseFee? denominator target fee used = some next ∧
      next.toNat = movedBaseFee denominator target fee used := by
  have room : movedBaseFee denominator target fee used < U256.size :=
    movedBaseFee_lt moderate used64
  have distance : Nat.dist used target ≤ UInt64.size := by
    rw [Nat.dist]
    omega
  have product : fee * Nat.dist used target < U256.size :=
    calc fee * Nat.dist used target
      _ ≤ fee * UInt64.size := Nat.mul_le_mul_left fee distance
      _ < 2 ^ 192 * UInt64.size := Nat.mul_lt_mul_of_pos_right moderate (by decide)
      _ = U256.size := by decide
  refine ⟨_, if_neg (fun overflows => absurd overflows.2 (not_le.mpr product)), ?_⟩
  rw [Nat.min_eq_left (by omega), BitVec.toNat_ofNat]
  exact Nat.mod_eq_of_lt room

/-- **The next base fee in terms of the exact number.** -/
theorem nextBaseFee_eq_movedBaseFee? {config : ChainConfig} {parent : Header} {timestamp : UInt64}
    {fee : U256} {d e : Nat} (present : parent.baseFeePerGas = some fee)
    (inForce : FeeParamsInForce config parent timestamp d e) :
    nextBaseFee config parent timestamp =
      movedBaseFee? (max d 1) (parent.gasLimit.toNat / max e 1) fee.toNat
        parent.gasUsed.toNat := by
  simp only [nextBaseFee, present, inForce.feeParamsAfter_eq]
  generalize parent.gasLimit.toNat / max e 1 = target
  have word : fee.toNat ≤ U256.size - 1 := Nat.le_sub_one_of_lt fee.isLt
  by_cases settled : target = 0 ∨ parent.gasUsed.toNat = target
  · have noDistance : ¬(target ≠ 0 ∧
        U256.size ≤ fee.toNat * Nat.dist parent.gasUsed.toNat target) := by
      rintro ⟨positive, overflows⟩
      rw [settled.resolve_left positive, Nat.dist_self, Nat.mul_zero] at overflows
      exact absurd overflows (by decide)
    rw [if_pos settled, movedBaseFee?, if_neg noDistance, movedBaseFee_of_settled settled,
      Nat.min_eq_left word, BitVec.ofNat_toNat, BitVec.setWidth_eq]
  · obtain ⟨positive, off⟩ := not_or.mp settled
    rw [if_neg settled, movedBaseFee?]
    by_cases above : target < parent.gasUsed.toNat
    · rw [if_pos above, Nat.dist_eq_sub_of_le_right above.le, movedBaseFee_of_lt positive above,
        baseFeeDelta?]
      by_cases overflows : U256.size ≤ fee.toNat * (parent.gasUsed.toNat - target)
      · rw [if_neg (not_lt.mpr overflows), if_pos ⟨positive, overflows⟩]
        rfl
      · rw [if_pos (not_le.mp overflows), if_neg (fun both => overflows both.2)]
        rfl
    · have below : parent.gasUsed.toNat < target := by omega
      rw [if_neg above, Nat.dist_eq_sub_of_le below.le, movedBaseFee_of_gt below, baseFeeDelta?]
      by_cases overflows : U256.size ≤ fee.toNat * (target - parent.gasUsed.toNat)
      · rw [if_neg (not_lt.mpr overflows), if_pos ⟨positive, overflows⟩]
        rfl
      · rw [if_pos (not_le.mp overflows), if_neg (fun both => overflows both.2),
          Nat.min_eq_left ((Nat.sub_le _ _).trans word)]
        rfl

/-! ### Blocks that differ in gas used -/

section GasUsed

variable {config : ChainConfig} {timestamp : UInt64} {p q : Header} {d e : Nat}

/-- Gas used has no part in which parameters are in force. -/
theorem FeeParamsInForce.of_gasUsed (inForce : FeeParamsInForce config p timestamp d e)
    (same : q = { p with gasUsed := q.gasUsed }) : FeeParamsInForce config q timestamp d e := by
  rw [same]
  exact feeParamsAfter_eq_iff.mp inForce.feeParamsAfter_eq

/-- After a parent with a base fee of no more than 192 bits the next one is the exact number. -/
theorem nextBaseFee_of_moderate {fee : U256} (present : p.baseFeePerGas = some fee)
    (moderate : fee.toNat < 2 ^ 192) (inForce : FeeParamsInForce config p timestamp d e) :
    ∃ next : U256, nextBaseFee config p timestamp = some next ∧
      next.toNat = movedBaseFee (max d 1) (p.gasLimit.toNat / max e 1) fee.toNat
        p.gasUsed.toNat := by
  rw [nextBaseFee_eq_movedBaseFee? present inForce]
  exact movedBaseFee?_of_moderate moderate ((Nat.div_le_self _ _).trans_lt p.gasLimit.toNat_lt)
    p.gasUsed.toNat_lt

end GasUsed

/-- **The base fee follows the gas used.** Of two parents that differ in gas used only, with a base
fee of no more than 192 bits if any, the one that used more gas is not followed by a lower base
fee. The fee moves from that of the parent as the denominator and the gas target in force say, each
of the parameters being read as one where it is zero. -/
theorem nextBaseFee_follows_gasUsed (config : ChainConfig) (timestamp : UInt64) (p q : Header)
    (same : q = { p with gasUsed := q.gasUsed }) (le : p.gasUsed ≤ q.gasUsed)
    (moderate : ∀ fee, p.baseFeePerGas = some fee → fee.toNat < 2 ^ 192) :
    ∃ a b, nextBaseFee config p timestamp = some a ∧ nextBaseFee config q timestamp = some b ∧
      a ≤ b ∧
      ∃ d e, FeeParamsInForce config p timestamp d e ∧ ∀ fee, p.baseFeePerGas = some fee →
        BaseFeeMoves (max d 1) (p.gasLimit.toNat / max e 1) fee.toNat p.gasUsed.toNat a.toNat ∧
        BaseFeeMoves (max d 1) (p.gasLimit.toNat / max e 1) fee.toNat q.gasUsed.toNat b.toNat := by
  obtain ⟨d, e, inForce⟩ := exists_feeParamsInForce config p timestamp
  have sameFee : q.baseFeePerGas = p.baseFeePerGas := by rw [same]
  have sameLimit : q.gasLimit = p.gasLimit := by rw [same]
  cases present : p.baseFeePerGas with
  | none =>
      have first {parent : Header} (absent : parent.baseFeePerGas = none) :
          nextBaseFee config parent timestamp = some initialBaseFee := by
        simp only [nextBaseFee, absent]
      exact ⟨_, _, first present, first (sameFee.trans present), BitVec.le_refl _, d, e, inForce,
        nofun⟩
  | some fee =>
      have small := moderate fee present
      obtain ⟨a, next, exact_a⟩ := nextBaseFee_of_moderate present small inForce
      obtain ⟨b, next', exact_b⟩ := nextBaseFee_of_moderate (sameFee.trans present) small
        (inForce.of_gasUsed same)
      rw [sameLimit] at exact_b
      refine ⟨a, b, next, next', ?_, d, e, inForce, ?_⟩
      · rw [BitVec.le_def, exact_a, exact_b]
        exact movedBaseFee_mono (UInt64.le_iff_toNat_le.mp le)
      · rintro _ ⟨⟩
        rw [exact_a, exact_b]
        exact ⟨.of_movedBaseFee _ _ _ _, .of_movedBaseFee _ _ _ _⟩

/-- A block of a rollup chain that chose its own parameters. -/
def choosingParent (used : UInt64) : Header where
  gasLimit := 30000000
  gasUsed := used
  extraData := FeeParams.encodeExtraData ⟨10, 0⟩
  baseFeePerGas := some initialBaseFee

/-- With an elasticity of zero the target is the gas limit, so the base fee does not rise after a
full block, and falls by a tenth after an empty one. -/
theorem choosingParent_follows_gasUsed :
    choosingParent 30000000 =
      { choosingParent 0 with gasUsed := (choosingParent 30000000).gasUsed } ∧
    (choosingParent 0).gasUsed ≤ (choosingParent 30000000).gasUsed ∧
    initialBaseFee.toNat < 2 ^ 192 ∧
    ∃ a b, nextBaseFee .optimismDevnet (choosingParent 0) 2 = some a ∧
      nextBaseFee .optimismDevnet (choosingParent 30000000) 2 = some b ∧ a ≤ b ∧
      initialBaseFee.toNat - initialBaseFee.toNat / 10 ≤ a.toNat ∧
      b.toNat = initialBaseFee.toNat := by
  have less : (choosingParent 0).gasUsed ≤ (choosingParent 30000000).gasUsed := by decide
  have small : initialBaseFee.toNat < 2 ^ 192 := by decide +kernel
  have moderate : ∀ fee, (choosingParent 0).baseFeePerGas = some fee → fee.toNat < 2 ^ 192 := by
    rintro _ ⟨⟩
    exact small
  obtain ⟨a, b, next, next', le, d, e, inForce, moves⟩ := nextBaseFee_follows_gasUsed
    .optimismDevnet 2 (choosingParent 0) (choosingParent 30000000) rfl less moderate
  have chosen : FeeParamsInForce .optimismDevnet (choosingParent 0) 2 10 0 :=
    .chosen (p := ⟨10, 0⟩) (by decide) rfl (by decide)
  cases inForce.feeParamsAfter_eq.symm.trans chosen.feeParamsAfter_eq
  obtain ⟨below, still⟩ := moves initialBaseFee rfl
  exact ⟨rfl, less, small, a, b, next, next', le, (below.falls (by decide)).1,
    still.keeps (by decide)⟩

end EngineNode
