import Mathlib.Algebra.Group.Nat.Defs
import Mathlib.Data.List.Induction
import EngineNode.Build.Generate
import EngineNode.Proofs.Schedule

/-!
Fee parameters in extra data.

* `FeeParams.decode_encode`, `FeeParams.encode_decode`: reading and writing undo each other.
* `FeeParams.validateExtraData_eq_ok_iff`: extra data is accepted exactly when it is written
  parameters that have a denominator or are zero.
* `Generator.extraData_accepted`: so are those that a generated block carries since Holocene.
-/

namespace EngineNode

namespace Bytes

/-- Reading a padded number gives its remainder. -/
theorem toNat_ofNatPadded (width n : Nat) :
    toNat (ofNatPadded width n) = n % 256 ^ width := by
  induction width generalizing n with
  | zero => simp [ofNatPadded, toNat, Nat.mod_one]
  | succ width ih =>
      have byte : (UInt8.ofNat n).toNat = n % 256 := by simp
      rw [ofNatPadded, toNat_append_singleton, ih, byte, Nat.pow_succ, Nat.mul_comm (256 ^ width),
        Nat.mod_mul]
      omega

/-- Numbers that few bytes spell are small. -/
theorem toNat_lt (bytes : Bytes) : toNat bytes < 256 ^ bytes.length := by
  induction bytes using List.reverseRecOn with
  | nil => decide
  | append_singleton init b ih =>
      rw [toNat_append_singleton, List.length_append, List.length_singleton, Nat.pow_succ]
      have := b.toNat_lt
      omega

/-- Bytes are the padded form of the number that they spell. -/
theorem ofNatPadded_toNat (bytes : Bytes) : ofNatPadded bytes.length (toNat bytes) = bytes := by
  induction bytes using List.reverseRecOn with
  | nil => rfl
  | append_singleton init b ih =>
      have small := b.toNat_lt
      have front : (256 * toNat init + b.toNat) / 256 = toNat init := by omega
      have last : UInt8.ofNat (256 * toNat init + b.toNat) = b := by
        apply UInt8.toNat_inj.mp
        rw [UInt8.toNat_ofNat']
        omega
      rw [List.length_append, List.length_singleton, toNat_append_singleton, ofNatPadded, front,
        last, ih]

end Bytes

namespace FeeParams

theorem ofNat_toNat_ofNatPadded (n : UInt32) :
    UInt32.ofNat (Bytes.toNat (Bytes.ofNatPadded 4 n.toNat)) = n := by
  have small : n.toNat < 256 ^ 4 := n.toNat_lt
  rw [Bytes.toNat_ofNatPadded, Nat.mod_eq_of_lt small]
  exact UInt32.ofNat_toNat

@[simp] theorem length_encode (p : FeeParams) : p.encode.length = 8 := by simp [encode]

/-- **Reading undoes writing.** -/
@[simp] theorem decode_encode (p : FeeParams) : decode p.encode = p := by
  have denominator : p.encode.take 4 = Bytes.ofNatPadded 4 p.denominator.toNat :=
    List.take_left' (Bytes.length_ofNatPadded 4 _)
  have elasticity : p.encode.drop 4 = Bytes.ofNatPadded 4 p.elasticity.toNat :=
    List.drop_left' (Bytes.length_ofNatPadded 4 _)
  rw [decode, if_pos p.length_encode, denominator, elasticity, ofNat_toNat_ofNatPadded,
    ofNat_toNat_ofNatPadded]

/-- Four bytes are the padded form of the word that they spell. -/
theorem ofNatPadded_toNat_ofNat {bytes : Bytes} (length : bytes.length = 4) :
    Bytes.ofNatPadded 4 (UInt32.ofNat (Bytes.toNat bytes)).toNat = bytes := by
  have small : Bytes.toNat bytes < UInt32.size := by
    have := Bytes.toNat_lt bytes
    rwa [length] at this
  rw [UInt32.toNat_ofNat_of_lt' small, ← length]
  exact Bytes.ofNatPadded_toNat bytes

/-- **Writing undoes reading**, where there are eight bytes. -/
theorem encode_decode {bytes : Bytes} (length : bytes.length = 8) :
    (decode bytes).encode = bytes := by
  have front : (bytes.take 4).length = 4 := by simp [length]
  have back : (bytes.drop 4).length = 4 := by simp [length]
  rw [decode, if_pos length, encode, ofNatPadded_toNat_ofNat front, ofNatPadded_toNat_ofNat back,
    List.take_append_drop]

@[simp] theorem decodeExtraData_encodeExtraData (p : FeeParams) :
    decodeExtraData p.encodeExtraData = p :=
  p.decode_encode

/-- Extra data that is not written parameters is read as zeros. -/
theorem decodeExtraData_eq (extraData : Bytes) :
    (∃ p : FeeParams, extraData = p.encodeExtraData) ∨ decodeExtraData extraData = {} := by
  unfold decodeExtraData
  split
  · rename_i params
    by_cases length : params.length = 8
    · refine .inl ⟨decode params, ?_⟩
      rw [encodeExtraData, encode_decode length]
    · exact .inr (if_neg length)
  · exact .inr rfl

theorem validate_eq_ok_iff {bytes : Bytes} : validate bytes = .ok () ↔
    bytes.length = 8 ∧ ((decode bytes).denominator = 0 → (decode bytes).elasticity = 0) := by
  unfold validate
  by_cases length : bytes.length = 8
  · simp [length]
  · simp [length]

/-- Written parameters are accepted if they have a denominator, unless all is zero. -/
theorem validateExtraData_encodeExtraData {p : FeeParams}
    (given : p.denominator = 0 → p.elasticity = 0) :
    validateExtraData p.encodeExtraData = .ok () := by
  rw [encodeExtraData, validateExtraData, if_neg (by simp), if_neg (by simp)]
  exact validate_eq_ok_iff.mpr ⟨p.length_encode, by rwa [decode_encode]⟩

/-- **Only written parameters are accepted.** -/
theorem validateExtraData_eq_ok_iff {extraData : Bytes} :
    validateExtraData extraData = .ok () ↔
      ∃ p : FeeParams, (p.denominator = 0 → p.elasticity = 0) ∧ extraData = p.encodeExtraData := by
  constructor
  · intro accepted
    unfold validateExtraData at accepted
    split at accepted
    · rename_i version params
      rw [ite_error_eq_ok_iff, ite_error_eq_ok_iff, not_not, not_not] at accepted
      obtain ⟨-, rfl, valid⟩ := accepted
      obtain ⟨eight, given⟩ := validate_eq_ok_iff.mp valid
      exact ⟨decode params, given, by rw [encodeExtraData, encode_decode eight]⟩
    · cases accepted
  · rintro ⟨p, given, rfl⟩
    exact validateExtraData_encodeExtraData given

theorem toNat_saturate (n : UInt64) : (saturate n).toNat = min n.toNat (UInt32.size - 1) := by
  have small : min n.toNat (UInt32.size - 1) < UInt32.size :=
    Nat.lt_of_le_of_lt (Nat.min_le_right _ _) (by decide)
  rw [saturate, UInt32.toNat_ofNat_of_lt' small]

theorem saturate_ne_zero {n : UInt64} (nonzero : n ≠ 0) : saturate n ≠ 0 := by
  intro zero
  have value := toNat_saturate n
  rw [zero] at value
  have : n.toNat = 0 := by
    simp only [UInt32.size, UInt32.toNat_zero] at value
    omega
  exact nonzero (UInt64.toNat_inj.mp this)

theorem isZero_eq_true_iff {p : FeeParams} : p.isZero = true ↔ p = {} := by
  obtain ⟨denominator, elasticity⟩ := p
  simp [isZero]

/-- Parameters that may be chosen have a denominator where the chain has one, or are zero. -/
theorem denominator_orChainDefaults_ne_zero {p : FeeParams} {config : ChainConfig} {time : UInt64}
    (chosen : p.denominator = 0 → p.elasticity = 0)
    (nonzero : config.baseFeeChangeDenominator time ≠ 0) :
    (p.orChainDefaults config time).denominator ≠ 0 := by
  unfold orChainDefaults
  split
  · exact saturate_ne_zero nonzero
  · rename_i other
    intro zero
    exact other (by simp [isZero, zero, chosen zero])

end FeeParams

namespace Generator

variable {g : Generator} {plan : BlockPlan} {bytes : Bytes}

/-- **Since Holocene generated blocks carry fee parameters that are accepted.** -/
theorem extraData_accepted (accepted : g.config.Accepted)
    (made : g.extraData plan = .ok bytes) (holocene : g.config.isHolocene plan.timestamp = true) :
    FeeParams.validateExtraData bytes = .ok () := by
  simp only [extraData, holocene, if_true] at made
  split at made
  · cases made
  · rename_i params _
    split at made
    · cases made
    · rename_i valid
      cases made
      have nonzero := FeeParams.denominator_orChainDefaults_ne_zero
        (FeeParams.validate_eq_ok_iff.mp valid).2
        (accepted.baseFeeChangeDenominator_ne_zero (accepted.isCanyon_of_isHolocene holocene))
      exact FeeParams.validateExtraData_encodeExtraData fun zero => absurd zero nonzero

/-- Before Holocene they carry the extra data of the operator. -/
theorem extraData_eq_miner (made : g.extraData plan = .ok bytes)
    (early : g.config.isHolocene plan.timestamp = false) : bytes = g.miner.extraData := by
  simp only [extraData, early, Bool.false_eq_true, if_false] at made
  split at made
  · cases made
  · cases made
    rfl

theorem length_extraData_le (made : g.extraData plan = .ok bytes)
    (short : g.miner.extraData.length ≤ maximumExtraDataSize) :
    bytes.length ≤ maximumExtraDataSize := by
  cases holocene : g.config.isHolocene plan.timestamp with
  | false => rwa [extraData_eq_miner made holocene]
  | true =>
      simp only [extraData, holocene, if_true] at made
      split at made
      · cases made
      · split at made
        · cases made
        · cases made
          simp [FeeParams.encodeExtraData, maximumExtraDataSize]

end Generator

end EngineNode
