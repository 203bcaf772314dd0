import EngineNode.Engine.Versions
import EngineNode.Proofs.Schedule

/-!
Attributes and the versions that take them.

The first version asks for the time of Shanghai, the second one names the forks that it knows, and
the third one asks for every part before it asks for Cancun. It is the order of the forks that makes
one rule of the three: a version takes the attributes that have the parts of the fork at their time,
as long as that is one of its own forks.

* `PayloadAttributes.FitsForks`: attributes have the parts that the forks at their time ask for.
* `ForkchoiceVersion.checkV1_eq_ok_iff`, `ForkchoiceVersion.checkV2_eq_ok_iff`,
  `ForkchoiceVersion.checkV3_eq_ok_iff`: what each version takes.
* `ForkchoiceVersion.attributes_accepted_iff`: so attributes that fit are taken by some version, and
  others by none.
-/

namespace EngineNode

/-- Attributes have withdrawals and a beacon root exactly when the forks at their time ask for
them. -/
structure PayloadAttributes.FitsForks (attributes : PayloadAttributes) (config : ChainConfig) :
    Prop where
  withdrawals : attributes.withdrawals.isSome = config.isShanghai attributes.timestamp
  beaconRoot : attributes.parentBeaconBlockRoot.isSome = config.isCancun attributes.timestamp

namespace ForkchoiceVersion

variable {config : ChainConfig} {attributes : PayloadAttributes}

theorem checkV1_eq_ok_iff (legal : config.Accepted) :
    checkV1 config attributes = .ok () ↔
      attributes.FitsForks config ∧ config.isShanghai attributes.timestamp = false := by
  have earlier (early : config.isShanghai attributes.timestamp = false) :
      config.isCancun attributes.timestamp = false :=
    Bool.eq_false_iff.mpr fun active =>
      Bool.eq_false_iff.mp early (legal.cancun _ active)
  simp only [checkV1, ite_error_eq_ok_iff, not_or, Bool.not_eq_true]
  constructor
  · rintro ⟨⟨withdrawals, root⟩, early, -⟩
    exact ⟨⟨withdrawals.trans early.symm, root.trans (earlier early).symm⟩, early⟩
  · rintro ⟨fits, early⟩
    exact ⟨⟨fits.withdrawals.trans early, fits.beaconRoot.trans (earlier early)⟩, early, trivial⟩

theorem checkV2_eq_ok_iff (legal : config.Accepted) :
    checkV2 config attributes = .ok () ↔
      attributes.FitsForks config ∧ config.isCancun attributes.timestamp = false := by
  have shanghai : config.isShanghai attributes.timestamp = _ := legal.isForkActive_eq .shanghai
  have cancun : config.isCancun attributes.timestamp = _ := legal.isForkActive_eq .cancun
  simp only [checkV2, ite_error_eq_ok_iff, Bool.not_eq_true]
  constructor
  · rintro ⟨root, accepted⟩
    cases fork : config.latestFork attributes.timestamp <;>
      simp only [fork] at accepted shanghai cancun
    case paris =>
      have withdrawals := Bool.eq_false_iff.mpr (ite_error_eq_ok_iff.mp accepted).1
      exact ⟨⟨withdrawals.trans shanghai.symm, root.trans cancun.symm⟩, cancun⟩
    case shanghai =>
      have withdrawals := (ite_error_eq_ok_iff.mp accepted).1
      rw [Option.isNone_iff_eq_none, ← ne_eq, Option.ne_none_iff_isSome] at withdrawals
      exact ⟨⟨withdrawals.trans shanghai.symm, root.trans cancun.symm⟩, cancun⟩
    all_goals cases accepted
  · rintro ⟨fits, early⟩
    refine ⟨fits.beaconRoot.trans early, ?_⟩
    have withdrawals := fits.withdrawals.trans shanghai
    cases fork : config.latestFork attributes.timestamp <;>
      simp only [fork] at withdrawals cancun
    case paris =>
      exact if_neg (by rw [withdrawals]; decide)
    case shanghai =>
      have present : attributes.withdrawals ≠ none := Option.ne_none_iff_isSome.mpr withdrawals
      exact if_neg (by rwa [Option.isNone_iff_eq_none])
    all_goals cases early.symm.trans cancun

theorem checkV3_eq_ok_iff (legal : config.Accepted) :
    checkV3 config attributes = .ok () ↔
      attributes.FitsForks config ∧ config.isCancun attributes.timestamp = true := by
  have shanghai : config.isShanghai attributes.timestamp = _ := legal.isForkActive_eq .shanghai
  have cancun : config.isCancun attributes.timestamp = _ := legal.isForkActive_eq .cancun
  simp only [checkV3, ite_error_eq_ok_iff, Option.isNone_iff_eq_none, ← ne_eq,
    Option.ne_none_iff_isSome]
  constructor
  · rintro ⟨withdrawals, root, accepted⟩
    split at accepted
    · rename_i late
      have later : Fork.shanghai ≤ config.latestFork attributes.timestamp :=
        Nat.le_trans (by decide) late
      rw [decide_eq_true later] at shanghai
      rw [decide_eq_true late] at cancun
      exact ⟨⟨withdrawals.trans shanghai.symm, root.trans cancun.symm⟩, cancun⟩
    · cases accepted
  · rintro ⟨fits, active⟩
    have late : Fork.cancun ≤ config.latestFork attributes.timestamp :=
      of_decide_eq_true (cancun.symm.trans active)
    have later := legal.cancun _ active
    exact ⟨fits.withdrawals.trans later, fits.beaconRoot.trans active, if_pos late⟩

/-- What a version takes has the parts that the forks ask for. -/
theorem fitsForks_of_checkAttributes {version : ForkchoiceVersion} (legal : config.Accepted)
    (accepted : version.checkAttributes config attributes = .ok ()) :
    attributes.FitsForks config := by
  cases version with
  | v1 => exact ((checkV1_eq_ok_iff legal).mp accepted).1
  | v2 => exact ((checkV2_eq_ok_iff legal).mp accepted).1
  | v3 => exact ((checkV3_eq_ok_iff legal).mp accepted).1

/-- **Each version takes exactly the attributes that fit the forks at their time, during its own
forks.** The first one is for the time before Shanghai, the second one for the time before Cancun,
and the third one for the time since. So attributes are taken by some version exactly if they
fit. -/
theorem attributes_accepted_iff (accepted : config.validate = .ok ())
    (attributes : PayloadAttributes) :
    (checkAttributes .v1 config attributes = .ok () ↔
      attributes.FitsForks config ∧ config.isShanghai attributes.timestamp = false) ∧
    (checkAttributes .v2 config attributes = .ok () ↔
      attributes.FitsForks config ∧ config.isCancun attributes.timestamp = false) ∧
    (checkAttributes .v3 config attributes = .ok () ↔
      attributes.FitsForks config ∧ config.isCancun attributes.timestamp = true) ∧
    ((∃ version, checkAttributes version config attributes = .ok ()) ↔
      attributes.FitsForks config) := by
  have legal := ChainConfig.accepted_of_validate accepted
  refine ⟨checkV1_eq_ok_iff legal, checkV2_eq_ok_iff legal, checkV3_eq_ok_iff legal, ?_⟩
  constructor
  · rintro ⟨version, taken⟩
    exact fitsForks_of_checkAttributes legal taken
  · intro fits
    cases cancun : config.isCancun attributes.timestamp with
    | false => exact ⟨.v2, (checkV2_eq_ok_iff legal).mpr ⟨fits, cancun⟩⟩
    | true => exact ⟨.v3, (checkV3_eq_ok_iff legal).mpr ⟨fits, cancun⟩⟩

/-- Attributes with withdrawals, at the last moment before Cancun of Ethereum Mainnet, are taken by
the second version alone. A moment later no version takes them, until they have a beacon root. -/
theorem ethereumMainnet_attributes :
    let last : PayloadAttributes := {
      timestamp := 1710338134, prevRandao := .zero 32, suggestedFeeRecipient := .zero 20
      withdrawals := some [], parentBeaconBlockRoot := none, transactions := [], noTxPool := false
      gasLimit := none, eip1559Params := [] }
    let late := { last with timestamp := 1710338135 }
    let config := ChainConfig.ethereumMainnet
    config.validate = .ok () ∧
      checkAttributes .v2 config last = .ok () ∧ checkAttributes .v1 config last ≠ .ok () ∧
      checkAttributes .v3 config last ≠ .ok () ∧
      (∀ version, checkAttributes version config late ≠ .ok ()) ∧
      checkAttributes .v3 config { late with parentBeaconBlockRoot := some (.zero 32) } = .ok () := by
  intro last late config
  have accepted : ChainConfig.ethereumMainnet.validate = .ok () := rfl
  obtain ⟨first, second, third, -⟩ := attributes_accepted_iff accepted last
  obtain ⟨-, -, -, some⟩ := attributes_accepted_iff accepted late
  have fits : last.FitsForks config := ⟨by decide, by decide⟩
  have misfits : ¬late.FitsForks config := fun fits => absurd fits.beaconRoot (by decide)
  refine ⟨accepted, second.mpr ⟨fits, by decide⟩, ?_, ?_, fun version taken => ?_, ?_⟩
  · exact fun taken => absurd (first.mp taken).2 (by decide)
  · exact fun taken => absurd (third.mp taken).2 (by decide)
  · exact misfits (some.mp ⟨version, taken⟩)
  · exact (attributes_accepted_iff accepted _).2.2.1.mpr ⟨⟨by decide, by decide⟩, by decide⟩

end ForkchoiceVersion

end EngineNode
