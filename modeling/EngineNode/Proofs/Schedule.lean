import EngineNode.Proofs.Chain.Insert

/-!
What an accepted configuration says of forks and upgrades.

* `ChainConfig.Accepted.le_latestFork_iff`: a fork is active exactly when it is not newer than the
  latest one.
* `ChainConfig.Accepted.latestFork_mono`: the latest fork only changes to newer ones.
* `ChainConfig.Accepted.baseFeeChangeDenominator_ne_zero`: since Canyon the base fee can change.
* `ChainConfig.schedule_ordered`: forks and upgrades activate in their order, however it is asked.
-/

namespace EngineNode

/-- Among forks of which none is active without the one before it, the active ones are those up to
the latest of them. -/
theorem Fork.le_find_iff {active : Fork → Bool} (paris : active .paris = true)
    (cancun : active .cancun = true → active .shanghai = true)
    (prague : active .prague = true → active .cancun = true)
    (osaka : active .osaka = true → active .prague = true) (fork : Fork) :
    fork ≤ (Fork.all.reverse.find? active).getD .paris ↔ active fork = true := by
  have latest : (Fork.all.reverse.find? active).getD .paris =
      if active .osaka then .osaka else if active .prague then .prague
      else if active .cancun then .cancun else if active .shanghai then .shanghai else .paris := by
    rw [show Fork.all.reverse = [.osaka, .prague, .cancun, .shanghai, .paris] from rfl]
    simp only [List.find?_cons, paris]
    cases active .osaka <;> cases active .prague <;> cases active .cancun <;>
      cases active .shanghai <;> rfl
  rw [latest]
  cases o : active .osaka <;> cases p : active .prague <;> cases c : active .cancun <;>
    cases s : active .shanghai <;> cases fork <;> simp_all <;> decide

namespace ChainConfig

variable {config : ChainConfig} {time : UInt64}

/-! ### Times of activation -/

/-- What is active at a time was scheduled for that time or an earlier one. -/
theorem isActive_eq_true_iff {activation : Option UInt64} :
    isActive activation time = true ↔ ∃ since, activation = some since ∧ since ≤ time := by
  cases activation <;> simp [isActive]

/-- Whatever activates at the later time is never active without what activates at the earlier
one. -/
def Precedes (earlier later : Option UInt64) : Prop :=
  ∀ time, isActive later time = true → isActive earlier time = true

theorem precedes_none (earlier : Option UInt64) : Precedes earlier none := nofun

theorem precedes_of_not_lt {earlier later : UInt64} (ordered : ¬later < earlier) :
    Precedes (some earlier) (some later) := by
  intro time active
  obtain ⟨_, ⟨⟩, since⟩ := isActive_eq_true_iff.mp active
  exact isActive_eq_true_iff.mpr ⟨earlier, rfl, UInt64.le_trans (UInt64.not_lt.mp ordered) since⟩

/-- Two times are in order if the check of a schedule complains of neither. -/
theorem precedes_of_checked {earlier later : Option UInt64} {unscheduled outOfOrder : ConfigError}
    {others : Except ConfigError Unit}
    (accepted : (match earlier, later with
      | none, some _ => Except.error unscheduled
      | some earlier, some later => if later < earlier then Except.error outOfOrder else others
      | _, none => others) = .ok ()) :
    Precedes earlier later ∧ others = .ok () := by
  split at accepted
  · cases accepted
  · split at accepted
    · cases accepted
    · rename_i ordered
      exact ⟨precedes_of_not_lt ordered, accepted⟩
  · exact ⟨precedes_none _, accepted⟩

theorem checkForks_cons {previous fork : Fork} {rest : List Fork}
    (accepted : config.checkForks previous (fork :: rest) = .ok ()) :
    Precedes (config.forkTime previous) (config.forkTime fork) ∧
      config.checkForks fork rest = .ok () := by
  rw [checkForks] at accepted
  exact precedes_of_checked accepted

theorem checkUpgrades_cons {previous upgrade : Upgrade} {rest : List Upgrade}
    (accepted : config.checkUpgrades previous (upgrade :: rest) = .ok ()) :
    Precedes (config.upgradeTime previous) (config.upgradeTime upgrade) ∧
      config.checkUpgrades upgrade rest = .ok () := by
  rw [checkUpgrades] at accepted
  exact precedes_of_checked accepted

/-! ### Accepted configurations -/

/-- What the check of a configuration comes to, as far as times and fees are concerned. -/
structure Accepted (config : ChainConfig) : Prop where
  cancun : Precedes config.shanghaiTime config.cancunTime
  prague : Precedes config.cancunTime config.pragueTime
  osaka : Precedes config.pragueTime config.osakaTime
  holocene : Precedes config.canyonTime config.holoceneTime
  isthmus : Precedes config.holoceneTime config.isthmusTime
  canyonDenominator : ∀ rollup, config.rollup = some rollup → config.canyonTime.isSome →
    rollup.denominatorCanyon.getD 0 ≠ 0

theorem accepted_of_validate (accepted : config.validate = .ok ()) : config.Accepted := by
  unfold validate at accepted
  by_cases unnamed : config.name.isEmpty
  · simp [unnamed] at accepted
  · by_cases spelled : config.name.toList.all isNameCharacter
    · simp only [unnamed, spelled, if_true, if_false, Bool.false_eq_true] at accepted
      obtain ⟨_, forks, accepted⟩ := bind_eq_ok_iff.mp accepted
      obtain ⟨-, forks⟩ := checkForks_cons forks
      obtain ⟨cancun, forks⟩ := checkForks_cons forks
      obtain ⟨prague, forks⟩ := checkForks_cons forks
      obtain ⟨osaka, -⟩ := checkForks_cons forks
      have upgrades : config.checkUpgrades .canyon [.holocene, .isthmus] = .ok () ∧
          ∀ rollup, config.rollup = some rollup → config.canyonTime.isSome →
            rollup.denominatorCanyon.getD 0 ≠ 0 := by
        cases section_ : config.rollup with
        | none =>
            simp only [section_] at accepted
            split at accepted
            · cases accepted
            · exact ⟨accepted, nofun⟩
        | some rollup =>
            simp only [section_] at accepted
            split at accepted
            · cases accepted
            · rename_i present
              refine ⟨accepted, ?_⟩
              rintro _ ⟨⟩ scheduled missing
              exact present ⟨scheduled, missing⟩
      obtain ⟨holocene, rest⟩ := checkUpgrades_cons upgrades.1
      exact ⟨cancun, prague, osaka, holocene, (checkUpgrades_cons rest).1, upgrades.2⟩
    · simp [unnamed, spelled] at accepted

namespace Accepted

/-- **A fork is active exactly when it is not newer than the latest one.** -/
theorem le_latestFork_iff (accepted : config.Accepted) (fork : Fork) :
    fork ≤ config.latestFork time ↔ config.isForkActive fork time = true := by
  have paris : config.isForkActive .paris time = true :=
    isActive_eq_true_iff.mpr ⟨0, rfl, UInt64.zero_le⟩
  exact Fork.le_find_iff paris (accepted.cancun time) (accepted.prague time) (accepted.osaka time)
    fork

theorem isForkActive_eq (accepted : config.Accepted) (fork : Fork) :
    config.isForkActive fork time = decide (fork ≤ config.latestFork time) :=
  Bool.eq_iff_iff.mpr ((accepted.le_latestFork_iff fork).symm.trans decide_eq_true_iff.symm)

/-- **The latest fork only changes to newer ones.** What is active stays active. -/
theorem latestFork_mono (accepted : config.Accepted) {later : UInt64} (notEarlier : time ≤ later) :
    config.latestFork time ≤ config.latestFork later := by
  have active : config.isForkActive (config.latestFork time) time = true :=
    (accepted.le_latestFork_iff _).mp (Nat.le_refl _)
  obtain ⟨since, scheduled, begun⟩ := isActive_eq_true_iff.mp active
  refine (accepted.le_latestFork_iff _).mpr (isActive_eq_true_iff.mpr ⟨since, scheduled, ?_⟩)
  exact UInt64.le_trans begun notEarlier

theorem isCanyon_of_isHolocene (accepted : config.Accepted)
    (holocene : config.isHolocene time = true) : config.isCanyon time = true := by
  obtain ⟨rollup, active⟩ := Bool.and_eq_true_iff.mp holocene
  exact Bool.and_eq_true_iff.mpr ⟨rollup, accepted.holocene time active⟩

theorem isHolocene_of_isIsthmus (accepted : config.Accepted)
    (isthmus : config.isIsthmus time = true) : config.isHolocene time = true := by
  obtain ⟨rollup, active⟩ := Bool.and_eq_true_iff.mp isthmus
  exact Bool.and_eq_true_iff.mpr ⟨rollup, accepted.isthmus time active⟩

/-- Canyon is scheduled only where the chain has a denominator for it. -/
theorem baseFeeChangeDenominator_ne_zero (accepted : config.Accepted)
    (canyon : config.isCanyon time = true) : config.baseFeeChangeDenominator time ≠ 0 := by
  obtain ⟨isRollup, active⟩ := Bool.and_eq_true_iff.mp canyon
  obtain ⟨rollup, present⟩ := Option.isSome_iff_exists.mp isRollup
  obtain ⟨since, scheduled, -⟩ := isActive_eq_true_iff.mp active
  have given : rollup.denominatorCanyon.getD 0 ≠ 0 := by
    refine accepted.canyonDenominator rollup present ?_
    rw [show config.canyonTime = some since from scheduled]
    rfl
  simp only [baseFeeChangeDenominator, present, canyon, if_true]
  cases own : rollup.denominatorCanyon with
  | none => simp [own] at given
  | some denominator =>
      have nonzero : denominator ≠ 0 := by simpa [own] using given
      simp [Option.filter, nonzero]

end Accepted

/-- **Forks and upgrades of an accepted configuration activate in their order.** Asking whether a
fork is active and asking for the latest fork come to the same, the tests for single forks included;
time never takes a fork back; each upgrade comes with those before it; and since Canyon the base fee
has a denominator to change by. -/
theorem schedule_ordered (accepted : config.validate = .ok ()) {later : UInt64}
    (notEarlier : time ≤ later) :
    (∀ fork, config.isForkActive fork time = true ↔ fork ≤ config.latestFork time) ∧
    config.latestFork time ≤ config.latestFork later ∧
    ((config.isShanghai time = true ↔ .shanghai ≤ config.latestFork time) ∧
      (config.isCancun time = true ↔ .cancun ≤ config.latestFork time) ∧
      (config.isPrague time = true ↔ .prague ≤ config.latestFork time) ∧
      (config.isOsaka time = true ↔ .osaka ≤ config.latestFork time)) ∧
    (config.isIsthmus time = true → config.isHolocene time = true) ∧
    (config.isHolocene time = true → config.isCanyon time = true) ∧
    (config.isCanyon time = true → config.baseFeeChangeDenominator time ≠ 0) := by
  have accepted := accepted_of_validate accepted
  have asked (fork : Fork) : config.isForkActive fork time = true ↔ fork ≤ config.latestFork time :=
    (accepted.le_latestFork_iff fork).symm
  -- Each single test is the general one at its fork.
  exact ⟨asked, accepted.latestFork_mono notEarlier,
    ⟨asked .shanghai, asked .cancun, asked .prague, asked .osaka⟩,
    accepted.isHolocene_of_isIsthmus, accepted.isCanyon_of_isHolocene,
    accepted.baseFeeChangeDenominator_ne_zero⟩

/-- The moment before Prague and Isthmus of OP Mainnet still belongs to Cancun. With Isthmus come
Holocene, Canyon, and a denominator. -/
theorem opMainnet_ordered :
    opMainnet.validate = .ok () ∧ (1746806400 : UInt64) ≤ 1746806401 ∧
      opMainnet.latestFork 1746806400 = .cancun ∧ opMainnet.latestFork 1746806401 = .prague ∧
      opMainnet.latestFork 1746806400 ≤ opMainnet.latestFork 1746806401 ∧
      opMainnet.isIsthmus 1746806401 = true ∧ opMainnet.isHolocene 1746806401 = true ∧
      opMainnet.isCanyon 1746806401 = true ∧
      opMainnet.baseFeeChangeDenominator 1746806401 ≠ 0 := by
  have accepted : opMainnet.validate = .ok () := rfl
  have next : (1746806400 : UInt64) ≤ 1746806401 := by decide
  have mono := (schedule_ordered accepted next).2.1
  obtain ⟨-, -, -, holocene, canyon, denominator⟩ :=
    schedule_ordered accepted (UInt64.le_refl 1746806401)
  have isthmus : opMainnet.isIsthmus 1746806401 = true := by decide
  exact ⟨accepted, next, by decide, by decide, mono, isthmus, holocene isthmus,
    canyon (holocene isthmus), denominator (canyon (holocene isthmus))⟩

end ChainConfig

end EngineNode
