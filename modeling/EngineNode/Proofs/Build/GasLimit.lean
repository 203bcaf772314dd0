import EngineNode.Build.Limits
import Mathlib.Data.Nat.Dist

/-!
Gas limits on their way to a wanted one.

A limit moves by less than 1/1024 of itself, and never past its target, which is the wanted limit or
the least one where that is higher. The step shrinks with the limit and is gone below 2048, where
division leaves a one and the one is taken off. Such limits stay where they are, below every target.
From 2048 on each block brings the limit closer, and it never leaves the room between where it
started and its target, so the step does not go away on the way.

* `approach`: one step without the bounds of words. `nextGasLimit_approaches` says that limits of up
  to 63 bits take it.
* `Settles`: limits get closer, are there, and stay, as `exists_settles` finds by induction on the
  distance.
* `gasLimit_settles`: all of this.
-/

namespace EngineNode

/-- The limit that is approached where another one is wanted. -/
def gasLimitTarget (desired : UInt64) : Nat := max desired.toNat minimumGasLimit

/-- A limit one step closer to its target. -/
def approach (limit target : Nat) : Nat :=
  if limit < target then min (limit + gasLimitStep limit) target
  else max (limit - gasLimitStep limit) target

/-! ### One step -/

section Step

variable {limit target : Nat}

theorem min_le_approach : min limit target ≤ approach limit target := by
  unfold approach
  split <;> omega

theorem approach_le_max : approach limit target ≤ max limit target := by
  unfold approach
  split <;> omega

theorem dist_approach_le : Nat.dist (approach limit target) limit ≤ gasLimitStep limit := by
  unfold approach Nat.dist
  split <;> omega

@[simp] theorem approach_self : approach target target = target := by
  simp [approach]

/-- Limits that have a step get closer. -/
theorem dist_approach_lt (moves : 2048 ≤ limit) (away : limit ≠ target) :
    Nat.dist (approach limit target) target < Nat.dist limit target := by
  have step : 1 ≤ gasLimitStep limit := by
    unfold gasLimitStep
    omega
  unfold approach Nat.dist
  split <;> omega

/-- Small limits have no step. -/
theorem approach_of_small (small : limit < 2048) (below : limit < target) :
    approach limit target = limit := by
  have step : gasLimitStep limit = 0 := by
    unfold gasLimitStep
    omega
  rw [approach, if_pos below, step, Nat.add_zero, Nat.min_eq_left below.le]

end Step

variable {limit desired : UInt64}

theorem minimumGasLimit_le_target : minimumGasLimit ≤ gasLimitTarget desired :=
  Nat.le_max_right _ _

theorem gasLimitTarget_le (fits : desired.toNat ≤ 2 ^ 63) : gasLimitTarget desired ≤ 2 ^ 63 :=
  Nat.max_le.mpr ⟨fits, by decide⟩

/-- Limits of up to 63 bits take the step. -/
theorem nextGasLimit_approaches (desired : UInt64) (fits : limit.toNat ≤ 2 ^ 63) :
    ∃ next, nextGasLimit limit desired = some next ∧
      next.toNat = approach limit.toNat (gasLimitTarget desired) := by
  have room : limit.toNat + gasLimitStep limit.toNat < UInt64.size := by
    simp only [gasLimitStep, UInt64.size]
    omega
  have bound : gasLimitTarget desired < UInt64.size :=
    Nat.max_lt.mpr ⟨desired.toNat_lt, by decide⟩
  have small : approach limit.toNat (gasLimitTarget desired) < UInt64.size :=
    approach_le_max.trans_lt (Nat.max_lt.mpr ⟨limit.toNat_lt, bound⟩)
  refine ⟨.ofNat (approach limit.toNat (gasLimitTarget desired)), ?_,
    UInt64.toNat_ofNat_of_lt' small⟩
  unfold nextGasLimit approach gasLimitTarget
  dsimp only
  rw [if_pos room]
  split <;> rfl

/-! ### One block after another -/

/-- The limit after some blocks. -/
def gasLimitAfter (desired : UInt64) : (blocks : Nat) → UInt64 → Option UInt64
  | 0, limit => some limit
  | blocks + 1, limit => nextGasLimit limit desired >>= gasLimitAfter desired blocks

/-- The limit gets strictly closer to its target with each of the first `count` blocks. After them
it is there, and there it stays. -/
structure Settles (desired limit : UInt64) (count : Nat) : Prop where
  closer : ∀ blocks < count, ∃ current next,
    gasLimitAfter desired blocks limit = some current ∧
      nextGasLimit current desired = some next ∧
      Nat.dist next.toNat (gasLimitTarget desired) < Nat.dist current.toNat (gasLimitTarget desired)
  settled : ∀ blocks, count ≤ blocks → ∃ current,
    gasLimitAfter desired blocks limit = some current ∧ current.toNat = gasLimitTarget desired

/-- A limit at its target stays. -/
theorem settles_of_eq (fits : limit.toNat ≤ 2 ^ 63) (there : limit.toNat = gasLimitTarget desired) :
    Settles desired limit 0 := by
  have stays : nextGasLimit limit desired = some limit := by
    obtain ⟨next, taken, value⟩ := nextGasLimit_approaches desired fits
    rw [← there, approach_self] at value
    rw [taken, UInt64.toNat_inj.mp value]
  refine ⟨nofun, fun blocks _ => ⟨limit, ?_, there⟩⟩
  induction blocks with
  | zero => rfl
  | succ blocks ih =>
      rw [gasLimitAfter, stays]
      exact ih (Nat.zero_le _)

/-- The block that brings a limit closer comes before those that bring it to its target. -/
theorem Settles.cons {next : UInt64} {count : Nat} (taken : nextGasLimit limit desired = some next)
    (closer : Nat.dist next.toNat (gasLimitTarget desired) <
      Nat.dist limit.toNat (gasLimitTarget desired))
    (rest : Settles desired next count) : Settles desired limit (count + 1) := by
  have later (blocks : Nat) :
      gasLimitAfter desired (blocks + 1) limit = gasLimitAfter desired blocks next := by
    rw [gasLimitAfter, taken]
    rfl
  constructor
  · intro blocks before
    cases blocks with
    | zero => exact ⟨limit, next, rfl, taken, closer⟩
    | succ blocks =>
        rw [later]
        exact rest.closer blocks (Nat.lt_of_succ_lt_succ before)
  · intro blocks after
    cases blocks with
    | zero => exact absurd after (Nat.not_succ_le_zero count)
    | succ blocks =>
        rw [later]
        exact rest.settled blocks (Nat.le_of_succ_le_succ after)

/-- **Limits from 2048 on reach their target**, in no more blocks than they are away from it. -/
theorem exists_settles (fits : desired.toNat ≤ 2 ^ 63) (small : limit.toNat ≤ 2 ^ 63)
    (moves : 2048 ≤ limit.toNat) :
    ∃ count ≤ Nat.dist limit.toNat (gasLimitTarget desired), Settles desired limit count := by
  -- The distance falls with each block, while 2048 and 2 ^ 63 go on to enclose the limit.
  induction away : Nat.dist limit.toNat (gasLimitTarget desired) using Nat.strongRecOn
    generalizing limit with
  | ind distance ih =>
      subst away
      by_cases there : limit.toNat = gasLimitTarget desired
      · exact ⟨0, Nat.zero_le _, settles_of_eq small there⟩
      · obtain ⟨next, taken, value⟩ := nextGasLimit_approaches desired small
        have closer := dist_approach_lt moves there
        rw [← value] at closer
        have low : 2048 ≤ next.toNat := by
          rw [value]
          refine le_trans (Nat.le_min.mpr ⟨moves, ?_⟩) min_le_approach
          exact le_trans (by decide) minimumGasLimit_le_target
        have high : next.toNat ≤ 2 ^ 63 := by
          rw [value]
          exact approach_le_max.trans (Nat.max_le.mpr ⟨small, gasLimitTarget_le fits⟩)
        obtain ⟨count, bound, rest⟩ := ih _ closer high low rfl
        exact ⟨count + 1, bound.trans_lt closer, rest.cons taken closer⟩

/-- **A gas limit moves towards its target and settles there.** The next limit lies between this one
and the target and differs from this one by less than 1/1024 of it, or not at all where that is
nothing. Limits below 2048 stay for ever; all others reach the target after finitely many blocks, in
each of which they get strictly closer, and then stay. -/
theorem gasLimit_settles (parent desired : UInt64) (small : parent.toNat ≤ 2 ^ 63)
    (fits : desired.toNat ≤ 2 ^ 63) :
    (∃ next, nextGasLimit parent desired = some next ∧
      min parent.toNat (gasLimitTarget desired) ≤ next.toNat ∧
      next.toNat ≤ max parent.toNat (gasLimitTarget desired) ∧
      Nat.dist next.toNat parent.toNat ≤ max (parent.toNat / 1024) 1 - 1) ∧
    (parent.toNat < 2048 → nextGasLimit parent desired = some parent) ∧
    (2048 ≤ parent.toNat →
      ∃ count ≤ Nat.dist parent.toNat (gasLimitTarget desired), Settles desired parent count) := by
  obtain ⟨next, taken, value⟩ := nextGasLimit_approaches desired small
  refine ⟨⟨next, taken, ?_, ?_, ?_⟩, ?_, exists_settles fits small⟩
  · rw [value]
    exact min_le_approach
  · rw [value]
    exact approach_le_max
  · rw [value]
    refine dist_approach_le.trans ?_
    exact Nat.sub_le_sub_right (Nat.le_max_left _ _) 1
  · intro still
    have below : parent.toNat < gasLimitTarget desired :=
      still.trans (lt_of_lt_of_le (by decide) minimumGasLimit_le_target)
    rw [approach_of_small still below] at value
    rw [taken, UInt64.toNat_inj.mp value]

/-- Rising from thirty million to sixty takes a small first step. -/
theorem gasLimit_settles_rising :
    (30000000 : UInt64).toNat ≤ 2 ^ 63 ∧ (60000000 : UInt64).toNat ≤ 2 ^ 63 ∧
      nextGasLimit 30000000 60000000 = some 30029295 ∧
      ∃ count, Settles 60000000 30000000 count := by
  have small : (30000000 : UInt64).toNat ≤ 2 ^ 63 := by decide
  have fits : (60000000 : UInt64).toNat ≤ 2 ^ 63 := by decide
  obtain ⟨count, -, settles⟩ := (gasLimit_settles 30000000 60000000 small fits).2.2 (by decide)
  exact ⟨small, fits, rfl, count, settles⟩

end EngineNode
