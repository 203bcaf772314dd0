import EngineNode.Engine.Halt
import EngineNode.Proofs.FeeMarket
import Mathlib.Data.Prod.Lex
import Mathlib.Order.WithBot

/-!
Protocol versions in order.

Two versions of one type and build are compared number by number, and the first number that differs
decides. Of the last number zero is the greatest. Versions of other types or builds, and empty ones,
are compared with none. How far behind a comparison says that the node is depends on the deciding
number alone, and on nothing for the last one.

* `ProtocolVersion.bytes_eq`: where the bytes have the parts of a version.
* `Standing`: what each outcome says of the two versions. `Comparable.compare_eq_iff` says that a
  comparison finds the one that holds.
* `ProtocolVersion.Rank`: the four numbers in lexicographic order, with no pre-release on top.
* `shouldHalt_iff`: the node halts for a version from which its own falls short at the level.
* `ProtocolVersion.compare_orders`: a comparison and its mirror, the order that they make, and
  halting along it.
-/

namespace EngineNode

namespace VersionComparison

/-- The comparison from the other side. -/
def mirror : VersionComparison → VersionComparison
  | .aheadMajor => .outdatedMajor
  | .outdatedMajor => .aheadMajor
  | .aheadMinor => .outdatedMinor
  | .outdatedMinor => .aheadMinor
  | .aheadPatch => .outdatedPatch
  | .outdatedPatch => .aheadPatch
  | .aheadPrerelease => .outdatedPrerelease
  | .outdatedPrerelease => .aheadPrerelease
  | .matching => .matching
  | .invalidVersion => .invalidVersion
  | .emptyVersion => .emptyVersion

/-- Whether the other version is the newer one. -/
def isOutdated : VersionComparison → Bool
  | .outdatedMajor | .outdatedMinor | .outdatedPatch | .outdatedPrerelease => true
  | _ => false

end VersionComparison

namespace ProtocolVersion

variable {a b c : ProtocolVersion}

/-! ### The bytes of a version -/

theorem slice_append_drop (v : ProtocolVersion) (start length : Nat) :
    v.slice start length ++ v.bytes.toList.drop (start + length) = v.bytes.toList.drop start := by
  rw [slice, ← List.drop_drop, List.take_append_drop]

theorem length_slice {start length : Nat} (within : start + length ≤ 32) (v : ProtocolVersion) :
    (v.slice start length).length = length := by
  rw [slice, List.length_take, List.length_drop, v.bytes.length_toList]
  omega

/-- The bytes from some place on begin with the four of the number that is read there. -/
theorem drop_eq_number (v : ProtocolVersion) (start : Nat) (within : start + 4 ≤ 32) :
    v.bytes.toList.drop start =
      Bytes.ofNatPadded 4 (Bytes.toNat (v.slice start 4)) ++ v.bytes.toList.drop (start + 4) := by
  have number := Bytes.ofNatPadded_toNat (v.slice start 4)
  rw [length_slice within] at number
  rw [number, slice_append_drop]

/-- **The parts of a version follow one another**, after its type and seven bytes that say
nothing. -/
theorem bytes_eq (v : ProtocolVersion) : ∃ reserved : Bytes, reserved.length = 7 ∧
    v.build.length = 8 ∧
    v.bytes.toList = v.versionType :: reserved ++ v.build ++ Bytes.ofNatPadded 4 v.major ++
      Bytes.ofNatPadded 4 v.minor ++ Bytes.ofNatPadded 4 v.patch ++
      Bytes.ofNatPadded 4 v.prerelease := by
  refine ⟨v.slice 1 7, length_slice (by decide) v, length_slice (by decide) v, ?_⟩
  have first : v.bytes.toList = v.versionType :: v.bytes.toList.drop 1 := by
    obtain ⟨type, rest, shape⟩ := List.exists_cons_of_length_eq_add_one v.bytes.length_toList
    rw [versionType, shape]
    rfl
  have last : v.bytes.toList.drop (28 + 4) = [] :=
    List.drop_eq_nil_of_le v.bytes.length_toList.le
  calc v.bytes.toList
    _ = v.versionType :: (v.slice 1 7 ++ (v.build ++ v.bytes.toList.drop 16)) := by
      rw [build, slice_append_drop v 8 8, slice_append_drop v 1 7]
      exact first
    _ = _ := by
      rw [drop_eq_number v 16 (by decide), drop_eq_number v 20 (by decide),
        drop_eq_number v 24 (by decide), drop_eq_number v 28 (by decide), last]
      simp only [List.append_assoc, List.append_nil, List.cons_append]
      rfl

/-! ### What can be compared -/

/-- Two versions are of one type and build. -/
structure SameSeries (a b : ProtocolVersion) : Prop where
  type : a.versionType = b.versionType
  build : a.build = b.build

/-- Two versions that a comparison puts in order. -/
structure Comparable (a b : ProtocolVersion) : Prop extends SameSeries a b where
  notEmpty : a.isEmpty = false
  notEmpty' : b.isEmpty = false

theorem Comparable.symm (comparable : Comparable a b) : Comparable b a :=
  ⟨⟨comparable.type.symm, comparable.build.symm⟩, comparable.notEmpty', comparable.notEmpty⟩

theorem Comparable.trans (left : Comparable a b) (right : Comparable b c) : Comparable a c :=
  ⟨⟨left.type.trans right.type, left.build.trans right.build⟩, left.notEmpty, right.notEmpty'⟩

/-- The numbers are all that is looked at. -/
theorem Comparable.compare_eq (comparable : Comparable a b) : a.compare b =
    if a.major < b.major then .outdatedMajor
    else if b.major < a.major then .aheadMajor
    else if a.minor < b.minor then .outdatedMinor
    else if b.minor < a.minor then .aheadMinor
    else if a.patch < b.patch then .outdatedPatch
    else if b.patch < a.patch then .aheadPatch
    else comparePrerelease a.prerelease b.prerelease := by
  obtain ⟨⟨type, build⟩, notEmpty, notEmpty'⟩ := comparable
  simp [compare, type, build, notEmpty, notEmpty']

/-- Of other versions only that is said, and it is said from both sides. -/
theorem compare_cases (a b : ProtocolVersion) : Comparable a b ∨
    a.compare b = .emptyVersion ∧ b.compare a = .emptyVersion ∨
    a.compare b = .invalidVersion ∧ b.compare a = .invalidVersion := by
  by_cases empty : a.isEmpty || b.isEmpty
  · have empty' : b.isEmpty || a.isEmpty := by rwa [Bool.or_comm]
    exact .inr (.inl ⟨if_pos empty, if_pos empty'⟩)
  · have empty' : ¬(b.isEmpty || a.isEmpty) := by rwa [Bool.or_comm]
    by_cases foreign : a.versionType ≠ b.versionType ∨ a.build ≠ b.build
    · have foreign' : b.versionType ≠ a.versionType ∨ b.build ≠ a.build :=
        foreign.imp Ne.symm Ne.symm
      refine .inr (.inr ⟨?_, ?_⟩)
      · rw [compare, if_neg empty, if_pos (by simpa using foreign)]
      · rw [compare, if_neg empty', if_pos (by simpa using foreign')]
    · simp only [Bool.or_eq_true, not_or, Bool.not_eq_true] at empty
      simp only [ne_eq, not_or, not_not] at foreign
      exact .inl ⟨⟨foreign.1, foreign.2⟩, empty.1, empty.2⟩

/-! ### What an outcome says -/

/-- The place of a pre-release: releases come after all of them. -/
def prereleaseRank (prerelease : Nat) : WithTop Nat :=
  if prerelease = 0 then ⊤ else WithTop.some prerelease

theorem prereleaseRank_inj {x y : Nat} : prereleaseRank x = prereleaseRank y ↔ x = y := by
  unfold prereleaseRank
  split <;> split <;> simp_all [eq_comm]

theorem prereleaseRank_lt_iff {x y : Nat} :
    prereleaseRank x < prereleaseRank y ↔ x ≠ 0 ∧ (y = 0 ∨ x < y) := by
  unfold prereleaseRank
  split <;> split <;> simp_all

/-- What the outcomes of a comparison say of two versions: the first number that differs decides. -/
inductive Standing (a b : ProtocolVersion) : VersionComparison → Prop
  | outdatedMajor : a.major < b.major → Standing a b .outdatedMajor
  | aheadMajor : b.major < a.major → Standing a b .aheadMajor
  | outdatedMinor : a.major = b.major → a.minor < b.minor → Standing a b .outdatedMinor
  | aheadMinor : a.major = b.major → b.minor < a.minor → Standing a b .aheadMinor
  | outdatedPatch : a.major = b.major → a.minor = b.minor → a.patch < b.patch →
      Standing a b .outdatedPatch
  | aheadPatch : a.major = b.major → a.minor = b.minor → b.patch < a.patch →
      Standing a b .aheadPatch
  | outdatedPrerelease : a.major = b.major → a.minor = b.minor → a.patch = b.patch →
      prereleaseRank a.prerelease < prereleaseRank b.prerelease → Standing a b .outdatedPrerelease
  | aheadPrerelease : a.major = b.major → a.minor = b.minor → a.patch = b.patch →
      prereleaseRank b.prerelease < prereleaseRank a.prerelease → Standing a b .aheadPrerelease
  | matching : a.major = b.major → a.minor = b.minor → a.patch = b.patch →
      a.prerelease = b.prerelease → Standing a b .matching

theorem Standing.mirror {outcome : VersionComparison} (standing : Standing a b outcome) :
    Standing b a outcome.mirror := by
  cases standing with
  | outdatedMajor less => exact .aheadMajor less
  | aheadMajor less => exact .outdatedMajor less
  | outdatedMinor major less => exact .aheadMinor major.symm less
  | aheadMinor major less => exact .outdatedMinor major.symm less
  | outdatedPatch major minor less => exact .aheadPatch major.symm minor.symm less
  | aheadPatch major minor less => exact .outdatedPatch major.symm minor.symm less
  | outdatedPrerelease major minor patch less =>
      exact .aheadPrerelease major.symm minor.symm patch.symm less
  | aheadPrerelease major minor patch less =>
      exact .outdatedPrerelease major.symm minor.symm patch.symm less
  | matching major minor patch prerelease =>
      exact .matching major.symm minor.symm patch.symm prerelease.symm

/-- Two versions always stand to one another in some way. -/
theorem exists_standing (a b : ProtocolVersion) : ∃ outcome, Standing a b outcome := by
  rcases Nat.lt_trichotomy a.major b.major with less | major | less
  · exact ⟨_, .outdatedMajor less⟩
  · rcases Nat.lt_trichotomy a.minor b.minor with less | minor | less
    · exact ⟨_, .outdatedMinor major less⟩
    · rcases Nat.lt_trichotomy a.patch b.patch with less | patch | less
      · exact ⟨_, .outdatedPatch major minor less⟩
      · rcases lt_trichotomy (prereleaseRank a.prerelease) (prereleaseRank b.prerelease) with
          less | prerelease | less
        · exact ⟨_, .outdatedPrerelease major minor patch less⟩
        · exact ⟨_, .matching major minor patch (prereleaseRank_inj.mp prerelease)⟩
        · exact ⟨_, .aheadPrerelease major minor patch less⟩
      · exact ⟨_, .aheadPatch major minor less⟩
    · exact ⟨_, .aheadMinor major less⟩
  · exact ⟨_, .aheadMajor less⟩

/-- The comparison of versions that stand in some way to one another says so. -/
theorem Comparable.compare_of_standing {outcome : VersionComparison} (comparable : Comparable a b)
    (standing : Standing a b outcome) : a.compare b = outcome := by
  rw [comparable.compare_eq]
  cases standing with
  | outdatedMajor less => simp [less]
  | aheadMajor less => simp [less, less.not_gt]
  | outdatedMinor major less => simp [major, less]
  | aheadMinor major less => simp [major, less, less.not_gt]
  | outdatedPatch major minor less => simp [major, minor, less]
  | aheadPatch major minor less => simp [major, minor, less, less.not_gt]
  | outdatedPrerelease major minor patch less =>
      obtain ⟨released, before⟩ := prereleaseRank_lt_iff.mp less
      simp only [major, minor, patch, lt_irrefl, if_false, comparePrerelease]
      split_ifs <;> first | rfl | omega
  | aheadPrerelease major minor patch less =>
      obtain ⟨released, before⟩ := prereleaseRank_lt_iff.mp less
      simp only [major, minor, patch, lt_irrefl, if_false, comparePrerelease]
      split_ifs <;> first | rfl | omega
  | matching major minor patch prerelease =>
      simp [major, minor, patch, prerelease, comparePrerelease]

theorem Comparable.compare_eq_iff {outcome : VersionComparison} (comparable : Comparable a b) :
    a.compare b = outcome ↔ Standing a b outcome := by
  refine ⟨?_, comparable.compare_of_standing⟩
  rintro rfl
  obtain ⟨outcome, standing⟩ := exists_standing a b
  rwa [comparable.compare_of_standing standing]

theorem Comparable.standing (comparable : Comparable a b) : Standing a b (a.compare b) :=
  comparable.compare_eq_iff.mp rfl

/-- **From the other side a comparison is mirrored.** -/
theorem compare_mirror (a b : ProtocolVersion) : b.compare a = (a.compare b).mirror := by
  obtain comparable | ⟨left, right⟩ | ⟨left, right⟩ := compare_cases a b
  · exact comparable.symm.compare_of_standing comparable.standing.mirror
  · rw [left, right]
    rfl
  · rw [left, right]
    rfl

/-! ### The order of versions -/

/-- Places of versions among those of their type and build. -/
abbrev Rank : Type := Nat ×ₗ Nat ×ₗ Nat ×ₗ WithTop Nat

/-- The major number comes first, then the minor one, the patch and the pre-release. -/
def rank (v : ProtocolVersion) : Rank :=
  toLex (v.major, toLex (v.minor, toLex (v.patch, prereleaseRank v.prerelease)))

theorem rank_lt_iff : a.rank < b.rank ↔
    a.major < b.major ∨ a.major = b.major ∧
      (a.minor < b.minor ∨ a.minor = b.minor ∧
        (a.patch < b.patch ∨ a.patch = b.patch ∧
          prereleaseRank a.prerelease < prereleaseRank b.prerelease)) := by
  simp only [rank, Prod.Lex.toLex_lt_toLex]

theorem rank_inj : a.rank = b.rank ↔
    a.major = b.major ∧ a.minor = b.minor ∧ a.patch = b.patch ∧ a.prerelease = b.prerelease := by
  simp only [rank, toLex_inj, Prod.mk.injEq, prereleaseRank_inj]

/-- The order of ranks is what the outcome says. -/
theorem Standing.cases_rank {outcome : VersionComparison} (standing : Standing a b outcome) :
    outcome.isOutdated = true ∧ a.rank < b.rank ∨
    outcome = .matching ∧ a.rank = b.rank ∨
    outcome.mirror.isOutdated = true ∧ b.rank < a.rank := by
  cases standing with
  | outdatedMajor less => exact .inl ⟨rfl, rank_lt_iff.mpr (.inl less)⟩
  | aheadMajor less => exact .inr (.inr ⟨rfl, rank_lt_iff.mpr (.inl less)⟩)
  | outdatedMinor major less => exact .inl ⟨rfl, rank_lt_iff.mpr (.inr ⟨major, .inl less⟩)⟩
  | aheadMinor major less =>
      exact .inr (.inr ⟨rfl, rank_lt_iff.mpr (.inr ⟨major.symm, .inl less⟩)⟩)
  | outdatedPatch major minor less =>
      exact .inl ⟨rfl, rank_lt_iff.mpr (.inr ⟨major, .inr ⟨minor, .inl less⟩⟩)⟩
  | aheadPatch major minor less =>
      exact .inr (.inr ⟨rfl, rank_lt_iff.mpr (.inr ⟨major.symm, .inr ⟨minor.symm, .inl less⟩⟩)⟩)
  | outdatedPrerelease major minor patch less =>
      exact .inl ⟨rfl, rank_lt_iff.mpr (.inr ⟨major, .inr ⟨minor, .inr ⟨patch, less⟩⟩⟩)⟩
  | aheadPrerelease major minor patch less =>
      exact .inr (.inr ⟨rfl,
        rank_lt_iff.mpr (.inr ⟨major.symm, .inr ⟨minor.symm, .inr ⟨patch.symm, less⟩⟩⟩)⟩)
  | matching major minor patch prerelease =>
      exact .inr (.inl ⟨rfl, rank_inj.mpr ⟨major, minor, patch, prerelease⟩⟩)

/-- A comparison says that one version is older than another. -/
def Outdated (a b : ProtocolVersion) : Prop := (a.compare b).isOutdated = true

theorem Outdated.comparable (outdated : Outdated a b) : Comparable a b := by
  obtain comparable | ⟨left, -⟩ | ⟨left, -⟩ := compare_cases a b
  · exact comparable
  · rw [Outdated, left] at outdated
    cases outdated
  · rw [Outdated, left] at outdated
    cases outdated

/-- One of three holds of two versions of one type and build, as their ranks are ordered. -/
theorem Comparable.cases_rank (comparable : Comparable a b) :
    Outdated a b ∧ a.rank < b.rank ∨
    a.compare b = .matching ∧ a.rank = b.rank ∨
    Outdated b a ∧ b.rank < a.rank := by
  rw [Outdated, Outdated, compare_mirror a b]
  exact comparable.standing.cases_rank

theorem Comparable.outdated_iff (comparable : Comparable a b) :
    Outdated a b ↔ a.rank < b.rank := by
  constructor
  · intro outdated
    obtain ⟨-, less⟩ | ⟨matching, -⟩ | ⟨behind, -⟩ := comparable.cases_rank
    · exact less
    · rw [Outdated, matching] at outdated
      cases outdated
    · rw [Outdated] at outdated behind
      rw [compare_mirror a b] at behind
      revert outdated behind
      cases a.compare b <;> nofun
  · intro less
    obtain ⟨outdated, -⟩ | ⟨-, same⟩ | ⟨-, more⟩ := comparable.cases_rank
    · exact outdated
    · exact absurd same less.ne
    · exact absurd more less.not_gt

theorem Comparable.matching_iff (comparable : Comparable a b) :
    a.compare b = .matching ↔ a.rank = b.rank := by
  rw [comparable.compare_eq_iff, rank_inj]
  constructor
  · rintro ⟨⟩
    exact ⟨‹_›, ‹_›, ‹_›, ‹_›⟩
  · rintro ⟨major, minor, patch, prerelease⟩
    exact .matching major minor patch prerelease

/-- Being older is a strict order on all versions, most of which it does not relate. -/
instance : IsStrictOrder ProtocolVersion Outdated where
  irrefl a outdated := lt_irrefl a.rank (outdated.comparable.outdated_iff.mp outdated)
  trans a b c left right := by
    have comparable := left.comparable.trans right.comparable
    rw [comparable.outdated_iff]
    exact (left.comparable.outdated_iff.mp left).trans (right.comparable.outdated_iff.mp right)

/-! ### Halting -/

/-- A version has not got to another one in the numbers that a level looks at. -/
def FallsShort : HaltLevel → ProtocolVersion → ProtocolVersion → Prop
  | .major, a, b => a.major < b.major
  | .minor, a, b => a.major < b.major ∨ a.major = b.major ∧ a.minor < b.minor
  | .patch, a, b => a.major < b.major ∨ a.major = b.major ∧
      (a.minor < b.minor ∨ a.minor = b.minor ∧ a.patch < b.patch)

variable {level level' : HaltLevel} {required required' : ProtocolVersion}

/-- The severity of an outcome says at which levels one version falls short of the other. -/
theorem Standing.severity_le_iff {outcome : VersionComparison} (standing : Standing a b outcome)
    (level : HaltLevel) : level.severity ≤ outcome.severity ↔ FallsShort level a b := by
  cases standing <;> cases level <;>
    simp only [HaltLevel.severity, VersionComparison.severity, FallsShort] <;> omega

/-- **The node halts for versions that it can compare with its own and falls short of.** -/
theorem shouldHalt_iff : shouldHalt (some level) a required = true ↔
    Comparable a required ∧ FallsShort level a required := by
  rw [shouldHalt, Option.any_some, decide_eq_true_iff]
  constructor
  · intro severe
    obtain comparable | ⟨left, -⟩ | ⟨left, -⟩ := compare_cases a required
    · exact ⟨comparable, (comparable.standing.severity_le_iff level).mp severe⟩
    · rw [left] at severe
      cases level <;> cases severe
    · rw [left] at severe
      cases level <;> cases severe
  · rintro ⟨comparable, short⟩
    exact (comparable.standing.severity_le_iff level).mpr short

/-- A version that falls short at a level does so at all that are less severe. -/
theorem FallsShort.lower (short : FallsShort level a b)
    (lower : level'.severity ≤ level.severity) : FallsShort level' a b := by
  cases level <;> cases level' <;>
    simp only [HaltLevel.severity, FallsShort] at lower short ⊢ <;> omega

/-- A version that falls short of another does so of all newer ones. -/
theorem FallsShort.newer (short : FallsShort level a required)
    (newer : required.rank ≤ required'.rank) : FallsShort level a required' := by
  rw [le_iff_lt_or_eq, rank_lt_iff, rank_inj] at newer
  have numbers : required.major < required'.major ∨ required.major = required'.major ∧
      (required.minor < required'.minor ∨ required.minor = required'.minor ∧
        required.patch ≤ required'.patch) := by
    obtain (major | ⟨major, minor | ⟨minor, patch | ⟨patch, -⟩⟩⟩) | ⟨major, minor, patch, -⟩ :=
      newer
    · exact .inl major
    · exact .inr ⟨major, .inl minor⟩
    · exact .inr ⟨major, .inr ⟨minor, patch.le⟩⟩
    · exact .inr ⟨major, .inr ⟨minor, patch.le⟩⟩
    · exact .inr ⟨major, .inr ⟨minor, patch.le⟩⟩
  cases level <;> simp only [FallsShort] at short ⊢ <;> omega

theorem toNat_slice_of_isEmpty (empty : b.isEmpty = true) (start length : Nat) :
    Bytes.toNat (b.slice start length) = 0 := by
  have zeros : ∀ byte ∈ b.slice start length, byte = 0 := by
    intro byte member
    simp only [isEmpty, FixedBytes.isZero, List.all_eq_true, beq_iff_eq] at empty
    exact empty byte (List.mem_of_mem_drop (List.mem_of_mem_take member))
  rw [List.eq_replicate_of_mem zeros]
  generalize (b.slice start length).length = count
  induction count with
  | zero => rfl
  | succ count ih => rwa [Bytes.toNat, List.replicate_succ, List.foldl_cons]

/-- Nothing falls short of an empty version. -/
theorem FallsShort.notEmpty (short : FallsShort level a b) : b.isEmpty = false := by
  cases empty : b.isEmpty with
  | false => rfl
  | true =>
      have major : b.major = 0 := toNat_slice_of_isEmpty empty 16 4
      have minor : b.minor = 0 := toNat_slice_of_isEmpty empty 20 4
      have patch : b.patch = 0 := toNat_slice_of_isEmpty empty 24 4
      cases level <;> simp only [FallsShort] at short <;> omega

/-- **Halting goes on along the order**, down the levels and up the versions. -/
theorem shouldHalt_mono (halts : shouldHalt (some level) a required = true)
    (lower : level'.severity ≤ level.severity) (series : SameSeries required required')
    (newer : required.rank ≤ required'.rank) : shouldHalt (some level') a required' = true := by
  obtain ⟨comparable, short⟩ := shouldHalt_iff.mp halts
  have short := (short.lower lower).newer newer
  refine shouldHalt_iff.mpr ⟨⟨⟨?_, ?_⟩, comparable.notEmpty, short.notEmpty⟩, short⟩
  · exact comparable.type.trans series.type
  · exact comparable.build.trans series.build

/-- **Comparing versions orders them, and halting follows the order.** A version is its type, its
build and four numbers, in this order of bytes. A comparison from the other side says the same of
the same number with the sides exchanged. Being outdated is a strict order; between versions of one
type and build that are not empty it is the lexicographic order of their numbers, with no
pre-release above all, and those that it leaves apart match. A node that halts at a level for a
version halts at all less severe levels for all versions of the same type and build that are not
older. -/
theorem compare_orders :
    (∀ v : ProtocolVersion, ∃ reserved : Bytes, reserved.length = 7 ∧ v.build.length = 8 ∧
      v.bytes.toList = v.versionType :: reserved ++ v.build ++ Bytes.ofNatPadded 4 v.major ++
        Bytes.ofNatPadded 4 v.minor ++ Bytes.ofNatPadded 4 v.patch ++
        Bytes.ofNatPadded 4 v.prerelease) ∧
    (∀ a b : ProtocolVersion, b.compare a = (a.compare b).mirror) ∧
    IsStrictOrder ProtocolVersion Outdated ∧
    (∀ a b : ProtocolVersion, Comparable a b →
      (Outdated a b ↔ a.rank < b.rank) ∧ (a.compare b = .matching ↔ a.rank = b.rank) ∧
        (Outdated a b ∨ a.compare b = .matching ∨ Outdated b a)) ∧
    HaltLevel.patch.severity < HaltLevel.minor.severity ∧
    HaltLevel.minor.severity < HaltLevel.major.severity ∧
    ∀ (level level' : HaltLevel) (a required required' : ProtocolVersion),
      shouldHalt (some level) a required = true → level'.severity ≤ level.severity →
        SameSeries required required' → required.rank ≤ required'.rank →
          shouldHalt (some level') a required' = true := by
  refine ⟨bytes_eq, compare_mirror, inferInstance, ?_, by decide, by decide, ?_⟩
  · intro a b comparable
    refine ⟨comparable.outdated_iff, comparable.matching_iff, ?_⟩
    obtain ⟨outdated, -⟩ | ⟨matching, -⟩ | ⟨outdated, -⟩ := comparable.cases_rank
    · exact .inl outdated
    · exact .inr (.inl matching)
    · exact .inr (.inr outdated)
  · intro level level' a required required' halts lower series newer
    exact shouldHalt_mono halts lower series newer

/-- A version without a build name. -/
def plain (major minor patch prerelease : UInt32) : ProtocolVersion :=
  ofParts (.zero 8) major minor patch prerelease

/-- A node that halts for a minor version halts for the next major one, of which there is only a
pre-release. -/
theorem compare_orders_plain :
    Comparable (plain 9 0 0 1) (plain 9 0 0 0) ∧ Outdated (plain 9 0 0 1) (plain 9 0 0 0) ∧
      shouldHalt (some .minor) (plain 3 2 1 0) (plain 3 3 0 0) = true ∧
      SameSeries (plain 3 3 0 0) (plain 4 0 0 1) ∧ (plain 3 3 0 0).rank ≤ (plain 4 0 0 1).rank ∧
      shouldHalt (some .patch) (plain 3 2 1 0) (plain 4 0 0 1) = true := by
  obtain ⟨-, -, -, order, -, -, halting⟩ := compare_orders
  have comparable : Comparable (plain 9 0 0 1) (plain 9 0 0 0) :=
    ⟨⟨by decide, by decide⟩, by decide, by decide⟩
  have older : (plain 9 0 0 1).rank < (plain 9 0 0 0).rank := by decide
  have halts : shouldHalt (some .minor) (plain 3 2 1 0) (plain 3 3 0 0) = true := by decide
  have series : SameSeries (plain 3 3 0 0) (plain 4 0 0 1) := ⟨by decide, by decide⟩
  have newer : (plain 3 3 0 0).rank ≤ (plain 4 0 0 1).rank := by decide
  exact ⟨comparable, (order _ _ comparable).1.mpr older, halts, series, newer,
    halting .minor .patch _ _ _ halts (by decide) series newer⟩

end ProtocolVersion

end EngineNode
