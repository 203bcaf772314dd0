import EngineNode.Chain
import Mathlib.Data.List.Perm.Subperm

/-!
Lines of descent among stored blocks.

`Lineage blocks root n h l` says that the stored block `h` has number `n` and that its parents lead
down to the genesis block `root` in steps of one, `l` being what is passed on the way with `h`
first. A lineage is a canonical chain in the making, so all that is said of canonical chains is
proved here of lineages:

* `Lineage.unique`: a block has at most one lineage.
* `Lineage.truncate`: a lineage cut below one of its members is the lineage of that member.
* `Lineage.exists_mem_of_le`, `Lineage.link`: it has a member of every number, whose parent is the
  member before it.
* `Lineage.mono`: storing more blocks keeps it, as long as the links of its members stay.
* `Lineage.number_lt`: it passes no block twice, so the number of its block is less than how many
  blocks are stored.
-/

namespace EngineNode

/-- The numbers and hashes from a stored block down to the genesis block. -/
inductive Lineage (blocks : List (Hash × Block)) (root : Hash) :
    UInt64 → Hash → List (UInt64 × Hash) → Prop where
  | root {block : Block} : blocks.lookup root = some block → block.number = 0 →
      Lineage blocks root 0 root [(0, root)]
  | child {hash : Hash} {block : Block} {number : UInt64} {below : List (UInt64 × Hash)} :
      blocks.lookup hash = some block →
      block.number.toNat = number.toNat + 1 →
      Lineage blocks root number block.parentHash below →
      Lineage blocks root block.number hash ((block.number, hash) :: below)

namespace Lineage

variable {blocks : List (Hash × Block)} {root : Hash} {n m : UInt64} {h g : Hash}
  {l : List (UInt64 × Hash)}

theorem mem_self (line : Lineage blocks root n h l) : (n, h) ∈ l := by
  cases line with
  | root => exact List.mem_singleton_self _
  | child => exact List.mem_cons_self

theorem root_mem (line : Lineage blocks root n h l) : (0, root) ∈ l := by
  induction line with
  | root => exact List.mem_singleton_self _
  | child _ _ _ ih => exact List.mem_cons_of_mem _ ih

/-- The lineage of a stored block starts with the number of the block. -/
theorem number_eq (line : Lineage blocks root n h l) {block : Block}
    (stored : blocks.lookup h = some block) : block.number = n := by
  cases line with
  | root stored' zero =>
      cases stored.symm.trans stored'
      exact zero
  | child stored' _ _ =>
      cases stored.symm.trans stored'
      rfl

theorem stored (line : Lineage blocks root n h l) : ∃ block, blocks.lookup h = some block := by
  cases line with
  | root stored _ => exact ⟨_, stored⟩
  | child stored _ _ => exact ⟨_, stored⟩

/-- The walk down is determined by the stored blocks: the genesis block alone has number zero, so a
lineage cannot end early or go past it. -/
theorem unique (line : Lineage blocks root n h l) {l' : List (UInt64 × Hash)}
    (line' : Lineage blocks root m h l') : n = m ∧ l = l' := by
  induction line generalizing m l' with
  | root stored zero =>
      cases line' with
      | root => exact ⟨rfl, rfl⟩
      | child stored' step _ =>
          cases stored.symm.trans stored'
          rw [zero] at step
          simp at step
  | child stored step _ ih =>
      cases line' with
      | root stored' zero =>
          cases stored.symm.trans stored'
          rw [zero] at step
          simp at step
      | child stored' _ below' =>
          cases stored.symm.trans stored'
          rw [(ih below').2]
          exact ⟨rfl, rfl⟩

theorem le_of_mem (line : Lineage blocks root n h l) (member : (m, g) ∈ l) : m ≤ n := by
  induction line with
  | root =>
      cases List.mem_singleton.mp member
      exact UInt64.le_refl _
  | child _ step _ ih =>
      rcases List.mem_cons.mp member with same | member
      · cases same
        exact UInt64.le_refl _
      · have := UInt64.le_iff_toNat_le.mp (ih member)
        exact UInt64.le_iff_toNat_le.mpr (by omega)

/-- Members other than the block itself are below its number. -/
theorem lt_of_mem_tail {below : List (UInt64 × Hash)}
    (line : Lineage blocks root n h ((n, h) :: below)) (member : (m, g) ∈ below) : m < n := by
  cases line with
  | root => cases member
  | child _ step line =>
      have := UInt64.le_iff_toNat_le.mp (line.le_of_mem member)
      exact UInt64.lt_iff_toNat_lt.mpr (by omega)

/-- Cutting a lineage below a number it has a member of gives the lineage of that member. -/
theorem truncate (line : Lineage blocks root n h l) (member : (m, g) ∈ l) :
    Lineage blocks root m g (l.filter fun entry => entry.1 ≤ m) := by
  induction line with
  | root stored zero =>
      cases List.mem_singleton.mp member
      simpa using Lineage.root stored zero
  | @child hash block number below stored step line ih =>
      rcases List.mem_cons.mp member with same | member
      · cases same
        rw [List.filter_eq_self.mpr fun entry hentry =>
          decide_eq_true ((Lineage.child stored step line).le_of_mem hentry)]
        exact .child stored step line
      · have above : m < block.number :=
          (Lineage.child stored step line).lt_of_mem_tail member
        rw [List.filter_cons_of_neg (by simpa using above)]
        exact ih member

/-- A lineage has one member of each number. -/
theorem eq_of_mem (line : Lineage blocks root n h l) {g' : Hash} (member : (m, g) ∈ l)
    (member' : (m, g') ∈ l) : g = g' := by
  induction line with
  | root =>
      cases List.mem_singleton.mp member
      cases List.mem_singleton.mp member'
      rfl
  | child stored step line ih =>
      have whole := Lineage.child stored step line
      rcases List.mem_cons.mp member with same | lower <;>
        rcases List.mem_cons.mp member' with same' | lower'
      · cases same
        cases same'
        rfl
      · cases same
        exact absurd (whole.lt_of_mem_tail lower') (UInt64.lt_irrefl _)
      · cases same'
        exact absurd (whole.lt_of_mem_tail lower) (UInt64.lt_irrefl _)
      · exact ih lower lower'

/-- Looking a number up finds the member of that number. -/
theorem lookup_eq_some_iff (line : Lineage blocks root n h l) :
    l.lookup m = some g ↔ (m, g) ∈ l := by
  constructor
  · intro found
    obtain ⟨l₁, l₂, eq, -⟩ := List.lookup_eq_some_iff.mp found
    simp [eq]
  · intro member
    cases found : l.lookup m with
    | none => exact absurd (List.lookup_eq_none_iff.mp found _ member) (by simp)
    | some g' =>
        obtain ⟨l₁, l₂, eq, -⟩ := List.lookup_eq_some_iff.mp found
        have member' : (m, g') ∈ l := by simp [eq]
        rw [line.eq_of_mem member member']

/-- A lineage has a member of every number up to that of its block. -/
theorem exists_mem_of_le (line : Lineage blocks root n h l) (le : m ≤ n) : ∃ g, (m, g) ∈ l := by
  induction line with
  | root =>
      have := UInt64.le_iff_toNat_le.mp le
      obtain rfl : m = 0 := UInt64.toNat_inj.mp (by simpa using this)
      exact ⟨root, List.mem_singleton_self _⟩
  | @child hash block number below stored step line ih =>
      by_cases eq : m = block.number
      · exact ⟨hash, by simp [eq]⟩
      · have hne : m.toNat ≠ block.number.toNat := fun h => eq (UInt64.toNat_inj.mp h)
        have := UInt64.le_iff_toNat_le.mp le
        obtain ⟨g, member⟩ := ih (UInt64.le_iff_toNat_le.mpr (by omega))
        exact ⟨g, List.mem_cons_of_mem _ member⟩

/-- The parent of every member above the genesis block is the member before it. -/
theorem link (line : Lineage blocks root n h l) (member : (m, g) ∈ l) (pos : 0 < m) :
    ∃ block, blocks.lookup g = some block ∧ block.number = m ∧ (m - 1, block.parentHash) ∈ l := by
  have cut := line.truncate member
  generalize hkept : (l.filter fun entry => entry.1 ≤ m) = kept at cut
  cases cut with
  | root => exact absurd pos (UInt64.lt_irrefl _)
  | @child _ block number below stored step line' =>
      refine ⟨block, stored, rfl, ?_⟩
      have previous : block.number - 1 = number := by
        apply UInt64.toNat_inj.mp
        rw [UInt64.toNat_sub_of_le _ _ (UInt64.le_iff_toNat_le.mpr (by simp; omega))]
        simp
        omega
      have member' : (number, block.parentHash) ∈ l.filter fun entry => entry.1 ≤ block.number :=
        hkept ▸ List.mem_cons_of_mem _ line'.mem_self
      rw [previous]
      exact (List.mem_filter.mp member').1

/-- A lineage stays one while its members keep their numbers and parents. -/
theorem mono {blocks' : List (Hash × Block)}
    (kept : ∀ hash block, blocks.lookup hash = some block → ∃ block',
      blocks'.lookup hash = some block' ∧ block'.number = block.number ∧
        block'.parentHash = block.parentHash)
    (line : Lineage blocks root n h l) : Lineage blocks' root n h l := by
  induction line with
  | root stored zero =>
      obtain ⟨_, stored', number, -⟩ := kept _ _ stored
      exact .root stored' (number.trans zero)
  | child stored step _ ih =>
      obtain ⟨block', stored', number, parent⟩ := kept _ _ stored
      rw [← number] at step ⊢
      rw [← parent] at ih
      exact .child stored' step ih

/-- A lineage passes no block twice, since numbers fall on the way down. -/
theorem nodup_hashes (line : Lineage blocks root n h l) : (l.map Prod.snd).Nodup := by
  induction line with
  | root => simp
  | @child hash block number below stored step line ih =>
      rw [List.map_cons, List.nodup_cons]
      refine ⟨?_, ih⟩
      intro again
      obtain ⟨⟨m, _⟩, member, rfl⟩ := List.mem_map.mp again
      obtain rfl := (line.truncate member).number_eq stored
      have := UInt64.le_iff_toNat_le.mp (line.le_of_mem member)
      omega

theorem length_eq (line : Lineage blocks root n h l) : l.length = n.toNat + 1 := by
  induction line with
  | root => rfl
  | child _ step _ ih => rw [List.length_cons, ih, step]

theorem number_lt (line : Lineage blocks root n h l) : n.toNat < blocks.length := by
  have among : l.map Prod.snd ⊆ blocks.map Prod.fst := by
    intro g passed
    obtain ⟨⟨m, _⟩, member, rfl⟩ := List.mem_map.mp passed
    obtain ⟨block, stored⟩ := (line.truncate member).stored
    obtain ⟨_, _, same, -⟩ := List.lookup_eq_some_iff.mp stored
    simp [same]
  have := (line.nodup_hashes.subperm among).length_le
  rw [List.length_map, List.length_map, line.length_eq] at this
  exact this

end Lineage

end EngineNode
