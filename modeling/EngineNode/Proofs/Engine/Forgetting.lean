import EngineNode.Proofs.Engine.BadChains
import Mathlib.Data.List.Induction

/-!
How long bad chains are remembered.

Three things are done to the list of bad chains: a bad block is reported, a block fails, and a block
is checked. `BadChains.Checked` lists what a check does, so that every property of a row of
operations rests on one case analysis.

* `BadChains.Counted.run`: the bad block of every tip has been hit.
* `BadChains.apply_spare`: each rejection uses up one of the hits that a bad block has left, and
  nothing but recording the block again restores them.
* `BadChains.run_forgets`: so a bad block is forgotten after 126 rejections, with all its tips.
-/

namespace EngineNode

namespace BadChains

/-! ### What is done to the list -/

/-- Something that is done to the list of bad chains. -/
inductive Operation where
  /-- The downloader reports that the chain of `origin` contains a bad block. -/
  | mark (invalid origin : Header)
  /-- A block fails to import. -/
  | recordFailure (header : Header)
  /-- A block is checked on a chain. -/
  | check (chain : Chain) (check head : Hash)

/-- The bad block that an operation records. -/
def Operation.recorded? : Operation → Option Hash
  | mark invalid _ => some invalid.hash
  | recordFailure header => some header.hash
  | check .. => none

/-- How often bad blocks are recorded. -/
def recordings (ops : List Operation) : Nat := ops.countP (·.recorded?.isSome)

/-- The list after an operation. -/
def apply (chains : BadChains) : Operation → BadChains
  | .mark invalid origin => chains.mark invalid origin
  | .recordFailure header => chains.recordFailure header
  | .check chain check head => (chains.check chain check head).2.1

/-- The list after a row of operations. -/
def run (chains : BadChains) (ops : List Operation) : BadChains := ops.foldl apply chains

/-- The bad block on whose account an operation answers that a block is invalid. -/
def blamed? (chains : BadChains) : Operation → Option Hash
  | .check chain check head => do
    let status ← (chains.check chain check head).1
    guard (status.status = .invalid)
    let invalid ← chains.tips.get? check
    return invalid.hash
  | _ => none

/-- How often a row of operations rejects blocks on account of a bad block. -/
def rejections (chains : BadChains) (bad : Hash) : List Operation → Nat
  | [] => 0
  | op :: ops =>
    (if chains.blamed? op = some bad then 1 else 0) + (chains.apply op).rejections bad ops

theorem run_concat (chains : BadChains) (ops : List Operation) (op : Operation) :
    chains.run (ops ++ [op]) = (chains.run ops).apply op :=
  List.foldl_concat ..

theorem run_append (chains : BadChains) (ops later : List Operation) :
    chains.run (ops ++ later) = (chains.run ops).run later :=
  List.foldl_append

theorem recordings_append (ops later : List Operation) :
    recordings (ops ++ later) = recordings ops + recordings later :=
  List.countP_append

/-! ### One check -/

/-- One more hit of a bad block. -/
def hit (chains : BadChains) (bad : Hash) : BadChains :=
  { chains with hits := chains.hits.insert bad (chains.hitsOf bad + 1) }

/-- **What a check does**: the answer and the list afterwards. -/
inductive Checked (chains : BadChains) (chain : Chain) (check head : Hash) :
    Option PayloadStatus → BadChains → Prop where
  | unknown : chains.tips.get? check = none → Checked chains chain check head none chains
  | forgotten {bad : Header} : chains.tips.get? check = some bad →
      badBlockHitLimit ≤ chains.hitsOf bad.hash + 1 →
      Checked chains chain check head none (chains.forget bad.hash)
  | repeated {bad : Header} : chains.tips.get? check = some bad →
      chains.hitsOf bad.hash + 1 < badBlockHitLimit → check = head →
      Checked chains chain check head (some (rejection chain bad)) (chains.hit bad.hash)
  | added {bad : Header} : chains.tips.get? check = some bad →
      chains.hitsOf bad.hash + 1 < badBlockHitLimit → check ≠ head →
      Checked chains chain check head (some (rejection chain bad))
        ((chains.hit bad.hash).addTip head bad)

theorem check_checked (chains : BadChains) (chain : Chain) (check head : Hash) :
    chains.Checked chain check head (chains.check chain check head).1
      (chains.check chain check head).2.1 := by
  unfold BadChains.check
  cases known : chains.tips.get? check with
  | none => exact .unknown known
  | some bad =>
      dsimp only
      split
      · rename_i often
        exact .forgotten known often
      · rename_i seldom
        split
        · rename_i same
          exact .repeated known (Nat.lt_of_not_le seldom) same
        · rename_i other
          exact .added known (Nat.lt_of_not_le seldom) other

section Check

variable {chains : BadChains} {bad : Header} {check : Hash}

/-- A tip of a bad chain is rejected while the bad block has few hits. -/
theorem check_of_few (known : chains.tips.get? check = some bad)
    (few : chains.hitsOf bad.hash + 1 < badBlockHitLimit) (chain : Chain) (head : Hash) :
    (chains.check chain check head).1 = some (rejection chain bad) ∧
      (chains.check chain check head).2.1 =
        if check = head then chains.hit bad.hash else (chains.hit bad.hash).addTip head bad := by
  simp only [BadChains.check, known, Nat.not_le.mpr few, if_false]
  split
  · exact ⟨rfl, rfl⟩
  · exact ⟨rfl, rfl⟩

/-- A tip of a bad chain passes when the bad block has been hit too often, which is forgotten. -/
theorem check_of_often (known : chains.tips.get? check = some bad)
    (often : badBlockHitLimit ≤ chains.hitsOf bad.hash + 1) (chain : Chain) (head : Hash) :
    (chains.check chain check head).1 = none ∧
      (chains.check chain check head).2.1 = chains.forget bad.hash := by
  simp only [BadChains.check, known, often, if_true, and_self]

end Check

/-! ### Hits -/

section Hits

variable (chains : BadChains) (hash bad : Hash)

theorem hitsOf_mark (invalid origin : Header) :
    (chains.mark invalid origin).hitsOf hash =
      if hash = invalid.hash then chains.hitsOf invalid.hash + 1 else chains.hitsOf hash := by
  rw [hitsOf, mark, RecencyMap.get?_insert]
  split <;> rfl

theorem hitsOf_recordFailure_eq (header : Header) :
    (chains.recordFailure header).hitsOf hash =
      if hash = header.hash then 1 else chains.hitsOf hash := by
  rw [hitsOf, recordFailure, RecencyMap.get?_insert]
  split <;> rfl

theorem hitsOf_hit : (chains.hit bad).hitsOf hash =
    if hash = bad then chains.hitsOf bad + 1 else chains.hitsOf hash := by
  rw [hitsOf, hit, RecencyMap.get?_insert]
  split <;> rfl

theorem get?_hits_forget : (chains.forget bad).hits.get? hash =
    if hash = bad then none else chains.hits.get? hash := by
  rw [forget, RecencyMap.get?_filter]
  split
  · rename_i same
    simp [same]
  · rename_i other
    simp only [ne_eq, other, not_false_eq_true, decide_true]
    cases chains.hits.get? hash <;> rfl

theorem hitsOf_forget : (chains.forget bad).hitsOf hash =
    if hash = bad then 0 else chains.hitsOf hash := by
  rw [hitsOf, get?_hits_forget]
  split <;> rfl

@[simp] theorem hitsOf_addTip (tip : Hash) (invalid : Header) :
    (chains.addTip tip invalid).hitsOf hash = chains.hitsOf hash := by
  simp only [hitsOf, addTip]

end Hits

/-! ### Tips have been hit -/

/-- The bad block of every tip has been hit. -/
def Counted (chains : BadChains) : Prop :=
  ∀ tip bad, chains.tips.get? tip = some bad → 1 ≤ chains.hitsOf bad.hash

variable {chains : BadChains} {bad : Hash}

theorem one_le_hitsOf_hit {hash : Hash} (hit : 1 ≤ chains.hitsOf hash) (bad : Hash) :
    1 ≤ (chains.hit bad).hitsOf hash := by
  rw [hitsOf_hit]
  split
  · exact Nat.le_add_left 1 _
  · exact hit

theorem counted_empty : ({} : BadChains).Counted := nofun

theorem Counted.mark (counted : chains.Counted) (invalid origin : Header) :
    (chains.mark invalid origin).Counted := by
  intro tip bad found
  rw [BadChains.mark, RecencyMap.get?_insert] at found
  rw [hitsOf_mark]
  split at found
  · cases found
    rw [if_pos rfl]
    exact Nat.le_add_left 1 _
  · have before := counted tip bad found
    split
    · exact Nat.le_add_left 1 _
    · exact before

theorem Counted.recordFailure (counted : chains.Counted) (header : Header) :
    (chains.recordFailure header).Counted := by
  intro tip bad found
  rw [hitsOf_recordFailure_eq]
  rcases chains.gains_recordFailure header tip bad found with before | ⟨-, rfl⟩
  · split
    · exact Nat.le_refl 1
    · exact counted tip bad before
  · rw [if_pos rfl]

theorem Counted.check (counted : chains.Counted) (chain : Chain) (check head : Hash) :
    (chains.check chain check head).2.1.Counted := by
  have checked := chains.check_checked chain check head
  generalize (chains.check chain check head).1 = status at checked
  generalize (chains.check chain check head).2.1 = chains' at checked ⊢
  cases checked with
  | unknown => exact counted
  | @forgotten invalid _ _ =>
      intro tip bad found
      obtain ⟨before, other⟩ := RecencyMap.get?_of_get?_filter found
      rw [hitsOf_forget, if_neg (by simpa using other)]
      exact counted tip bad before
  | repeated => exact fun tip bad found => one_le_hitsOf_hit (counted tip bad found) _
  | @added invalid known _ _ =>
      intro tip bad found
      rw [hitsOf_addTip]
      rcases gains_addTip _ head invalid tip bad found with before | ⟨-, rfl⟩
      · exact one_le_hitsOf_hit (counted tip bad before) _
      · exact one_le_hitsOf_hit (counted check bad known) _

theorem Counted.apply (counted : chains.Counted) (op : Operation) : (chains.apply op).Counted := by
  cases op with
  | mark invalid origin => exact counted.mark invalid origin
  | recordFailure header => exact counted.recordFailure header
  | check chain check head => exact counted.check chain check head

/-- **After every row of operations the bad block of every tip has been hit.** -/
theorem Counted.run (counted : chains.Counted) (ops : List Operation) :
    (chains.run ops).Counted := by
  induction ops using List.reverseRecOn with
  | nil => exact counted
  | append_singleton ops op ih =>
      rw [run_concat]
      exact ih.apply op

/-! ### Hits that are left -/

/-- How many more blocks can be rejected on account of a bad block. -/
def spare (chains : BadChains) (bad : Hash) : Nat :=
  if chains.hitsOf bad = 0 then 0 else badBlockHitLimit - 1 - chains.hitsOf bad

theorem spare_le (chains : BadChains) (bad : Hash) : chains.spare bad ≤ 126 := by
  unfold spare badBlockHitLimit
  split <;> omega

theorem spare_congr {chains' : BadChains} (same : chains'.hitsOf bad = chains.hitsOf bad) :
    chains'.spare bad = chains.spare bad := by
  rw [spare, spare, same]

/-- **A rejection uses up a hit**, and no operation restores one but a recording. -/
theorem apply_spare (counted : chains.Counted) {op : Operation}
    (unrecorded : op.recorded? ≠ some bad) :
    (if chains.blamed? op = some bad then 1 else 0) + (chains.apply op).spare bad ≤
      chains.spare bad := by
  cases op with
  | mark invalid origin =>
      have other : bad ≠ invalid.hash := fun same => unrecorded (congrArg some same.symm)
      have same : (chains.mark invalid origin).hitsOf bad = chains.hitsOf bad := by
        rw [hitsOf_mark, if_neg other]
      rw [apply, spare_congr same]
      exact (Nat.zero_add _).le
  | recordFailure header =>
      have other : bad ≠ header.hash := fun same => unrecorded (congrArg some same.symm)
      have same : (chains.recordFailure header).hitsOf bad = chains.hitsOf bad := by
        rw [hitsOf_recordFailure_eq, if_neg other]
      rw [apply, spare_congr same]
      exact (Nat.zero_add _).le
  | check chain check head =>
      have checked := chains.check_checked chain check head
      rw [blamed?, apply]
      generalize (chains.check chain check head).1 = status at checked ⊢
      generalize (chains.check chain check head).2.1 = chains' at checked ⊢
      -- A rejection is charged to one bad block, whose hits were below the limit.
      have charged {invalid : Header} (known : chains.tips.get? check = some invalid)
          (few : chains.hitsOf invalid.hash + 1 < badBlockHitLimit)
          (hits : chains'.hitsOf bad = (chains.hit invalid.hash).hitsOf bad) :
          (if some invalid.hash = some bad then 1 else 0) + chains'.spare bad ≤
            chains.spare bad := by
        have before := counted check invalid known
        rw [spare, spare, hits, hitsOf_hit]
        by_cases same : bad = invalid.hash
        · subst same
          simp only [if_true]
          split <;> split <;> omega
        · rw [if_neg fun blamed => same (Option.some.inj blamed).symm, if_neg same]
          exact (Nat.zero_add _).le
      cases checked with
      | unknown => exact (Nat.zero_add _).le
      | @forgotten invalid _ _ =>
          refine (Nat.zero_add _).le.trans ?_
          by_cases same : bad = invalid.hash
          · rw [spare, hitsOf_forget, if_pos same, if_pos rfl]
            exact Nat.zero_le _
          · refine (spare_congr ?_).le
            rw [hitsOf_forget, if_neg same]
      | repeated known few =>
          rw [known]
          exact charged known few rfl
      | added known few =>
          rw [known]
          exact charged known few (hitsOf_addTip ..)

/-- While a bad block is not recorded again, no more is rejected on its account than it has hits
left. -/
theorem rejections_le_spare (counted : chains.Counted) {ops : List Operation}
    (unrecorded : ∀ op ∈ ops, op.recorded? ≠ some bad) :
    chains.rejections bad ops ≤ chains.spare bad := by
  induction ops generalizing chains with
  | nil => exact Nat.zero_le _
  | cons op ops ih =>
      have first := apply_spare counted (unrecorded op List.mem_cons_self)
      have others := ih (counted.apply op) fun op member =>
        unrecorded op (List.mem_cons_of_mem _ member)
      rw [rejections]
      omega

/-! ### Forgetting -/

/-- Nothing is known of a bad block. -/
structure Forgotten (chains : BadChains) (bad : Hash) : Prop where
  unhit : chains.hits.get? bad = none
  noTip : ∀ tip invalid, chains.tips.get? tip = some invalid → invalid.hash ≠ bad

theorem forgotten_forget (chains : BadChains) (bad : Hash) : (chains.forget bad).Forgotten bad where
  unhit := by rw [get?_hits_forget, if_pos rfl]
  noTip := by
    intro tip invalid found
    simpa using (RecencyMap.get?_of_get?_filter found).2

/-- A tip above a bad block is gone when the bad block is forgotten. -/
theorem get?_forget {tip : Hash} {bad : Header} (known : chains.tips.get? tip = some bad) :
    (chains.forget bad.hash).tips.get? tip = none := by
  rw [forget, RecencyMap.get?_filter, known]
  simp

/-- A check of a tip that rejects nothing has forgotten its bad block. -/
theorem forgotten_of_check {chain : Chain} {tip head : Hash} {invalid : Header}
    (known : chains.tips.get? tip = some invalid)
    (passes : (chains.check chain tip head).1 = none) :
    (chains.check chain tip head).2.1.Forgotten invalid.hash := by
  have checked := chains.check_checked chain tip head
  rw [passes] at checked
  generalize (chains.check chain tip head).2.1 = chains' at checked ⊢
  cases checked with
  | unknown unknown => cases known.symm.trans unknown
  | forgotten found _ =>
      cases known.symm.trans found
      exact forgotten_forget chains _

/-- **A bad block is forgotten completely.** After every row of operations the bad block of every
tip has been hit. A check of a tip that does not reject leaves no tip above the bad block and no
count of its hits. While the block is not recorded again, at most 126 checks reject on its
account. -/
theorem run_forgets (ops : List Operation) :
    let chains := run {} ops
    (∀ tip invalid, chains.tips.get? tip = some invalid → 1 ≤ chains.hitsOf invalid.hash) ∧
      (∀ chain tip head invalid, chains.tips.get? tip = some invalid →
        (chains.check chain tip head).1 = none →
        (chains.check chain tip head).2.1.Forgotten invalid.hash) ∧
      ∀ bad later, (∀ op ∈ later, op.recorded? ≠ some bad) →
        chains.rejections bad later ≤ 126 := by
  intro chains
  have counted : chains.Counted := counted_empty.run ops
  refine ⟨counted, fun _ _ _ _ => forgotten_of_check, ?_⟩
  intro bad later unrecorded
  exact (rejections_le_spare counted unrecorded).trans (chains.spare_le bad)

end BadChains

end EngineNode
