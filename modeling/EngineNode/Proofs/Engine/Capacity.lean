import EngineNode.Proofs.Engine.Forgetting
import EngineNode.Proofs.FeeMarket

/-!
How many tips of bad chains there are.

A check makes room before it adds a tip, a recording does not.

* `BadChains.size_run_le`: so the tips stay within the capacity but for what has been recorded.
* `BadChains.run_tips_le`: a check that adds a tip makes up for all that was recorded before.
* `BadChains.filled_filling`: the capacity can be used up by the children of one bad block, and the
  next block that fails then exceeds it (`BadChains.tips_exceed_capacity`).
-/

namespace EngineNode

namespace BadChains

variable {chains : BadChains}

/-! ### How many tips there are -/

/-- A check that adds a tip keeps within the capacity. -/
theorem size_addTip_le (chains : BadChains) (tip : Hash) (invalid : Header) :
    (chains.addTip tip invalid).tips.size ≤ badTipCapacity := by
  have trimmed := chains.tips.size_trim_le (badTipCapacity - 1)
  have inserted := (chains.tips.trim (badTipCapacity - 1)).size_insert_le tip invalid
  exact inserted.trans (Nat.add_le_add_right trimmed 1)

theorem size_apply_le (chains : BadChains) (op : Operation) :
    (chains.apply op).tips.size ≤ max badTipCapacity chains.tips.size + recordings [op] := by
  cases op with
  | mark invalid origin =>
      have inserted := chains.tips.size_insert_le origin.hash invalid
      exact inserted.trans (Nat.add_le_add_right (Nat.le_max_right ..) 1)
  | recordFailure header =>
      have inserted := chains.tips.size_insert_le header.hash header
      exact inserted.trans (Nat.add_le_add_right (Nat.le_max_right ..) 1)
  | check chain check head =>
      have checked := chains.check_checked chain check head
      rw [apply]
      generalize (chains.check chain check head).1 = status at checked
      generalize (chains.check chain check head).2.1 = chains' at checked ⊢
      refine Nat.le_add_right_of_le ?_
      cases checked with
      | unknown => exact Nat.le_max_right ..
      | forgotten => exact (List.length_filter_le ..).trans (Nat.le_max_right ..)
      | repeated => exact Nat.le_max_right ..
      | added => exact (size_addTip_le ..).trans (Nat.le_max_left ..)

theorem size_run_le (chains : BadChains) (ops : List Operation) :
    (chains.run ops).tips.size ≤ max badTipCapacity chains.tips.size + recordings ops := by
  induction ops using List.reverseRecOn with
  | nil => exact Nat.le_max_right ..
  | append_singleton ops op ih =>
      have last := (chains.run ops).size_apply_le op
      rw [run_concat, recordings_append]
      omega

/-- **The tips that exceed the capacity have been recorded since a check last added one.** A check
that adds a tip leaves no more than the capacity; it is the recordings that drop nothing. -/
theorem run_tips_le (ops : List Operation) :
    let chains := run {} ops
    chains.tips.size ≤ badTipCapacity + recordings ops ∧
      ∀ chain check head later, (chains.check chain check head).1.isSome → check ≠ head →
        ((chains.check chain check head).2.1.run later).tips.size ≤
          badTipCapacity + recordings later := by
  intro chains
  refine ⟨size_run_le {} ops, ?_⟩
  intro chain check head later rejected other
  have within : (chains.check chain check head).2.1.tips.size ≤ badTipCapacity := by
    have checked := chains.check_checked chain check head
    generalize (chains.check chain check head).1 = status at checked rejected
    generalize (chains.check chain check head).2.1 = chains' at checked ⊢
    cases checked with
    | unknown => cases rejected
    | forgotten => cases rejected
    | repeated _ _ same => exact absurd same other
    | added => exact size_addTip_le ..
  have run := (chains.check chain check head).2.1.size_run_le later
  rwa [Nat.max_eq_left within] at run

/-! ### Beyond the capacity -/

section Overfilled

/-- A block fails again and again, and each time another head is checked on top of it. -/
def filling (chain : Chain) (header : Header) : Nat → List Operation
  | 0 => [.recordFailure header]
  | n + 1 =>
    filling chain header n ++ [.check chain header.hash (.ofNat 32 n), .recordFailure header]

/-- The tips are the block that failed and the heads that were checked. -/
structure Filled (chains : BadChains) (header : Header) (n : Nat) : Prop where
  failed : chains.tips.get? header.hash = some header
  hits : chains.hitsOf header.hash = 1
  size : chains.tips.size = n + 1
  among : ∀ hash, chains.tips.contains hash → hash = header.hash ∨ hash.toNat < n

theorem toNat_ofNat_hash {n : Nat} (small : n < badTipCapacity) :
    (FixedBytes.ofNat 32 n).toNat = n := by
  have fits : n < 256 ^ 32 := small.trans (by decide)
  exact (Bytes.toNat_ofNatPadded 32 n).trans (Nat.mod_eq_of_lt fits)

variable {chain : Chain} {header : Header} {n : Nat}

theorem ne_ofNat (large : badTipCapacity ≤ header.hash.toNat) (small : n < badTipCapacity) :
    header.hash ≠ .ofNat 32 n := by
  intro same
  rw [same, toNat_ofNat_hash small] at large
  omega

namespace Filled

variable (filled : chains.Filled header n) (large : badTipCapacity ≤ header.hash.toNat)
  (room : n + 1 < badTipCapacity)

include filled large room

/-- While there is room a check adds a tip and drops none. -/
theorem check : (chains.check chain header.hash (.ofNat 32 n)).2.1.tips =
    chains.tips.insert (.ofNat 32 n) header := by
  have other : header.hash ≠ .ofNat 32 n := ne_ofNat large (Nat.lt_of_succ_lt room)
  have few : chains.hitsOf header.hash + 1 < badBlockHitLimit := by
    rw [filled.hits]
    decide
  have size : chains.tips.size ≤ badTipCapacity - 1 :=
    filled.size.trans_le (Nat.le_pred_of_lt room)
  rw [(check_of_few filled.failed few chain _).2, if_neg other, addTip, hit,
    RecencyMap.trim_eq_self size]

/-- Another head takes one more place, and the block that fails again takes none. -/
theorem next : (chains.run [.check chain header.hash (.ofNat 32 n),
    .recordFailure header]).Filled header (n + 1) := by
  have small : n < badTipCapacity := Nat.lt_of_succ_lt room
  have tips : (chains.run [.check chain header.hash (.ofNat 32 n), .recordFailure header]).tips =
      (chains.tips.insert (.ofNat 32 n) header).insert header.hash header :=
    congrArg (·.insert header.hash header) (filled.check large room)
  have new : chains.tips.contains (.ofNat 32 n) = false := by
    refine Bool.eq_false_iff.mpr fun there => ?_
    rcases filled.among _ there with same | below
    · exact ne_ofNat large small same.symm
    · exact below.ne (toNat_ofNat_hash small)
  have again : (chains.tips.insert (.ofNat 32 n) header).contains header.hash = true := by
    rw [RecencyMap.contains, RecencyMap.get?_insert, if_neg (ne_ofNat large small), filled.failed]
    rfl
  refine ⟨get?_recordFailure _ header, hitsOf_recordFailure _ header, ?_, ?_⟩
  · rw [tips, RecencyMap.size_insert, if_pos again, RecencyMap.size_insert, new, filled.size]
    rfl
  · intro hash there
    rw [tips] at there
    rcases RecencyMap.contains_insert.mp there with same | there
    · exact .inl same
    rcases RecencyMap.contains_insert.mp there with rfl | there
    · exact .inr ((toNat_ofNat_hash small).trans_lt (Nat.lt_succ_self n))
    · exact (filled.among hash there).imp_right Nat.lt_succ_of_lt

end Filled

theorem filled_filling (large : badTipCapacity ≤ header.hash.toNat) (room : n < badTipCapacity) :
    (run {} (filling chain header n)).Filled header n := by
  induction n with
  | zero =>
      refine ⟨get?_recordFailure {} header, hitsOf_recordFailure {} header, rfl, ?_⟩
      exact fun hash there => (RecencyMap.contains_insert.mp there).imp_right nofun
  | succ n ih =>
      rw [filling, run_append]
      exact (ih (Nat.lt_of_succ_lt room)).next large room

/-- A block fails and is checked under ever new heads. When there is no room left, another block
fails. -/
def overfilling : List Operation := filling (.new {}) {} 511 ++ [.recordFailure { number := 1 }]

/-- **The tips exceed the capacity** when a block fails while there is no room. -/
theorem tips_exceed_capacity : (run {} overfilling).tips.size = badTipCapacity + 1 := by
  have large : badTipCapacity ≤ ({} : Header).hash.toNat := by decide +kernel
  have other : ({ number := 1 } : Header).hash ≠ ({} : Header).hash ∧
      badTipCapacity ≤ ({ number := 1 } : Header).hash.toNat := by decide +kernel
  have full : (run {} (filling (.new {}) {} 511)).Filled {} 511 :=
    filled_filling large (by decide)
  rw [overfilling, run_concat]
  generalize run {} (filling (.new {}) {} 511) = chains at full ⊢
  have new : chains.tips.contains ({ number := 1 } : Header).hash = false := by
    refine Bool.eq_false_iff.mpr fun there => ?_
    rcases full.among _ there with same | below
    · exact other.1 same
    · exact absurd other.2 (Nat.not_le_of_lt (below.trans (by decide)))
  rw [apply, recordFailure, RecencyMap.size_insert, new, full.size]
  rfl

end Overfilled

end BadChains

end EngineNode
