import EngineNode.Proofs.Checked
import EngineNode.Proofs.Engine.Siblings

/-!
The bodies of a range of blocks.

Bodies are asked for by number, and the method could answer with holes. It never does: after every
run the canonical chain is in one piece (`Chain.Contiguous`), so there is a block of every number up
to that of the head.

* `Chain.bodyNumbers?_eq`: the numbers of a range can be computed in machine words, wherever it
  starts.
* `Chain.Coherent.exists_blocks`: a coherent chain has a block of every number up to its head.
* `Node.run_bodiesByRange`: what the method answers after every run.
-/

namespace EngineNode

open Checked

namespace Chain

variable {chain : Chain} {start count : UInt64}

/-! ### The numbers of a range -/

/-- The last number of a range, which is not above that of the head. -/
def lastBody (chain : Chain) (start count : UInt64) : Nat :=
  min (start.toNat + count.toNat - 1) chain.currentHeader.number.toNat

/-- The numbers of a range up to that of the head. -/
def bodyNumbers (chain : Chain) (start count : UInt64) : List UInt64 :=
  (List.range (min count.toNat (chain.currentHeader.number.toNat + 1 - start.toNat))).map fun i =>
    start + UInt64.ofNat i

/-- The numbers of a range up to that of the head, computed in machine words. The sum is the one
that stops at the end of the word, and every number after the first must have its place in one. -/
def bodyNumbers? (chain : Chain) (start count : UInt64) : Option (List UInt64) := do
  let more ← difference? count.toNat 1
  let last := min (min (start.toNat + more) (UInt64.size - 1)) chain.currentHeader.number.toNat
  (List.range' start.toNat (last + 1 - start.toNat)).mapM fun number =>
    (fits? UInt64.size number).map UInt64.ofNat

theorem bodyNumbers_eq (chain : Chain) (start : UInt64) (wanted : 0 < count.toNat) :
    chain.bodyNumbers start count =
      (List.range' start.toNat (chain.lastBody start count + 1 - start.toNat)).map
        UInt64.ofNat := by
  have length : min count.toNat (chain.currentHeader.number.toNat + 1 - start.toNat) =
      chain.lastBody start count + 1 - start.toNat := by
    unfold lastBody
    omega
  rw [bodyNumbers, length, List.range'_eq_map_range, List.map_map]
  refine List.map_congr_left fun i _ => ?_
  rw [Function.comp_apply, UInt64.ofNat_add, UInt64.ofNat_toNat]

/-- No number of a range is above that of the head. -/
theorem le_of_mem_range' {n : Nat}
    (member : n ∈ List.range' start.toNat (chain.lastBody start count + 1 - start.toNat)) :
    start.toNat ≤ n ∧ n ≤ chain.currentHeader.number.toNat := by
  rw [List.mem_range'_1, lastBody] at member
  omega

theorem map_toNat_bodyNumbers (chain : Chain) (start : UInt64) (wanted : 0 < count.toNat) :
    (chain.bodyNumbers start count).map UInt64.toNat =
      List.range' start.toNat (chain.lastBody start count + 1 - start.toNat) := by
  rw [bodyNumbers_eq chain start wanted, List.map_map]
  refine (List.map_congr_left fun n member => ?_).trans (List.map_id _)
  have head := chain.currentHeader.number.toNat_lt
  exact UInt64.toNat_ofNat_of_lt' ((le_of_mem_range' member).2.trans_lt head)

/-- A range that starts above the head has no numbers. -/
theorem bodyNumbers_of_lt (count : UInt64)
    (above : chain.currentHeader.number.toNat < start.toNat) :
    chain.bodyNumbers start count = [] := by
  rw [bodyNumbers, Nat.sub_eq_zero_of_le above, Nat.min_zero, List.range_zero, List.map_nil]

/-- **The numbers of a range can be computed in machine words**, wherever it starts. -/
theorem bodyNumbers?_eq (chain : Chain) (start : UInt64) (wanted : 0 < count.toNat) :
    chain.bodyNumbers? start count = some (chain.bodyNumbers start count) := by
  have head := chain.currentHeader.number.toNat_lt
  have size : UInt64.size = 2 ^ 64 := rfl
  have last : min (min (start.toNat + (count.toNat - 1)) (UInt64.size - 1))
      chain.currentHeader.number.toNat = chain.lastBody start count := by
    unfold lastBody
    omega
  have each : ∀ n ∈ List.range' start.toNat (chain.lastBody start count + 1 - start.toNat),
      (fits? UInt64.size n).map UInt64.ofNat = some (UInt64.ofNat n) := by
    intro n member
    rw [fits?_of_lt ((le_of_mem_range' member).2.trans_lt head), Option.map_some]
  rw [bodyNumbers?, difference?_of_le wanted, Option.bind_eq_bind, Option.bind_some, last,
    bodyNumbers_eq chain start wanted]
  exact mapM_eq_some_map each

/-! ### The blocks of some numbers -/

/-- A stored block that is canonical. -/
structure HasCanonical (chain : Chain) (block : Block) : Prop where
  stored : chain.blockByHash? block.hash = some block
  canonical : chain.isCanonical block.number block.hash = true

/-- A contender that has become the head is the canonical block of its number. -/
theorem Contender.eq_of_hasCanonical {parent head block : Block}
    (contends : chain.Contender parent head)
    (known : (chain.withHead parent head).HasCanonical block) (same : block.number = head.number) :
    block = head := by
  obtain ⟨stored, canonical⟩ := known
  rw [isCanonical_withHead same, decide_eq_true_iff] at canonical
  rw [← canonical] at stored
  exact Option.some.inj (stored.symm.trans contends.stored)

/-- **A coherent chain has a block of every number up to its head.** -/
theorem Coherent.exists_blocks {root : Hash} (coherent : chain.Coherent root)
    (numbers : List UInt64) (inside : ∀ n ∈ numbers, 0 < n ∧ n ≤ chain.head.number) :
    ∃ blocks : List Block, blocks.map Block.number = numbers ∧
      (∀ block ∈ blocks, chain.HasCanonical block) ∧
      numbers.map chain.blockByNumber? = blocks.map some := by
  induction numbers with
  | nil => exact ⟨[], rfl, nofun, rfl⟩
  | cons n rest ih =>
      obtain ⟨blocks, numbered, canonical, found⟩ :=
        ih fun m member => inside m (List.mem_cons_of_mem _ member)
      obtain ⟨positive, le⟩ := inside n List.mem_cons_self
      obtain ⟨hash, block, there, stored, number, -⟩ := coherent.contiguous.linked n positive le
      obtain rfl := coherent.keyed hash block stored
      have first : chain.blockByNumber? n = some block := by
        rw [blockByNumber?, there]
        exact stored
      have known : chain.HasCanonical block :=
        ⟨stored, isCanonical_eq_true_iff.mpr (number ▸ there)⟩
      refine ⟨block :: blocks, ?_, List.forall_mem_cons.mpr ⟨known, canonical⟩, ?_⟩
      · rw [List.map_cons, number, numbered]
      · rw [List.map_cons, List.map_cons, first, found]

end Chain

/-! ### The method -/

namespace Node

open Chain

variable {start count : UInt64}

/-- A range that is not refused is answered by its numbers. -/
theorem answer_bodiesByRange (node : Node) (first : 1 ≤ start) (wanted : 1 ≤ count)
    (few : count ≤ 1024) :
    (node.answer (.bodiesByRange start count)).1 =
      .ok ((node.chain.bodyNumbers start count).map fun n =>
        (node.chain.blockByNumber? n).map PayloadBody.ofBlock) := by
  have proper : ¬(start = 0 ∨ count = 0) := by
    rintro (rfl | rfl)
    · exact absurd first (by decide)
    · exact absurd wanted (by decide)
  have short : ¬maxBodyRequest < count.toNat := Nat.not_lt.mpr few
  have program : EngineM.Ensures (EngineM.bodiesByRange start count) node [] fun result _ _ =>
      result = .ok ((node.chain.bodyNumbers start count).map fun n =>
        (node.chain.blockByNumber? n).map PayloadBody.ofBlock) := by
    simp only [EngineM.bodiesByRange, proper, short, if_false, bodyNumbers, List.map_map]
    rfl
  exact program

/-- **What a range of bodies is answered with after any run**: the bodies of the canonical blocks
whose numbers run from the first one that was asked for to the last one, or to that of the head.
None is missing, and no number leaves its word. -/
theorem run_bodiesByRange (node : Node) (events : List Event) (start count : UInt64)
    (first : 1 ≤ start) (wanted : 1 ≤ count) (few : count ≤ 1024) :
    let now := node.fresh.run events
    let head := now.chain.currentHeader.number.toNat
    let last := min (start.toNat + count.toNat - 1) head
    (∃ blocks : List Block,
      (now.answer (.bodiesByRange start count)).1 =
        .ok (blocks.map fun block => some (.ofBlock block)) ∧
      blocks.map (fun block => block.number.toNat) =
        List.range' start.toNat (last + 1 - start.toNat) ∧
      (∀ block ∈ blocks, now.chain.HasCanonical block) ∧
      now.chain.bodyNumbers? start count = some (blocks.map Block.number)) ∧
    (head < start.toNat → (now.answer (.bodiesByRange start count)).1 = .ok []) := by
  intro now head last
  have positive : 0 < count.toNat := wanted
  have numbers := map_toNat_bodyNumbers now.chain start positive
  have inside : ∀ n ∈ now.chain.bodyNumbers start count, 0 < n ∧ n ≤ now.chain.head.number := by
    intro n member
    have between := le_of_mem_range' (numbers ▸ List.mem_map_of_mem member)
    exact ⟨lt_of_lt_of_le (Nat.lt_of_succ_le first) between.1, between.2⟩
  obtain ⟨blocks, numbered, canonical, found⟩ :=
    (node.run_coherent events).exists_blocks _ inside
  have answered := now.answer_bodiesByRange first wanted few
  refine ⟨⟨blocks, ?_, ?_, canonical, ?_⟩, ?_⟩
  · have bodies : (now.chain.bodyNumbers start count).map
        (Option.map PayloadBody.ofBlock ∘ now.chain.blockByNumber?) =
        blocks.map fun block => some (.ofBlock block) := by
      rw [← List.map_map, found, List.map_map]
      rfl
    exact answered.trans (congrArg Except.ok bodies)
  · rw [← Function.comp_def UInt64.toNat, ← List.map_map, numbered, numbers]
    rfl
  · rw [bodyNumbers?_eq now.chain start positive, numbered]
  · intro above
    rw [answered, bodyNumbers_of_lt count above, List.map_nil]

end Node

namespace Siblings

/-- Two blocks come in, and the second one is made the head. -/
def secondRun : List Event := run ++ [.call (.forkchoiceUpdated .v1 secondChoice none false)]

theorem secondRun_chain :
    ((Node.new {}).fresh.run secondRun).chain = node.chain.withHead genesis second := by
  obtain ⟨stored, canonical, -, contends⟩ := run_contends
  rw [secondRun, Node.run_concat, run_eq_node, Node.after_call]
  exact (Node.answer_plain_choice rfl rfl rfl stored canonical contends).2

/-- Two blocks have come in, and the head has a body alone. -/
theorem secondRun_bodies : ((1 : UInt64) ≤ 1 ∧ (1 : UInt64) ≤ 1024 ∧ (1024 : UInt64) ≤ 1024) ∧
    (((Node.new {}).fresh.run secondRun).answer (.bodiesByRange 1 1024)).1 =
      .ok [some (.ofBlock second)] ∧
    (((Node.new {}).fresh.run secondRun).answer (.bodiesByRange 18446744073709551615 1024)).1 =
      .ok [] := by
  have chain := secondRun_chain
  have contends := run_contends.2.2.2
  obtain ⟨⟨blocks, answered, numbers, canonical, -⟩, -⟩ :=
    (Node.new {}).run_bodiesByRange secondRun 1 1024 (by decide) (by decide) (by decide)
  obtain ⟨-, above⟩ :=
    (Node.new {}).run_bodiesByRange secondRun 18446744073709551615 1024 (by decide) (by decide)
      (by decide)
  generalize (Node.new {}).fresh.run secondRun = now at *
  generalize node.chain = before at *
  have head : now.chain.currentHeader.number.toNat = 1 := by
    rw [chain]
    rfl
  rw [head] at numbers above
  refine ⟨by decide, ?_, above (by decide)⟩
  obtain ⟨block, rfl, number⟩ := List.map_eq_singleton_iff.mp numbers
  have known := canonical block (List.mem_singleton_self block)
  rw [chain] at known
  obtain rfl := contends.eq_of_hasCanonical known (UInt64.toNat_inj.mp number)
  exact answered

end Siblings

end EngineNode
