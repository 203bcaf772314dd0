import EngineNode.Proofs.Engine.Finality

/-!
Final blocks and reorganizations.

Nothing holds the head to a final block: a later choice may take it to any stored branch, and what
was recorded as final or safe stays recorded. So a recorded block need not be canonical, and what
can be said of it depends on the head alone.

* `isCanonical_iff_descends`: a stored block is canonical exactly when the head descends from it.
* `Node.choices_leave_final`: of two blocks that compete the first can be made final, and then the
  second can be made the head.
* `Node.run_recorded`: a block that is recorded as final or safe is stored, has been canonical when
  it was recorded, and is canonical as long as the head descends from it.
-/

namespace EngineNode

namespace Chain

variable {chain : Chain} {root : Hash} {block : Block}

/-! ### Descent -/

/-- The stored blocks lead from one hash down to another, from block to parent in steps of one. -/
inductive Descends (chain : Chain) : Hash → Hash → Prop where
  | self {hash : Hash} : Descends chain hash hash
  | child {hash ancestor : Hash} {block parent : Block} :
      chain.blockByHash? hash = some block →
      chain.blockByHash? block.parentHash = some parent →
      block.number.toNat = parent.number.toNat + 1 →
      Descends chain block.parentHash ancestor → Descends chain hash ancestor

/-- A block descends from all members of its lineage. -/
theorem descends_of_mem {n m : UInt64} {hash ancestor : Hash} {l : List (UInt64 × Hash)}
    (line : Lineage chain.blocks root n hash l) (member : (m, ancestor) ∈ l) :
    chain.Descends hash ancestor := by
  induction line with
  | root =>
      cases List.mem_singleton.mp member
      exact .self
  | child stored step below ih =>
      rcases List.mem_cons.mp member with same | member
      · cases same
        exact .self
      · obtain ⟨parent, stored'⟩ := below.stored
        exact .child stored stored' (below.number_eq stored' ▸ step) (ih member)

/-- A block descends from nothing but the members of its lineage, which the genesis block ends. -/
theorem Descends.mem {hash ancestor : Hash} (descends : chain.Descends hash ancestor) {n : UInt64}
    {l : List (UInt64 × Hash)} (line : Lineage chain.blocks root n hash l) :
    ∃ m, (m, ancestor) ∈ l := by
  induction descends generalizing n l with
  | self => exact ⟨n, line.mem_self⟩
  | child stored _ step _ ih =>
      cases line with
      | root stored' zero =>
          cases stored.symm.trans stored'
          rw [zero] at step
          simp at step
      | child stored' _ below =>
          cases stored.symm.trans stored'
          obtain ⟨m, member⟩ := ih below
          exact ⟨m, List.mem_cons_of_mem _ member⟩

/-- **A stored block is canonical exactly when the head descends from it.** -/
theorem Coherent.isCanonical_iff_descends (coherent : chain.Coherent root)
    (stored : chain.blockByHash? block.hash = some block) :
    chain.isCanonical block.number block.hash = true ↔
      chain.Descends chain.head.hash block.hash := by
  rw [isCanonical_eq_true_iff, coherent.canonicalHash?_eq_some_iff]
  constructor
  · exact descends_of_mem coherent.canonical
  · intro descends
    obtain ⟨m, member⟩ := descends.mem coherent.canonical
    rwa [(coherent.canonical.truncate member).number_eq stored]

end Chain

/-! ### Leaving a final block -/

/-- **The head can leave a final block.** Of two contenders the first is made the head, and final
and safe, and then the second is made the head. -/
theorem Node.choices_leave_final {node : Node} {parent first second : Block}
    {choice next : ForkchoiceState} (head : choice.headBlockHash = first.hash)
    (final : choice.finalizedBlockHash = first.hash) (safe : choice.safeBlockHash = first.hash)
    (nextHead : next.headBlockHash = second.hash) (noFinal : next.finalizedBlockHash = .zero 32)
    (noSafe : next.safeBlockHash = .zero 32)
    (storedParent : node.chain.blockByHash? parent.hash = some parent)
    (canonical : node.chain.isCanonical parent.number parent.hash = true)
    (contends : node.chain.Contender parent first)
    (contends' : node.chain.Contender parent second) (differ : first.hash ≠ second.hash) :
    let chain := ((node.after (.call (.forkchoiceUpdated .v1 choice none false))).after
      (.call (.forkchoiceUpdated .v1 next none false))).chain
    chain.finalized = some first.header ∧ chain.safe = some first.header ∧
      chain.isCanonical first.number first.hash = false := by
  have chosen := (answer_final_choice head final safe storedParent canonical contends).2
  have still : (node.answer (.forkchoiceUpdated .v1 choice none false)).2.chain.Contender parent
      second := by
    rw [chosen]
    refine ⟨contends'.stored, contends'.hasState, contends'.onParent, contends'.number, ?_,
      contends'.merged, contends'.notZero⟩
    exact (Chain.isCanonical_withHead (contends'.number_eq contends)).trans (decide_eq_false differ)
  have left : ((node.answer (.forkchoiceUpdated .v1 choice none false)).2.answer
      (.forkchoiceUpdated .v1 next none false)).2.chain =
      (node.answer (.forkchoiceUpdated .v1 choice none false)).2.chain.withHead parent second := by
    refine (answer_plain_choice nextHead noFinal noSafe ?_ ?_ still).2
    · rw [chosen]
      exact storedParent
    · rw [chosen]
      exact contends.isCanonical_parent canonical
  rw [after_call, after_call, left, chosen]
  refine ⟨rfl, rfl, ?_⟩
  exact (Chain.isCanonical_withHead (contends.number_eq contends')).trans
    (decide_eq_false differ.symm)

namespace Siblings

/-- Two blocks come in, the first one is made the head and final, and then the second one is made
the head. -/
def leavingRun : List Event :=
  run ++ [.call (.forkchoiceUpdated .v1 firstChoice none false),
    .call (.forkchoiceUpdated .v1 secondChoice none false)]

theorem leavingRun_records :
    let chain := ((Node.new {}).fresh.run leavingRun).chain
    chain.finalized = some first.header ∧ chain.safe = some first.header ∧
      chain.isCanonical first.header.number first.header.hash = false := by
  obtain ⟨stored, canonical, contends, contends'⟩ := run_contends
  rw [leavingRun, Node.run_append, run_eq_node, Node.run_cons, Node.run_cons, Node.run_nil]
  exact Node.choices_leave_final rfl rfl rfl rfl rfl rfl stored canonical contends contends'
    hashes_distinct.2.2.1

end Siblings

/-- **A final and safe block need not be canonical.** -/
theorem Node.final_not_canonical : ∃ header,
    ((Node.new {}).fresh.run Siblings.leavingRun).chain.finalized = some header ∧
      ((Node.new {}).fresh.run Siblings.leavingRun).chain.safe = some header ∧
      ((Node.new {}).fresh.run Siblings.leavingRun).chain.isCanonical header.number header.hash =
        false :=
  ⟨Siblings.first.header, Siblings.leavingRun_records⟩

/-! ### Records -/

/-- What is known of a block that is recorded at the end of a run: it is stored, it was canonical
at a time when it was recorded, and it is canonical while the head descends from it. -/
structure Node.HasRecorded (node : Node) (events : List Event) (recorded : Chain → Option Header)
    (header : Header) : Prop where
  stored : ∃ block, (node.run events).chain.blockByHash? header.hash = some block ∧
    block.header = header
  origin : ∃ earlier later, events = earlier ++ later ∧
    recorded (node.run earlier).chain = some header ∧
    (node.run earlier).chain.isCanonical header.number header.hash = true
  canonical_iff : (node.run events).chain.isCanonical header.number header.hash = true ↔
    (node.run events).chain.Descends (node.run events).chain.head.hash header.hash

/-- Records that start empty and only take in canonical blocks are known in every run. -/
theorem Node.hasRecorded_of_recordsOnly (node : Node) (recorded : Chain → Option Header)
    (start : recorded (.new node.config) = none)
    (step : ∀ chain chain' : Chain, chain.Coherent (genesisBlock node.config).hash →
      chain.Step node.config chain' → chain'.RecordsOnly (recorded chain) (recorded chain'))
    (events : List Event) {header : Header}
    (now : recorded (node.fresh.run events).chain = some header) :
    node.fresh.HasRecorded events recorded header := by
  have known : (∃ block, (node.fresh.run events).chain.blockByHash? header.hash = some block ∧
      block.header = header) ∧ ∃ earlier later, events = earlier ++ later ∧
        recorded (node.fresh.run earlier).chain = some header ∧
        (node.fresh.run earlier).chain.isCanonical header.number header.hash = true := by
    induction events using List.reverseRecOn with
    | nil => exact absurd (start.symm.trans now) nofun
    | append_singleton events event ih =>
        have stepped := ((node.fresh.run events).after_step event).2
        rw [run_config] at stepped
        rcases step _ _ (node.run_coherent events) stepped with same | ⟨hash, records⟩
        · rw [run_concat] at now ⊢
          obtain ⟨⟨block, stored, rfl⟩, earlier, later, split, origin⟩ := ih (same ▸ now)
          exact ⟨⟨block, stepped.blockByHash? stored, rfl⟩, earlier, later ++ [event],
            by rw [split, List.append_assoc], origin⟩
        · rw [← run_concat] at records
          obtain ⟨block, stored, rfl, canonical, same⟩ := records
          cases now.symm.trans same
          exact ⟨⟨block, stored, rfl⟩, _, [], (List.append_nil _).symm, now, canonical⟩
  obtain ⟨⟨block, stored, rfl⟩, origin⟩ := known
  exact ⟨⟨block, stored, rfl⟩, origin,
    (node.run_coherent events).isCanonical_iff_descends stored⟩

/-- **A final or safe block is canonical as long as the head descends from it.** -/
theorem Node.run_recorded (node : Node) (events : List Event) :
    (∀ header, (node.fresh.run events).chain.finalized = some header →
      node.fresh.HasRecorded events Chain.finalized header) ∧
    ∀ header, (node.fresh.run events).chain.safe = some header →
      node.fresh.HasRecorded events Chain.safe header := by
  constructor
  · intro header now
    refine node.hasRecorded_of_recordsOnly Chain.finalized rfl ?_ events now
    intro chain chain' coherent step
    exact (step.recordsOnly coherent).1
  · intro header now
    refine node.hasRecorded_of_recordsOnly Chain.safe rfl ?_ events now
    intro chain chain' coherent step
    exact (step.recordsOnly coherent).2

/-- The head does not descend from the block that it has left, which is still recorded. -/
theorem Node.run_recorded_leavingRun :
    ((Node.new {}).fresh.run Siblings.leavingRun).chain.finalized = some Siblings.first.header ∧
      ((Node.new {}).fresh.run Siblings.leavingRun).chain.safe = some Siblings.first.header ∧
      (Node.new {}).fresh.HasRecorded Siblings.leavingRun Chain.finalized Siblings.first.header ∧
      (Node.new {}).fresh.HasRecorded Siblings.leavingRun Chain.safe Siblings.first.header := by
  obtain ⟨final, safe, -⟩ := Siblings.leavingRun_records
  obtain ⟨finals, safes⟩ := run_recorded (Node.new {}) Siblings.leavingRun
  exact ⟨final, safe, finals _ final, safes _ safe⟩

end EngineNode
