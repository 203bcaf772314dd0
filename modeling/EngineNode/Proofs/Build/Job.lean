import EngineNode.Build.Queue
import EngineNode.Proofs.Build.Replay
import Mathlib.Data.Option.Basic

/-!
What becomes of a payload while it waits.

Rounds of improvement, the end of time and deliveries leave the name, the plan and the first block
of a payload alone. The block that replaces it was generated from the same plan.

* `Wake.turns_ends`, `Wake.exists_turns_iff`: a stop ends the improvement, after any number of the
  rounds that are due (`PayloadJob.exists_advance_stopped_iff`).
* `PayloadJob.Continues`: what such steps have in common; it is reflexive and transitive.
* `PayloadJob.advance_continues`, `PayloadJob.deliver_continues`: each step is one.
* `PayloadQueue.Continues`: the same for all payloads of a queue; none comes and none goes.
* `Chain.startPayload_eq_ok`, `PayloadJob.Built.continues`: so all the blocks that a payload ever
  holds were generated from its plan (`PayloadJob.Built`).
-/

namespace EngineNode

variable {config : ChainConfig} {miner : MinerConfig}

/-! ### What is taken first -/

namespace Wake

variable {due count : Nat} {stopped expired : Bool}

/-- Something is taken if something has come about. -/
theorem isSome_take (lot : Wake) (due : Nat) (stopped expired : Bool) :
    (lot.take due stopped expired).isSome = (due ≠ 0 || stopped || expired) := by
  cases lot <;> cases due <;> cases stopped <;> cases expired <;> rfl

/-- What is taken has come about. -/
theorem isReady_of_take {lot wake : Wake} (taken : lot.take due stopped expired = some wake) :
    wake.isReady due stopped expired = true :=
  List.find?_some taken

theorem turns_le (stopped expired : Bool) (due : Nat) (lots : List Wake) :
    (turns stopped expired due lots).1 ≤ due := by
  induction due generalizing lots with
  | zero => exact Nat.le_refl 0
  | succ due ih =>
      unfold turns
      split
      · exact Nat.succ_le_succ (ih lots.tail)
      · exact Nat.zero_le _

/-- **The improvement ends with a stop and with the time for it**, and with nothing else. -/
theorem turns_ends (stopped expired : Bool) (due : Nat) (lots : List Wake) :
    (turns stopped expired due lots).2.isSome = (stopped || expired) := by
  induction due generalizing lots with
  | zero => exact isSome_take (lots.headD round) 0 stopped expired
  | succ due ih =>
      unfold turns
      split
      · exact ih lots.tail
      · rename_i notRound
        cases taken : (lots.headD round).take (due + 1) stopped expired with
        | none =>
            have ready := isSome_take (lots.headD round) (due + 1) stopped expired
            rw [taken] at ready
            simp at ready
        | some wake =>
            have ready := isReady_of_take taken
            cases wake with
            | round => exact absurd taken notRound
            | stop => simp [show stopped = true from ready]
            | deadline => simp [show expired = true from ready]

/-- **After a stop any number of the rounds that are due may still be done**, and no more. -/
theorem exists_turns_iff (expired : Bool) :
    (∃ lots, (turns true expired due lots).1 = count) ↔ count ≤ due := by
  constructor
  · rintro ⟨lots, rfl⟩
    exact turns_le true expired due lots
  · intro few
    induction count generalizing due with
    | zero => exact ⟨[stop], by cases due <;> rfl⟩
    | succ count ih =>
        obtain ⟨due, rfl⟩ := Nat.exists_eq_add_of_le' (Nat.le_trans (Nat.succ_pos count) few)
        obtain ⟨lots, turned⟩ := ih (Nat.le_of_succ_le_succ few)
        refine ⟨round :: lots, ?_⟩
        have first : take round (due + 1) true expired = some round := rfl
        simp only [turns, List.headD_cons, first, List.tail_cons, turned]

end Wake

/-! ### One payload -/

/-- A payload goes on under some settings: its best block is the one it was, or it was generated
from its plan and the pool. Once its improvement has ended, its blocks stay. -/
structure PayloadJob.Continues (config : ChainConfig) (miner : MinerConfig)
    (job job' : PayloadJob) : Prop where
  id : job'.id = job.id
  plan : job'.plan = job.plan
  empty : job'.empty = job.empty
  full : job'.full = job.full ∨ ∃ (g : Generator) (built : BuiltBlock) (logs : List LogEntry),
    g.config = config ∧ g.miner = miner ∧ g.generate job.plan true = .ok (built, logs) ∧
      job'.full = some built
  ended : job.improvement = none → job'.improvement = none ∧ job'.full = job.full

namespace PayloadJob

variable {job job' job'' : PayloadJob}

theorem Continues.refl (job : PayloadJob) : job.Continues config miner job :=
  ⟨rfl, rfl, rfl, .inl rfl, fun ended => ⟨ended, rfl⟩⟩

theorem Continues.trans (first : job.Continues config miner job')
    (second : job'.Continues config miner job'') : job.Continues config miner job'' := by
  refine ⟨second.id.trans first.id, second.plan.trans first.plan,
    second.empty.trans first.empty, ?_, ?_⟩
  · rcases second.full with same | replaced
    · rw [same]
      exact first.full
    · rw [first.plan] at replaced
      exact .inr replaced
  · intro ended
    obtain ⟨ended', same⟩ := first.ended ended
    obtain ⟨ended'', same'⟩ := second.ended ended'
    exact ⟨ended'', same'.trans same⟩

theorem round_improvement (g : Generator) (p : Progress) :
    (round g p).job.improvement = p.job.improvement := by
  unfold round
  split
  · split <;> rfl
  · rfl

theorem round_continues (g : Generator) (p : Progress) {i : Improvement}
    (improving : p.job.improvement = some i) :
    p.job.Continues g.config g.miner (round g p).job := by
  have going : p.job.improvement = none → (round g p).job.improvement = none ∧
      (round g p).job.full = p.job.full := by
    intro ended
    cases improving.symm.trans ended
  revert going
  unfold round
  split
  · rename_i candidate logs generated
    split
    · exact fun going =>
        ⟨rfl, rfl, rfl, .inr ⟨g, candidate, logs, rfl, rfl, generated, rfl⟩, going⟩
    · exact fun _ => .refl _
  · exact fun _ => .refl _

theorem runRounds_continues (g : Generator) (count : Nat) (p : Progress) {i : Improvement}
    (improving : p.job.improvement = some i) :
    p.job.Continues g.config g.miner (runRounds g count p).job := by
  induction count generalizing p with
  | zero => exact .refl _
  | succ count ih =>
      refine (round_continues g p improving).trans (ih (round g p) ?_)
      rw [round_improvement, improving]

theorem advance_ended (g : Generator) (closed : Bool) (now : Nat) (lots : List Wake)
    (ended : job.improvement = none) : job.advance g closed now lots = { job } := by
  rw [advance, ended]

/-- A payload that catches up does as many rounds as the lots let it do. Apart from them only its
improvement is another one. -/
theorem advance_job (g : Generator) (closed : Bool) (now : Nat) (lots : List Wake) {i : Improvement}
    (improving : job.improvement = some i) : ∃ improvement,
      (job.advance g closed now lots).job =
        { (runRounds g (Wake.turns (job.stopped || closed) (i.isOver now) (i.due now) lots).1
            { job }).job with improvement } := by
  rw [advance, improving]
  exact ⟨_, rfl⟩

theorem advance_continues (g : Generator) (closed : Bool) (now : Nat) (lots : List Wake)
    (job : PayloadJob) : job.Continues g.config g.miner (job.advance g closed now lots).job := by
  cases improving : job.improvement with
  | none =>
      rw [advance_ended g closed now lots improving]
      exact .refl job
  | some i =>
      obtain ⟨improvement, same⟩ := advance_job g closed now lots improving
      rw [same]
      have rounds (count : Nat) := runRounds_continues g count { job } improving
      refine ⟨(rounds _).id, (rounds _).plan, (rounds _).empty, (rounds _).full, ?_⟩
      intro ended
      cases improving.symm.trans ended

/-- A payload that catches up after a stop is not improved any more. -/
theorem advance_stopped (g : Generator) (closed : Bool) (now : Nat) (lots : List Wake)
    (stopped : job.stopped = true) : (job.advance g closed now lots).job.improvement = none := by
  cases improving : job.improvement with
  | none => rw [advance_ended g closed now lots improving, improving]
  | some i =>
      have ends := Wake.turns_ends (job.stopped || closed) (i.isOver now) (i.due now) lots
      rw [stopped, Bool.true_or, Bool.true_or] at ends
      obtain ⟨wake, ended⟩ := Option.isSome_iff_exists.mp ends
      rw [advance, improving]
      simp only [stopped, Bool.true_or, ended, Option.isNone_some, Bool.false_eq_true, if_false]

theorem advance_stopped_job (g : Generator) (closed : Bool) (now : Nat) (lots : List Wake)
    {i : Improvement} (improving : job.improvement = some i) (stopped : job.stopped = true) :
    (job.advance g closed now lots).job =
      { (runRounds g (Wake.turns true (i.isOver now) (i.due now) lots).1 { job }).job with
        improvement := none } := by
  obtain ⟨improvement, caught⟩ := advance_job g closed now lots improving
  obtain rfl : improvement = none := by
    rw [← advance_stopped g closed now lots stopped, caught]
  rw [caught, stopped, Bool.true_or]

/-- **The lots decide how many of the rounds that are due are done after a stop**, and that is all
they decide. -/
theorem exists_advance_stopped_iff (g : Generator) (closed : Bool) {now : Nat} {i : Improvement}
    (improving : job.improvement = some i) (stopped : job.stopped = true) (job' : PayloadJob) :
    (∃ lots, (job.advance g closed now lots).job = job') ↔ ∃ count ≤ i.due now,
      { (runRounds g count { job }).job with improvement := none } = job' := by
  constructor
  · rintro ⟨lots, rfl⟩
    exact ⟨_, (Wake.exists_turns_iff (i.isOver now)).mp ⟨lots, rfl⟩,
      (advance_stopped_job g closed now lots improving stopped).symm⟩
  · rintro ⟨count, few, rfl⟩
    obtain ⟨lots, turned⟩ := (Wake.exists_turns_iff (i.isOver now)).mpr few
    refine ⟨lots, ?_⟩
    rw [advance_stopped_job g closed now lots improving stopped, turned]

theorem deliver_continues (closed : Bool) (job : PayloadJob) :
    job.Continues config miner (job.deliver closed).1 :=
  ⟨rfl, rfl, rfl, .inl rfl, fun ended => ⟨ended, rfl⟩⟩

end PayloadJob

/-! ### The blocks of a payload -/

namespace PayloadJob

variable {valid : Generator → Prop} {job job' : PayloadJob}

/-- The blocks of a payload were generated from its plan, each by a generator of some kind. -/
structure Built (job : PayloadJob) (valid : Generator → Prop) : Prop where
  empty : ∃ g, valid g ∧ g.Generated job.plan job.empty
  full : ∀ built, job.full = some built → ∃ g, valid g ∧ g.Generated job.plan built

theorem Built.best (blocks : job.Built valid) : ∃ g, valid g ∧ g.Generated job.plan job.best := by
  unfold PayloadJob.best
  cases full : job.full with
  | none => exact blocks.empty
  | some built => exact blocks.full built full

theorem Built.mono {valid' : Generator → Prop} (blocks : job.Built valid)
    (implies : ∀ g, valid g → valid' g) : job.Built valid' := by
  constructor
  · obtain ⟨g, known, generated⟩ := blocks.empty
    exact ⟨g, implies g known, generated⟩
  · intro built full
    obtain ⟨g, known, generated⟩ := blocks.full built full
    exact ⟨g, implies g known, generated⟩

/-- Blocks that are replaced are replaced by generated ones. -/
theorem Built.continues (blocks : job.Built valid) (goes : job.Continues config miner job')
    (known : ∀ g : Generator, g.config = config → g.miner = miner → valid g) :
    job'.Built valid := by
  constructor
  · rw [goes.plan, goes.empty]
    exact blocks.empty
  · intro built full
    rw [goes.plan]
    rcases goes.full with same | ⟨g, candidate, _, rfl, rfl, generated, replaced⟩
    · exact blocks.full built (same ▸ full)
    · cases replaced.symm.trans full
      exact ⟨g, known g rfl rfl, Generator.generate_eq_ok generated⟩

/-- A payload starts with the block of the demanded transactions. It is not improved if the pool is
left out. -/
theorem start_inversion {g : Generator} {now : Nat} {args : BuildArgs} {parent : Header}
    {wantWitness : Bool} (started : start g now args parent wantWitness = .ok job) :
    ∃ logs, g.generate (args.plan parent wantWitness) false = .ok (job.empty, logs) ∧
      job.id = args.id ∧ job.plan = args.plan parent wantWitness ∧ job.full = none ∧
      (args.noTxPool = true → job.improvement = none) := by
  obtain ⟨⟨empty, logs⟩, generated, same⟩ := bind_eq_ok_iff.mp started
  cases same
  refine ⟨logs, generated, rfl, rfl, rfl, ?_⟩
  intro noTxPool
  exact if_pos (.inl noTxPool)

/-- What a payload is when it is started. -/
theorem start_eq_ok {g : Generator} {now : Nat} {args : BuildArgs} {parent : Header}
    {wantWitness : Bool} (started : start g now args parent wantWitness = .ok job) :
    job.id = args.id ∧ job.plan = args.plan parent wantWitness ∧ job.Built (· = g) := by
  obtain ⟨logs, generated, id, plan, notFull, -⟩ := start_inversion started
  refine ⟨id, plan, ⟨g, rfl, plan ▸ Generator.generate_eq_ok generated⟩, ?_⟩
  intro built full
  cases notFull.symm.trans full

end PayloadJob

/-- A payload is started on a stored parent whose state is available. -/
theorem Chain.startPayload_of_stored {chain : Chain} {args : BuildArgs} {parent : Header}
    (stored : chain.headerByHash? args.parent = some parent)
    (hasState : chain.hasState args.parent = true) (g : Generator) (now : Nat)
    (wantWitness : Bool) :
    chain.startPayload g now args wantWitness = PayloadJob.start g now args parent wantWitness := by
  rw [startPayload, stored]
  exact if_pos hasState

/-- Payloads are started on no other parents. -/
theorem Chain.startPayload_inversion {chain : Chain} {g : Generator} {now : Nat} {args : BuildArgs}
    {wantWitness : Bool} {job : PayloadJob}
    (started : chain.startPayload g now args wantWitness = .ok job) :
    ∃ parent, chain.headerByHash? args.parent = some parent ∧ chain.hasState args.parent = true ∧
      PayloadJob.start g now args parent wantWitness = .ok job := by
  unfold startPayload at started
  split at started
  · cases started
  · rename_i parent stored
    split at started
    · rename_i hasState
      exact ⟨parent, stored, hasState, started⟩
    · cases started

theorem Chain.startPayload_eq_ok {chain : Chain} {g : Generator} {now : Nat} {args : BuildArgs}
    {wantWitness : Bool} {job : PayloadJob}
    (started : chain.startPayload g now args wantWitness = .ok job) :
    ∃ parent, chain.headerByHash? args.parent = some parent ∧ chain.hasState args.parent = true ∧
      job.id = args.id ∧ job.plan = args.plan parent wantWitness ∧ job.Built (· = g) := by
  obtain ⟨parent, stored, hasState, begins⟩ := startPayload_inversion started
  exact ⟨parent, stored, hasState, PayloadJob.start_eq_ok begins⟩

/-! ### All payloads of a queue -/

namespace PayloadQueue

variable {capacity : Nat} {queue queue' queue'' : PayloadQueue capacity}

/-- The payloads of a queue go on, and none overtakes another. -/
structure Continues (config : ChainConfig) (miner : MinerConfig)
    (queue queue' : PayloadQueue capacity) : Prop where
  keys : BoundedMap.keys queue' = BoundedMap.keys queue
  jobs : ∀ id, Option.Rel (PayloadJob.Continues config miner) (BoundedMap.get? queue id)
    (BoundedMap.get? queue' id)

theorem Continues.refl (queue : PayloadQueue capacity) : queue.Continues config miner queue := by
  refine ⟨rfl, ?_⟩
  intro id
  cases BoundedMap.get? queue id with
  | none => exact .none
  | some job => exact .some (.refl job)

theorem Continues.trans (first : queue.Continues config miner queue')
    (second : queue'.Continues config miner queue'') : queue.Continues config miner queue'' := by
  refine ⟨second.keys.trans first.keys, ?_⟩
  intro id
  have one := first.jobs id
  have two := second.jobs id
  generalize BoundedMap.get? queue id = a at one ⊢
  generalize BoundedMap.get? queue' id = b at one two
  generalize BoundedMap.get? queue'' id = c at two ⊢
  cases one with
  | none =>
      cases two
      exact .none
  | some continues =>
      cases two with
      | some continues' => exact .some (continues.trans continues')

/-- A payload that goes on was there before. -/
theorem Continues.of_get? (continues : queue.Continues config miner queue') {id : PayloadId}
    {job' : PayloadJob} (found : BoundedMap.get? queue' id = some job') :
    ∃ job, BoundedMap.get? queue id = some job ∧ job.Continues config miner job' := by
  have related := continues.jobs id
  rw [found] at related
  generalize BoundedMap.get? queue id = a at related ⊢
  cases related with
  | some same => exact ⟨_, rfl, same⟩

/-- A payload that is there goes on. -/
theorem Continues.get? (continues : queue.Continues config miner queue') {id : PayloadId}
    {job : PayloadJob} (found : BoundedMap.get? queue id = some job) :
    ∃ job', BoundedMap.get? queue' id = some job' ∧ job.Continues config miner job' := by
  have related := continues.jobs id
  rw [found] at related
  generalize BoundedMap.get? queue' id = a at related ⊢
  cases related with
  | some same => exact ⟨_, rfl, same⟩

theorem continues_advance (queue : PayloadQueue capacity) (g : Generator) (closed : Bool)
    (now : Nat) (lots : PayloadId → List Wake) :
    queue.Continues g.config g.miner (.ofProgress (advance queue g closed now lots)) := by
  refine ⟨by simp [ofProgress, advance], ?_⟩
  intro id
  rw [ofProgress, advance, BoundedMap.get?_mapValues, BoundedMap.get?_mapValues]
  cases BoundedMap.get? queue id with
  | none => exact .none
  | some job => exact .some (PayloadJob.advance_continues g closed now (lots id) job)

theorem continues_deliver (queue : PayloadQueue capacity) (closed : Bool) (id : PayloadId) :
    queue.Continues config miner (deliver queue closed id).2.1 := by
  unfold deliver
  cases found : BoundedMap.get? queue id with
  | none => exact .refl queue
  | some job =>
      refine ⟨BoundedMap.keys_set _ _ _, ?_⟩
      intro other
      dsimp only
      rw [BoundedMap.get?_set]
      split
      · rename_i same
        rw [same, found]
        exact .some (PayloadJob.deliver_continues closed job)
      · exact (Continues.refl queue).jobs other

end PayloadQueue

end EngineNode
