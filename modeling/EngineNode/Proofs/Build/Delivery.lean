import EngineNode.Proofs.Build.Improvement

/-!
Deliveries while a round is under way.

A payload is locked when a round reports its block, when its improvement ends and when it is
fetched, but not while the block of a round is generated. A delivery asks for the improvement to
end, which it does once no round is under way. A round that is under way still reports its block,
whatever the lots are. Of the rounds that were due but had not begun, the lots decide which are
done.

* `PayloadJob.Shared`: a payload with the round that is under way, and the steps of the two sides
  in any order.
* `PayloadJob.Shared.run_stopped`: a stopped payload that catches up takes such steps. Afterwards it
  is quiet (`PayloadJob.Shared.Quiet.of_stopped`).
* `PayloadJob.Shared.Follows.run`: rounds that are interleaved with deliveries do what a course
  does in which each round takes place when it reports.
* `PayloadJob.Shared.deliveries_rise_between`: so deliveries rise in every interleaving.
* `PayloadJob.Shared.delivered_replaced`: but a delivery is not the last word.
* `PayloadJob.Shared.deliveries_repeat`: a delivery is the last word when no round is under way and
  none begins.
-/

namespace EngineNode.PayloadJob

/-- What is done with a payload by the task that improves it, or by one that fetches it. -/
inductive Step where
  /-- The block of a round is generated, from what the generator reads at the time. -/
  | begin (miner : MinerConfig) (pool : TxPool) (logSkipped : Bool)
  /-- The round reports its block. -/
  | report
  /-- No more rounds are done. -/
  | finish
  | resolve (closed : Bool)

namespace Step

def begins : Step → Bool
  | .begin .. => true
  | _ => false

def resolves : Step → Bool
  | .resolve _ => true
  | _ => false

end Step

/-- A payload between two steps. -/
structure Shared where
  job : PayloadJob
  /-- The block of the round that is under way. A round that cannot generate one is over. -/
  underway : Option BuiltBlock := none
  delivered : List Envelope := []

namespace Shared

variable {config : ChainConfig} {s : Shared} {course : Course}

/-- A step, if the task can take it. -/
def step (config : ChainConfig) (s : Shared) : Step → Shared
  | .begin miner pool logSkipped =>
    if s.underway.isNone ∧ s.job.improvement.isSome then
      { s with
        underway := Generator.candidate? { config, miner, pool, logSkipped } s.job.plan }
    else s
  | .report => { s with job := s.underway.elim s.job s.job.offer, underway := none }
  | .finish =>
    if s.underway.isNone then { s with job := { s.job with improvement := none } } else s
  | .resolve closed =>
    { s with
      job := (s.job.deliver closed).1
      delivered := s.delivered ++ [s.job.best.envelope config] }

def run (config : ChainConfig) (s : Shared) (steps : List Step) : Shared :=
  steps.foldl (step config) s

/-- A round with nothing in between is a round of improvement. -/
theorem begin_report (g : Generator) (idle : s.underway = none)
    (improving : s.job.improvement.isSome = true) :
    s.run g.config [.begin g.miner g.pool g.logSkipped, .report] =
      { s with job := (round g { job := s.job }).job } := by
  have begun : s.step g.config (.begin g.miner g.pool g.logSkipped) =
      { s with underway := g.candidate? s.job.plan } := if_pos (by simp [idle, improving])
  rw [round_job]
  calc s.run g.config [.begin g.miner g.pool g.logSkipped, .report]
    _ = step g.config { s with underway := g.candidate? s.job.plan } .report :=
      congrArg (fun next => step g.config next .report) begun
    _ = _ := by
      rw [step, idle]

/-- So are several rounds in a row. -/
theorem run_rounds (g : Generator) (count : Nat) (p : Progress) (idle : s.underway = none)
    (improving : s.job.improvement.isSome = true) (same : s.job = p.job) :
    s.run g.config
        (List.replicate count [.begin g.miner g.pool g.logSkipped, .report]).flatten =
      { s with job := (runRounds g count p).job } := by
  induction count generalizing s p with
  | zero =>
      show s = { s with job := p.job }
      rw [← same]
  | succ count ih =>
      have first := begin_report g idle improving
      have still : (round g { job := s.job }).job.improvement.isSome = true := by
        rw [round_improvement]
        exact improving
      have others := ih (s := { s with job := (round g { job := s.job }).job }) (round g p) idle
        still (by rw [round_job, round_job, same])
      rw [List.replicate_succ, List.flatten_cons, run, List.foldl_append]
      exact (congrArg (fun next => run g.config next _) first).trans others

/-- **A stopped payload that catches up takes such steps**, wherever the lots fall. -/
theorem run_stopped (g : Generator) (closed : Bool) (now : Nat) (lots : List Wake)
    {job : PayloadJob} (stopped : job.stopped = true) : ∃ steps,
      Shared.run g.config { job } steps = { job := (job.advance g closed now lots).job } := by
  cases improving : job.improvement with
  | none =>
      rw [advance_ended g closed now lots improving]
      exact ⟨[], rfl⟩
  | some i =>
      rw [advance_stopped_job g closed now lots improving stopped]
      generalize (Wake.turns _ _ _ lots).1 = count
      have rounds := run_rounds g count { job } (s := { job }) rfl (improving ▸ rfl) rfl
      refine ⟨(List.replicate count [.begin g.miner g.pool g.logSkipped, .report]).flatten ++
        [.finish], ?_⟩
      rw [run, List.foldl_append]
      exact congrArg (fun next => run g.config next [.finish]) rounds

/-! ### Interleavings as courses -/

/-- A payload stands where a course does. What was generated can be generated again. -/
structure Follows (config : ChainConfig) (s : Shared) (course : Course) : Prop where
  plan : s.job.plan = course.job.plan
  empty : s.job.empty = course.job.empty
  full : s.job.full = course.job.full
  delivered : s.delivered = course.delivered
  underway : ∀ built ∈ s.underway, ∃ miner pool logSkipped,
    Generator.candidate? { config, miner, pool, logSkipped } course.job.plan = some built

theorem Follows.best (follows : s.Follows config course) : s.job.best = course.job.best := by
  unfold PayloadJob.best
  rw [follows.full, follows.empty]

/-- **A step is no turn or one.** The turn of a round is its report. -/
theorem Follows.step (follows : s.Follows config course) (step : Step) :
    ∃ turns, (s.step config step).Follows config (course.run config turns) := by
  cases step with
  | begin miner pool logSkipped =>
      refine ⟨[], ?_⟩
      unfold Shared.step
      dsimp only
      split
      · exact { follows with
          underway := fun built generated => ⟨miner, pool, logSkipped, follows.plan ▸ generated⟩ }
      · exact follows
  | report =>
      unfold Shared.step
      dsimp only
      cases underway : s.underway with
      | none => exact ⟨[], { follows with underway := by simp }⟩
      | some built =>
          obtain ⟨miner, pool, logSkipped, generated⟩ := follows.underway built underway
          refine ⟨[.round miner pool logSkipped], ?_⟩
          have turned : (course.turn config (.round miner pool logSkipped)).job =
              course.job.offer built := by
            refine (round_job _ _).trans ?_
            rw [generated]
            rfl
          change Follows config _ (course.turn config (.round miner pool logSkipped))
          refine ⟨?_, ?_, ?_, follows.delivered, by simp⟩
          · rw [turned, offer_plan]
            exact (offer_plan _ _).trans follows.plan
          · rw [turned, offer_empty]
            exact (offer_empty _ _).trans follows.empty
          · rw [turned, offer_full, ← follows.full]
            exact offer_full _ _
  | finish =>
      refine ⟨[], ?_⟩
      unfold Shared.step
      dsimp only
      split
      · exact { follows with }
      · exact follows
  | resolve closed =>
      refine ⟨[.resolve closed], { follows with delivered := ?_ }⟩
      show s.delivered ++ _ = course.delivered ++ _
      rw [follows.delivered, follows.best]

/-- **Every interleaving does what a course does.** -/
theorem Follows.run (follows : s.Follows config course) (steps : List Step) :
    ∃ turns, (s.run config steps).Follows config (course.run config turns) := by
  induction steps generalizing s course with
  | nil => exact ⟨[], follows⟩
  | cons step rest ih =>
      obtain ⟨first, stepped⟩ := follows.step step
      obtain ⟨others, ran⟩ := ih stepped
      refine ⟨first ++ others, ?_⟩
      rw [Course.run, List.foldl_append]
      exact ran

/-- **Deliveries rise in every interleaving**, and begin with the demanded transactions. -/
theorem deliveries_rise_between {g : Generator} {now : Nat} {args : BuildArgs} {parent : Header}
    {wantWitness : Bool} {job : PayloadJob}
    (started : start g now args parent wantWitness = .ok job) (steps : List Step) :
    ∃ course : Course, (Shared.run g.config { job } steps).Follows g.config course ∧
      course.Rises g.config job.empty job.plan.transactions := by
  obtain ⟨sound, without⟩ := Course.sound_of_start started
  have follows : Follows g.config { job } { job } := ⟨rfl, rfl, rfl, rfl, by simp⟩
  obtain ⟨turns, ran⟩ := follows.run steps
  exact ⟨_, ran, (sound.run without turns).rises without⟩

/-! ### The last word -/

/-- A round begins before the first delivery and reports after it. -/
def lateReport : List Step :=
  [.begin MixedPool.generator.miner MixedPool.generator.pool true, .resolve false, .report,
    .finish, .resolve false]

/-- **A delivery is not the last word**: a round that is under way replaces what was delivered. -/
theorem delivered_replaced : ∃ job,
    start MixedPool.generator 0 MixedPool.args (genesisBlock {}).header false = .ok job ∧
      ∃ first ∈ (Shared.run {} { job } lateReport).delivered,
        ∃ second ∈ (Shared.run {} { job } lateReport).delivered, first ≠ second := by
  obtain ⟨job, started, values⟩ : ∃ job,
      start MixedPool.generator 0 MixedPool.args (genesisBlock {}).header false = .ok job ∧
        (Shared.run {} { job } lateReport).delivered.map (·.blockValue.toNat) =
          [21032, 42064] := ⟨_, rfl, rfl⟩
  have worth (value : Nat) (member : value ∈ [21032, 42064]) :
      ∃ envelope ∈ (Shared.run {} { job } lateReport).delivered,
        envelope.blockValue.toNat = value := List.mem_map.mp (values ▸ member)
  obtain ⟨first, delivered, less⟩ := worth 21032 (by decide)
  obtain ⟨second, replaced, more⟩ := worth 42064 (by decide)
  refine ⟨job, started, first, delivered, second, replaced, ?_⟩
  rintro rfl
  cases less.symm.trans more

/-- No round is under way. None begins any more, or there is nothing left to improve. -/
structure Quiet (s : Shared) (steps : List Step) : Prop where
  underway : s.underway = none
  ended : s.job.improvement = none ∨ ∀ step ∈ steps, step.begins = false

/-- A stopped payload that has caught up is quiet for good. -/
theorem Quiet.of_stopped (g : Generator) (closed : Bool) (now : Nat) (lots : List Wake)
    {job : PayloadJob} (stopped : job.stopped = true) (steps : List Step) :
    Quiet { job := (job.advance g closed now lots).job } steps :=
  ⟨rfl, .inl (advance_stopped g closed now lots stopped)⟩

/-- What it has done before depends on the lots: the first round was due when the payload was
delivered. -/
example : ∃ job,
    start MixedPool.generator 0 MixedPool.args (genesisBlock {}).header false = .ok job ∧
      job.best.fees = 21032 ∧
      ((job.deliver false).1.advance MixedPool.generator false 0 [.stop]).job.best.fees = 21032 ∧
      ((job.deliver false).1.advance MixedPool.generator false 0 [.round]).job.best.fees = 42064 :=
  ⟨_, rfl, rfl, rfl, rfl⟩

/-- A delivery is all that happens to a quiet payload. -/
theorem Quiet.step {step : Step} {rest : List Step} (config : ChainConfig)
    (quiet : s.Quiet (step :: rest)) :
    (s.step config step).Quiet rest ∧ (s.step config step).job.best = s.job.best ∧
      (s.step config step).delivered = s.delivered ++
        List.replicate ([step].countP Step.resolves) (s.job.best.envelope config) := by
  obtain ⟨underway, ended⟩ := quiet
  have later : s.job.improvement = none ∨ ∀ step ∈ rest, step.begins = false :=
    ended.imp_right fun none => (List.forall_mem_cons.mp none).2
  cases step with
  | begin miner pool logSkipped =>
      have ended : s.job.improvement = none :=
        ended.resolve_right fun none => Bool.noConfusion (none _ List.mem_cons_self)
      have idle : s.step config (.begin miner pool logSkipped) = s := if_neg (by simp [ended])
      rw [idle]
      exact ⟨⟨underway, later⟩, rfl, (List.append_nil _).symm⟩
  | report =>
      unfold Shared.step
      rw [underway]
      exact ⟨⟨rfl, later⟩, rfl, (List.append_nil _).symm⟩
  | finish =>
      have finished : s.step config .finish =
          { s with job := { s.job with improvement := none } } := if_pos (by simp [underway])
      rw [finished]
      exact ⟨⟨underway, .inl rfl⟩, rfl, (List.append_nil _).symm⟩
  | resolve closed => exact ⟨⟨underway, later⟩, rfl, rfl⟩

/-- **From a quiet moment on all deliveries are the same.** -/
theorem deliveries_repeat (config : ChainConfig) {steps : List Step} (quiet : s.Quiet steps) :
    (s.run config steps).delivered = s.delivered ++
      List.replicate (steps.countP Step.resolves) (s.job.best.envelope config) := by
  induction steps generalizing s with
  | nil => exact (List.append_nil _).symm
  | cons step rest ih =>
      obtain ⟨stays, best, delivered⟩ := quiet.step config
      calc (s.run config (step :: rest)).delivered
        _ = _ ++ List.replicate (rest.countP Step.resolves) _ := ih stays
        _ = _ := by
          rw [best, delivered, List.append_assoc, List.replicate_append_replicate,
            ← List.countP_append, List.singleton_append]

/-- A round reports before the payload is fetched. -/
def earlyReport : List Step :=
  [.begin MixedPool.generator.miner MixedPool.generator.pool true, .report, .finish]

/-- After that a round comes too late. -/
theorem deliveries_repeat_finished : ∃ job s,
    start MixedPool.generator 0 MixedPool.args (genesisBlock {}).header false = .ok job ∧
      Shared.run {} { job } earlyReport = s ∧ s.Quiet lateReport ∧
      (s.run {} lateReport).delivered = List.replicate 2 (s.job.best.envelope {}) := by
  obtain ⟨job, s, started, ran, underway, ended, undelivered⟩ : ∃ job s,
      start MixedPool.generator 0 MixedPool.args (genesisBlock {}).header false = .ok job ∧
        Shared.run {} { job } earlyReport = s ∧ s.underway = none ∧ s.job.improvement = none ∧
        s.delivered = [] := ⟨_, _, rfl, rfl, rfl, rfl, rfl⟩
  have quiet : s.Quiet lateReport := ⟨underway, .inl ended⟩
  refine ⟨job, s, started, ran, quiet, ?_⟩
  have repeated := deliveries_repeat {} quiet
  rw [undelivered] at repeated
  exact repeated

end Shared

end EngineNode.PayloadJob
