import EngineNode.Proofs.Build.Plan
import EngineNode.Proofs.Build.Selection

/-!
What becomes of a payload that is improved and fetched.

Rounds of improvement and deliveries come in any order, and the settings of the operator and the
pool may be others in each round. A round that generates a block offers it to the payload.

* `Generator.Yields.fees_le`: a block with the pool earns at least as much as the one without.
* `PayloadJob.Course`: rounds and deliveries in a row, with the blocks that were offered and the
  envelopes that were handed out.
* `PayloadJob.Course.advance_best`: a payload that catches up with its rounds takes such turns.
* `PayloadJob.Course.Sound`: what each turn of a course keeps.
* `PayloadJob.deliveries_rise`: all deliveries begin with the demanded transactions, they never
  become less worth, and the payload holds the first of the best blocks it was offered.
-/

namespace EngineNode

/-! ### Fees -/

namespace Session

variable {s s' : Session} {tx : Transaction} {transactions : List Transaction}

/-- What a transaction earns for the fee recipient. -/
def fee (tx : Transaction) : Nat := if tx.isDeposit then 0 else transactionGas tx

theorem fees_of_apply (applied : s.apply tx = .ok s') : s'.fees = s.fees + fee tx := by
  obtain ⟨_, -, -, -, rfl⟩ := apply_eq_ok applied
  unfold fee
  split <;> rfl

theorem fees_of_applyAll (applied : s.applyAll transactions = .ok s') :
    s'.fees = s.fees + (transactions.map fee).sum := by
  induction transactions generalizing s with
  | nil =>
      cases applied
      rfl
  | cons tx rest ih =>
      obtain ⟨next, first, others⟩ := bind_eq_ok_iff.mp applied
      rw [ih others, fees_of_apply first, List.map_cons, List.sum_cons, Nat.add_assoc]

/-- Nothing earns more than the gas it uses. -/
theorem fees_le_of_applyAll (bounded : s.fees ≤ s.gasUsed)
    (applied : s.applyAll transactions = .ok s') : s'.fees ≤ s'.gasUsed := by
  induction transactions generalizing s with
  | nil =>
      cases applied
      exact bounded
  | cons tx rest ih =>
      obtain ⟨next, first, others⟩ := bind_eq_ok_iff.mp applied
      refine ih ?_ others
      obtain ⟨_, -, -, -, rfl⟩ := apply_eq_ok first
      dsimp only
      split <;> omega

end Session

namespace Generator

variable {g : Generator} {config : ChainConfig} {plan : BlockPlan} {built empty : BuiltBlock}

/-- The fees of a block are those of its transactions. -/
theorem Generated.fees_eq (generated : g.Generated plan built) :
    built.fees = (built.block.transactions.map Session.fee).sum := by
  obtain ⟨header, start, f, -, begun, replays, rfl⟩ := generated
  obtain rfl := Session.eq_of_begin begun
  exact (Session.fees_of_applyAll replays).trans (Nat.zero_add _)

/-- Fees are bounded by the gas limit. -/
theorem Generated.fees_lt (generated : g.Generated plan built) : built.fees < UInt64.size := by
  obtain ⟨header, start, f, -, begun, replays, rfl⟩ := generated
  have executes := close_executesTo (g := g) begun replays
  obtain rfl := Session.eq_of_begin begun
  calc f.session.fees
    _ ≤ f.session.gasUsed := Session.fees_le_of_applyAll (Nat.le_refl _) replays
    _ ≤ header.gasLimit.toNat := executes.gasUsed_le
    _ < UInt64.size := header.gasLimit.toNat_lt

/-- The value of an envelope says what its block earns. -/
theorem Yields.toNat_blockValue {usePool : Bool} (yields : Yields config plan usePool built) :
    (built.envelope config).blockValue.toNat = built.fees := by
  obtain ⟨g, logs, -, generated⟩ := yields
  have small := (generate_eq_ok generated).fees_lt
  have value : (built.envelope config).blockValue = BitVec.ofNat 256 built.fees := rfl
  rw [value, BitVec.toNat_ofNat, Nat.mod_eq_of_lt]
  exact Nat.lt_trans small (by decide)

/-- **A block with the pool earns at least as much as the one without.** The pool comes on top of
the demanded transactions, whatever limits the operator has set. -/
theorem Yields.fees_le (without : Yields config plan false empty)
    (pooled : Yields config plan true built) : empty.fees ≤ built.fees := by
  have demanded := without.realizes.demandedOnly rfl
  obtain ⟨appended, transactions⟩ := pooled.realizes.transactions
  obtain ⟨g, logs, -, generated⟩ := without
  obtain ⟨g', logs', -, generated'⟩ := pooled
  rw [(generate_eq_ok generated).fees_eq, (generate_eq_ok generated').fees_eq, demanded,
    ← transactions, List.map_append, List.sum_append]
  exact Nat.le_add_right _ _

/-- The block that a round of improvement comes to, if it can be generated. -/
def candidate? (g : Generator) (plan : BlockPlan) : Option BuiltBlock :=
  (g.generate plan true).toOption.map Prod.fst

theorem yields_of_candidate? (offered : g.candidate? plan = some built) :
    Yields g.config plan true built := by
  obtain ⟨⟨_, logs⟩, generated, rfl⟩ := Option.map_eq_some_iff.mp offered
  exact ⟨g, logs, rfl, toOption_eq_some_iff.mp generated⟩

end Generator

namespace PayloadJob

variable {config : ChainConfig} {job : PayloadJob} {offered : List BuiltBlock}
  {candidate : BuiltBlock}

/-! ### Offers -/

/-- A candidate replaces the block from the pool if it earns more. -/
def offer (job : PayloadJob) (candidate : BuiltBlock) : PayloadJob :=
  if job.isImprovedBy candidate then { job with full := some candidate } else job

/-- A round offers its candidate. -/
theorem round_job (g : Generator) (p : Progress) :
    (round g p).job = (g.candidate? p.job.plan).elim p.job p.job.offer := by
  unfold round Generator.candidate? offer
  cases g.generate p.job.plan true with
  | error e => rfl
  | ok result =>
      dsimp only [Except.toOption, Option.map_some, Option.elim_some]
      split <;> rfl

@[simp] theorem offer_plan (job : PayloadJob) (candidate : BuiltBlock) :
    (job.offer candidate).plan = job.plan := by
  unfold offer
  split <;> rfl

@[simp] theorem offer_empty (job : PayloadJob) (candidate : BuiltBlock) :
    (job.offer candidate).empty = job.empty := by
  unfold offer
  split <;> rfl

theorem offer_full (job : PayloadJob) (candidate : BuiltBlock) :
    (job.offer candidate).full =
      if job.full.all (·.fees < candidate.fees) then some candidate else job.full := by
  unfold offer isImprovedBy
  split <;> rfl

/-- The first of the blocks that earn the most, if there are any. -/
inductive FirstBest : Option BuiltBlock → List BuiltBlock → Prop where
  | unoffered : FirstBest none []
  | best {earlier later : List BuiltBlock} {best : BuiltBlock} :
      (∀ built ∈ earlier, built.fees < best.fees) → (∀ built ∈ later, built.fees ≤ best.fees) →
      FirstBest (some best) (earlier ++ best :: later)

theorem FirstBest.mem {best : BuiltBlock} (first : FirstBest (some best) offered) :
    best ∈ offered := by
  cases first with
  | best => exact List.mem_append_right _ List.mem_cons_self

/-- Offers keep the first of the best blocks. -/
theorem FirstBest.offer (first : FirstBest job.full offered) (candidate : BuiltBlock) :
    FirstBest (job.offer candidate).full (offered ++ [candidate]) := by
  rw [offer_full]
  generalize job.full = held at first ⊢
  cases first with
  | unoffered => exact .best (List.forall_mem_nil _) (List.forall_mem_nil _)
  | @best earlier later best less atMost =>
      by_cases more : best.fees < candidate.fees
      · rw [if_pos (by simpa using more)]
        refine .best ?_ (List.forall_mem_nil _)
        intro built member
        rcases List.mem_append.mp member with before | member
        · exact Nat.lt_trans (less built before) more
        · rcases List.mem_cons.mp member with rfl | after
          · exact more
          · exact Nat.lt_of_le_of_lt (atMost built after) more
      · rw [if_neg (by simpa using more), List.append_assoc, List.cons_append]
        refine .best less ?_
        intro built member
        rcases List.mem_append.mp member with after | last
        · exact atMost built after
        · obtain rfl := List.mem_singleton.mp last
          exact Nat.not_lt.mp more

/-- An offer that is worth the first block leaves nothing that is worth less. -/
theorem best_le_offer (enough : job.empty.fees ≤ candidate.fees) :
    job.best.fees ≤ (job.offer candidate).best.fees := by
  unfold best
  rw [offer_full, offer_empty]
  cases job.full with
  | none => exact enough
  | some held =>
      by_cases more : held.fees < candidate.fees
      · rw [if_pos (by simpa using more)]
        exact Nat.le_of_lt more
      · refine Nat.le_of_eq ?_
        rw [if_neg (by simpa using more)]

/-! ### Courses -/

/-- What is done with a payload: a round of improvement, with what the generator reads at the time
beside the rules of the chain, or a delivery. -/
inductive Turn where
  | round (miner : MinerConfig) (pool : TxPool) (logSkipped : Bool)
  | resolve (closed : Bool)

/-- A round in which a generator of the same chain is at work. -/
def Turn.roundOf (g : Generator) : Turn := .round g.miner g.pool g.logSkipped

/-- A payload after some turns, with all that it was offered and all that was handed out. -/
structure Course where
  job : PayloadJob
  candidates : List BuiltBlock := []
  delivered : List Envelope := []

namespace Course

variable {first : PayloadJob} {course : Course}

def turn (config : ChainConfig) (course : Course) : Turn → Course
  | .round miner pool logSkipped =>
    let g : Generator := { config, miner, pool, logSkipped }
    { course with
      job := (PayloadJob.round g { job := course.job }).job
      candidates := course.candidates ++ (g.candidate? course.job.plan).toList }
  | .resolve closed =>
    { course with
      job := (course.job.deliver closed).1
      delivered := course.delivered ++ [course.job.best.envelope config] }

def run (config : ChainConfig) (course : Course) (turns : List Turn) : Course :=
  turns.foldl (turn config) course

/-- Several rounds are turns of a course. -/
theorem run_rounds (g : Generator) (count : Nat) (course : Course) (p : Progress)
    (same : course.job = p.job) :
    (course.run g.config (.replicate count (.roundOf g))).job = (runRounds g count p).job := by
  induction count generalizing course p with
  | zero => exact same
  | succ count ih =>
      refine ih (course.turn g.config (.roundOf g)) (PayloadJob.round g p) ?_
      show (PayloadJob.round g { job := course.job }).job = _
      rw [round_job, round_job, same]

/-- **A payload that catches up goes through turns of a course**, wherever the lots fall. -/
theorem advance_best (g : Generator) (closed : Bool) (now : Nat) (lots : List Wake)
    (job : PayloadJob) : ∃ count, (job.advance g closed now lots).job.best =
      (Course.run g.config { job } (.replicate count (.roundOf g))).job.best := by
  cases improving : job.improvement with
  | none =>
      rw [advance_ended g closed now lots improving]
      exact ⟨0, rfl⟩
  | some i =>
      obtain ⟨_, same⟩ := advance_job g closed now lots improving
      rw [same]
      exact ⟨_, (congrArg best (run_rounds g _ { job } { job } rfl)).symm⟩

/-- What a course keeps of the payload that it began with. -/
structure Sound (config : ChainConfig) (first : PayloadJob) (course : Course) : Prop where
  plan : course.job.plan = first.plan
  empty : course.job.empty = first.empty
  candidates : ∀ built ∈ course.candidates, Generator.Yields config first.plan true built
  held : FirstBest course.job.full course.candidates
  complete : ∀ envelope ∈ course.delivered,
    first.plan.transactions.map Transaction.bytes <+: envelope.payload.transactions
  lower : ∀ envelope ∈ course.delivered, first.empty.fees ≤ envelope.blockValue.toNat
  upper : ∀ envelope ∈ course.delivered, envelope.blockValue.toNat ≤ course.job.best.fees
  rising : course.delivered.Pairwise fun e e' => e.blockValue.toNat ≤ e'.blockValue.toNat

/-- The best block was generated from the plan, and is worth the first one. -/
theorem Sound.best (sound : course.Sound config first)
    (without : Generator.Yields config first.plan false first.empty) :
    (∃ usePool, Generator.Yields config first.plan usePool course.job.best) ∧
      first.empty.fees ≤ course.job.best.fees := by
  have held := sound.held
  unfold PayloadJob.best
  cases full : course.job.full with
  | none =>
      rw [Option.getD_none, sound.empty]
      exact ⟨⟨false, without⟩, Nat.le_refl _⟩
  | some built =>
      rw [full] at held
      have pooled := sound.candidates built held.mem
      exact ⟨⟨true, pooled⟩, without.fees_le pooled⟩

/-- **Each turn keeps a course sound.** -/
theorem Sound.turn (sound : course.Sound config first)
    (without : Generator.Yields config first.plan false first.empty) (turn : Turn) :
    (course.turn config turn).Sound config first := by
  cases turn with
  | round miner pool logSkipped =>
      unfold Course.turn
      dsimp only
      rw [round_job]
      cases offered : Generator.candidate? { config, miner, pool, logSkipped } course.job.plan with
      | none =>
          rw [Option.toList_none, List.append_nil]
          exact ⟨sound.plan, sound.empty, sound.candidates, sound.held, sound.complete,
            sound.lower, sound.upper, sound.rising⟩
      | some candidate =>
          have pooled : Generator.Yields config first.plan true candidate :=
            sound.plan ▸ Generator.yields_of_candidate? offered
          have enough : course.job.empty.fees ≤ candidate.fees :=
            sound.empty ▸ without.fees_le pooled
          refine ⟨(offer_plan _ _).trans sound.plan, (offer_empty _ _).trans sound.empty, ?_,
            sound.held.offer candidate, sound.complete, sound.lower, ?_, sound.rising⟩
          · intro built member
            rcases List.mem_append.mp member with before | last
            · exact sound.candidates built before
            · exact List.mem_singleton.mp last ▸ pooled
          · intro envelope member
            exact Nat.le_trans (sound.upper envelope member) (best_le_offer enough)
  | resolve closed =>
      obtain ⟨⟨usePool, yields⟩, worth⟩ := sound.best without
      have value := yields.toNat_blockValue
      refine ⟨sound.plan, sound.empty, sound.candidates, sound.held, ?_, ?_, ?_, ?_⟩
      · intro envelope member
        rcases List.mem_append.mp member with before | last
        · exact sound.complete envelope before
        · obtain rfl := List.mem_singleton.mp last
          exact yields.realizes.transactions.map Transaction.bytes
      · intro envelope member
        rcases List.mem_append.mp member with before | last
        · exact sound.lower envelope before
        · obtain rfl := List.mem_singleton.mp last
          exact Nat.le_trans worth (Nat.le_of_eq value.symm)
      · intro envelope member
        rcases List.mem_append.mp member with before | last
        · exact sound.upper envelope before
        · obtain rfl := List.mem_singleton.mp last
          exact Nat.le_of_eq value
      · refine List.pairwise_append.mpr ⟨sound.rising, List.pairwise_singleton _ _, ?_⟩
        intro earlier member last only
        obtain rfl := List.mem_singleton.mp only
        exact Nat.le_trans (sound.upper earlier member) (Nat.le_of_eq value.symm)

theorem Sound.run (sound : course.Sound config first)
    (without : Generator.Yields config first.plan false first.empty) (turns : List Turn) :
    (course.run config turns).Sound config first := by
  induction turns generalizing course with
  | nil => exact sound
  | cons turn rest ih => exact ih (sound.turn without turn)

end Course

/-- All deliveries of a course begin with the demanded transactions, none is worth less than the
block without the pool or than one before it, and the block from the pool that is held is the first
of the best. -/
structure Course.Rises (course : Course) (config : ChainConfig) (empty : BuiltBlock)
    (demanded : List Transaction) : Prop where
  complete : ∀ envelope ∈ course.delivered,
    demanded.map Transaction.bytes <+: envelope.payload.transactions
  worth : ∀ envelope ∈ course.delivered,
    (empty.envelope config).blockValue.toNat ≤ envelope.blockValue.toNat
  rising : course.delivered.Pairwise fun e e' => e.blockValue.toNat ≤ e'.blockValue.toNat
  held : FirstBest course.job.full course.candidates

/-- A payload begins a sound course. -/
theorem Course.sound_of_start {g : Generator} {now : Nat} {args : BuildArgs} {parent : Header}
    {wantWitness : Bool} (started : start g now args parent wantWitness = .ok job) :
    Course.Sound g.config job { job } ∧ Generator.Yields g.config job.plan false job.empty := by
  obtain ⟨logs, generated, -, plan, notFull, -⟩ := start_inversion started
  rw [← plan] at generated
  have held : FirstBest job.full [] := by
    rw [notFull]
    exact .unoffered
  exact ⟨⟨rfl, rfl, List.forall_mem_nil _, held, List.forall_mem_nil _, List.forall_mem_nil _,
    List.forall_mem_nil _, .nil⟩, g, logs, rfl, generated⟩

theorem Course.Sound.rises {course : Course} (sound : course.Sound config job)
    (without : Generator.Yields config job.plan false job.empty) :
    course.Rises config job.empty job.plan.transactions where
  complete := sound.complete
  worth envelope member := by
    rw [without.toNat_blockValue]
    exact sound.lower envelope member
  rising := sound.rising
  held := sound.held

/-- **Deliveries rise, whatever is done with a payload.** -/
theorem deliveries_rise {g : Generator} {now : Nat} {args : BuildArgs} {parent : Header}
    {wantWitness : Bool} (started : start g now args parent wantWitness = .ok job)
    (turns : List Turn) :
    (Course.run g.config { job } turns).Rises g.config job.empty args.transactions := by
  obtain ⟨sound, without⟩ := Course.sound_of_start started
  have rises := (sound.run without turns).rises without
  obtain ⟨-, -, -, plan, -⟩ := start_inversion started
  rw [plan] at rises
  exact rises

/-- A payload is fetched before and after it is improved, and after a round that finds the pool
empty. -/
def mixedTurns : List Turn :=
  [.resolve false, .roundOf MixedPool.generator, .resolve false,
    .roundOf { MixedPool.generator with pool := {} }, .resolve true]

/-- The first delivery is worth the demanded transaction, the other two one of the pool more. -/
theorem deliveries_rise_mixed : ∃ job,
    start MixedPool.generator 0 MixedPool.args (genesisBlock {}).header false = .ok job ∧
    (Course.run {} { job } mixedTurns).delivered.map (·.blockValue.toNat) = [21032, 42064, 42064] ∧
    (Course.run {} { job } mixedTurns).Rises {} job.empty [MixedPool.demanded] := by
  obtain ⟨job, started, values⟩ : ∃ job,
      start MixedPool.generator 0 MixedPool.args (genesisBlock {}).header false = .ok job ∧
        (Course.run {} { job } mixedTurns).delivered.map (·.blockValue.toNat) =
          [21032, 42064, 42064] := ⟨_, rfl, rfl⟩
  exact ⟨job, started, values, deliveries_rise started mixedTurns⟩

end PayloadJob

end EngineNode
