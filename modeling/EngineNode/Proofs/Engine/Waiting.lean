import EngineNode.Proofs.Build.Envelope
import EngineNode.Proofs.Engine.Doomed

/-!
Payloads that wait to be fetched.

A payload that a choice has ordered waits until it is fetched or given up. Whatever happens in the
meantime, its blocks were generated under the rules of the node, on top of a block that is stored.

* `Node.run_serves`: what is known of the payloads that wait, after every run (`PayloadJob.Waits`).
* `Node.exists_fetched`: every payload that a choice names can be fetched.
* `Node.fetched_extends`: what is fetched extends a stored block.
-/

namespace EngineNode

/-! ### Waiting payloads -/

/-- What may happen: no bad block is reported, and a header has room for the extra data of the
operator. -/
def Event.Fair : Event → Prop
  | .badBlock _ => False
  | .setMiner miner => miner.extraData.length ≤ maximumExtraDataSize
  | _ => True

theorem Event.Fair.unreported {events : List Event} (fair : ∀ event ∈ events, event.Fair)
    (bad : BadBlock) : .badBlock bad ∉ events :=
  fun member => fair _ member

/-- Calls do not matter to what else happens. -/
theorem Event.Fair.insert_call {events later : List Event}
    (fair : ∀ event ∈ events ++ later, event.Fair) (call : Call) :
    ∀ event ∈ events ++ .call call :: later, event.Fair := by
  intro event member
  rcases List.mem_append.mp member with before | after
  · exact fair event (List.mem_append_left _ before)
  · rcases List.mem_cons.mp after with rfl | after
    · trivial
    · exact fair event (List.mem_append_right _ after)

/-- A payload waits under a name that was made from the arguments of a build. Its blocks were
generated under some rules, on top of a block that is stored. -/
structure PayloadJob.Waits (job : PayloadJob) (config : ChainConfig) (chain : Chain)
    (id : PayloadId) : Prop where
  named : ∃ args : BuildArgs, id = args.id
  parent : ∃ parent, chain.blockByHash? job.plan.parent.hash = some parent ∧
    parent.header = job.plan.parent
  built : job.Built fun g => g.config = config ∧ g.miner.extraData.length ≤ maximumExtraDataSize

theorem PayloadJob.Waits.step {job : PayloadJob} {config : ChainConfig} {chain chain' : Chain}
    {id : PayloadId} (waits : job.Waits config chain id) (step : chain.Step config chain') :
    job.Waits config chain' id := by
  obtain ⟨named, ⟨parent, stored, header⟩, built⟩ := waits
  exact ⟨named, ⟨parent, step.blockByHash? stored, header⟩, built⟩

/-- What was built last of a payload that waits was generated on the block that is stored. -/
theorem PayloadJob.Waits.best {job : PayloadJob} {config : ChainConfig} {chain : Chain}
    {id : PayloadId} (waits : job.Waits config chain id) (accepted : config.Accepted) :
    job.best.FitsForks config ∧ ∃ parent,
      chain.blockByHash? job.best.block.parentHash = some parent ∧
      job.best.block.Extends config parent.header := by
  obtain ⟨g, ⟨rfl, short⟩, generated⟩ := waits.built.best
  obtain ⟨parent, stored, header⟩ := waits.parent
  refine ⟨generated.fitsForks accepted short, parent, ?_, ?_⟩
  · rw [generated.parentHash]
    exact stored
  · rw [header]
    exact generated.extends

namespace Node

variable {node : Node} {known : List Block} {event : Event}

/-- All payloads that were ordered wait, and the extra data of the operator is not too long. -/
structure Serves (node : Node) : Prop where
  short : node.miner.extraData.length ≤ maximumExtraDataSize
  waits : ∀ id job, node.payloads.get? id = some job → job.Waits node.config node.chain id

/-- A payload that a choice starts waits from then on. -/
theorem StartsPayload.waits {chain : Chain} {head : Hash} {attributes : PayloadAttributes}
    {version : ForkchoiceVersion} {wantWitness : Bool} {id : PayloadId} {job : PayloadJob}
    (starts : node.StartsPayload chain head attributes version wantWitness id job)
    (short : node.miner.extraData.length ≤ maximumExtraDataSize)
    (keyed : ∀ hash block, chain.blockByHash? hash = some block → block.hash = hash) :
    job.Waits node.config chain id := by
  obtain ⟨args, -, named, started⟩ := starts
  obtain ⟨parent, found, -, -, plan, built⟩ := Chain.startPayload_eq_ok started
  obtain ⟨block, stored, rfl⟩ := Option.map_eq_some_iff.mp found
  refine ⟨⟨args, named⟩, ⟨block, ?_, by rw [plan]; rfl⟩, built.mono ?_⟩
  · rw [plan]
    show chain.blockByHash? block.hash = some block
    rw [keyed _ _ stored]
    exact stored
  · rintro g rfl
    exact ⟨rfl, short⟩

/-- One event keeps payloads waiting. -/
theorem serves_after (serves : node.Serves) (fair : event.Fair)
    (keyed : ∀ hash block, (node.after event).chain.blockByHash? hash = some block →
      block.hash = hash) : (node.after event).Serves := by
  obtain ⟨config, step⟩ := node.after_step event
  have kept {id : PayloadId} {job : PayloadJob} (found : node.payloads.get? id = some job) :
      job.Waits (node.after event).config (node.after event).chain id := by
    rw [config]
    exact (serves.waits id job found).step step
  rcases node.after_cases event with beside |
    ⟨version, choice, attributes, wantWitness, rfl⟩ | ⟨version, request, wantWitness, rfl⟩ |
    ⟨bad, rfl⟩ | ⟨mode, rfl⟩ | ⟨miner, rfl⟩
  · refine ⟨beside.miner ▸ serves.short, ?_⟩
    intro id job' found
    obtain ⟨job, before, continues⟩ := beside.payloads.of_get? found
    obtain ⟨named, parent, built⟩ := kept before
    refine ⟨named, continues.plan ▸ parent, built.continues continues ?_⟩
    rintro g sameConfig sameMiner
    exact ⟨sameConfig.trans config.symm, sameMiner ▸ serves.short⟩
  · have ordered := node.answer_forkchoiceUpdated_orders version choice attributes wantWitness
    refine ⟨ordered.miner ▸ serves.short, ?_⟩
    intro id job found
    rcases ordered.payloads id job found with before | ⟨order, -, -, starts⟩
    · exact kept before
    · rw [config]
      exact starts.waits serves.short keyed
  · obtain ⟨orders, -⟩ := node.answer_newPayload_judges version request wantWitness
    refine ⟨orders.miner ▸ serves.short, ?_⟩
    intro id job found
    rw [after_call, orders.payloads] at found
    exact kept found
  · exact fair.elim
  · exact ⟨serves.short, fun id job found => kept found⟩
  · exact ⟨fair, fun id job found => kept found⟩

/-- **Payloads that were ordered wait**, whatever happens. -/
theorem run_serves (node : Node) (events : List Event)
    (short : node.miner.extraData.length ≤ maximumExtraDataSize)
    (fair : ∀ event ∈ events, event.Fair) : (node.started.run events).Serves := by
  induction events using List.reverseRecOn with
  | nil => exact ⟨short, fun _ _ found => by cases found⟩
  | append_singleton events event ih =>
      have orderly := node.run_orderly (events ++ [event]) (Event.Fair.unreported fair)
        (List.Subset.refl _)
      rw [run_concat] at orderly ⊢
      exact serves_after (ih fun other member => fair other (List.mem_append_left _ member))
        (fair event (List.mem_append_right _ List.mem_cons_self)) orderly.founded.keyed

end Node

/-! ### Fetching -/

/-- The first byte of a name tells the version. -/
theorem BuildArgs.version?_id (args : BuildArgs) : args.id.version? = some args.version := by
  have first : args.id.bytes.toList.headD 0 = args.version.toByte := rfl
  rw [PayloadId.version?, first]
  cases args.version <;> rfl

/-- Every payload is handed out by the version of the method that is for it. -/
theorem GetPayloadVersion.exists_check_eq_ok (args : BuildArgs) :
    ∃ version : GetPayloadVersion, version.check args.id = .ok () := by
  have served {version : GetPayloadVersion} (member : version.accepted.contains args.version) :
      version.check args.id = .ok () := by
    rw [check, PayloadId.isOneOf, BuildArgs.version?_id, Option.any_some, member]
    rfl
  cases requested : args.version with
  | v1 => exact ⟨.v1, served (by rw [requested]; rfl)⟩
  | v2 => exact ⟨.v2, served (by rw [requested]; rfl)⟩
  | v3 => exact ⟨.v3, served (by rw [requested]; rfl)⟩

/-- **What is handed out** is the best block of the payload so far. -/
theorem EngineM.getPayload_answers (node : Node) (logs : List LogEntry)
    (version : GetPayloadVersion) (id : PayloadId) :
    Ensures (getPayload version id) node logs fun result _ _ =>
      result = (version.check id).bind fun _ =>
        match node.payloads.get? id with
        | none => .error .unknownPayload
        | some job => .ok (job.best.envelope node.config) := by
  rw [getPayload, ensures_bind, ensures_liftExcept]
  cases version.check id with
  | error e => rfl
  | ok _ =>
      dsimp only
      rw [ensures_bind, ensures_get]
      dsimp only
      rw [PayloadQueue.deliver]
      cases BoundedMap.get? node.payloads id <;> rfl

theorem Node.answer_getPayload_eq_ok_iff {node : Node} {version : GetPayloadVersion}
    {id : PayloadId} {envelope : Envelope} :
    (node.answer (.getPayload version id)).1 = .ok envelope ↔
      version.check id = .ok () ∧ ∃ job, node.payloads.get? id = some job ∧
        envelope = job.best.envelope node.config := by
  have answers : (node.answer (.getPayload version id)).1 = _ :=
    EngineM.getPayload_answers node [] version id
  rw [answers]
  cases version.check id with
  | error e => exact ⟨nofun, fun ⟨h, _⟩ => nomatch h⟩
  | ok _ =>
      cases node.payloads.get? id with
      | none => exact ⟨nofun, fun ⟨_, _, h, _⟩ => nomatch h⟩
      | some job =>
          constructor
          · intro same
            exact ⟨rfl, job, rfl, (Except.ok.inj same).symm⟩
          · rintro ⟨-, _, ⟨⟩, rfl⟩
            rfl

theorem Node.answer_getPayload_beside (node : Node) (version : GetPayloadVersion)
    (id : PayloadId) : node.Beside (node.answer (.getPayload version id)).2 :=
  EngineM.getPayload_ensures node [] version id

/-- **Every payload that a choice names can be fetched.** -/
theorem Node.exists_fetched (node : Node) (events : List Event)
    (short : node.miner.extraData.length ≤ maximumExtraDataSize)
    (fair : ∀ event ∈ events, event.Fair) {version : ForkchoiceVersion} {choice : ForkchoiceState}
    {attributes : Option PayloadAttributes} {wantWitness : Bool} {response : ForkchoiceResponse}
    {id : PayloadId} :
    let now := node.started.run events
    let call := Call.forkchoiceUpdated version choice attributes wantWitness
    (now.answer call).1 = .ok response → response.payloadId = some id →
    ∃ fetching envelope,
      ((now.answer call).2.answer (.getPayload fetching id)).1 = .ok envelope := by
  intro now call answered named
  have ordered := now.answer_forkchoiceUpdated_orders version choice attributes wantWitness
  obtain ⟨job, found⟩ := Option.isSome_iff_exists.mp (ordered.named response id answered named)
  rw [← List.append_nil events] at fair
  have serves := node.run_serves (events ++ [.call call]) short (Event.Fair.insert_call fair call)
  rw [run_concat] at serves
  obtain ⟨args, rfl⟩ := (serves.waits id job found).named
  obtain ⟨fetching, served⟩ := GetPayloadVersion.exists_check_eq_ok args
  exact ⟨fetching, _, answer_getPayload_eq_ok_iff.mpr ⟨served, job, found, rfl⟩⟩

/-- **What is fetched is the envelope of a built block** that has what its forks ask for and extends
a stored block. -/
theorem Node.fetched_extends (node : Node) (events : List Event)
    (accepted : node.config.Accepted)
    (short : node.miner.extraData.length ≤ maximumExtraDataSize)
    (fair : ∀ event ∈ events, event.Fair) {fetching : GetPayloadVersion} {id : PayloadId}
    {envelope : Envelope} :
    let now := node.started.run events
    (now.answer (.getPayload fetching id)).1 = .ok envelope →
    ∃ (built : BuiltBlock) (parent : Block), envelope = built.envelope node.config ∧
      built.FitsForks node.config ∧
      now.chain.blockByHash? built.block.parentHash = some parent ∧
      built.block.Extends node.config parent.header := by
  intro now fetched
  have config : now.config = node.config := run_config _ _
  obtain ⟨-, job, found, rfl⟩ := answer_getPayload_eq_ok_iff.mp fetched
  have waits := (node.run_serves events short fair).waits id job found
  rw [show (node.started.run events).config = node.config from config] at waits
  obtain ⟨fits, parent, stored, fitsParent⟩ := waits.best accepted
  exact ⟨job.best, parent, by rw [config], fits, stored, fitsParent⟩

end EngineNode
