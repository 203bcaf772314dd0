import EngineNode.Proofs.Engine.Order
import EngineNode.Proofs.Recency

/-!
Which headers a node remembers.

A block that cannot be imported yet is put off, and the answer to its payload says so. These blocks
and no others have their headers queued, whatever the reason is, so that what a node remembers is
known from its answers.

* `EngineM.newPayload_treats`: a header is queued exactly when the answer puts the block off.
* `EngineM.forkchoiceUpdated_remembers`: choices queue nothing.
* `Node.after_queues`: what one event does to the queue.
* `Node.run_queue`: what is in the queue after every run.
-/

namespace EngineNode

/-- The answer to the payload of a block that is put off. -/
def PayloadStatus.PutsOff (status : PayloadStatus) : Prop :=
  status.status = .syncing ∨ status.status = .accepted

instance : DecidablePred PayloadStatus.PutsOff :=
  fun status => inferInstanceAs (Decidable (status.status = .syncing ∨ status.status = .accepted))

/-- A verdict puts nothing off. -/
theorem PayloadStatus.not_putsOff {status : PayloadStatus}
    (verdict : status.status = .valid ∨ status.status = .invalid) : ¬status.PutsOff := by
  unfold PutsOff
  rcases verdict with valid | invalid
  · rw [valid]
    decide
  · rw [invalid]
    decide

/-- What becomes of the header of the block that a payload describes: it is queued exactly when the
answer puts the block off. -/
inductive Node.Treats (node : Node) (described : Option Block)
    (result : Except EngineError PayloadStatus) (node' : Node) : Prop where
  | passed : node.SameHeaders node' → (∀ status, result = .ok status → ¬status.PutsOff) →
      Treats node described result node'
  | queued {block : Block} {status : PayloadStatus} : described = some block →
      result = .ok status → status.PutsOff →
      node'.remoteHeaders = node.remoteHeaders.insert block.hash block.header →
      node'.features = node.features → Treats node described result node'

namespace Node.Treats

variable {node node' node'' : Node} {described : Option Block}
  {result : Except EngineError PayloadStatus}

/-- What happens without a header that is queued does not matter. -/
theorem trans (same : node.SameHeaders node') (treats : node'.Treats described result node'') :
    node.Treats described result node'' := by
  cases treats with
  | passed same' other => exact .passed (same.trans same') other
  | queued some answered putsOff headers features =>
      exact .queued some answered putsOff (by rw [headers, same.remoteHeaders])
        (features.trans same.features)

theorem count (treats : node.Treats described result node') (change : Metrics → Metrics) :
    node.Treats described result (node'.count change) := by
  cases treats with
  | passed same other => exact .passed ⟨same.remoteHeaders, same.features⟩ other
  | queued some answered putsOff headers features =>
      exact .queued some answered putsOff headers features

end Node.Treats

/-! ### Payloads -/

namespace NodeM

theorem checkBadChains_remembers (node : Node) (logs : List LogEntry) (check head : Hash) :
    Ensures (checkBadChains check head) node logs fun status node' _ => node.SameHeaders node' ∧
      ∀ rejection, status = some rejection → ¬rejection.PutsOff := by
  refine ⟨⟨rfl, rfl⟩, fun rejection rejected => ?_⟩
  rcases node.badChains.check_cases node.chain check head with ⟨passes, -⟩ | ⟨bad, -, answer, -⟩
  · cases rejected.symm.trans passes
  · cases rejected.symm.trans answer
    exact PayloadStatus.not_putsOff (.inr rfl)

end NodeM

namespace EngineM

open NodeM

theorem delayImport_treats (node : Node) (logs : List LogEntry) (block : Block) :
    Ensures (delayImport block) node logs fun result node' _ =>
      node.Treats (some block) result node' := by
  simp only [delayImport, ensures_bind, ensures_lift]
  refine (checkBadChains_remembers node logs _ _).mono ?_
  rintro status node' logs' ⟨same, rejects⟩
  cases status with
  | some rejection => exact .passed same (of_eq_ok (rejects rejection rfl))
  | none =>
      simp only [ensures_bind, ensures_get, rememberHeader, ensures_modify]
      refine .trans same ?_
      cases node'.downloader.extend node'.chain.syncMode block.header with
      | ok downloader => exact .queued rfl rfl (.inl rfl) rfl rfl
      | error e =>
          simp only
          split <;> exact .queued rfl rfl (.inl rfl) rfl rfl

theorem execute_treats (node : Node) (logs : List LogEntry) (block parent : Block)
    (wantWitness : Bool) :
    Ensures (execute block parent wantWitness) node logs fun result node' _ =>
      node.Treats (some block) result node' := by
  simp only [execute, ensures_bind, ensures_get]
  cases node.chain.insert node.config block wantWitness with
  | ok result => exact .passed ⟨rfl, rfl⟩ (of_eq_ok (PayloadStatus.not_putsOff (.inl rfl)))
  | error e =>
      cases e
      case overflow => exact .passed ⟨rfl, rfl⟩ of_error_eq_ok
      all_goals exact .passed ⟨rfl, rfl⟩ (of_eq_ok (PayloadStatus.not_putsOff (.inr rfl)))

theorem importOn_treats (node : Node) (logs : List LogEntry) (block parent : Block)
    (wantWitness : Bool) :
    Ensures (importOn block parent wantWitness) node logs fun result node' _ =>
      node.Treats (some block) result node' := by
  simp only [importOn, ensures_bind, ensures_get]
  split
  · exact .passed ⟨rfl, rfl⟩ (of_eq_ok (PayloadStatus.not_putsOff (.inr rfl)))
  · split
    · exact delayImport_treats node logs block
    · split
      · exact execute_treats node logs block parent wantWitness
      · exact .queued rfl rfl (.inr rfl) rfl rfl

theorem importBlock_treats (node : Node) (logs : List LogEntry) (block : Block)
    (wantWitness : Bool) :
    Ensures (importBlock block wantWitness) node logs fun result node' _ =>
      node.Treats (some block) result node' := by
  simp only [importBlock, ensures_bind, ensures_modify, ensures_get]
  cases node.chain.blockByHash? block.hash with
  | some known => exact .passed ⟨rfl, rfl⟩ (of_eq_ok (PayloadStatus.not_putsOff (.inl rfl)))
  | none =>
      simp only [ensures_bind, ensures_lift]
      refine (checkBadChains_remembers _ logs _ _).mono ?_
      rintro status node' logs' ⟨⟨headers, features⟩, rejects⟩
      have same : node.SameHeaders node' := ⟨headers, features⟩
      cases status with
      | some rejection => exact .passed same (of_eq_ok (rejects rejection rfl))
      | none =>
          cases node.chain.blockByHash? block.parentHash with
          | none =>
              exact (delayImport_treats node' logs' block).mono fun _ _ _ => .trans same
          | some parent =>
              exact (importOn_treats node' logs' block parent wantWitness).mono
                fun _ _ _ => .trans same

theorem importPayload_treats (node : Node) (logs : List LogEntry) (request : PayloadRequest)
    (wantWitness : Bool) :
    Ensures (importPayload request wantWitness) node logs fun result node' _ =>
      node.Treats (request.payload.toBlock node.config request.sidecar).toOption result node' := by
  simp only [importPayload, ensures_bind, ensures_get]
  split
  · exact .passed ⟨rfl, rfl⟩ (of_eq_ok (PayloadStatus.not_putsOff (.inr rfl)))
  · cases request.payload.toBlock node.config request.sidecar with
    | error e => exact .passed ⟨rfl, rfl⟩ (of_eq_ok (PayloadStatus.not_putsOff (.inr rfl)))
    | ok block => exact importBlock_treats node logs block wantWitness

/-- **A header is queued exactly when the answer puts its block off.** -/
theorem newPayload_treats (node : Node) (logs : List LogEntry) (version : NewPayloadVersion)
    (request : PayloadRequest) (wantWitness : Bool) :
    Ensures (newPayload version request wantWitness) node logs fun result node' _ =>
      node.Treats (request.payload.toBlock node.config request.sidecar).toOption result node' := by
  rw [newPayload, ensures_bind, ensures_get]
  dsimp only
  rw [ensures_bind, ensures_liftExcept]
  cases version.check _ node.config request with
  | error e => exact .passed ⟨rfl, rfl⟩ of_error_eq_ok
  | ok _ =>
      dsimp only
      split
      · exact .passed ⟨rfl, rfl⟩ of_error_eq_ok
      · refine ensures_bind.mpr ((importPayload_treats node logs request wantWitness).mono ?_)
        rintro result node' _ treats
        cases result with
        | error e => exact treats
        | ok status => exact treats.count _

/-! ### Choices -/

theorem startPayload_remembers (node : Node) (logs : List LogEntry) (parent : Hash)
    (attributes : PayloadAttributes) (version : ForkchoiceVersion) (wantWitness : Bool) :
    Ensures (startPayload parent attributes version wantWitness) node logs fun _ node' _ =>
      node.SameHeaders node' := by
  simp only [startPayload, ensures_bind, ensures_get, ensures_liftExcept]
  cases buildArgs node.config parent attributes version with
  | error e => exact ⟨rfl, rfl⟩
  | ok args =>
      simp only
      split
      · exact ⟨rfl, rfl⟩
      · cases node.chain.startPayload node.generator node.clock args wantWitness with
        | ok job => exact ⟨rfl, rfl⟩
        | error e => cases e <;> exact ⟨rfl, rfl⟩

theorem syncToUnknownHead_remembers (node : Node) (logs : List LogEntry) (head finalized : Hash) :
    Ensures (syncToUnknownHead head finalized) node logs fun _ node' _ =>
      node.SameHeaders node' := by
  simp only [syncToUnknownHead, ensures_bind, ensures_lift]
  refine (checkBadChains_remembers node logs head head).mono ?_
  rintro status node' logs' ⟨same, -⟩
  cases status with
  | some rejection => exact same
  | none =>
      cases seen : node'.remoteHeaders.get? head with
      | none =>
          simp only [ensures_bind, ensures_get, seen]
          exact same
      | some header =>
          simp only [ensures_bind, ensures_get, seen, ensures_lift, ensures_logWithHead]
          split <;> exact ⟨same.remoteHeaders, same.features⟩

theorem chooseStoredHead_remembers (node : Node) (logs : List LogEntry) (head : Block)
    (version : ForkchoiceVersion) (choice : ForkchoiceState)
    (attributes : Option PayloadAttributes) (wantWitness : Bool) :
    Ensures (chooseStoredHead head version choice attributes wantWitness) node logs
      fun _ node' _ => node.SameHeaders node' := by
  unfold chooseStoredHead
  rw [ensures_bind]
  refine (isPastMerge_ensures node logs head).mono ?_
  rintro past node logs ⟨rfl, -⟩
  rcases past with e | _ | _
  · exact ⟨rfl, rfl⟩
  · simp only [Bool.false_eq_true, if_false, ensures_bind]
    refine (makeHead_ensures _ logs head).mono ?_
    rintro followed _ logs ⟨made, rfl, -⟩
    rcases followed with e | _ | _
    · exact ⟨rfl, rfl⟩
    · exact ⟨rfl, rfl⟩
    · simp only [if_true, ensures_bind, ensures_modify, ensures_lift]
      refine NodeM.Ensures.mono (reportHead_keeps _ logs) ?_
      rintro _ _ logs' ⟨report, metrics, rfl⟩
      refine (recordFinality_ensures _ logs' choice).mono ?_
      rintro checked _ logs ⟨recorded, done, rfl, -, -⟩
      rcases checked with e | _
      · exact ⟨rfl, rfl⟩
      · cases attributes with
        | none => exact ⟨rfl, rfl⟩
        | some order =>
            refine ensures_bind.mpr ((startPayload_remembers _ logs _ order _ _).mono ?_)
            rintro started node' logs ⟨headers, features⟩
            cases started <;> exact ⟨headers, features⟩
  · exact ⟨rfl, rfl⟩

theorem choose_remembers (node : Node) (logs : List LogEntry) (version : ForkchoiceVersion)
    (choice : ForkchoiceState) (attributes : Option PayloadAttributes) (wantWitness : Bool) :
    Ensures (choose version choice attributes wantWitness) node logs fun _ node' _ =>
      node.SameHeaders node' := by
  unfold choose
  split
  · exact ⟨rfl, rfl⟩
  · simp only [ensures_bind, ensures_modify, ensures_get]
    cases node.chain.blockByHash? choice.headBlockHash with
    | none =>
        refine (syncToUnknownHead_remembers _ logs _ _).mono ?_
        rintro _ _ _ ⟨headers, features⟩
        exact ⟨headers, features⟩
    | some head =>
        refine (chooseStoredHead_remembers _ logs head version choice _ wantWitness).mono ?_
        rintro _ _ _ ⟨headers, features⟩
        exact ⟨headers, features⟩

/-- A choice whose order is accepted comes to what following it comes to. -/
theorem forkchoiceUpdated_of_choose {node : Node} {logs : List LogEntry}
    {version : ForkchoiceVersion} {choice : ForkchoiceState}
    {attributes : Option PayloadAttributes} {wantWitness : Bool}
    {post : Except EngineError ForkchoiceResponse → Node → Prop}
    (accepted : ∀ order, attributes = some order →
      version.checkAttributes node.config order = .ok ())
    (chosen : Ensures (choose version choice attributes wantWitness) node logs
      fun result node' _ => post result node' ∧ ∀ change, post result (node'.count change)) :
    Ensures (forkchoiceUpdated version choice attributes wantWitness) node logs
      fun result node' _ => post result node' := by
  have counted : Ensures (do
      let response ← choose version choice attributes wantWitness
      count fun m => { m with
        forkchoiceStatuses := m.forkchoiceStatuses.add response.payloadStatus.status.name }
      return response) node logs fun result node' _ => post result node' := by
    refine ensures_bind.mpr (chosen.mono ?_)
    rintro (e | response) node' _ ⟨holds, countedHolds⟩
    · exact holds
    · exact countedHolds _
  unfold forkchoiceUpdated
  cases attributes with
  | none => exact counted
  | some order =>
      rw [ensures_bind, ensures_get]
      dsimp only
      rw [ensures_bind, ensures_liftExcept, accepted order rfl]
      exact counted

/-- **Choices queue nothing.** -/
theorem forkchoiceUpdated_remembers (node : Node) (logs : List LogEntry)
    (version : ForkchoiceVersion) (choice : ForkchoiceState)
    (attributes : Option PayloadAttributes) (wantWitness : Bool) :
    Ensures (forkchoiceUpdated version choice attributes wantWitness) node logs
      fun _ node' _ => node.SameHeaders node' := by
  have counted : Ensures (choose version choice attributes wantWitness) node logs
      fun _ node' _ => node.SameHeaders node' ∧ ∀ change, node.SameHeaders (node'.count change) :=
    (choose_remembers node logs version choice attributes wantWitness).mono
      fun _ _ _ same => ⟨same, fun _ => ⟨same.remoteHeaders, same.features⟩⟩
  cases attributes with
  | none => exact forkchoiceUpdated_of_choose nofun counted
  | some order =>
      cases accepted : version.checkAttributes node.config order with
      | error e =>
          simp only [forkchoiceUpdated, ensures_bind, ensures_get, ensures_liftExcept, accepted]
          exact ⟨rfl, rfl⟩
      | ok _ =>
          refine forkchoiceUpdated_of_choose ?_ counted
          rintro _ ⟨⟩
          exact accepted

end EngineM

/-! ### Events -/

namespace Node

variable {node : Node}

/-- The header that is queued by an answer to the payload of a block. -/
def queuedBy? (described : Option Block) : Except EngineError PayloadStatus → Option Header
  | .ok status => if status.PutsOff then described.map Block.header else none
  | .error _ => none

theorem queuedBy?_of_putsOff {status : PayloadStatus} (putsOff : status.PutsOff) (block : Block) :
    queuedBy? (some block) (.ok status) = some block.header :=
  if_pos putsOff

/-- The header that an event queues: the answer puts a block off. -/
def queues? (node : Node) : Event → Option Header
  | .call (.newPayload version request wantWitness) =>
    queuedBy? (Event.block? node.config (.call (.newPayload version request wantWitness)))
      (node.answer (.newPayload version request wantWitness)).1
  | _ => none

/-- The headers that a run queues, in order. -/
def queued (node : Node) : List Event → List Header
  | [] => []
  | event :: events => (node.queues? event).toList ++ (node.after event).queued events

theorem queued_append (node : Node) (events later : List Event) :
    node.queued (events ++ later) = node.queued events ++ (node.run events).queued later := by
  induction events generalizing node with
  | nil => rfl
  | cons event rest ih =>
      rw [List.cons_append, queued, queued, ih, run_cons, List.append_assoc]

/-- An event queues at most one header. -/
theorem length_queued_le (node : Node) (events : List Event) :
    (node.queued events).length ≤ events.length := by
  induction events generalizing node with
  | nil => exact Nat.le_refl _
  | cons event rest ih =>
      have others := ih (node.after event)
      rw [queued, List.length_append, List.length_cons]
      cases node.queues? event with
      | none =>
          rw [Option.toList_none, List.length_nil]
          omega
      | some header =>
          rw [Option.toList_some, List.length_singleton]
          omega

/-- Where few events happen, few hashes are queued. -/
theorem card_queued_le (node : Node) (events : List Event) (hash : Hash) :
    (((node.queued events).map Header.hash).toFinset.erase hash).card ≤ events.length :=
  calc (((node.queued events).map Header.hash).toFinset.erase hash).card
    _ ≤ ((node.queued events).map Header.hash).toFinset.card :=
      Finset.card_le_card (Finset.erase_subset _ _)
    _ ≤ ((node.queued events).map Header.hash).length := List.toFinset_card_le _
    _ = (node.queued events).length := List.length_map _
    _ ≤ events.length := node.length_queued_le events

theorem answer_newPayload_treats (node : Node) (version : NewPayloadVersion)
    (request : PayloadRequest) (wantWitness : Bool) :
    let answer := node.answer (.newPayload version request wantWitness)
    node.Treats (request.payload.toBlock node.config request.sidecar).toOption answer.1 answer.2 :=
  EngineM.newPayload_treats node [] version request wantWitness

section Payload

variable {version : NewPayloadVersion} {request : PayloadRequest} {wantWitness : Bool}

/-- A block that is put off can be converted, and its header is queued. -/
theorem queues?_eq_some {status : PayloadStatus}
    (answered : (node.answer (.newPayload version request wantWitness)).1 = .ok status)
    (putsOff : status.PutsOff) :
    ∃ block, request.payload.toBlock node.config request.sidecar = .ok block ∧
      node.queues? (.call (.newPayload version request wantWitness)) = some block.header := by
  cases node.answer_newPayload_treats version request wantWitness with
  | passed _ other => exact absurd putsOff (other status answered)
  | @queued block _ described _ _ _ _ =>
      have converted := toOption_eq_some_iff.mp described
      have block? := Event.block?_newPayload version wantWitness converted
      refine ⟨block, converted, (congrArg (queuedBy? _) answered).trans ?_⟩
      rw [block?]
      exact queuedBy?_of_putsOff putsOff block

/-- Nothing is queued if the answer puts nothing off. -/
theorem queues?_eq_none
    (other : ∀ status, (node.answer (.newPayload version request wantWitness)).1 = .ok status →
      ¬status.PutsOff) :
    node.queues? (.call (.newPayload version request wantWitness)) = none := by
  rw [queues?]
  generalize (node.answer (.newPayload version request wantWitness)).1 = result at other
  cases result with
  | error e => rfl
  | ok status => exact if_neg (other status rfl)

end Payload

/-- **What one event does to the queue**: at most one header is put, under its own hash. -/
theorem after_queues (node : Node) (event : Event) :
    (node.after event).features = node.features ∧
      (node.after event).remoteHeaders = (node.queues? event).elim node.remoteHeaders
        fun header => node.remoteHeaders.insert header.hash header := by
  have unchanged (same : node.SameHeaders (node.after event)) (silent : node.queues? event = none) :
      (node.after event).features = node.features ∧
        (node.after event).remoteHeaders = (node.queues? event).elim node.remoteHeaders
          fun header => node.remoteHeaders.insert header.hash header := by
    rw [silent]
    exact ⟨same.features, same.remoteHeaders⟩
  by_cases sends : ∃ version request wantWitness,
      event = .call (.newPayload version request wantWitness)
  · obtain ⟨version, request, wantWitness, rfl⟩ := sends
    cases node.answer_newPayload_treats version request wantWitness with
    | passed same other => exact unchanged same (queues?_eq_none other)
    | queued described answered putsOff headers features =>
        obtain ⟨block, converted, queues⟩ := queues?_eq_some answered putsOff
        cases described.symm.trans (toOption_eq_some_iff.mpr converted)
        rw [queues]
        exact ⟨features, headers⟩
  · have silent : node.queues? event = none := by
      unfold queues?
      split
      · exact absurd ⟨_, _, _, rfl⟩ sends
      · rfl
    refine unchanged ?_ silent
    rcases node.after_cases event with beside |
      ⟨version, choice, attributes, wantWitness, rfl⟩ | sends' | ⟨bad, rfl⟩ | ⟨mode, rfl⟩ |
      ⟨miner, rfl⟩
    · exact beside.toSameHeaders
    · exact EngineM.forkchoiceUpdated_remembers node [] version choice attributes wantWitness
    · exact absurd sends' sends
    · exact ⟨rfl, rfl⟩
    · exact ⟨rfl, rfl⟩
    · exact ⟨rfl, rfl⟩

/-! ### Runs -/

/-- A node that has queued no headers yet, whatever its chain is. -/
def unqueued (node : Node) : Node := { node with remoteHeaders := default }

/-- **After every run the queue holds the headers that were queued last**, each under its hash. -/
theorem run_queue (node : Node) (events : List Event) :
    (node.unqueued.run events).features = node.features ∧
      (node.unqueued.run events).remoteHeaders =
        .ofList ((node.unqueued.queued events).map fun header => (header.hash, header)) := by
  induction events using List.reverseRecOn with
  | nil => exact ⟨rfl, rfl⟩
  | append_singleton events event ih =>
      obtain ⟨features, headers⟩ := (node.unqueued.run events).after_queues event
      rw [run_concat, queued_append, queued, queued, List.append_nil, List.map_append]
      refine ⟨features.trans ih.1, headers.trans ?_⟩
      rw [ih.2]
      cases (node.unqueued.run events).queues? event with
      | none => rw [Option.toList_none, List.map_nil, List.append_nil, Option.elim_none]
      | some header => exact (BoundedMap.ofList_concat _ (header.hash, header)).symm

end Node

end EngineNode
