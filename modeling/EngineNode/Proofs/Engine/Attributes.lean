import EngineNode.Proofs.Engine.Return

/-!
What the attributes of a choice can change.

A call is rejected before anything is done if the version of its method does not accept it. An
order that is accepted runs beside the choice that it comes with: two runs of one choice, with the
order and without it, leave nodes that differ only in the payloads that are waiting and in what the
metrics say of orders and answers.

* `Call.rejection?`: the error with which a call is rejected.
* `EngineM.Agree`: two programs leave the same node, apart from orders. What follows a common
  beginning decides (`EngineM.Agree.bind_left`).
* `Node.order_beside_choice`: rejected calls change nothing, and orders change payloads only.
-/

namespace EngineNode

/-- The error with which a call is rejected before anything is done: the version of the method does
not accept the attributes or the payload, or the execution requests are not in order. -/
def Call.rejection? (config : ChainConfig) : Call → Option EngineError
  | forkchoiceUpdated version _ (some order) _ =>
    match version.checkAttributes config order with
    | .error e => some e
    | .ok _ => none
  | newPayload version request wantWitness =>
    match version.check (if wantWitness then .newPayloadWithWitness else .newPayload) config
        request with
    | .error e => some e
    | .ok _ =>
      match Requests.validate (request.executionRequests.getD []) with
      | .error e => some (.invalidParams e.message)
      | .ok _ => none
  | executeStatelessPayload version request _ =>
    match version.check .executeStateless config request with
    | .error e => some e
    | .ok _ => none
  | _ => none

/-- Metrics without the counts of started payloads and of answers to choices. -/
def Metrics.withoutOrders (m : Metrics) : Metrics :=
  { m with forkchoiceStatuses := [], builds := 0, timedBuilds := 0 }

namespace Node

/-- A node without the payloads that are waiting, and without the counts of started payloads and of
answers to choices. -/
def withoutOrders (node : Node) : Node :=
  { node.count Metrics.withoutOrders with payloads := default }

/-- Counting orders and answers to choices does not show in the rest of the node. -/
theorem withoutOrders_count {change : Metrics → Metrics}
    (counts : ∀ m, (change m).withoutOrders = m.withoutOrders) (node : Node) :
    (node.count change).withoutOrders = node.withoutOrders := by
  have same : (node.metrics.map change).map Metrics.withoutOrders =
      node.metrics.map Metrics.withoutOrders := by
    rw [Option.map_map]
    exact Option.map_congr fun m _ => counts m
  unfold withoutOrders count
  rw [same]

end Node

namespace EngineM

open NodeM

variable {α β γ : Type}

/-! ### Rejected calls -/

section Rejected

variable {node : Node} {logs : List LogEntry} {e : EngineError}

theorem forkchoiceUpdated_rejects {version : ForkchoiceVersion} {choice : ForkchoiceState}
    {order : PayloadAttributes} {wantWitness : Bool}
    (refused : version.checkAttributes node.config order = .error e) :
    Ensures (forkchoiceUpdated version choice (some order) wantWitness) node logs
      fun result node' logs' => result = .error e ∧ node' = node ∧ logs' = logs := by
  simp only [forkchoiceUpdated, ensures_bind, ensures_get, ensures_liftExcept, refused, and_self]

theorem newPayload_rejects {version : NewPayloadVersion} {request : PayloadRequest}
    {wantWitness : Bool}
    (refused : version.check (if wantWitness then .newPayloadWithWitness else .newPayload)
        node.config request = .error e) :
    Ensures (newPayload version request wantWitness) node logs
      fun result node' logs' => result = .error e ∧ node' = node ∧ logs' = logs := by
  simp only [newPayload, ensures_bind, ensures_get, ensures_liftExcept, refused, and_self]

theorem newPayload_rejects_requests {version : NewPayloadVersion} {request : PayloadRequest}
    {wantWitness : Bool} {fault : RequestsError}
    (accepted : version.check (if wantWitness then .newPayloadWithWitness else .newPayload)
        node.config request = .ok ())
    (refused : Requests.validate (request.executionRequests.getD []) = .error fault) :
    Ensures (newPayload version request wantWitness) node logs fun result node' logs' =>
      result = .error (.invalidParams fault.message) ∧ node' = node ∧ logs' = logs := by
  simp only [newPayload, ensures_bind, ensures_get, ensures_liftExcept, accepted, refused]
  exact ⟨rfl, rfl, rfl⟩

theorem executeStatelessPayload_rejects {version : NewPayloadVersion} {request : PayloadRequest}
    {witness : Bytes} (refused : version.check .executeStateless node.config request = .error e) :
    Ensures (executeStatelessPayload version request witness) node logs
      fun result node' logs' => result = .error e ∧ node' = node ∧ logs' = logs := by
  simp only [executeStatelessPayload, ensures_bind, ensures_get, ensures_liftExcept, refused,
    and_self]

/-- **A rejected call changes nothing**, and nothing is logged. -/
theorem rejected_ensures (call : Call) (rejected : call.rejection? node.config = some e) :
    Ensures call.program node logs fun result node' logs' =>
      result = .error e ∧ node' = node ∧ logs' = logs := by
  cases call with
  | forkchoiceUpdated version choice attributes wantWitness =>
      cases attributes with
      | none => cases rejected
      | some order =>
          rw [Call.rejection?] at rejected
          split at rejected
          · rename_i refused
            cases rejected
            exact forkchoiceUpdated_rejects refused
          · cases rejected
  | newPayload version request wantWitness =>
      rw [Call.rejection?] at rejected
      split at rejected
      · rename_i refused
        cases rejected
        exact newPayload_rejects refused
      · rename_i accepted
        split at rejected
        · rename_i refused
          cases rejected
          exact newPayload_rejects_requests accepted refused
        · cases rejected
  | executeStatelessPayload version request witness =>
      rw [Call.rejection?] at rejected
      split at rejected
      · rename_i refused
        cases rejected
        exact executeStatelessPayload_rejects refused
      · cases rejected
  | _ => cases rejected

end Rejected

/-! ### Two runs -/

/-- Two programs leave the same node, apart from orders, wherever they are run. -/
def Agree (p : EngineM α) (q : EngineM β) : Prop :=
  ∀ node logs, Ensures p node logs fun _ left _ =>
    Ensures q node logs fun _ left' _ => left.withoutOrders = left'.withoutOrders

/-- A program changes nothing but orders. -/
def OrdersOnly (p : EngineM α) : Prop :=
  ∀ node logs, Ensures p node logs fun _ left _ => left.withoutOrders = node.withoutOrders

namespace Agree

variable {p : EngineM α} {q : EngineM β} {r : EngineM γ}

theorem refl (p : EngineM α) : Agree p p := fun _ _ => rfl

theorem symm (agree : Agree p q) : Agree q p := fun node logs => Eq.symm (agree node logs)

theorem trans (first : Agree p q) (second : Agree q r) : Agree p r :=
  fun node logs => Eq.trans (first node logs) (second node logs)

/-- **What follows a common beginning decides.** -/
theorem bind_left {f g : α → EngineM β} (agree : ∀ a, Agree (f a) (g a)) :
    Agree (p >>= f) (p >>= g) := by
  intro node logs
  simp only [ensures_bind]
  unfold EngineM.Ensures NodeM.Ensures
  generalize p.run node logs = outcome
  obtain ⟨⟨result, node'⟩, logs'⟩ := outcome
  cases result with
  | error e => exact rfl
  | ok a => exact agree a node' logs'

/-- What changes nothing but orders may follow or be left out. -/
theorem bind_ordersOnly {f : α → EngineM β} (orders : ∀ a, OrdersOnly (f a)) :
    Agree (p >>= f) p := by
  intro node logs
  rw [ensures_bind]
  unfold EngineM.Ensures NodeM.Ensures
  generalize p.run node logs = outcome
  obtain ⟨⟨result, node'⟩, logs'⟩ := outcome
  cases result with
  | error e => exact rfl
  | ok a => exact orders a node' logs'

end Agree

/-- **An order changes nothing but orders**, whether its payload is started, found or refused. -/
theorem startPayload_ordersOnly (parent : Hash) (order : PayloadAttributes)
    (version : ForkchoiceVersion) (wantWitness : Bool) :
    OrdersOnly (startPayload parent order version wantWitness) := by
  intro node logs
  have started : (node.count fun m => { m with builds := m.builds + 1 }).withoutOrders =
      node.withoutOrders :=
    node.withoutOrders_count (by intro m; rfl)
  have timed : ((node.count fun m => { m with builds := m.builds + 1 }).count fun m =>
      { m with timedBuilds := m.timedBuilds + 1 }).withoutOrders = node.withoutOrders :=
    (Node.withoutOrders_count (by intro m; rfl) _).trans started
  simp only [startPayload, ensures_bind, ensures_get, ensures_liftExcept]
  cases buildArgs node.config parent order version with
  | error e => exact trivial
  | ok args =>
      simp only
      split
      · exact rfl
      · cases node.chain.startPayload node.generator node.clock args wantWitness with
        | ok job => exact timed
        | error e =>
            cases e with
            | overflow => exact timed
            | _ => exact started

/-- Up to the order itself both runs are one. -/
theorem chooseStoredHead_agree (head : Block) (version : ForkchoiceVersion)
    (choice : ForkchoiceState) (order : PayloadAttributes) (wantWitness : Bool) :
    Agree (chooseStoredHead head version choice (some order) wantWitness)
      (chooseStoredHead head version choice none wantWitness) := by
  unfold chooseStoredHead
  refine .bind_left fun past => ?_
  cases past with
  | true => exact .refl _
  | false =>
      simp only [Bool.false_eq_true, if_false]
      refine .bind_left fun followed => ?_
      cases followed with
      | false => exact .refl _
      | true =>
          simp only [if_true]
          refine .bind_left fun _ => .bind_left fun _ => .bind_left fun _ => ?_
          refine Agree.trans (Agree.bind_ordersOnly ?_) ?_
          · exact fun _ _ _ => rfl
          · exact startPayload_ordersOnly choice.headBlockHash order version wantWitness

theorem choose_agree (version : ForkchoiceVersion) (choice : ForkchoiceState)
    (order : PayloadAttributes) (wantWitness : Bool) :
    Agree (choose version choice (some order) wantWitness)
      (choose version choice none wantWitness) := by
  unfold choose
  split
  · exact .refl _
  · refine .bind_left fun _ => .bind_left fun node => ?_
    split
    · exact .refl _
    · exact chooseStoredHead_agree _ version choice order wantWitness

/-- **An order that is accepted runs beside its choice.** -/
theorem forkchoiceUpdated_agree {node : Node} {version : ForkchoiceVersion}
    (choice : ForkchoiceState) {order : PayloadAttributes} (wantWitness : Bool)
    (accepted : version.checkAttributes node.config order = .ok ()) (logs : List LogEntry) :
    Ensures (forkchoiceUpdated version choice (some order) wantWitness) node logs
      fun _ left _ => Ensures (forkchoiceUpdated version choice none wantWitness) node logs
        fun _ left' _ => left.withoutOrders = left'.withoutOrders := by
  -- The answers are counted in the end; they may differ.
  have counted (response : ForkchoiceResponse) : OrdersOnly do
      count fun m => { m with
        forkchoiceStatuses := m.forkchoiceStatuses.add response.payloadStatus.status.name }
      return response :=
    fun node _ => node.withoutOrders_count (by intro m; rfl)
  have agree := (Agree.bind_ordersOnly counted).trans
    ((choose_agree version choice order wantWitness).trans (Agree.bind_ordersOnly counted).symm)
  simp only [forkchoiceUpdated]
  rw [ensures_bind, ensures_get]
  dsimp only
  rw [ensures_bind, ensures_liftExcept, accepted]
  exact agree node logs

end EngineM

namespace Node

/-- **Rejected calls change nothing, and orders change payloads only.** A call that the version of
its method or the check of its requests rejects leaves the node as it is. A choice with an accepted
order leaves, but for the payloads that wait and the counts of orders and answers, the node that
the same choice leaves without an order; if it fails, the payloads are those from before. -/
theorem order_beside_choice (node : Node) :
    (∀ (call : Call) (e : EngineError), call.rejection? node.config = some e →
      call.program.run.exec node = (.error e, node, [])) ∧
    ∀ (version : ForkchoiceVersion) (choice : ForkchoiceState) (order : PayloadAttributes)
      (wantWitness : Bool), version.checkAttributes node.config order = .ok () →
      let ordered := node.answer (.forkchoiceUpdated version choice (some order) wantWitness)
      let plain := node.answer (.forkchoiceUpdated version choice none wantWitness)
      ordered.2.withoutOrders = plain.2.withoutOrders ∧
        ((∃ e, ordered.1 = .error e) → ordered.2.payloads = node.payloads) := by
  constructor
  · intro call e rejected
    have refused : EngineM.Ensures call.program node [] fun result node' logs' =>
        result = .error e ∧ node' = node ∧ logs' = [] := EngineM.rejected_ensures call rejected
    obtain ⟨result, same, logs⟩ := refused
    exact Prod.ext result (Prod.ext same logs)
  · intro version choice order wantWitness accepted
    refine ⟨EngineM.forkchoiceUpdated_agree choice wantWitness accepted [], ?_⟩
    rintro ⟨e, failed⟩
    have ordered := node.answer_forkchoiceUpdated_orders version choice (some order) wantWitness
    rcases ordered.builds with ⟨-, same⟩ | ⟨args, -, named, -⟩
    · exact same
    · rw [failed] at named
      cases named

end Node

namespace PlainOrder

open Siblings

/-- A beacon root is not known to the first version. -/
def rooted : PayloadAttributes := { attributes with parentBeaconBlockRoot := some (.zero 32) }

/-- The transaction cannot be decoded. -/
def unreadable : PayloadAttributes := { attributes with transactions := [[5]] }

/-- The order fails while the chain does not move. -/
theorem unreadable_fails (node : Node) {config : ChainConfig} {synced : Bool} {e : EngineError}
    (hconfig : node.config = config) (hchain : node.chain = { Chain.new config with synced })
    (usual : genesisBlock config = genesis)
    (accepted : ForkchoiceVersion.checkAttributes .v1 config unreadable = .ok ())
    (unposed : EngineM.buildArgs config genesis.hash unreadable .v1 = .error e) :
    (node.answer (.forkchoiceUpdated .v1 choice (some unreadable) false)).1 = .error e := by
  subst hconfig
  have failed : EngineM.Ensures (EngineM.forkchoiceUpdated .v1 choice (some unreadable) false)
      node [] _ := EngineM.forkchoiceUpdated_fails (stays hchain usual) accepted unposed
  exact failed

/-- On a new chain a call is rejected and an order is served. Another order then fails, and the
payload that is waiting stays. -/
theorem order_beside_genesis :
    let refused := Call.forkchoiceUpdated .v1 choice (some rooted) false
    let plain := Call.forkchoiceUpdated .v1 choice none false
    let failing := Call.forkchoiceUpdated .v1 choice (some unreadable) false
    ∃ node served fault e job, node = (Node.new {}).started ∧
      (refused.rejection? node.config = some fault ∧
        refused.program.run.exec node = (.error fault, node, [])) ∧
      (ForkchoiceVersion.checkAttributes .v1 node.config attributes = .ok () ∧
        node.answer call = (.ok (.valid genesis.hash (some args.id)), served) ∧
        served.withoutOrders = (node.answer plain).2.withoutOrders) ∧
      ForkchoiceVersion.checkAttributes .v1 served.config unreadable = .ok () ∧
        (served.answer failing).1 = .error e ∧ served.payloads.get? args.id = some job ∧
        (served.answer failing).2.withoutOrders = (served.answer plain).2.withoutOrders ∧
        (served.answer failing).2.payloads = served.payloads := by
  obtain ⟨job, started⟩ : ∃ job, PayloadJob.start (Node.new {}).started.generator
      (Node.new {}).started.clock args genesis.header false = .ok job := ⟨_, rfl⟩
  obtain ⟨e, unposed⟩ : ∃ e, EngineM.buildArgs {} genesis.hash unreadable .v1 = .error e :=
    ⟨_, rfl⟩
  obtain ⟨fault, refusal⟩ : ∃ fault, Call.rejection? {}
      (.forkchoiceUpdated .v1 choice (some rooted) false) = some fault := ⟨_, rfl⟩
  have accepted : ForkchoiceVersion.checkAttributes .v1 {} attributes = .ok () := rfl
  have accepted' : ForkchoiceVersion.checkAttributes .v1 {} unreadable = .ok () := rfl
  have config : (Node.new {}).started.config = {} := rfl
  have chain : (Node.new {}).started.chain = .new {} := rfl
  have empty : (Node.new {}).started.payloads = {} := rfl
  -- Nothing else of the nodes matters, so they are not looked into.
  generalize (Node.new {}).started = node at *
  obtain ⟨answered, config', chain', waiting⟩ := choice_served node false false config chain rfl
    accepted rfl (offers_new chain rfl empty started)
  rw [← config] at refusal accepted
  obtain ⟨beside, -⟩ := (Node.order_beside_choice node).2 .v1 choice attributes false accepted
  obtain ⟨served, left⟩ : ∃ served,
      (node.answer (.forkchoiceUpdated .v1 choice (some attributes) false)).2 = served := ⟨_, rfl⟩
  rw [left] at config' chain' waiting beside
  have failed := unreadable_fails served config' chain' rfl accepted' unposed
  rw [← config'] at accepted'
  obtain ⟨beside', kept⟩ :=
    (Node.order_beside_choice served).2 .v1 choice unreadable false accepted'
  exact ⟨node, served, fault, e, job, rfl,
    ⟨refusal, (Node.order_beside_choice node).1 _ fault refusal⟩,
    ⟨accepted, Prod.ext answered left, beside⟩,
    accepted', failed, waiting, beside', kept ⟨e, failed⟩⟩

end PlainOrder

end EngineNode
