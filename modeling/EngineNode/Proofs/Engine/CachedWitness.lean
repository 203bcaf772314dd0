import EngineNode.Proofs.Engine.Builds
import EngineNode.Proofs.Engine.Return

/-!
Witnesses of payloads that are named again.

The name of a payload does not tell whether a witness was asked for. A call that asks for the build
of a payload that is there already gets this payload, with a witness or without one as the call that
started it wanted.

* `Node.Retains`: a payload stays in the queue through a run.
* `Node.fetched_witness`: what is fetched has a witness if the call that started the build wanted
  one.
* `PlainOrder.witness_missing`: so a call that wants a witness may get a payload without one.
-/

namespace EngineNode

namespace Node

variable {node : Node} {id : PayloadId}

/-- A payload stays in the queue through a run. -/
def Retains (node : Node) (id : PayloadId) (events : List Event) : Prop :=
  ∀ past, past <+: events → (node.run past).payloads.contains id = true

/-- While a payload stays, none is started under its name. -/
theorem Retains.last?_eq_none {events : List Event} (retains : node.Retains id events) :
    Build.last? (node.builds events) id = none := by
  induction events generalizing node with
  | nil => rfl
  | cons event rest ih =>
      have later : (node.after event).Retains id rest := by
        intro past before
        exact retains (event :: past) (List.cons_prefix_cons.mpr ⟨rfl, before⟩)
      rw [builds, Build.last?_append, ih later, Option.none_or]
      cases starts : node.starts? event with
      | none => rfl
      | some build =>
          have other : build.id ≠ id := by
            rintro rfl
            have there := retains [] List.nil_prefix
            cases (starts?_eq_some_iff.mp starts).2.1.symm.trans there
          rw [Option.toList_some, ← List.nil_append [build], Build.last?_concat, if_neg other]
          rfl

/-- A call that names a payload which was not there has started it. -/
theorem starts?_of_named {version : ForkchoiceVersion} {choice : ForkchoiceState}
    {attributes : Option PayloadAttributes} {wantWitness : Bool} {response : ForkchoiceResponse} :
    let call := Call.forkchoiceUpdated version choice attributes wantWitness
    (node.answer call).1 = .ok response → response.payloadId = some id →
      node.payloads.contains id = false →
      ∃ build, node.starts? (.call call) = some build ∧ build.id = id ∧
        build.wantWitness = wantWitness := by
  intro call answered named new
  have ordered := node.answer_forkchoiceUpdated_orders version choice attributes wantWitness
  obtain ⟨args, asked, rfl⟩ := ordered.asked answered named
  refine ⟨⟨args, wantWitness⟩, starts?_eq_some_iff.mpr ⟨?_, new, ?_⟩, rfl, rfl⟩
  · rw [Event.build?, asked]
    rfl
  · exact ordered.named response args.id answered named

/-- **What is fetched has a witness exactly if the call that started the build wanted one**: the
call that was answered with the name, unless the payload was there already. -/
theorem fetched_witness (node : Node) (events later : List Event) (version : ForkchoiceVersion)
    (choice : ForkchoiceState) (attributes : Option PayloadAttributes) (wantWitness : Bool)
    (response : ForkchoiceResponse) (id : PayloadId) :
    let call := Call.forkchoiceUpdated version choice attributes wantWitness
    let before := node.unordered.run events
    let now := node.unordered.run (events ++ [.call call])
    (before.answer call).1 = .ok response → response.payloadId = some id → now.Retains id later →
    ∃ build, Build.last? (node.unordered.builds (events ++ [.call call])) id = some build ∧
      (before.payloads.contains id = false → build.wantWitness = wantWitness) ∧
      ∀ fetching : GetPayloadVersion, fetching.check id = .ok () →
        ∃ envelope, ((now.run later).answer (.getPayload fetching id)).1 = .ok envelope ∧
          envelope.witness.isSome = build.wantWitness := by
  intro call before now answered named retains
  have there : now.payloads.contains id = true := retains [] List.nil_prefix
  obtain ⟨started, -⟩ := ((node.run_holds (events ++ [.call call])).contains_iff id).mp there
  obtain ⟨build, last⟩ := Option.isSome_iff_exists.mp started
  refine ⟨build, last, ?_, ?_⟩
  · intro new
    obtain ⟨first, starts, same, wanted⟩ := starts?_of_named answered named new
    rw [builds_concat, starts, Option.toList_some, Build.last?_concat, if_pos same] at last
    cases last
    exact wanted
  · intro fetching served
    have holds := node.run_holds (events ++ [.call call] ++ later)
    rw [builds_append, run_append] at holds
    obtain ⟨build', parent, built, usePool, last', -, fetched, realizes, -⟩ :=
      holds.fetches served (retains later (List.prefix_refl _))
    rw [Build.last?_append, retains.last?_eq_none, Option.none_or, last] at last'
    cases last'
    exact ⟨_, fetched, Option.isSome_map.trans realizes.witness⟩

end Node

/-! ### The order with a witness -/

namespace PlainOrder

open Siblings

/-- The order of a payload with a witness. -/
def witnessCall : Call := .forkchoiceUpdated .v1 choice (some attributes) true

/-- On a new chain a payload that was ordered with a witness has one, also when it is ordered again
without. -/
theorem witness_present :
    ((Node.new {}).started.answer witnessCall).1 = .ok (.valid genesis.hash (some args.id)) ∧
      ((Node.new {}).started.run [.call witnessCall]).Retains args.id [.call call] ∧
      (Node.new {}).started.payloads.contains args.id = false ∧
      GetPayloadVersion.check .v1 args.id = .ok () ∧
      ∃ envelope, (((Node.new {}).started.run [.call witnessCall, .call call]).answer
        (.getPayload .v1 args.id)).1 = .ok envelope ∧ envelope.witness.isSome = true := by
  obtain ⟨job, started⟩ : ∃ job, PayloadJob.start (Node.new {}).started.generator
      (Node.new {}).started.clock args genesis.header true = .ok job := ⟨_, rfl⟩
  have config : (Node.new {}).config = {} := rfl
  -- Nothing else of the node matters, so it is not looked into.
  generalize Node.new {} = node at *
  have new : node.started.payloads.contains args.id = false := rfl
  obtain ⟨answered, config', chain, waiting⟩ := choice_served node.started false true config
    (congrArg Chain.new config) rfl rfl rfl
    (offers_new (congrArg Chain.new config) rfl rfl started)
  obtain ⟨-, -, -, waiting'⟩ := choice_served _ true false config' chain rfl rfl rfl
    (.inl waiting)
  have retains : (node.started.run [.call witnessCall]).Retains args.id [.call call] := by
    intro past before
    rcases List.prefix_cons_iff.mp before with rfl | ⟨rest, rfl, none⟩
    · rw [Node.run_nil, Node.run_cons, Node.run_nil, Node.after_call]
      exact Option.isSome_iff_exists.mpr ⟨job, waiting⟩
    · obtain rfl := List.prefix_nil.mp none
      rw [Node.run_cons, Node.run_nil, Node.after_call, Node.run_cons, Node.run_nil,
        Node.after_call]
      exact Option.isSome_iff_exists.mpr ⟨job, waiting'⟩
  obtain ⟨build, -, wanted, fetch⟩ := node.started.fetched_witness [] [.call call] .v1 choice
    (some attributes) true _ args.id answered rfl retains
  have fetched := fetch .v1 check_v1
  rw [wanted new, ← Node.run_append] at fetched
  exact ⟨answered, retains, new, check_v1, fetched⟩

/-- **A witness is missing**: the payload was ordered without one before. -/
theorem witness_missing :
    (((Node.new {}).started.run [.call call]).answer witnessCall).1 =
        .ok (.valid genesis.hash (some args.id)) ∧
      ((Node.new {}).started.run [.call call, .call witnessCall]).payloads.contains args.id =
        true ∧
      ∃ envelope, (((Node.new {}).started.run [.call call, .call witnessCall]).answer
        (.getPayload .v1 args.id)).1 = .ok envelope ∧ envelope.witness = none := by
  obtain ⟨job, started, bare⟩ : ∃ job, PayloadJob.start (Node.new {}).started.generator
      (Node.new {}).started.clock args genesis.header false = .ok job ∧
      job.best.witness = none := ⟨_, rfl, rfl⟩
  have config : (Node.new {}).config = {} := rfl
  generalize Node.new {} = node at *
  have serves : Served node.started {} job :=
    served config (congrArg Chain.new config) rfl rfl rfl rfl started
  obtain ⟨answered, -, -, waiting⟩ := choice_served (node.started.run [.call call]) true true
    ((Node.run_config _ _).trans config) serves.chain rfl rfl rfl (.inl serves.waiting)
  have ran : node.started.run [.call call, .call witnessCall] =
      ((node.started.run [.call call]).answer witnessCall).2 := by
    rw [← Node.after_call, ← Node.run_concat]
    rfl
  rw [ran]
  refine ⟨answered, Option.isSome_iff_exists.mpr ⟨job, waiting⟩, _,
    Node.answer_getPayload_eq_ok_iff.mpr ⟨check_v1, job, waiting, rfl⟩, ?_⟩
  show job.best.witness.map Witness.encode = none
  rw [bare]
  rfl

end PlainOrder

end EngineNode
