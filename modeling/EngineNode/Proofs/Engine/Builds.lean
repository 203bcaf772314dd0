import EngineNode.Proofs.Build.Plan
import EngineNode.Proofs.Engine.Waiting
import Mathlib.Data.List.DropRight

/-!
The builds that a run starts.

A choice starts a build unless one of its name is being built already. The queue holds the payloads
of the latest builds, as many as it has room for, and what it holds under a name comes from the
last build that was started under it.

* `Node.builds`: the builds that a run starts, in order.
* `Node.after_builds`: what one event does to the queue.
* `Node.run_holds`: which payloads are in the queue after a run, and what they carry.
* `Node.Holds.contains_iff`: a payload is there as long as few enough builds have followed it.
* `Node.Holds.fetches`: what is fetched under a name is what the last build under it asked for.
-/

namespace EngineNode

/-! ### Rows of builds -/

/-- A build that a choice asks for. -/
structure Build where
  args : BuildArgs
  wantWitness : Bool

namespace Build

variable {builds : List Build}

/-- The name of the payload. -/
def id (build : Build) : PayloadId := build.args.id

/-- The last build under a name. -/
def last? (builds : List Build) (id : PayloadId) : Option Build :=
  builds.reverse.find? fun build => build.id = id

/-- The builds that follow the last one under a name. -/
def since (builds : List Build) (id : PayloadId) : List Build :=
  builds.rtakeWhile fun build => build.id ≠ id

theorem last?_concat (builds : List Build) (build : Build) (id : PayloadId) :
    last? (builds ++ [build]) id = if build.id = id then some build else last? builds id := by
  simp only [last?, List.reverse_append, List.reverse_singleton, List.singleton_append,
    List.find?_cons]
  by_cases same : build.id = id
  · simp only [same, decide_true, if_true]
  · simp only [same, decide_false, if_false]

theorem last?_append (builds later : List Build) (id : PayloadId) :
    last? (builds ++ later) id = (last? later id).or (last? builds id) := by
  rw [last?, List.reverse_append, List.find?_append]
  rfl

theorem last?_eq_some {build : Build} {id : PayloadId} (last : last? builds id = some build) :
    build ∈ builds ∧ build.id = id := by
  refine ⟨List.mem_reverse.mp (List.mem_of_find?_eq_some last), ?_⟩
  have named := List.find?_some last
  exact of_decide_eq_true named

theorem since_concat (builds : List Build) (build : Build) (id : PayloadId) :
    since (builds ++ [build]) id = if build.id = id then [] else since builds id ++ [build] := by
  simp only [since, List.rtakeWhile_concat, decide_eq_true_eq, ite_not]

/-- What has been dropped from the front of a row matters no more when something is added. -/
theorem rtake_rtake_concat {α : Type} (l : List α) (a : α) (n : Nat) :
    (l.rtake (n + 1) ++ [a]).rtake (n + 1) = (l ++ [a]).rtake (n + 1) := by
  rw [List.rtake_concat_succ, List.rtake_concat_succ]
  simp only [List.rtake_eq_reverse_take_reverse, List.reverse_reverse, List.take_take,
    Nat.min_eq_left (Nat.le_succ n)]

/-- A name is among the latest ones if its last build is not followed by too many. -/
theorem mem_rtake_iff (builds : List Build) (id : PayloadId) (n : Nat) :
    id ∈ (builds.map Build.id).rtake n ↔
      (last? builds id).isSome ∧ (since builds id).length < n := by
  induction builds using List.reverseRecOn generalizing n with
  | nil => simp [last?]
  | append_singleton builds build ih =>
      cases n with
      | zero => simp
      | succ n =>
          rw [List.map_append, List.map_singleton, List.rtake_concat_succ, List.mem_append,
            List.mem_singleton, last?_concat, since_concat]
          by_cases same : build.id = id
          · simp [same]
          · simp [same, Ne.symm same, ih]

end Build

/-- The build that an event asks for. -/
def Event.build? (config : ChainConfig) : Event → Option Build
  | .call (.forkchoiceUpdated version choice attributes wantWitness) =>
    (version.asks? config choice.headBlockHash attributes).map (⟨·, wantWitness⟩)
  | _ => none

namespace Node

/-- The build that an event starts: its payload was not there before. -/
def starts? (node : Node) (event : Event) : Option Build :=
  (event.build? node.config).filter fun build =>
    !node.payloads.contains build.id && (node.after event).payloads.contains build.id

theorem starts?_eq_some_iff {node : Node} {event : Event} {build : Build} :
    node.starts? event = some build ↔ event.build? node.config = some build ∧
      node.payloads.contains build.id = false ∧
      (node.after event).payloads.contains build.id = true := by
  rw [starts?, Option.filter_eq_some_iff, Bool.and_eq_true_iff, Bool.not_eq_true']

/-- The builds that a run starts, in order. -/
def builds (node : Node) : List Event → List Build
  | [] => []
  | event :: events => (node.starts? event).toList ++ (node.after event).builds events

theorem builds_append (node : Node) (events later : List Event) :
    node.builds (events ++ later) = node.builds events ++ (node.run events).builds later := by
  induction events generalizing node with
  | nil => rfl
  | cons event rest ih =>
      rw [List.cons_append, builds, builds, ih, run_cons, List.append_assoc]

theorem builds_concat (node : Node) (events : List Event) (event : Event) :
    node.builds (events ++ [event]) =
      node.builds events ++ ((node.run events).starts? event).toList := by
  rw [builds_append, builds, builds, List.append_nil]

/-- Only builds that are asked for are started. -/
theorem builds_subset (node : Node) (events : List Event) :
    node.builds events ⊆ events.filterMap (Event.build? node.config) := by
  induction events generalizing node with
  | nil => exact List.Subset.refl _
  | cons event rest ih =>
      intro build member
      rw [builds, List.mem_append, Option.mem_toList] at member
      rcases member with first | later
      · exact List.mem_filterMap.mpr
          ⟨event, List.mem_cons_self, (starts?_eq_some_iff.mp first).1⟩
      · have asked := ih _ later
        rw [(node.after_step event).1] at asked
        obtain ⟨other, among, named⟩ := List.mem_filterMap.mp asked
        exact List.mem_filterMap.mpr ⟨other, List.mem_cons_of_mem _ among, named⟩

/-- An event starts at most one build. -/
theorem length_since_builds_le (node : Node) (events : List Event) (id : PayloadId) :
    (Build.since (node.builds events) id).length ≤ events.length := by
  refine (List.rtakeWhile_suffix _ _).length_le.trans ?_
  induction events generalizing node with
  | nil => exact Nat.le_refl _
  | cons event rest ih =>
      have others := ih (node.after event)
      rw [builds, List.length_append, List.length_cons]
      cases node.starts? event with
      | none =>
          rw [Option.toList_none, List.length_nil]
          omega
      | some build =>
          rw [Option.toList_some, List.length_singleton]
          omega

/-! ### One event -/

/-- Nothing is started where the same payloads stay in the queue. -/
theorem starts?_eq_none {node : Node} {event : Event}
    (same : (node.after event).payloads.keys = node.payloads.keys) :
    node.starts? event = none := by
  refine Option.eq_none_iff_forall_ne_some.mpr ?_
  intro build starts
  obtain ⟨-, new, there⟩ := starts?_eq_some_iff.mp starts
  rw [← BoundedMap.mem_keys_iff, same, BoundedMap.mem_keys_iff, new] at there
  cases there

/-- An event starts a build, whose payload then stands behind all others. -/
def StartsBuild (node : Node) (event : Event) (build : Build) (job : PayloadJob) : Prop :=
  node.starts? event = some build ∧ node.payloads.contains build.id = false ∧
  (node.after event).chain.startPayload node.generator node.clock build.args build.wantWitness =
    .ok job ∧
  (node.after event).payloads = node.payloads.insert build.id job

/-- **What one event does to the queue**: payloads go on, and at most one is started. -/
theorem after_builds (node : Node) (event : Event) :
    node.starts? event = none ∧
        node.payloads.Continues node.config node.miner (node.after event).payloads ∨
      ∃ build job, node.StartsBuild event build job := by
  have unchanged (same : (node.after event).payloads = node.payloads) :
      node.starts? event = none ∧
        node.payloads.Continues node.config node.miner (node.after event).payloads := by
    refine ⟨starts?_eq_none (congrArg BoundedMap.keys same), ?_⟩
    rw [same]
    exact .refl node.payloads
  rcases node.after_cases event with beside |
    ⟨version, choice, attributes, wantWitness, rfl⟩ | ⟨version, request, wantWitness, rfl⟩ |
    ⟨bad, rfl⟩ | ⟨mode, rfl⟩ | ⟨miner, rfl⟩
  · exact .inl ⟨starts?_eq_none beside.payloads.keys, beside.payloads⟩
  · have ordered := node.answer_forkchoiceUpdated_orders version choice attributes wantWitness
    rcases ordered.builds with
      ⟨-, same⟩ | ⟨args, asked, -, ⟨-, same⟩ | ⟨new, job, started, same⟩⟩
    · exact .inl (unchanged same)
    · exact .inl (unchanged same)
    · refine .inr ⟨⟨args, wantWitness⟩, job, ?_, new, started, same⟩
      refine starts?_eq_some_iff.mpr ⟨?_, new, ?_⟩
      · rw [Event.build?, asked]
        rfl
      · rw [after_call, same]
        exact Option.isSome_iff_exists.mpr ⟨job, BoundedMap.get?_insert_self _ _ _ (by decide)⟩
  · exact .inl (unchanged (node.answer_newPayload_judges version request wantWitness).1.payloads)
  · exact .inl (unchanged rfl)
  · exact .inl (unchanged rfl)
  · exact .inl (unchanged rfl)

end Node

/-! ### Runs -/

namespace Node

variable {node : Node} {builds : List Build}

/-- The queue holds the payloads of the latest builds, as many as it has room for. Each comes from
the last build under its name. -/
structure Holds (node : Node) (builds : List Build) : Prop where
  keys : node.payloads.keys = (builds.map Build.id).rtake payloadQueueCapacity
  jobs : ∀ id job, node.payloads.get? id = some job →
    ∃ build, Build.last? builds id = some build ∧
      job.Carries node.config node.chain build.args build.wantWitness

/-- One event keeps the queue in this order. -/
theorem Holds.after (holds : node.Holds builds) (event : Event) :
    (node.after event).Holds (builds ++ (node.starts? event).toList) := by
  obtain ⟨config, step⟩ := node.after_step event
  rcases node.after_builds event with ⟨none, continues⟩ | ⟨build, job, starts, new, started, same⟩
  · rw [none, Option.toList_none, List.append_nil]
    constructor
    · rw [continues.keys]
      exact holds.keys
    · intro id job' found
      obtain ⟨job, before, goes⟩ := continues.of_get? found
      obtain ⟨build, last, carries⟩ := holds.jobs id job before
      rw [config]
      exact ⟨build, last, (carries.continues goes).mono fun _ _ => step.blockByHash?⟩
  · rw [starts, Option.toList_some]
    constructor
    · have full : node.payloads.keys.length + 1 - payloadQueueCapacity =
          (node.payloads.keys ++ [build.id]).length - payloadQueueCapacity := by
        rw [List.length_append, List.length_singleton]
      rw [same, BoundedMap.keys_insert new, full, ← List.rtake, holds.keys, List.map_append,
        List.map_singleton]
      exact Build.rtake_rtake_concat _ build.id _
    · intro id job' found
      rw [same] at found
      rcases BoundedMap.get?_of_get?_insert found with ⟨rfl, rfl⟩ | before
      · refine ⟨build, ?_, ?_⟩
        · rw [Build.last?_concat, if_pos rfl]
        · rw [config]
          exact PayloadJob.carries_start started
      · obtain ⟨old, last, carries⟩ := holds.jobs id job' before
        have other : build.id ≠ id := by
          rintro rfl
          rw [BoundedMap.contains, RecencyMap.contains] at new
          cases new.symm.trans (Option.isSome_iff_exists.mpr ⟨job', before⟩)
        refine ⟨old, ?_, ?_⟩
        · rw [Build.last?_concat, if_neg other]
          exact last
        · rw [config]
          exact carries.mono fun _ _ => step.blockByHash?

/-- A node that builds no payloads yet, whatever its chain is. -/
def unordered (node : Node) : Node := { node with payloads := default }

/-- **After every run the queue holds the payloads of the latest builds.** -/
theorem run_holds (node : Node) (events : List Event) :
    (node.unordered.run events).Holds (node.unordered.builds events) := by
  induction events using List.reverseRecOn with
  | nil => exact ⟨rfl, fun _ _ found => by cases found⟩
  | append_singleton events event ih =>
      rw [run_concat, builds_concat]
      exact ih.after event

/-- **A payload is there as long as few enough builds have followed it.** -/
theorem Holds.contains_iff (holds : node.Holds builds) (id : PayloadId) :
    node.payloads.contains id = true ↔
      (Build.last? builds id).isSome ∧ (Build.since builds id).length < payloadQueueCapacity := by
  rw [← BoundedMap.mem_keys_iff, holds.keys, Build.mem_rtake_iff]

/-- **What is fetched under a name is what the last build under it asked for**, on top of its stored
parent. -/
theorem Holds.fetches (holds : node.Holds builds) {id : PayloadId} {fetching : GetPayloadVersion}
    (served : fetching.check id = .ok ()) (there : node.payloads.contains id = true) :
    ∃ build parent, ∃ built : BuiltBlock, ∃ usePool, Build.last? builds id = some build ∧
      node.chain.headerByHash? build.args.parent = some parent ∧
      (node.answer (.getPayload fetching id)).1 = .ok (built.envelope node.config) ∧
      built.Realizes node.config (build.args.plan parent build.wantWitness) usePool ∧
      (build.args.noTxPool = true → usePool = false) := by
  obtain ⟨job, found⟩ := Option.isSome_iff_exists.mp there
  obtain ⟨build, last, carries⟩ := holds.jobs id job found
  obtain ⟨parent, stored, plan⟩ := carries.parent
  obtain ⟨usePool, realizes, demandedOnly⟩ := carries.best
  rw [plan] at realizes
  exact ⟨build, parent, job.best, usePool, last, stored,
    answer_getPayload_eq_ok_iff.mpr ⟨served, job, found, rfl⟩, realizes, demandedOnly⟩

end Node

end EngineNode
