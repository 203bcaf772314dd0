import EngineNode.Proofs.Engine.Admission
import EngineNode.Proofs.Engine.BadChains

/-!
Blocks whose parent is not stored.

Such a block is looked up among the tips of bad chains twice, first itself and then its parent. It
is rejected if one of them is a tip, and otherwise its header is remembered.

* `EngineM.importBlock_orphan`: importing the block comes to what the two lookups come to.
* `EngineM.importBlock_failed`: if the answer to a block is the error of its insertion, then the
  insertion has been tried, and the parent is stored.
-/

namespace EngineNode

/-! ### Two lookups -/

namespace BadChains

variable {chains : BadChains} {chain : Chain} {block : Block}

/-- There is one thing to say of a block that belongs to a bad chain. -/
theorem validationError_of_check {check head : Hash} {status : PayloadStatus}
    (rejected : (chains.check chain check head).1 = some status) :
    status.validationError = some rejectionText := by
  rcases chains.check_cases chain check head with ⟨passes, -⟩ | ⟨bad, -, rejection, -⟩
  · cases rejected.symm.trans passes
  · cases rejected.symm.trans rejection
    rfl

/-- What the lookups of a block without a stored parent come to: it is looked up itself, and then
its parent is. -/
def checkOrphan (chains : BadChains) (chain : Chain) (block : Block) :
    Option PayloadStatus × BadChains :=
  let first := chains.check chain block.hash block.hash
  match first.1 with
  | some status => (some status, first.2.1)
  | none =>
    let second := first.2.1.check chain block.parentHash block.hash
    (second.1, second.2.1)

theorem checkOrphan_of_some {status : PayloadStatus}
    (rejected : (chains.check chain block.hash block.hash).1 = some status) :
    chains.checkOrphan chain block =
      (some status, (chains.check chain block.hash block.hash).2.1) := by
  simp only [checkOrphan, rejected]

theorem checkOrphan_of_none (passes : (chains.check chain block.hash block.hash).1 = none) :
    chains.checkOrphan chain block =
      let second :=
        (chains.check chain block.hash block.hash).2.1.check chain block.parentHash block.hash
      (second.1, second.2.1) := by
  simp only [checkOrphan, passes]

end BadChains

/-! ### What comes of them -/

/-- What comes of a block that cannot be imported, by what the lookups have said: either the block
is rejected, or its header is remembered. -/
structure Node.Delayed (node : Node) (block : Block) (verdict : Option PayloadStatus × BadChains)
    (result : Except EngineError PayloadStatus) (node' : Node) : Prop where
  kept : node.SameChain node'
  badChains : node'.badChains = verdict.2
  result : result = .ok (verdict.1.getD .syncing)
  remoteHeaders : node'.remoteHeaders =
    if verdict.1.isSome then node.remoteHeaders
    else node.remoteHeaders.insert block.hash block.header

/-- What an insertion finds wrong with a block that is no later than its parent. -/
theorem Chain.insert_early {config : ChainConfig} {chain : Chain} {block parent : Block}
    {wantWitness : Bool} {error : ChainError}
    (stored : chain.blockByHash? block.parentHash = some parent)
    (early : block.timestamp ≤ parent.timestamp)
    (refused : chain.insert config block wantWitness = .error error) :
    (∃ hash, error = .parentStateMissing hash) ∨ error = .overflow ∨
      (∃ before given, error = .invalidNumber before given) ∨
      ∃ before given, error = .invalidTimestamp before given := by
  have notLater : ¬parent.header.timestamp < block.header.timestamp := UInt64.not_lt.mpr early
  cases hasState : chain.hasState block.parentHash with
  | false =>
      simp only [insert, parentWithState, hasState, Bool.false_eq_true, if_false,
        error_bind] at refused
      exact .inl ⟨_, (Except.error.inj refused).symm⟩
  | true =>
      simp only [insert, parentWithState, hasState, stored, if_true, ok_bind, validateHeader,
        notLater, if_false] at refused
      cases next : nextNumber? parent.header.number with
      | none =>
          simp only [next] at refused
          exact .inr (.inl (Except.error.inj refused).symm)
      | some number =>
          simp only [next] at refused
          split at refused
          · exact .inr (.inr (.inl ⟨_, _, (Except.error.inj refused).symm⟩))
          · exact .inr (.inr (.inr ⟨_, _, (Except.error.inj refused).symm⟩))

/-- The check before an insertion says less of a block that is too early than the insertion. -/
theorem Chain.message_of_early {config : ChainConfig} {chain : Chain} {block parent : Block}
    {wantWitness : Bool} {error : ChainError}
    (stored : chain.blockByHash? block.parentHash = some parent)
    (early : block.timestamp ≤ parent.timestamp)
    (refused : chain.insert config block wantWitness = .error error) :
    error.message ≠ "invalid timestamp" := by
  suffices other : error.message.toList ≠ "invalid timestamp".toList from
    fun same => other (congrArg _ same)
  rcases insert_early stored early refused with ⟨_, rfl⟩ | rfl | ⟨_, _, rfl⟩ | ⟨_, _, rfl⟩ <;>
    unfold ChainError.message <;> simp [String.toList_append]

namespace EngineM

open NodeM BadChains

variable {node : Node} {logs : List LogEntry} {block : Block} {request : PayloadRequest}
  {version : NewPayloadVersion} {wantWitness : Bool}

theorem checkBadChains_looks (node : Node) (logs : List LogEntry) (check head : Hash) :
    NodeM.Ensures (checkBadChains check head) node logs fun status node' _ =>
      node.SameChain node' ∧ node'.remoteHeaders = node.remoteHeaders ∧
        node'.badChains = (node.badChains.check node.chain check head).2.1 ∧
        status = (node.badChains.check node.chain check head).1 :=
  ⟨⟨rfl, rfl⟩, rfl, rfl, rfl⟩

theorem delayImport_delays (node : Node) (logs : List LogEntry) (block : Block) :
    Ensures (delayImport block) node logs fun result node' _ =>
      let second := node.badChains.check node.chain block.parentHash block.hash
      node.Delayed block (second.1, second.2.1) result node' := by
  simp only [delayImport, ensures_bind, ensures_lift]
  refine (checkBadChains_looks node logs _ _).mono ?_
  rintro status node' logs' ⟨kept, headers, badChains, rfl⟩
  cases (node.badChains.check node.chain block.parentHash block.hash).1 with
  | some status => exact ⟨kept, badChains, rfl, headers⟩
  | none =>
      simp only [ensures_bind, ensures_get, rememberHeader, ensures_modify]
      have remembered := congrArg (·.insert block.hash block.header) headers
      cases node'.downloader.extend node'.chain.syncMode block.header with
      | ok downloader => exact ⟨⟨kept.config, kept.chain⟩, badChains, rfl, remembered⟩
      | error e =>
          simp only
          split <;> exact ⟨⟨kept.config, kept.chain⟩, badChains, rfl, remembered⟩

/-- **A block whose parent is not stored** is looked up twice, and is either rejected or put off. -/
theorem importBlock_orphan (fresh : node.chain.blockByHash? block.hash = none)
    (orphan : node.chain.blockByHash? block.parentHash = none) :
    Ensures (importBlock block wantWitness) node logs fun result node' _ =>
      node.Delayed block (node.badChains.checkOrphan node.chain block) result node' := by
  simp only [importBlock, ensures_bind, ensures_modify, ensures_get, fresh, ensures_lift]
  refine (checkBadChains_looks _ logs _ _).mono ?_
  rintro status node' logs' ⟨kept, headers, badChains, rfl⟩
  cases first : (node.badChains.check node.chain block.hash block.hash).1 with
  | some status =>
      rw [checkOrphan_of_some first]
      exact ⟨⟨kept.config, kept.chain⟩, badChains, rfl, headers⟩
  | none =>
      rw [checkOrphan_of_none first]
      simp only [orphan]
      refine (delayImport_delays node' logs' block).mono ?_
      intro result node'' _ delayed
      have chain : node'.chain = node.chain := kept.chain
      have headers : node'.remoteHeaders = node.remoteHeaders := headers
      simp only [badChains, chain] at delayed
      obtain ⟨kept', badChains', result, headers'⟩ := delayed
      rw [headers] at headers'
      exact ⟨.trans ⟨kept.config, kept.chain⟩ kept', badChains', result, headers'⟩

/-- Nothing is said against a block that is put off but that it links to a bad one. -/
theorem delayImport_text (node : Node) (logs : List LogEntry) (block : Block) :
    Ensures (delayImport block) node logs fun result _ _ =>
      ∀ status, result = .ok status →
        status.validationError = none ∨ status.validationError = some rejectionText := by
  refine (delayImport_delays node logs block).mono ?_
  rintro result node' _ ⟨-, -, rfl, -⟩
  refine of_eq_ok ?_
  cases second : (node.badChains.check node.chain block.parentHash block.hash).1 with
  | none => exact .inl rfl
  | some status => exact .inr (validationError_of_check second)

/-- If a block fails on its stored parent, and the answer is the error of its insertion, then the
insertion has been tried. -/
theorem importOn_failed {parent : Block} {error : ChainError}
    (stored : node.chain.blockByHash? block.parentHash = some parent)
    (refused : node.chain.insert node.config block wantWitness = .error error) :
    Ensures (importOn block parent wantWitness) node logs fun result node' _ =>
      result = .ok (.invalid error.message (some parent.header)) →
        node.SameChain node' ∧
          node'.badChains = node.badChains.recordFailure block.header := by
  simp only [importOn, ensures_bind, ensures_get]
  split
  · rename_i early
    intro same
    have text := congrArg PayloadStatus.validationError (Except.ok.inj same)
    exact absurd (Option.some.inj text).symm (Chain.message_of_early stored early refused)
  · split
    · refine (delayImport_text node logs block).mono ?_
      intro result node' _ answers same
      rcases answers _ same with silent | linked
      · cases silent
      · exact absurd (Option.some.inj linked) (ne_rejectionText_of_head error.message_head)
    · split
      · by_cases bounded : error = .overflow
        · simp only [execute, ensures_bind, ensures_get, refused, bounded]
          intro same
          cases same
        · refine (execute_fails refused bounded).mono ?_
          rintro _ node' _ ⟨-, kept, -, recorded⟩ -
          exact ⟨kept, recorded⟩
      · intro same
        cases same

/-- **If the answer is the error of an insertion**, then the insertion has been tried, and the block
is the newest tip. -/
theorem importBlock_failed {parent : Block} {error : ChainError}
    (stored : node.chain.blockByHash? block.parentHash = some parent)
    (refused : node.chain.insert node.config block wantWitness = .error error) :
    Ensures (importBlock block wantWitness) node logs fun result node' _ =>
      result = .ok (.invalid error.message (some parent.header)) →
        node.SameChain node' ∧ node.chain.blockByHash? block.hash = none ∧
          ∃ chains : BadChains, node'.badChains = chains.recordFailure block.header := by
  simp only [importBlock, ensures_bind, ensures_modify, ensures_get]
  cases fresh : node.chain.blockByHash? block.hash with
  | some known =>
      intro same
      cases same
  | none =>
      simp only [ensures_bind, ensures_lift, stored]
      refine (checkBadChains_looks _ logs _ _).mono ?_
      rintro status node' logs' ⟨⟨config, chain⟩, -, -, rfl⟩
      split
      · rename_i status rejected
        intro same
        have text := validationError_of_check rejected
        rw [Except.ok.inj same] at text
        exact absurd (Option.some.inj text) (ne_rejectionText_of_head error.message_head)
      · rw [show node.chain = node'.chain from chain.symm] at stored refused
        rw [show node.config = node'.config from config.symm] at refused
        refine (importOn_failed stored refused).mono ?_
        intro result node'' _ failed same
        obtain ⟨kept, recorded⟩ := failed same
        exact ⟨.trans ⟨config, chain⟩ kept, trivial, _, recorded⟩

/-- A payload that can be converted comes to what its block comes to. -/
theorem newPayload_of_presents {post : Except EngineError PayloadStatus → Node → Prop}
    (presents : request.Presents version node.config wantWitness block)
    (imported : Ensures (importBlock block wantWitness) node logs fun result node' _ =>
      post result node' ∧ ∀ change, post result (node'.count change)) :
    Ensures (newPayload version request wantWitness) node logs fun result node' _ =>
      post result node' := by
  simp only [newPayload, ensures_bind, ensures_get, ensures_liftExcept, presents.accepted,
    presents.ordered, importPayload, presents.plain, presents.converted]
  refine imported.mono ?_
  rintro (e | status) node' logs' ⟨holds, counted⟩
  · exact holds
  · exact counted _

end EngineM

namespace Node

variable {node : Node} {request : PayloadRequest} {version : NewPayloadVersion} {wantWitness : Bool}
  {block parent : Block} {error : ChainError}

theorem answer_orphan (presents : request.Presents version node.config wantWitness block)
    (fresh : node.chain.blockByHash? block.hash = none)
    (orphan : node.chain.blockByHash? block.parentHash = none) :
    node.Delayed block (node.badChains.checkOrphan node.chain block)
      (node.answer (.newPayload version request wantWitness)).1
      (node.answer (.newPayload version request wantWitness)).2 := by
  refine EngineM.newPayload_of_presents presents
    ((EngineM.importBlock_orphan fresh orphan).mono fun _ _ _ delayed => ⟨delayed, fun _ => ?_⟩)
  exact ⟨⟨delayed.kept.config, delayed.kept.chain⟩, delayed.badChains, delayed.result,
    delayed.remoteHeaders⟩

theorem answer_failed (presents : request.Presents version node.config wantWitness block)
    (stored : node.chain.blockByHash? block.parentHash = some parent)
    (refused : node.chain.insert node.config block wantWitness = .error error) :
    (node.answer (.newPayload version request wantWitness)).1 =
      .ok (.invalid error.message (some parent.header)) →
    node.SameChain (node.answer (.newPayload version request wantWitness)).2 ∧
      node.chain.blockByHash? block.hash = none ∧
      ∃ chains : BadChains,
        (node.answer (.newPayload version request wantWitness)).2.badChains =
          chains.recordFailure block.header :=
  EngineM.newPayload_of_presents presents
    ((EngineM.importBlock_failed stored refused).mono fun _ _ _ tried =>
      ⟨tried, fun _ same => ⟨⟨(tried same).1.config, (tried same).1.chain⟩, (tried same).2⟩⟩)

end Node

end EngineNode
