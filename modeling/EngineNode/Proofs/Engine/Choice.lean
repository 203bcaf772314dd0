import EngineNode.Proofs.Engine.Ensures

/-!
What a choice of the head does to the chain.

The method that follows a choice has many exits, and some of them leave a part of the choice
followed. Here they are told apart by what they do to the chain:

* `Chosen` lists them: nothing happens and the answer is not that the head is valid; an old head is
  passed over; or a head is made and the final and the safe block are recorded as far as they are
  canonical (`HeadMade`, `FinalityRecorded`).
* `forkchoiceUpdated_ensures`: every call is one of these, whatever comes with it.
* `Chosen.eq_of_followable`: a choice without attributes that can be followed is followed.
-/

namespace EngineNode

namespace Chain

/-- The block of a hash, if it is canonical. -/
def canonicalBlock? (chain : Chain) (hash : Hash) : Option Block :=
  (chain.blockByHash? hash).filter fun block => chain.isCanonical block.number hash

/-- Records the block of a hash with `mark`, if there is one to record and it is canonical. -/
def record? (mark : Chain → Header → Chain) (chain : Chain) (hash : Hash) : Option Chain :=
  if hash.isZero then some chain
  else (chain.canonicalBlock? hash).map fun block => mark chain block.header

@[simp] theorem record?_zero (mark : Chain → Header → Chain) (chain : Chain) :
    chain.record? mark (.zero 32) = some chain := by
  unfold record?
  exact if_pos (by decide)

/-- What recording the final and the safe block of a choice comes to. `done` says whether both are
canonical; if the safe one alone is not, the final one stays recorded. -/
inductive FinalityRecorded (choice : ForkchoiceState) (chain : Chain) :
    (done : Bool) → Chain → Prop where
  | notFinal : chain.record? setFinalized choice.finalizedBlockHash = none →
      FinalityRecorded choice chain false chain
  | notSafe {final : Chain} :
      chain.record? setFinalized choice.finalizedBlockHash = some final →
      final.record? setSafe choice.safeBlockHash = none → FinalityRecorded choice chain false final
  | done {final safe : Chain} :
      chain.record? setFinalized choice.finalizedBlockHash = some final →
      final.record? setSafe choice.safeBlockHash = some safe →
      FinalityRecorded choice chain true safe

/-- What making a stored block the head comes to: the result says whether the choice is followed
any further. -/
inductive HeadMade (rollup : Bool) (chain : Chain) (head : Block) :
    Except EngineError Bool → Chain → Prop where
  | kept : chain.isCanonical head.number head.hash = true →
      (chain.currentHeader.hash = head.hash ∨ rollup = true) →
      HeadMade rollup chain head (.ok true) chain
  | ignored : chain.isCanonical head.number head.hash = true →
      ¬(chain.currentHeader.hash = head.hash ∨ rollup = true) →
      HeadMade rollup chain head (.ok false) chain
  | moved {chain' : Chain} {logs : List LogEntry} :
      ¬chain.isCanonical head.number head.hash = true →
      chain.setCanonical head.hash = .ok (chain', logs) →
      HeadMade rollup chain head (.ok true) chain'
  | failed {failure : CanonicalFailure} : ¬chain.isCanonical head.number head.hash = true →
      chain.setCanonical head.hash = .error failure →
      HeadMade rollup chain head (.error (.internal (.canonical failure.error))) chain

/-- Nothing but the attributes stands in the way of a choice. -/
def Followable (config : ChainConfig) (chain : Chain) (choice : ForkchoiceState) : Prop :=
  choice.headBlockHash.isZero = false ∧ ∃ head followed made,
    chain.blockByHash? choice.headBlockHash = some head ∧ head.header.isPreMerge = false ∧
      HeadMade config.isRollup chain head (.ok followed) made

/-- What following a choice comes to: the result and the chain afterwards. -/
inductive Chosen (config : ChainConfig) (chain : Chain) (choice : ForkchoiceState)
    (attributes : Option PayloadAttributes) :
    Except EngineError ForkchoiceResponse → Chain → Prop where
  | refused {result : Except EngineError ForkchoiceResponse} :
      (attributes = none → ¬chain.Followable config choice) →
      (∀ response, result = .ok response → response.payloadStatus.status ≠ .valid) →
      Chosen config chain choice attributes result chain
  | ignored {head : Block} : chain.blockByHash? choice.headBlockHash = some head →
      HeadMade config.isRollup chain head (.ok false) chain →
      Chosen config chain choice attributes (.ok (.valid choice.headBlockHash none)) chain
  | followed {head : Block} {made recorded : Chain} {done : Bool}
      {result : Except EngineError ForkchoiceResponse} :
      chain.blockByHash? choice.headBlockHash = some head →
      HeadMade config.isRollup chain head (.ok true) made →
      FinalityRecorded choice { made with synced := true } done recorded →
      (∀ response, result = .ok response →
        done = true ∧ ∃ id, response = .valid choice.headBlockHash id) →
      (attributes = none → done = true → result = .ok (.valid choice.headBlockHash none)) →
      Chosen config chain choice attributes result recorded

theorem HeadMade.unique {rollup : Bool} {chain made made' : Chain} {head : Block}
    {result result' : Except EngineError Bool} (first : HeadMade rollup chain head result made)
    (second : HeadMade rollup chain head result' made') : result = result' ∧ made = made' := by
  cases first <;> cases second <;> simp_all

theorem FinalityRecorded.unique {choice : ForkchoiceState} {chain recorded recorded' : Chain}
    {done done' : Bool} (first : FinalityRecorded choice chain done recorded)
    (second : FinalityRecorded choice chain done' recorded') :
    done = done' ∧ recorded = recorded' := by
  cases first <;> cases second <;> simp_all

/-- **A choice that can be followed is followed**, unless attributes come with it. -/
theorem Chosen.eq_of_followable {config : ChainConfig} {chain made recorded recorded' : Chain}
    {choice : ForkchoiceState} {head : Block} {result : Except EngineError ForkchoiceResponse}
    (notZero : choice.headBlockHash.isZero = false)
    (stored : chain.blockByHash? choice.headBlockHash = some head)
    (postMerge : head.header.isPreMerge = false)
    (hmade : HeadMade config.isRollup chain head (.ok true) made)
    (hrecorded : FinalityRecorded choice { made with synced := true } true recorded)
    (chosen : Chosen config chain choice none result recorded') :
    result = .ok (.valid choice.headBlockHash none) ∧ recorded' = recorded := by
  cases chosen with
  | refused reason _ =>
      exact absurd ⟨notZero, head, true, made, stored, postMerge, hmade⟩ (reason rfl)
  | ignored stored' ignored =>
      cases stored.symm.trans stored'
      cases (hmade.unique ignored).1
  | followed stored' hmade' hrecorded' _ answered =>
      cases stored.symm.trans stored'
      obtain ⟨-, rfl⟩ := hmade.unique hmade'
      obtain ⟨rfl, rfl⟩ := hrecorded.unique hrecorded'
      exact ⟨answered rfl rfl, rfl⟩

theorem canonicalBlock?_eq_some_iff {chain : Chain} {hash : Hash} {block : Block} :
    chain.canonicalBlock? hash = some block ↔
      chain.blockByHash? hash = some block ∧ chain.isCanonical block.number hash = true := by
  simp [canonicalBlock?, Option.filter_eq_some_iff]

end Chain

/-- The verdict that a payload is invalid is another one than that it is valid. -/
theorem PayloadStatus.not_valid_of_invalid {status : PayloadStatus}
    (invalid : status.status = .invalid) : status.status ≠ .valid := by
  rw [invalid]
  decide

/-- A rejection of a bad chain is never the answer that a block is valid. -/
theorem BadChains.not_valid_of_check {chains : BadChains} {chain : Chain} {check head : Hash}
    {status : PayloadStatus} (rejected : (chains.check chain check head).1 = some status) :
    status.status ≠ .valid := by
  unfold BadChains.check at rejected
  split at rejected
  · cases rejected
  · simp only at rejected
    split at rejected
    · cases rejected
    · split at rejected <;>
        · cases rejected
          exact PayloadStatus.not_valid_of_invalid rfl

namespace NodeM

theorem checkBadChains_ensures (node : Node) (logs : List LogEntry) (check head : Hash) :
    Ensures (checkBadChains check head) node logs fun status node' _ =>
      node.SameChain node' ∧ node'.badChains = (node.badChains.check node.chain check head).2.1 ∧
        status = (node.badChains.check node.chain check head).1 :=
  ⟨⟨rfl, rfl⟩, rfl, rfl⟩

theorem reportHead_ensures (node : Node) (logs : List LogEntry) :
    Ensures reportHead node logs fun _ node' _ => node.SameChain node' :=
  ⟨rfl, rfl⟩

end NodeM

namespace EngineM

open NodeM Chain

variable {node : Node} {logs : List LogEntry}

theorem canonicalBlock_ensures (node : Node) (logs : List LogEntry) (hash : Hash)
    (label : String) :
    Ensures (canonicalBlock hash label) node logs fun result node' _ =>
      node' = node ∧ result.toOption = node.chain.canonicalBlock? hash := by
  simp only [canonicalBlock, ensures_bind, ensures_get]
  cases stored : node.chain.blockByHash? hash with
  | none => exact ⟨rfl, by simp [canonicalBlock?, stored]; rfl⟩
  | some block =>
      simp only
      split
      · rename_i canonical
        exact ⟨rfl, (canonicalBlock?_eq_some_iff.mpr ⟨stored, canonical⟩).symm⟩
      · rename_i other
        have none : node.chain.canonicalBlock? hash = none := by
          simp only [canonicalBlock?, stored, Option.filter, other, Bool.false_eq_true, if_false]
        exact ⟨rfl, none.symm⟩

/-- Records the block of a hash, which `label` names, with `mark`. -/
def recordCanonical (mark : Chain → Header → Chain) (hash : Hash) (label : String) :
    EngineM Unit := do
  unless hash.isZero do
    let block ← canonicalBlock hash label
    modify fun node => { node with chain := mark node.chain block.header }

theorem recordCanonical_ensures (node : Node) (logs : List LogEntry)
    (mark : Chain → Header → Chain) (hash : Hash) (label : String) :
    Ensures (recordCanonical mark hash label) node logs fun result node' _ =>
      match node.chain.record? mark hash with
      | some chain => result = .ok () ∧ node' = { node with chain }
      | none => (∃ e, result = .error e) ∧ node' = node := by
  unfold recordCanonical record?
  split
  · exact ⟨rfl, rfl⟩
  · rw [ensures_bind]
    refine (canonicalBlock_ensures node logs hash label).mono ?_
    rintro result node' logs' ⟨rfl, found⟩
    rw [← found]
    cases result with
    | ok block => exact ⟨rfl, rfl⟩
    | error e => exact ⟨⟨e, rfl⟩, rfl⟩

theorem recordFinality_eq (choice : ForkchoiceState) :
    recordFinality choice =
      recordCanonical setFinalized choice.finalizedBlockHash "final" >>= fun _ =>
        recordCanonical setSafe choice.safeBlockHash "safe" := by
  unfold recordFinality recordCanonical
  by_cases zero : choice.finalizedBlockHash.isZero = true
  · simp only [zero, if_true, pure_bind]
  · simp only [zero, Bool.false_eq_true, if_false, bind_assoc]

theorem recordFinality_ensures (node : Node) (logs : List LogEntry) (choice : ForkchoiceState) :
    Ensures (recordFinality choice) node logs fun result node' _ =>
      ∃ chain done, node' = { node with chain } ∧ FinalityRecorded choice node.chain done chain ∧
        (done = true ↔ result = .ok ()) := by
  rw [recordFinality_eq, ensures_bind]
  refine (recordCanonical_ensures node logs _ _ _).mono ?_
  intro result node' logs' recorded
  cases hfinal : node.chain.record? setFinalized choice.finalizedBlockHash with
  | none =>
      simp only [hfinal] at recorded
      obtain ⟨⟨e, rfl⟩, rfl⟩ := recorded
      exact ⟨_, false, rfl, .notFinal hfinal, by simp⟩
  | some final =>
      simp only [hfinal] at recorded
      obtain ⟨rfl, rfl⟩ := recorded
      refine (recordCanonical_ensures _ logs' _ _ _).mono ?_
      intro result node' logs'' recorded
      cases hsafe : final.record? setSafe choice.safeBlockHash with
      | none =>
          simp only [hsafe] at recorded
          obtain ⟨⟨e, rfl⟩, rfl⟩ := recorded
          exact ⟨_, false, rfl, .notSafe hfinal hsafe, by simp⟩
      | some safe =>
          simp only [hsafe] at recorded
          obtain ⟨rfl, rfl⟩ := recorded
          exact ⟨_, true, rfl, .done hfinal hsafe, by simp⟩

theorem isPastMerge_ensures (node : Node) (logs : List LogEntry) (head : Block) :
    Ensures (isPastMerge head) node logs fun result node' _ =>
      node' = node ∧ (head.header.isPreMerge = false → result = .ok false) := by
  unfold isPastMerge
  split
  · rename_i preMerge
    have unmerged : head.header.isPreMerge = false → False := by simp [preMerge.1]
    simp only [ensures_bind, ensures_get]
    split <;> exact ⟨rfl, fun merged => (unmerged merged).elim⟩
  · exact ⟨rfl, fun _ => rfl⟩

theorem makeHead_ensures (node : Node) (logs : List LogEntry) (head : Block) :
    Ensures (makeHead head) node logs fun result node' _ =>
      ∃ chain, node' = { node with chain } ∧
        HeadMade node.config.isRollup node.chain head result chain := by
  simp only [makeHead, ensures_bind, ensures_get]
  split
  · rename_i canonical
    split
    · rename_i kept
      exact ⟨node.chain, rfl, .kept canonical kept⟩
    · rename_i old
      exact ⟨node.chain, rfl, .ignored canonical old⟩
  · rename_i other
    cases moved : node.chain.setCanonical head.hash with
    | ok result => exact ⟨result.1, rfl, .moved other moved⟩
    | error e => exact ⟨node.chain, rfl, .failed other moved⟩

/-- Nothing that is done for an order touches the chain. -/
theorem startPayload_ensures (node : Node) (logs : List LogEntry) (parent : Hash)
    (attributes : PayloadAttributes) (version : ForkchoiceVersion) (wantWitness : Bool) :
    Ensures (startPayload parent attributes version wantWitness) node logs fun _ node' _ =>
      node.SameChain node' := by
  simp only [startPayload, ensures_bind, ensures_get, ensures_liftExcept]
  cases buildArgs node.config parent attributes version with
  | error e => exact ⟨rfl, rfl⟩
  | ok args =>
      simp only
      split
      · exact ⟨rfl, rfl⟩
      · cases node.chain.startPayload node.generator node.clock args wantWitness with
        | ok job => exact ⟨rfl, rfl⟩
        | error e => cases e <;> exact ⟨rfl, rfl⟩

/-- A choice that is followed is answered with the head as the newest valid block. -/
theorem answer_ensures (node : Node) (logs : List LogEntry) (head : Hash)
    (attributes : Option PayloadAttributes) (version : ForkchoiceVersion) (wantWitness : Bool) :
    Ensures (match attributes with
      | none => pure (ForkchoiceResponse.valid head none)
      | some attributes => do
        let id ← startPayload head attributes version wantWitness
        return ForkchoiceResponse.valid head (some id)) node logs fun result node' _ =>
      node.SameChain node' ∧
        (∀ response, result = .ok response → ∃ id, response = .valid head id) ∧
        (attributes = none → result = .ok (.valid head none)) := by
  cases attributes with
  | none =>
      exact ⟨⟨rfl, rfl⟩, of_eq_ok ⟨none, rfl⟩, fun _ => rfl⟩
  | some attributes =>
      refine ensures_bind.mpr ((startPayload_ensures node logs _ _ _ _).mono ?_)
      intro started node' logs kept
      cases started with
      | error e => exact ⟨kept, of_error_eq_ok, by simp⟩
      | ok id =>
          exact ⟨kept, of_eq_ok ⟨some id, rfl⟩, by simp⟩

theorem syncToUnknownHead_ensures (node : Node) (logs : List LogEntry) (head finalized : Hash) :
    Ensures (syncToUnknownHead head finalized) node logs fun result node' _ =>
      node.SameChain node' ∧
        ∀ response, result = .ok response → response.payloadStatus.status ≠ .valid := by
  simp only [syncToUnknownHead, ensures_bind, ensures_lift]
  refine (checkBadChains_ensures node logs head head).mono ?_
  rintro status node' logs' ⟨kept, -, rfl⟩
  cases rejected : (node.badChains.check node.chain head head).1 with
  | some status =>
      exact ⟨kept, of_eq_ok (BadChains.not_valid_of_check rejected)⟩
  | none =>
      cases known : node'.remoteHeaders.get? head with
      | none =>
          simp only [ensures_bind, ensures_get, known]
          exact ⟨kept, of_eq_ok (by decide)⟩
      | some header =>
          simp only [ensures_bind, ensures_get, known, ensures_lift, ensures_logWithHead]
          split
          · exact ⟨kept, of_error_eq_ok⟩
          · exact ⟨⟨kept.config, kept.chain⟩, of_eq_ok (by decide)⟩

theorem chooseStoredHead_ensures (node : Node) (logs : List LogEntry) {head : Block}
    {version : ForkchoiceVersion} {choice : ForkchoiceState}
    {attributes : Option PayloadAttributes} {wantWitness : Bool}
    (stored : node.chain.blockByHash? choice.headBlockHash = some head) :
    Ensures (chooseStoredHead head version choice attributes wantWitness) node logs
      fun result node' _ => node'.config = node.config ∧
        Chosen node.config node.chain choice attributes result node'.chain := by
  unfold chooseStoredHead
  rw [ensures_bind]
  refine (isPastMerge_ensures node logs head).mono ?_
  rintro past node logs ⟨rfl, merged⟩
  -- A head that is refused for its place at the merge cannot be followed.
  have unmerged : past ≠ .ok false → ¬node.chain.Followable node.config choice := by
    rintro other ⟨-, head', -, -, stored', postMerge, -⟩
    cases stored.symm.trans stored'
    exact other (merged postMerge)
  rcases past with e | _ | _
  · exact ⟨rfl, .refused (fun _ => unmerged (by simp)) of_error_eq_ok⟩
  · simp only [Bool.false_eq_true, if_false, ensures_bind]
    refine (makeHead_ensures _ logs head).mono ?_
    rintro followed _ logs ⟨made, rfl, hmade⟩
    rcases followed with e | _ | _
    · have failed : ¬node.chain.Followable node.config choice := by
        rintro ⟨-, head', _, _, stored', -, hmade'⟩
        cases stored.symm.trans stored'
        cases (hmade.unique hmade').1
      cases hmade
      exact ⟨rfl, .refused (fun _ => failed) of_error_eq_ok⟩
    · cases hmade with
      | ignored canonical old => exact ⟨rfl, .ignored stored (.ignored canonical old)⟩
    · simp only [if_true, ensures_bind, ensures_modify, ensures_lift]
      refine NodeM.Ensures.mono (reportHead_ensures _ logs) ?_
      rintro _ node' logs' ⟨config, chain⟩
      refine (recordFinality_ensures node' logs' choice).mono ?_
      rintro checked _ logs ⟨recorded, done, rfl, hrecorded, hdone⟩
      rw [chain] at hrecorded
      cases checked with
      | error e =>
          refine ⟨config, .followed stored hmade hrecorded of_error_eq_ok ?_⟩
          intro _ recordedBoth
          exact absurd (hdone.mp recordedBoth) (by simp)
      | ok _ =>
          refine (answer_ensures _ logs choice.headBlockHash _ _ _).mono ?_
          rintro result node'' logs ⟨⟨config', chain'⟩, answered, unordered⟩
          exact ⟨config'.trans config, chain' ▸ .followed stored hmade hrecorded
            (fun response same => ⟨hdone.mpr rfl, answered response same⟩)
            fun none _ => unordered none⟩
  · exact ⟨rfl, .refused (fun _ => unmerged (by simp)) (of_eq_ok (by decide))⟩

theorem choose_ensures (node : Node) (logs : List LogEntry) (version : ForkchoiceVersion)
    (choice : ForkchoiceState) (attributes : Option PayloadAttributes) (wantWitness : Bool) :
    Ensures (choose version choice attributes wantWitness) node logs fun result node' _ =>
      node'.config = node.config ∧
        Chosen node.config node.chain choice attributes result node'.chain := by
  unfold choose
  split
  · rename_i zero
    have notFollowable : ¬node.chain.Followable node.config choice := by
      intro followable
      exact absurd (zero.symm.trans followable.1) (by decide)
    exact ⟨rfl, .refused (fun _ => notFollowable) (of_eq_ok (by decide))⟩
  · simp only [ensures_bind, ensures_modify, ensures_get]
    cases stored : node.chain.blockByHash? choice.headBlockHash with
    | none =>
        have unknown : ¬node.chain.Followable node.config choice := by
          rintro ⟨-, head, _, _, stored', -⟩
          cases stored.symm.trans stored'
        refine (syncToUnknownHead_ensures _ logs _ _).mono ?_
        rintro result node' logs ⟨⟨config, chain⟩, notValid⟩
        refine ⟨config, ?_⟩
        rw [chain]
        exact .refused (fun _ => unknown) notValid
    | some head => exact chooseStoredHead_ensures _ logs stored

/-- **What a choice does.** -/
theorem forkchoiceUpdated_ensures (node : Node) (logs : List LogEntry)
    (version : ForkchoiceVersion) (choice : ForkchoiceState)
    (attributes : Option PayloadAttributes) (wantWitness : Bool) :
    Ensures (forkchoiceUpdated version choice attributes wantWitness) node logs
      fun result node' _ => node'.config = node.config ∧
        Chosen node.config node.chain choice attributes result node'.chain := by
  have chosen := choose_ensures node logs version choice attributes wantWitness
  unfold forkchoiceUpdated
  cases attributes with
  | none =>
      refine ensures_bind.mpr (chosen.mono ?_)
      rintro result node' logs ⟨config, chosen⟩
      cases result <;> exact ⟨config, chosen⟩
  | some attributes =>
      rw [ensures_bind, ensures_get]
      dsimp only
      rw [ensures_bind, ensures_liftExcept]
      cases version.checkAttributes node.config attributes with
      | error e => exact ⟨rfl, .refused (by simp) of_error_eq_ok⟩
      | ok _ =>
          refine ensures_bind.mpr (chosen.mono ?_)
          rintro result node' logs ⟨config, chosen⟩
          cases result <;> exact ⟨config, chosen⟩

end EngineM

end EngineNode
