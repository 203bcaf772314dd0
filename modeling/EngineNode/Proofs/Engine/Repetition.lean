import EngineNode.Proofs.Engine.Finality

/-!
A choice that is made twice.

The second time a choice takes another way through the program: its head is in place already, or it
is passed over once more. It may even have been followed in part only, up to a final block that
turned out not to be canonical. For choices that order no payload the answer depends on nothing but
the chain, so that it is enough to see that the chain which such a choice leaves calls for the same
answer and is left as it is.

* `Decided`: the answer to such a choice of a stored head, down to the error, and the chain that
  it leaves. `Decided.unique`: a chain has one answer.
* `EngineM.forkchoiceUpdated_decided`: the program gives this answer.
* `Decided.again`: the chain that is left has the same answer, and it is left as it is.
* `Node.choice_repeats`: so it is wherever a run has led.
-/

namespace EngineNode

namespace Chain

/-! ### Answers that the chain decides -/

/-- Whether a head is a proof-of-work block on top of a block from after the merge. -/
def pastMerge (chain : Chain) (head : Block) : Except EngineError Bool :=
  if head.header.isPreMerge ∧ 0 < head.number then
    match chain.headerByHash? head.parentHash with
    | none => .error (.internal .parentUnavailable)
    | some parent => .ok !parent.isPreMerge
  else .ok false

/-- The answer to a choice that is not followed whatever the canonical chain is. -/
def refusal? (chain : Chain) (choice : ForkchoiceState) (head : Block) :
    Option (Except EngineError ForkchoiceResponse) :=
  if choice.headBlockHash.isZero then some (.ok (.ofStatus { status := .invalid }))
  else
    match chain.pastMerge head with
    | .error error => some (.error error)
    | .ok true => some (.ok (.ofStatus { status := .invalidTerminalBlock }))
    | .ok false => none

/-- Checks that the block of a hash, which `label` names, can be recorded. -/
def checkRecord (chain : Chain) (hash : Hash) (label : String) : Except EngineError Unit :=
  if hash.isZero then .ok ()
  else
    match chain.blockByHash? hash with
    | none => .error (.invalidForkchoiceState (label ++ " block not available in database"))
    | some block =>
      if chain.isCanonical block.number hash then .ok ()
      else .error (.invalidForkchoiceState (label ++ " block not in canonical chain"))

/-- Checks that the final and the safe block of a choice can be recorded. -/
def checkFinality (chain : Chain) (choice : ForkchoiceState) : Except EngineError Unit := do
  chain.checkRecord choice.finalizedBlockHash "final"
  chain.checkRecord choice.safeBlockHash "safe"

/-- How a choice goes on from the chain `made`, after its head was made or not. -/
inductive GoesOn (choice : ForkchoiceState) (made : Chain) :
    Except EngineError Bool → Except EngineError ForkchoiceResponse → Chain → Prop where
  | failed {error : EngineError} : GoesOn choice made (.error error) (.error error) made
  | ignored : GoesOn choice made (.ok false) (.ok (.valid choice.headBlockHash none)) made
  | followed {done : Bool} {recorded : Chain} :
      FinalityRecorded choice { made with synced := true } done recorded →
      GoesOn choice made (.ok true)
        (do made.checkFinality choice; return .valid choice.headBlockHash none) recorded

/-- The answer to a choice of a stored head that orders no payload, and the chain that it leaves. -/
inductive Decided (config : ChainConfig) (chain : Chain) (choice : ForkchoiceState) (head : Block) :
    Except EngineError ForkchoiceResponse → Chain → Prop where
  | refused {answer : Except EngineError ForkchoiceResponse} :
      chain.refusal? choice head = some answer → Decided config chain choice head answer chain
  | accepted {followed : Except EngineError Bool} {made left : Chain}
      {answer : Except EngineError ForkchoiceResponse} :
      chain.refusal? choice head = none → HeadMade config.isRollup chain head followed made →
      GoesOn choice made followed answer left → Decided config chain choice head answer left

variable {config : ChainConfig} {chain chain' made left left' : Chain} {root : Hash}
  {choice : ForkchoiceState} {head : Block} {followed : Except EngineError Bool}
  {answer answer' : Except EngineError ForkchoiceResponse}

theorem GoesOn.unique (first : GoesOn choice made followed answer left)
    (second : GoesOn choice made followed answer' left') : answer = answer' ∧ left = left' := by
  cases first with
  | failed =>
      cases second
      exact ⟨rfl, rfl⟩
  | ignored =>
      cases second
      exact ⟨rfl, rfl⟩
  | followed recorded =>
      cases second with
      | followed recorded' => exact ⟨rfl, (recorded.unique recorded').2⟩

/-- **The chain decides what the answer is.** -/
theorem Decided.unique (first : Decided config chain choice head answer left)
    (second : Decided config chain choice head answer' left') :
    answer = answer' ∧ left = left' := by
  cases first with
  | refused refusal =>
      cases second with
      | refused refusal' => exact ⟨Option.some.inj (refusal.symm.trans refusal'), rfl⟩
      | accepted accepted => exact absurd (refusal.symm.trans accepted) nofun
  | accepted accepted hmade goesOn =>
      cases second with
      | refused refusal => exact absurd (refusal.symm.trans accepted) nofun
      | accepted _ hmade' goesOn' =>
          obtain ⟨rfl, rfl⟩ := hmade.unique hmade'
          exact goesOn.unique goesOn'

/-! ### What the answers depend on -/

theorem refusal?_of_blocks (blocks : chain'.blocks = chain.blocks) :
    chain'.refusal? choice head = chain.refusal? choice head := by
  simp only [refusal?, pastMerge, headerByHash?, blockByHash?, blocks]

theorem SameLine.canonicalBlock? (line : chain.SameLine chain') (hash : Hash) :
    chain'.canonicalBlock? hash = chain.canonicalBlock? hash := by
  simp only [Chain.canonicalBlock?, line.blockByHash?, line.isCanonical]

theorem SameLine.checkRecord (line : chain.SameLine chain') (hash : Hash) (label : String) :
    chain'.checkRecord hash label = chain.checkRecord hash label := by
  simp only [Chain.checkRecord, line.blockByHash?, line.isCanonical]

theorem SameLine.checkFinality (line : chain.SameLine chain') (choice : ForkchoiceState) :
    chain'.checkFinality choice = chain.checkFinality choice := by
  simp only [Chain.checkFinality, line.checkRecord]

/-! ### Recording twice -/

section Records

variable {mark : Chain → Header → Chain} {hash : Hash}

/-- A block that was recorded in a field is recorded there again without a change, as long as the
canonical chain and the field stay. -/
theorem record?_again {field : Chain → Option Header}
    (marks : ∀ chain header, field (mark chain header) = some header)
    (keeps : ∀ chain header, field chain = some header → mark chain header = chain)
    {marked : Chain} (recorded : chain.record? mark hash = some marked)
    (line : chain.SameLine chain') (same : field chain' = field marked) :
    chain'.record? mark hash = some chain' := by
  unfold record? at recorded ⊢
  split at recorded
  · rename_i zero
    rw [if_pos zero]
  · rename_i notZero
    obtain ⟨block, found, rfl⟩ := Option.map_eq_some_iff.mp recorded
    rw [if_neg notZero, line.canonicalBlock?, found, Option.map_some,
      keeps chain' block.header (same.trans (marks chain block.header))]

theorem record?_setFinalized_again {final : Chain}
    (recorded : chain.record? setFinalized hash = some final) (line : chain.SameLine chain')
    (same : chain'.finalized = final.finalized) :
    chain'.record? setFinalized hash = some chain' := by
  refine record?_again (fun _ _ => rfl) ?_ recorded line same
  intro chain header finalized
  rw [setFinalized, ← finalized]

theorem record?_setSafe_again {safe : Chain}
    (recorded : chain.record? setSafe hash = some safe) (line : chain.SameLine chain')
    (same : chain'.safe = safe.safe) : chain'.record? setSafe hash = some chain' := by
  refine record?_again (fun _ _ => rfl) ?_ recorded line same
  intro chain header safe
  rw [setSafe, ← safe]

/-- Recording comes to nothing or to a mark. -/
theorem eq_of_record? (recorded : chain.record? mark hash = some chain') :
    chain' = chain ∨ ∃ header, chain' = mark chain header := by
  unfold record? at recorded
  split at recorded
  · cases recorded
    exact .inl rfl
  · obtain ⟨block, -, rfl⟩ := Option.map_eq_some_iff.mp recorded
    exact .inr ⟨block.header, rfl⟩

end Records

namespace FinalityRecorded

variable {done : Bool} {recorded : Chain}

theorem synced (hrecorded : FinalityRecorded choice chain done recorded) :
    recorded.synced = chain.synced := by
  cases hrecorded with
  | notFinal => rfl
  | notSafe hfinal => rcases eq_of_record? hfinal with rfl | ⟨_, rfl⟩ <;> rfl
  | done hfinal hsafe =>
      rcases eq_of_record? hfinal with rfl | ⟨_, rfl⟩ <;>
        rcases eq_of_record? hsafe with rfl | ⟨_, rfl⟩ <;> rfl

/-- **Recording the final and the safe block a second time changes nothing**, and it gets as far as
the first time. -/
theorem again (hrecorded : FinalityRecorded choice chain done recorded) :
    FinalityRecorded choice recorded done recorded := by
  have line := hrecorded.sameLine
  cases hrecorded with
  | notFinal fails => exact .notFinal fails
  | notSafe hfinal fails =>
      exact .notSafe (record?_setFinalized_again hfinal line rfl) fails
  | @done final safe hfinal hsafe =>
      have kept : recorded.finalized = final.finalized := by
        rcases eq_of_record? hsafe with rfl | ⟨_, rfl⟩ <;> rfl
      have later := sameLine_of_record? (sameLine_setSafe final) hsafe
      exact .done (record?_setFinalized_again hfinal line kept)
        (record?_setSafe_again hsafe later rfl)

end FinalityRecorded

/-! ### Deciding twice -/

/-- A head that was made is kept when it is made once more. -/
theorem HeadMade.again (coherent : chain.Coherent root)
    (stored : chain.blockByHash? head.hash = some head)
    (hmade : HeadMade config.isRollup chain head (.ok true) made) (line : made.SameLine left) :
    HeadMade config.isRollup left head (.ok true) left := by
  have canonical : left.isCanonical head.number head.hash = true := by
    rw [line.isCanonical]
    exact (hmade.canonical coherent stored).2.2.1
  refine .kept canonical ?_
  rw [Chain.currentHeader, line.head]
  cases hmade with
  | kept _ follows => exact follows
  | moved _ moves =>
      obtain ⟨head', _, _, stored', -, -, rfl⟩ := setCanonical_eq_ok moves
      cases stored.symm.trans stored'
      exact .inl rfl

/-- **The chain that a choice leaves has the same answer to it and is left as it is.** -/
theorem Decided.again (coherent : chain.Coherent root)
    (stored : chain.blockByHash? head.hash = some head)
    (decided : Decided config chain choice head answer left) :
    Decided config left choice head answer left := by
  cases decided with
  | refused refusal => exact .refused refusal
  | @accepted followed made left answer accepted hmade goesOn =>
      cases goesOn with
      | failed =>
          cases hmade with
          | failed other fails => exact .accepted accepted (.failed other fails) .failed
      | ignored =>
          cases hmade with
          | ignored canonical old => exact .accepted accepted (.ignored canonical old) .ignored
      | @followed done left hrecorded =>
          -- What was recorded does not move the head, so the head is in place the second time.
          have line : made.SameLine left := (sameLine_synced made).trans hrecorded.sameLine
          have accepted' : left.refusal? choice head = none := by
            rw [refusal?_of_blocks (line.blocks.trans (hmade.canonical coherent stored).2.1)]
            exact accepted
          have synced : left.synced = true := hrecorded.synced
          have recorded : FinalityRecorded choice { left with synced := true } done left := by
            rw [show { left with synced := true } = left by rw [← synced]]
            exact hrecorded.again
          rw [← line.checkFinality]
          exact .accepted accepted' (hmade.again coherent stored line) (.followed recorded)

end Chain

namespace EngineM

open NodeM Chain

/-! ### The program -/

theorem isPastMerge_decided (node : Node) (logs : List LogEntry) (head : Block) :
    Ensures (isPastMerge head) node logs fun result node' _ =>
      node' = node ∧ result = node.chain.pastMerge head := by
  unfold isPastMerge pastMerge
  split
  · simp only [ensures_bind, ensures_get]
    cases node.chain.headerByHash? head.parentHash with
    | none => exact ⟨rfl, rfl⟩
    | some parent => exact ⟨rfl, rfl⟩
  · exact ⟨rfl, rfl⟩

theorem recordCanonical_decided (node : Node) (logs : List LogEntry)
    {mark : Chain → Header → Chain}
    (marks : ∀ (chain : Chain) header, chain.SameLine (mark chain header)) (hash : Hash)
    (label : String) :
    Ensures (recordCanonical mark hash label) node logs fun result node' _ =>
      result = node.chain.checkRecord hash label ∧ node.chain.SameLine node'.chain := by
  unfold recordCanonical checkRecord
  split
  · exact ⟨rfl, .refl _⟩
  · simp only [canonicalBlock, ensures_bind, ensures_get]
    cases node.chain.blockByHash? hash with
    | none => exact ⟨rfl, .refl _⟩
    | some block =>
        simp only
        split
        · exact ⟨rfl, marks _ _⟩
        · exact ⟨rfl, .refl _⟩

theorem recordFinality_decided (node : Node) (logs : List LogEntry) (choice : ForkchoiceState) :
    Ensures (recordFinality choice) node logs fun result _ _ =>
      result = node.chain.checkFinality choice := by
  rw [recordFinality_eq, ensures_bind]
  refine (recordCanonical_decided node logs sameLine_setFinalized _ _).mono ?_
  rintro result node' logs' ⟨checked, line⟩
  unfold checkFinality
  rw [← checked]
  cases result with
  | error error => rfl
  | ok _ =>
      refine (recordCanonical_decided node' logs' sameLine_setSafe _ _).mono ?_
      rintro result _ _ ⟨checked, -⟩
      rw [checked, line.checkRecord]
      rfl

theorem chooseStoredHead_decided (node : Node) (logs : List LogEntry) (head : Block)
    (version : ForkchoiceVersion) {choice : ForkchoiceState} (wantWitness : Bool)
    (notZero : choice.headBlockHash.isZero = false) :
    Ensures (chooseStoredHead head version choice none wantWitness) node logs
      fun result node' _ => Decided node.config node.chain choice head result node'.chain := by
  unfold chooseStoredHead
  rw [ensures_bind]
  refine (isPastMerge_decided node logs head).mono ?_
  rintro past node logs ⟨rfl, placed⟩
  rcases past with error | _ | _
  · exact .refused (by simp [refusal?, notZero, ← placed])
  · have accepted : node.chain.refusal? choice head = none := by
      simp [refusal?, notZero, ← placed]
    simp only [Bool.false_eq_true, if_false, ensures_bind]
    refine (makeHead_ensures node logs head).mono ?_
    rintro followed _ logs ⟨made, rfl, hmade⟩
    rcases followed with error | _ | _
    · exact .accepted accepted hmade .failed
    · exact .accepted accepted hmade .ignored
    · simp only [if_true, ensures_bind, ensures_modify, ensures_lift]
      refine NodeM.Ensures.mono (reportHead_ensures _ logs) ?_
      rintro _ node' logs' ⟨-, chain⟩
      have recording : Ensures (recordFinality choice) node' logs' fun result node'' _ =>
          result = node'.chain.checkFinality choice ∧ ∃ chain done,
            node'' = { node' with chain } ∧
              FinalityRecorded choice node'.chain done chain ∧ (done = true ↔ result = .ok ()) :=
        ⟨recordFinality_decided node' logs' choice, recordFinality_ensures node' logs' choice⟩
      refine recording.mono ?_
      rintro checked _ logs ⟨answered, recorded, done, rfl, hrecorded, -⟩
      rw [chain] at hrecorded answered
      have decided := Decided.accepted accepted hmade (.followed hrecorded)
      rw [← (sameLine_synced made).checkFinality, ← answered] at decided
      cases checked with
      | error error => exact decided
      | ok _ => exact decided
  · have refusal : node.chain.refusal? choice head =
        some (.ok (.ofStatus { status := .invalidTerminalBlock })) := by
      simp [refusal?, notZero, ← placed]
    exact .refused refusal

/-- **What a choice does when its head is stored and no payload is ordered.** -/
theorem forkchoiceUpdated_decided (node : Node) (logs : List LogEntry)
    (version : ForkchoiceVersion) {choice : ForkchoiceState} (wantWitness : Bool) {head : Block}
    (stored : node.chain.blockByHash? choice.headBlockHash = some head) :
    Ensures (forkchoiceUpdated version choice none wantWitness) node logs fun result node' _ =>
      Decided node.config node.chain choice head result node'.chain := by
  have decided : Ensures (choose version choice none wantWitness) node logs fun result node' _ =>
      Decided node.config node.chain choice head result node'.chain := by
    unfold choose
    split
    · rename_i zero
      have refusal : node.chain.refusal? choice head =
          some (.ok (.ofStatus { status := .invalid })) := by
        rw [refusal?, if_pos zero]
      exact .refused refusal
    · rename_i notZero
      simp only [ensures_bind, ensures_modify, ensures_get, stored]
      exact chooseStoredHead_decided _ logs head version wantWitness (Bool.eq_false_iff.mpr notZero)
  unfold forkchoiceUpdated
  refine ensures_bind.mpr (decided.mono ?_)
  rintro result node' logs decided
  cases result <;> exact decided

end EngineM

open Chain

/-- A choice is answered the same way twice on every chain that is in one piece. -/
theorem Node.answer_twice {node : Node} {root : Hash} (coherent : node.chain.Coherent root)
    (version : ForkchoiceVersion) {choice : ForkchoiceState} (wantWitness : Bool) {head : Block}
    (stored : node.chain.blockByHash? choice.headBlockHash = some head) :
    let call := Call.forkchoiceUpdated version choice none wantWitness
    let first := node.answer call
    let second := first.2.answer call
    second.1 = first.1 ∧ second.2.chain = first.2.chain := by
  intro call first second
  obtain ⟨config, chosen⟩ := node.answer_forkchoiceUpdated version choice none wantWitness
  have decided : Decided node.config node.chain choice head first.1 first.2.chain :=
    EngineM.forkchoiceUpdated_decided node [] version wantWitness stored
  have stored' : first.2.chain.blockByHash? choice.headBlockHash = some head :=
    (congrArg (List.lookup choice.headBlockHash) chosen.store.1).trans stored
  have decided' : Decided first.2.config first.2.chain choice head second.1 second.2.chain :=
    EngineM.forkchoiceUpdated_decided first.2 [] version wantWitness stored'
  have again : Decided first.2.config first.2.chain choice head first.1 first.2.chain := by
    have keyed := coherent.keyed _ _ stored
    rw [show first.2.config = node.config from config]
    exact decided.again coherent (keyed ▸ stored)
  exact decided'.unique again

/-- **A choice that is made twice in a row is answered the same way and leaves the chain as it was
after the first time**, wherever a run has led. -/
theorem Node.choice_repeats (node : Node) (events : List Event) (version : ForkchoiceVersion)
    (choice : ForkchoiceState) (wantWitness : Bool)
    (stored : ((node.fresh.run events).chain.blockByHash? choice.headBlockHash).isSome) :
    let call := Call.forkchoiceUpdated version choice none wantWitness
    let first := (node.fresh.run events).answer call
    let second := first.2.answer call
    second.1 = first.1 ∧ second.2.chain = first.2.chain := by
  obtain ⟨head, found⟩ := Option.isSome_iff_exists.mp stored
  exact answer_twice (node.run_coherent events) version wantWitness found

/-- The first of two siblings is made the head, and the other one is to be final. -/
def Siblings.strayChoice : ForkchoiceState where
  headBlockHash := first.hash
  safeBlockHash := first.hash
  finalizedBlockHash := second.hash

theorem Node.choice_repeats_stray :
    (Siblings.node.chain.blockByHash? Siblings.strayChoice.headBlockHash).isSome ∧
      let call := Call.forkchoiceUpdated .v1 Siblings.strayChoice none false
      let first := Siblings.node.answer call
      let second := first.2.answer call
      second.1 = first.1 ∧ second.2.chain = first.2.chain := by
  obtain ⟨-, -, contends, -⟩ := Siblings.run_contends
  have stored : (Siblings.node.chain.blockByHash? Siblings.strayChoice.headBlockHash).isSome :=
    Option.isSome_iff_exists.mpr ⟨Siblings.first, contends.stored⟩
  rw [← Siblings.run_eq_node] at stored ⊢
  exact ⟨stored, choice_repeats (Node.new {}) Siblings.run .v1 Siblings.strayChoice false stored⟩

end EngineNode
