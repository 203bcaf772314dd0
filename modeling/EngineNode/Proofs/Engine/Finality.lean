import EngineNode.Proofs.Engine.Siblings

/-!
What a node records as final and safe.

The final and the safe block are looked up on the canonical chain after the head has moved, and a
choice that stops half way has recorded no more than it found there.

* `FinalityRecorded.records`: what is recorded is canonical, and of a choice that is followed to
  the end everything is recorded.
* `Chosen.settles`: the answer that a head is valid means that it is canonical and that the choice
  is in force, unless the head is an old one that is passed over.
* `Node.choice_settles`: so it is in every run, and no event records anything that is not canonical.
-/

namespace EngineNode

namespace Chain

variable {config : ChainConfig} {chain chain' : Chain} {root : Hash} {choice : ForkchoiceState}

/-! ### Records -/

/-- The block of a hash is stored and canonical, and it is what is recorded. -/
def Records (chain : Chain) (recorded : Option Header) (hash : Hash) : Prop :=
  ∃ block, chain.blockByHash? hash = some block ∧ block.hash = hash ∧
    chain.isCanonical block.number hash = true ∧ recorded = some block.header

/-- What is recorded now was recorded before, or it is the header of a canonical block. -/
def RecordsOnly (chain : Chain) (before now : Option Header) : Prop :=
  now = before ∨ ∃ hash, chain.Records now hash

/-- What a choice calls final and safe is recorded. A zero hash says nothing. -/
structure InForce (chain : Chain) (choice : ForkchoiceState) : Prop where
  finalized : choice.finalizedBlockHash.isZero = false →
    chain.Records chain.finalized choice.finalizedBlockHash
  safe : choice.safeBlockHash.isZero = false → chain.Records chain.safe choice.safeBlockHash

theorem SameLine.records {recorded : Option Header} {hash : Hash} (line : chain.SameLine chain')
    (records : chain.Records recorded hash) : chain'.Records recorded hash := by
  obtain ⟨block, stored, keyed, canonical, same⟩ := records
  exact ⟨block, by rwa [line.blockByHash?], keyed, by rwa [line.isCanonical], same⟩

/-- Recording comes to nothing for a zero hash, and to the canonical block otherwise. -/
theorem record?_eq_some {mark : Chain → Header → Chain} {hash : Hash}
    (coherent : chain.Coherent root) (recorded : chain.record? mark hash = some chain') :
    (hash.isZero = true ∧ chain' = chain) ∨
      ∃ header, chain.Records (some header) hash ∧ chain' = mark chain header := by
  unfold record? at recorded
  split at recorded
  · rename_i zero
    cases recorded
    exact .inl ⟨zero, rfl⟩
  · obtain ⟨block, found, rfl⟩ := Option.map_eq_some_iff.mp recorded
    obtain ⟨stored, canonical⟩ := canonicalBlock?_eq_some_iff.mp found
    exact .inr ⟨block.header, ⟨block, stored, coherent.keyed _ _ stored, canonical, rfl⟩, rfl⟩

/-- **What a choice records is canonical.** Once it has been followed to the end it is in force. -/
theorem FinalityRecorded.records {done : Bool} (coherent : chain.Coherent root)
    (recorded : FinalityRecorded choice chain done chain') :
    chain'.RecordsOnly chain.finalized chain'.finalized ∧
      chain'.RecordsOnly chain.safe chain'.safe ∧ (done = true → chain'.InForce choice) := by
  have line := recorded.sameLine
  cases recorded with
  | notFinal => exact ⟨.inl rfl, .inl rfl, nofun⟩
  | notSafe hfinal =>
      rcases record?_eq_some coherent hfinal with ⟨-, rfl⟩ | ⟨final, records, rfl⟩
      · exact ⟨.inl rfl, .inl rfl, nofun⟩
      · exact ⟨.inr ⟨_, line.records records⟩, .inl rfl, nofun⟩
  | done hfinal hsafe =>
      have coherent' := coherent.of_sameLine
        (sameLine_of_record? (sameLine_setFinalized chain) hfinal)
      rcases record?_eq_some coherent hfinal with ⟨noFinal, rfl⟩ | ⟨final, finals, rfl⟩ <;>
        rcases record?_eq_some coherent' hsafe with ⟨noSafe, rfl⟩ | ⟨safe, safes, rfl⟩
      · exact ⟨.inl rfl, .inl rfl, fun _ => ⟨by simp [noFinal], by simp [noSafe]⟩⟩
      · have safes := (sameLine_setSafe _ safe).records safes
        exact ⟨.inl rfl, .inr ⟨_, safes⟩, fun _ => ⟨by simp [noFinal], fun _ => safes⟩⟩
      · have finals := line.records finals
        exact ⟨.inr ⟨_, finals⟩, .inl rfl, fun _ => ⟨fun _ => finals, by simp [noSafe]⟩⟩
      · have finals := line.records finals
        have safes := (sameLine_setSafe _ safe).records safes
        exact ⟨.inr ⟨_, finals⟩, .inr ⟨_, safes⟩, fun _ => ⟨fun _ => finals, fun _ => safes⟩⟩

/-! ### Choices -/

/-- A head is passed over: it is a canonical block below the head, and the chain is not that of a
rollup. -/
def PassesOver (config : ChainConfig) (chain : Chain) (head : Block) : Prop :=
  config.isRollup = false ∧ chain.isCanonical head.number head.hash = true ∧
    head.number < chain.head.number

/-- What the answer that the head of a choice is valid says about the chains before and after. -/
structure Settles (config : ChainConfig) (chain : Chain) (choice : ForkchoiceState)
    (response : ForkchoiceResponse) (chain' : Chain) : Prop where
  latestValidHash : response.payloadStatus.latestValidHash = some choice.headBlockHash
  head : ∃ head, chain'.blockByHash? choice.headBlockHash = some head ∧
    head.hash = choice.headBlockHash ∧ chain'.isCanonical head.number head.hash = true ∧
      (chain.PassesOver config head → chain' = chain) ∧
      (¬chain.PassesOver config head → chain'.InForce choice)

/-- A canonical block is below the head exactly when it is another one. -/
theorem Coherent.lt_head_iff (coherent : chain.Coherent root) {block : Block}
    (canonical : chain.isCanonical block.number block.hash = true) :
    block.number < chain.head.number ↔ chain.currentHeader.hash ≠ block.hash := by
  have member := coherent.canonicalHash?_eq_some_iff.mp (isCanonical_eq_true_iff.mp canonical)
  constructor
  · intro below same
    have line := coherent.canonical.truncate member
    rw [show block.hash = chain.head.hash from same.symm] at line
    rw [(line.unique coherent.canonical).1] at below
    exact UInt64.lt_irrefl _ below
  · intro other
    have le := UInt64.le_iff_toNat_le.mp (coherent.canonical.le_of_mem member)
    have ne : block.number ≠ chain.head.number := by
      intro same
      rw [same] at member
      exact other (coherent.canonical.eq_of_mem coherent.canonical.mem_self member)
    have : block.number.toNat ≠ chain.head.number.toNat := fun h => ne (UInt64.toNat_inj.mp h)
    exact UInt64.lt_iff_toNat_lt.mpr (by omega)

theorem HeadMade.marks {rollup : Bool} {head : Block} {result : Except EngineError Bool}
    {made : Chain} (hmade : HeadMade rollup chain head result made) :
    made.finalized = chain.finalized ∧ made.safe = chain.safe := by
  cases hmade with
  | moved _ moves =>
      obtain ⟨_, _, _, _, _, _, rfl⟩ := setCanonical_eq_ok moves
      exact ⟨rfl, rfl⟩
  | _ => exact ⟨rfl, rfl⟩

theorem sameLine_synced (chain : Chain) : chain.SameLine { chain with synced := true } :=
  ⟨rfl, rfl, rfl, rfl⟩

/-- A head that is made is canonical afterwards and was not to be passed over. -/
theorem HeadMade.canonical {head : Block} {made : Chain} (coherent : chain.Coherent root)
    (stored : chain.blockByHash? head.hash = some head)
    (hmade : HeadMade config.isRollup chain head (.ok true) made) :
    made.Coherent root ∧ made.blocks = chain.blocks ∧
      made.isCanonical head.number head.hash = true ∧ ¬chain.PassesOver config head := by
  cases hmade with
  | kept canonical follow =>
      refine ⟨coherent, rfl, canonical, ?_⟩
      rintro ⟨plain, -, below⟩
      rcases follow with same | rollup
      · exact (coherent.lt_head_iff canonical).mp below same
      · exact absurd (plain.symm.trans rollup) nofun
  | moved other moves =>
      have coherent' := coherent.setCanonical moves
      obtain ⟨head', _, _, stored', -, -, rfl⟩ := setCanonical_eq_ok moves
      cases stored.symm.trans stored'
      exact ⟨coherent', rfl, isCanonical_eq_true_iff.mpr coherent'.contiguous.head,
        fun ⟨_, canonical, _⟩ => other canonical⟩

/-- **What it means that the head of a choice is valid.** -/
theorem Chosen.settles {attributes : Option PayloadAttributes} {response : ForkchoiceResponse}
    (coherent : chain.Coherent root)
    (chosen : Chosen config chain choice attributes (.ok response) chain')
    (valid : response.payloadStatus.status = .valid) :
    Settles config chain choice response chain' := by
  cases chosen with
  | refused _ notValid => exact absurd valid (notValid response rfl)
  | @ignored head stored made =>
      have keyed := coherent.keyed _ _ stored
      cases made with
      | ignored canonical old =>
          obtain ⟨other, plain⟩ := not_or.mp old
          have passed : chain.PassesOver config head :=
            ⟨Bool.eq_false_iff.mpr plain, canonical, (coherent.lt_head_iff canonical).mpr other⟩
          refine ⟨rfl, head, stored, keyed, canonical, fun _ => rfl, ?_⟩
          intro notPassed
          exact absurd passed notPassed
  | @followed head made recorded done result stored hmade hrecorded answered _ =>
      obtain ⟨rfl, id, rfl⟩ := answered response rfl
      have keyed := coherent.keyed _ _ stored
      obtain ⟨coherent', blocks, canonical, notPassed⟩ :=
        HeadMade.canonical coherent (keyed ▸ stored) hmade
      have line := hrecorded.sameLine
      have force := (hrecorded.records (coherent'.of_sameLine (sameLine_synced made))).2.2 rfl
      refine ⟨rfl, head, ?_, keyed, ?_, fun passed => absurd passed notPassed, fun _ => force⟩
      · rw [line.blockByHash?]
        exact (congrArg (List.lookup _) blocks).trans stored
      · rw [line.isCanonical]
        exact canonical

/-- Whatever a step records is canonical. -/
theorem Step.recordsOnly (coherent : chain.Coherent root) (step : chain.Step config chain') :
    chain'.RecordsOnly chain.finalized chain'.finalized ∧
      chain'.RecordsOnly chain.safe chain'.safe := by
  cases step with
  | other mode => exact ⟨.inl rfl, .inl rfl⟩
  | imported imported =>
      cases imported with
      | passed => exact ⟨.inl rfl, .inl rfl⟩
      | known => exact ⟨.inl rfl, .inl rfl⟩
      | stored _ _ _ inserted =>
          obtain ⟨_, _, _, _, _, _, _, rfl, _⟩ := insert_eq_ok_iff.mp inserted
          exact ⟨.inl rfl, .inl rfl⟩
  | chosen chosen =>
      cases chosen with
      | refused => exact ⟨.inl rfl, .inl rfl⟩
      | ignored => exact ⟨.inl rfl, .inl rfl⟩
      | @followed head made recorded done result stored hmade hrecorded _ _ =>
          have keyed := coherent.keyed _ _ stored
          have coherent' := (HeadMade.canonical coherent (keyed ▸ stored) hmade).1
          obtain ⟨finals, safes, -⟩ :=
            hrecorded.records (coherent'.of_sameLine (sameLine_synced made))
          obtain ⟨final, safe⟩ := hmade.marks
          exact ⟨final ▸ finals, safe ▸ safes⟩

end Chain

/-- A node for which other blocks were recorded before. -/
def Node.withRecords (node : Node) (final safe : Option Header) : Node :=
  { node with chain := { node.chain with finalized := final, safe := safe } }

/-- **What is recorded as final and safe.** Wherever a run has led, the answer that the head of a
choice is valid means that the choice is settled, and whatever an event records is canonical
afterwards. The latter is said of any earlier records, so that it holds for a block that is
recorded a second time as well. -/
theorem Node.choice_settles (node : Node) (events : List Event) :
    let now := node.fresh.run events
    (∀ version choice attributes wantWitness response,
      let answer := now.answer (.forkchoiceUpdated version choice attributes wantWitness)
      answer.1 = .ok response → response.payloadStatus.status = .valid →
        Chain.Settles node.config now.chain choice response answer.2.chain) ∧
    ∀ event final safe,
      let chain := ((now.withRecords final safe).after event).chain
      chain.RecordsOnly final chain.finalized ∧ chain.RecordsOnly safe chain.safe := by
  have coherent := node.run_coherent events
  constructor
  · intro version choice attributes wantWitness response answer answered valid
    have chosen := ((node.fresh.run events).answer_forkchoiceUpdated version choice attributes
      wantWitness).2
    rw [answered, run_config] at chosen
    exact chosen.settles coherent valid
  · intro event final safe
    have line : (node.fresh.run events).chain.SameLine
        ((node.fresh.run events).withRecords final safe).chain := ⟨rfl, rfl, rfl, rfl⟩
    have stepped := (((node.fresh.run events).withRecords final safe).after_step event).2
    exact stepped.recordsOnly (coherent.of_sameLine line)

/-- One of two blocks that compete is made the head, and final and safe at once. -/
theorem Node.choice_settles_sibling : ∃ response,
    let answer := Siblings.node.answer (.forkchoiceUpdated .v1 Siblings.firstChoice none false)
    answer.1 = .ok response ∧ response.payloadStatus.status = .valid ∧
      Chain.Settles {} Siblings.node.chain Siblings.firstChoice response answer.2.chain := by
  obtain ⟨stored, canonical, contends, -⟩ := Siblings.run_contends
  have answered :
      (Siblings.node.answer (.forkchoiceUpdated .v1 Siblings.firstChoice none false)).1 =
        .ok (.valid Siblings.firstChoice.headBlockHash none) :=
    (answer_final_choice rfl rfl rfl stored canonical contends).1
  have settles := (choice_settles (Node.new {}) Siblings.run).1
  rw [Siblings.run_eq_node] at settles
  exact ⟨_, answered, rfl, settles .v1 Siblings.firstChoice none false _ answered rfl⟩

end EngineNode
