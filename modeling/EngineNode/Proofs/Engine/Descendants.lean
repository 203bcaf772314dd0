import EngineNode.Proofs.Engine.Confluence
import EngineNode.Proofs.Engine.Forgetting
import EngineNode.Proofs.Engine.Orphans
import EngineNode.Proofs.Engine.Rejection

/-!
The descendants of a block that has failed.

`BadChains.Follows` says of a row of hashes that they are the newest tips, all above one bad block
that has been hit as often as the row is long. One more descendant makes the row one longer,
whatever else is on the list, so the capacity never drops a tip out of its middle.

* `BadChains.Follows.next`, `BadChains.Follows.last`: a descendant is rejected with a single hit,
  and the one that reaches the limit is not.
* `Node.Rejecting.next`, `Node.Rejecting.last`: the same of a payload and the node behind it.
* `Node.descendants_rejected`: so the first 126 descendants of a block that has failed are rejected,
  and the next one is put off.
-/

namespace EngineNode

namespace BadChains

variable {before chains : BadChains} {bad : Header} {block : Block} {hashes : List Hash}

/-! ### The newest tips -/

/-- A row of hashes are the newest tips, all above one bad block, which has been hit once for each.
The other tips were there before. -/
structure Follows (before chains : BadChains) (bad : Header) (hashes : List Hash) : Prop where
  hits : chains.hitsOf bad.hash = hashes.length
  newest : ∀ hash ∈ hashes, (chains.tips.trim hashes.length).get? hash = some bad
  others : ∀ tip worse, chains.tips.get? tip = some worse →
    before.tips.get? tip = some worse ∨ tip ∈ hashes

/-- A block that has just failed is the newest tip. -/
theorem follows_recordFailure (chains : BadChains) (bad : Header) :
    (chains.recordFailure bad).Follows (chains.recordFailure bad) bad [bad.hash] where
  hits := hitsOf_recordFailure chains bad
  newest := by
    intro hash member
    cases List.mem_singleton.mp member
    exact chains.tips.get?_trim_insert_self _ _ Nat.one_pos
  others := fun _ _ found => .inl found

namespace Follows

variable (follows : before.Follows chains bad hashes) (parent : block.parentHash ∈ hashes)
  (untracked : before.tips.get? block.hash = none)

include follows

theorem tip {hash : Hash} (member : hash ∈ hashes) : chains.tips.get? hash = some bad :=
  RecencyMap.get?_of_get?_trim (follows.newest hash member)

theorem unknown {hash : Hash} (untracked : before.tips.get? hash = none) (new : hash ∉ hashes) :
    chains.tips.get? hash = none := by
  refine Option.eq_none_iff_forall_ne_some.mpr fun worse found => ?_
  rcases follows.others hash worse found with before | member
  · cases untracked.symm.trans before
  · exact new member

/-- A tip that is seen again counts as one more. -/
theorem again {hash : Hash} (member : hash ∈ hashes) :
    before.Follows (chains.hit bad.hash) bad (hashes ++ [hash]) where
  hits := by
    rw [hitsOf_hit, if_pos rfl, follows.hits, List.length_append, List.length_singleton]
  newest := by
    intro other among
    have among : other ∈ hashes := by
      rcases List.mem_append.mp among with there | last
      · exact there
      · rwa [List.mem_singleton.mp last]
    rw [List.length_append]
    exact RecencyMap.get?_trim_mono (Nat.le_add_right ..) (follows.newest other among)
  others := fun tip worse found =>
    (follows.others tip worse found).imp_right (List.mem_append_left _)

/-- A tip that is new becomes the newest. Room is made by dropping tips that are older than those of
the row. -/
theorem extend {hash : Hash} (few : hashes.length + 1 < badBlockHitLimit) (new : hash ∉ hashes) :
    before.Follows ((chains.hit bad.hash).addTip hash bad) bad (hashes ++ [hash]) where
  hits := by
    rw [hitsOf_addTip, hitsOf_hit, if_pos rfl, follows.hits, List.length_append,
      List.length_singleton]
  newest := by
    intro other among
    rw [List.length_append, addTip, hit]
    rcases List.mem_append.mp among with there | last
    · have room : hashes.length ≤ badTipCapacity - 1 :=
        (Nat.lt_of_succ_lt few).le.trans (by decide)
      have kept := follows.newest other there
      rw [← chains.tips.trim_trim room] at kept
      exact RecencyMap.get?_trim_insert (fun same => new (same ▸ there)) kept
    · cases List.mem_singleton.mp last
      exact RecencyMap.get?_trim_insert_self _ _ _ (Nat.succ_pos _)
  others := by
    intro tip worse found
    rcases gains_addTip _ hash bad tip worse found with there | ⟨rfl, -⟩
    · exact (follows.others tip worse there).imp_right (List.mem_append_left _)
    · exact .inr (List.mem_append_right _ (List.mem_singleton.mpr rfl))

include parent untracked

/-- **A descendant is rejected**, and the row has one hash more. -/
theorem next (chain : Chain) (few : hashes.length + 1 < badBlockHitLimit) :
    (chains.checkOrphan chain block).1 = some (rejection chain bad) ∧
      before.Follows (chains.checkOrphan chain block).2 bad (hashes ++ [block.hash]) := by
  rw [← follows.hits] at few
  by_cases member : block.hash ∈ hashes
  · obtain ⟨rejected, left⟩ := check_of_few (follows.tip member) few chain block.hash
    rw [checkOrphan_of_some rejected, left, if_pos rfl]
    exact ⟨rfl, follows.again member⟩
  · have other : block.parentHash ≠ block.hash := fun same => member (same ▸ parent)
    have passes := check_of_get?_eq_none (follows.unknown untracked member) chain block.hash
    obtain ⟨rejected, left⟩ := check_of_few (follows.tip parent) few chain block.hash
    rw [checkOrphan_of_none (congrArg Prod.fst passes), passes]
    rw [follows.hits] at few
    refine ⟨rejected, ?_⟩
    dsimp only
    rw [left, if_neg other]
    exact follows.extend few member

/-- **The descendant that reaches the limit passes**, and the bad block is forgotten. -/
theorem last (chain : Chain) (often : badBlockHitLimit ≤ hashes.length + 1) :
    (chains.checkOrphan chain block).1 = none ∧
      (chains.checkOrphan chain block).2.Forgotten bad.hash := by
  rw [← follows.hits] at often
  by_cases member : block.hash ∈ hashes
  · -- The block itself is a tip, and its parent is none any more.
    obtain ⟨passes, left⟩ := check_of_often (follows.tip member) often chain block.hash
    have unknown := check_of_get?_eq_none (get?_forget (follows.tip parent)) chain block.hash
    rw [checkOrphan_of_none passes, left, unknown]
    exact ⟨rfl, forgotten_forget chains _⟩
  · have passes := check_of_get?_eq_none (follows.unknown untracked member) chain block.hash
    obtain ⟨passes', left⟩ := check_of_often (follows.tip parent) often chain block.hash
    rw [checkOrphan_of_none (congrArg Prod.fst passes), passes]
    refine ⟨passes', ?_⟩
    dsimp only
    rw [left]
    exact forgotten_forget chains _

end Follows

end BadChains

/-! ### Rows of payloads -/

namespace Submission

/-- The hash of the block that a payload describes. -/
def hash (s : Submission) : Hash := s.request.payload.blockHash

def parentHash (s : Submission) : Hash := s.request.payload.parentHash

end Submission

namespace Node

open Submission BadChains

/-- The answer to a payload and the node afterwards. -/
def submit (node : Node) (s : Submission) : Except EngineError PayloadStatus × Node :=
  node.answer (.newPayload s.version s.request s.wantWitness)

/-- The block of a payload cannot be inserted on its stored parent, and the answer says so. -/
structure FailsOn (node : Node) (s : Submission) (block parent : Block) (error : ChainError) :
    Prop where
  presents : s.Presents node.config block
  stored : node.chain.blockByHash? block.parentHash = some parent
  refused : node.chain.insert node.config block s.wantWitness = .error error
  answered : (node.submit s).1 = .ok (.invalid error.message (some parent.header))

/-- A row of payloads that pass everything that is checked before the chain is looked at. Each
describes a child of the one before it, and the node knows none of their blocks. -/
structure Descend (node : Node) (first : Submission) (row : List Submission) : Prop where
  linked : (first :: row).IsChain fun below above => above.parentHash = below.hash
  presented : ∀ s ∈ row, ∃ block, s.Presents node.config block
  unstored : ∀ s ∈ row, node.chain.blockByHash? s.hash = none
  untracked : ∀ s ∈ row, node.badChains.tips.get? s.hash = none

/-- Nothing has come of a row of payloads but that they are the newest tips above a bad block. This
is the invariant of the run: it carries the hits, which decide the next answer, along with the tips,
which decide whether the next payload is met. -/
structure Rejecting (left node : Node) (bad : Header) (row : List Submission) : Prop where
  kept : left.SameChain node
  remoteHeaders : node.remoteHeaders = left.remoteHeaders
  unstored : ∀ s ∈ row, left.chain.blockByHash? s.hash = none
  follows : left.badChains.Follows node.badChains bad (row.map Submission.hash)

variable {node left : Node} {first s : Submission} {block parent : Block} {error : ChainError}
  {bad : Header} {row earlier rest : List Submission}

/-- A block that has failed is the newest tip. -/
theorem FailsOn.rejecting (failed : node.FailsOn s block parent error) :
    node.SameChain (node.submit s).2 ∧
      Rejecting (node.submit s).2 (node.submit s).2 block.header [s] := by
  have tried : node.SameChain (node.submit s).2 ∧ node.chain.blockByHash? block.hash = none ∧
      ∃ chains : BadChains, (node.submit s).2.badChains = chains.recordFailure block.header :=
    answer_failed failed.presents failed.stored failed.refused failed.answered
  obtain ⟨kept, fresh, chains, recorded⟩ := tried
  have hash : block.header.hash = s.hash := failed.presents.hash_eq
  refine ⟨kept, ⟨rfl, rfl⟩, rfl, ?_, ?_⟩
  · intro s' member
    cases List.mem_singleton.mp member
    rw [kept.chain, ← hash]
    exact fresh
  · rw [recorded, List.map_singleton, ← hash]
    exact chains.follows_recordFailure block.header

/-- The parent of a payload stands before it in the row. -/
theorem Descend.parent_mem (descend : left.Descend first (earlier ++ s :: rest)) :
    s.parentHash ∈ (first :: earlier).map Submission.hash := by
  have linked : ((first :: earlier) ++ s :: rest).IsChain _ := descend.linked
  have last := List.getLast?_eq_getLast_of_ne_nil (List.cons_ne_nil first earlier)
  rw [(List.isChain_append.mp linked).2.2 _ last s rfl]
  exact List.mem_map_of_mem (List.getLast_mem _)

namespace Rejecting

variable (rejecting : Rejecting left node bad (first :: earlier))
  (descend : left.Descend first (earlier ++ s :: rest))

include rejecting descend

/-- The block of the next payload is looked up twice. It is no tip, unless its hash has been met in
the row, and its parent is one. -/
theorem delayed : ∃ block, s.Presents left.config block ∧
    block.parentHash ∈ (first :: earlier).map Submission.hash ∧
    left.badChains.tips.get? block.hash = none ∧
    node.Delayed block (node.badChains.checkOrphan left.chain block) (node.submit s).1
      (node.submit s).2 := by
  have member : s ∈ earlier ++ s :: rest := List.mem_append_right _ List.mem_cons_self
  obtain ⟨block, presents⟩ := descend.presented s member
  have hash : block.hash = s.hash := presents.hash_eq
  have parentHash : block.parentHash = s.parentHash := presents.parentHash_eq
  have parent : block.parentHash ∈ (first :: earlier).map Submission.hash :=
    parentHash ▸ descend.parent_mem
  have fresh : node.chain.blockByHash? block.hash = none := by
    rw [rejecting.kept.chain, hash]
    exact descend.unstored s member
  have orphan : node.chain.blockByHash? block.parentHash = none := by
    obtain ⟨above, among, same⟩ := List.mem_map.mp parent
    rw [rejecting.kept.chain, ← same]
    exact rejecting.unstored above among
  rw [← rejecting.kept.config] at presents
  have delayed := answer_orphan presents fresh orphan
  rw [rejecting.kept.config] at presents
  rw [rejecting.kept.chain] at delayed
  exact ⟨block, presents, parent, hash ▸ descend.untracked s member, delayed⟩

/-- **The next payload is rejected**, and the row has one payload more. -/
theorem next (few : earlier.length < 126) :
    (node.submit s).1 = .ok (rejection left.chain bad) ∧
      Rejecting left (node.submit s).2 bad (first :: (earlier ++ [s])) := by
  obtain ⟨block, presents, parent, untracked, kept, badChains, result, headers⟩ :=
    rejecting.delayed descend
  have below : ((first :: earlier).map Submission.hash).length + 1 < badBlockHitLimit := by
    rw [List.length_map, List.length_cons, badBlockHitLimit]
    omega
  obtain ⟨rejected, follows⟩ := rejecting.follows.next parent untracked left.chain below
  rw [rejected] at result headers
  rw [← badChains, presents.hash_eq] at follows
  rw [← List.cons_append]
  refine ⟨result, rejecting.kept.trans kept, headers.trans rejecting.remoteHeaders, ?_, ?_⟩
  · intro s' among
    rcases List.mem_append.mp among with there | last
    · exact rejecting.unstored s' there
    · cases List.mem_singleton.mp last
      exact descend.unstored s (List.mem_append_right _ List.mem_cons_self)
  · rw [List.map_append]
    exact follows

/-- **The payload that reaches the limit is put off**, and the bad block is forgotten. -/
theorem last (many : earlier.length = 126) :
    (node.submit s).1 = .ok .syncing ∧
      (∃ block, s.Presents left.config block ∧
        (node.submit s).2.remoteHeaders.get? s.hash = some block.header) ∧
      (node.submit s).2.badChains.Forgotten bad.hash := by
  obtain ⟨block, presents, parent, untracked, kept, badChains, result, headers⟩ :=
    rejecting.delayed descend
  have limit : badBlockHitLimit ≤ ((first :: earlier).map Submission.hash).length + 1 := by
    rw [List.length_map, List.length_cons, badBlockHitLimit]
    omega
  obtain ⟨passes, forgotten⟩ := rejecting.follows.last parent untracked left.chain limit
  rw [passes] at result headers
  rw [← badChains] at forgotten
  refine ⟨result, ⟨block, presents, ?_⟩, forgotten⟩
  rw [headers, presents.hash_eq]
  exact BoundedMap.get?_insert_self _ _ _ (by decide)

end Rejecting

/-- While the row is not too long, every payload of it becomes a tip. -/
theorem Rejecting.submitAll (rejecting : Rejecting left left bad [first])
    (descend : left.Descend first (earlier ++ rest)) (few : earlier.length ≤ 126) :
    Rejecting left (left.submitAll earlier) bad (first :: earlier) := by
  induction earlier using List.reverseRecOn generalizing rest with
  | nil => exact rejecting
  | append_singleton earlier s ih =>
      rw [List.length_append, List.length_singleton] at few
      rw [List.append_assoc, List.singleton_append] at descend
      have before := ih descend (Nat.le_of_succ_le few)
      rw [submitAll_concat]
      exact (before.next descend few).2

/-- **The descendants of a block that has failed are rejected** by a node that has been sent nothing
else in between, up to the 126th. Each becomes a tip above the failed block, with the parent of that
as the newest valid ancestor, and no header is remembered. The next descendant is put off, its
header is remembered, and the failed block is forgotten with all tips above it. -/
theorem descendants_rejected (failed : node.FailsOn first block parent error)
    (descend : (node.submit first).2.Descend first row) :
    let left := (node.submit first).2
    ∀ earlier s rest, row = earlier ++ s :: rest →
      let answer := (left.submitAll earlier).submit s
      (earlier.length < 126 →
        answer.1 = .ok
          { status := .invalid
            latestValidHash :=
              some (if parent.header.isPreMerge then .zero 32 else block.parentHash)
            validationError := some "links to previously rejected block" } ∧
        (∀ s' ∈ first :: (earlier ++ [s]),
          answer.2.badChains.tips.get? s'.hash = some block.header) ∧
        answer.2.remoteHeaders = left.remoteHeaders) ∧
      (earlier.length = 126 →
        answer.1 = .ok .syncing ∧
        (∃ x, s.Presents node.config x ∧ answer.2.remoteHeaders.get? s.hash = some x.header) ∧
        answer.2.badChains.Forgotten block.hash) := by
  intro left earlier s rest split answer
  obtain ⟨kept, start⟩ := failed.rejecting
  rw [split] at descend
  constructor
  · intro few
    obtain ⟨rejected, rejecting⟩ := (start.submitAll descend few.le).next descend few
    refine ⟨?_, ?_, rejecting.remoteHeaders⟩
    · rw [kept.chain, rejection, Chain.headerByHash?] at rejected
      have stored := failed.stored
      rw [Block.parentHash] at stored
      rw [stored] at rejected
      exact rejected
    · exact fun s' among => rejecting.follows.tip (List.mem_map_of_mem among)
  · intro many
    have put := (start.submitAll descend many.le).last descend many
    rw [kept.config] at put
    exact put

end Node

namespace Siblings

open Submission

/-- The misnumbered block as it is sent. -/
def misnumberedSubmission : Submission := ⟨.v1, misnumberedRequest, false⟩

/-- An empty block on top of a hash. -/
def onTop (hash : Hash) : Block := ⟨{ first.header with parentHash := hash }, {}⟩

/-- An empty block on top of a hash as it is sent. -/
def onTopSubmission (hash : Hash) : Submission :=
  ⟨.v1, { payload := .ofBlock {} (onTop hash) }, false⟩

theorem first_hasFee : first.header.baseFeePerGas.isSome := by decide +kernel

theorem onTop_presents (hash : Hash) : (onTopSubmission hash).Presents {} (onTop hash) where
  accepted := rfl
  ordered := rfl
  plain := rfl
  converted := Payload.toBlock_ofBlock
    { ommersHash := rfl
      difficulty := rfl
      nonce := rfl
      extraData := Nat.zero_le _
      baseFee := first_hasFee
      transactionsRoot := rfl
      withdrawalsRoot := fun _ => rfl
      isthmus := nofun
      beaconRoot := rfl
      requestsHash := rfl
      blobHashes := rfl }

/-- A child of the misnumbered block. -/
def son : Submission := onTopSubmission misnumbered.hash

def grandson : Submission := onTopSubmission (onTop misnumbered.hash).hash

theorem misnumbered_failsOn (node : Node) (config : node.config = {})
    (chain : node.chain = .new {}) (badChains : node.badChains = {}) :
    node.FailsOn misnumberedSubmission misnumbered genesis (.invalidNumber 0 5) where
  presents := by
    rw [config]
    exact ⟨rfl, rfl, rfl, misnumbered_converted⟩
  stored := by
    rw [chain]
    exact genesis_stored
  refused := by
    rw [chain, config]
    exact misnumbered_refused
  answered := (misnumbered_answered node config chain badChains).1

theorem descendants_distinct : genesis.hash ≠ son.hash ∧ genesis.hash ≠ grandson.hash ∧
    son.hash ≠ misnumbered.hash ∧ grandson.hash ≠ misnumbered.hash ∧
    grandson.hash ≠ .zero 32 := by
  decide +kernel

/-- The descendants are not known to a node on which the misnumbered block has just failed. -/
theorem misnumbered_descend (node : Node) (config : node.config = {})
    (chain : node.chain = .new {})
    (badChains : node.badChains = BadChains.recordFailure {} misnumbered.header) :
    node.Descend misnumberedSubmission [son, grandson] := by
  obtain ⟨old, old', new, new', -⟩ := descendants_distinct
  have untracked {hash : Hash} (other : hash ≠ misnumbered.hash) :
      node.badChains.tips.get? hash = none := by
    rw [badChains, BadChains.recordFailure, RecencyMap.get?_insert]
    exact if_neg other
  have both {p : Submission → Prop} (one : p son) (other : p grandson) :
      ∀ s ∈ [son, grandson], p s :=
    List.forall_mem_cons.mpr ⟨one, List.forall_mem_singleton.mpr other⟩
  refine ⟨.cons_cons rfl (.cons_cons rfl (.singleton _)), ?_, ?_, ?_⟩
  · rw [config]
    exact both ⟨_, onTop_presents _⟩ ⟨_, onTop_presents _⟩
  · rw [chain]
    exact both (blockByHash?_new old) (blockByHash?_new old')
  · exact both (untracked new) (untracked new')

theorem misnumbered_descendants_rejected :
    (Node.new {}).started.FailsOn misnumberedSubmission misnumbered genesis (.invalidNumber 0 5) ∧
    ((Node.new {}).started.submit misnumberedSubmission).2.Descend misnumberedSubmission
      [son, grandson] ∧
    ((((Node.new {}).started.submit misnumberedSubmission).2.submitAll [son]).submit grandson).1 =
      .ok
        { status := .invalid
          latestValidHash := some misnumbered.parentHash
          validationError := some "links to previously rejected block" } := by
  have start : (Node.new {}).started.config = {} ∧ (Node.new {}).started.chain = .new {} ∧
    (Node.new {}).started.badChains = {} := ⟨rfl, rfl, rfl⟩
  -- The node is not looked into, so that nothing is computed of its run.
  generalize (Node.new {}).started = node at *
  have failed := misnumbered_failsOn node start.1 start.2.1 start.2.2
  obtain ⟨-, config, chain, badChains⟩ :=
    misnumbered_answered node start.1 start.2.1 start.2.2
  have descend := misnumbered_descend _ config chain badChains
  obtain ⟨rejected, -, -⟩ :=
    (node.descendants_rejected failed descend [son] grandson [] rfl).1 (by decide)
  exact ⟨failed, descend, rejected⟩

end Siblings

end EngineNode
