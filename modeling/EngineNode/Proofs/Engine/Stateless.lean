import EngineNode.Proofs.Engine.Permanence
import EngineNode.Proofs.Witness

/-!
Execution without the state.

Of the parent an execution reads the number and the state root, and both are encoded in front of
anything that an encoding can leave open. A header that has the hash of the stored parent may be
another one, with zeros in place of absent fields, but executing a block on it comes to the same.

* `Session.applyAll_onParent`, `Block.ExecutesTo.onParent`: an execution can be moved to another
  parent of the same number.
* `executeStateless_eq_ok_iff`: what a stateless execution comes to.
* `Chain.stateless_of_insert`: the witness that insertion hands out serves after it was sent.
* `Chain.execute_of_stateless`: whatever witness serves, the execution on the stored parent comes
  to the same roots.
* `Node.stateless_agrees`: so it is on every chain, whatever has happened to it.
-/

namespace EngineNode

/-! ### Headers of one hash -/

/-- Identical encodings agree on the state root, which stands behind three fields of fixed
length. -/
theorem Header.stateRoot_eq_of_encode_eq {h h' : Header} (same : h.encode = h'.encode) :
    h.stateRoot = h'.stateRoot := by
  have fields := Rlp.encodeList_injective same
  simp only [encodeRequired, List.append_assoc] at fields
  obtain ⟨-, fields⟩ := Rlp.encodeFixed_append_inj (by norm_num) fields
  obtain ⟨-, fields⟩ := Rlp.encodeFixed_append_inj (by norm_num) fields
  obtain ⟨-, fields⟩ := Rlp.encodeFixed_append_inj (by norm_num) fields
  exact (Rlp.encodeFixed_append_inj (by norm_num) fields).1

/-! ### Sessions on another parent -/

namespace Session

variable {s s' : Session} {parent parent' : Header} {env : BlockEnv}

/-- The session on another parent. -/
def onParent (s : Session) (parent : Header) : Session := { s with parent }

theorem begin_onParent (number : parent'.number = parent.number)
    (opened : begin parent env = .ok s) : begin parent' env = .ok (s.onParent parent') := by
  unfold begin at opened ⊢
  rw [number]
  split at opened
  · cases opened
  · split at opened
    · rename_i follows
      cases opened
      exact if_pos follows
    · cases opened

/-- Transactions are applied without looking at the parent. -/
theorem apply_onParent {tx : Transaction} (parent : Header) (applied : s.apply tx = .ok s') :
    (s.onParent parent).apply tx = .ok (s'.onParent parent) := by
  obtain ⟨hashes, told, room, blobRoom, rfl⟩ := apply_eq_ok applied
  simp only [apply, onParent, told, Nat.not_lt.mpr room, Nat.not_lt.mpr blobRoom, if_false]
  rfl

theorem applyAll_onParent {transactions : List Transaction} (parent : Header)
    (applied : s.applyAll transactions = .ok s') :
    (s.onParent parent).applyAll transactions = .ok (s'.onParent parent) := by
  induction transactions generalizing s with
  | nil =>
      cases applied
      rfl
  | cons tx rest ih =>
      obtain ⟨next, first, others⟩ := bind_eq_ok_iff.mp applied
      exact bind_eq_ok_iff.mpr ⟨_, apply_onParent parent first, ih others⟩

theorem parent_of_applyAll {transactions : List Transaction}
    (applied : s.applyAll transactions = .ok s') : s'.parent = s.parent := by
  induction transactions generalizing s with
  | nil =>
      cases applied
      rfl
  | cons tx rest ih =>
      obtain ⟨next, first, others⟩ := bind_eq_ok_iff.mp applied
      have same : next.parent = s.parent := by
        obtain ⟨_, -, -, -, rfl⟩ := apply_eq_ok first
        rfl
      exact (ih others).trans same

end Session

namespace Block.ExecutesTo

variable {block : Block} {parent parent' : Header} {session : Session}

theorem parent_eq (executes : block.ExecutesTo parent session) : session.parent = parent := by
  obtain ⟨start, opened, applied⟩ := executes
  obtain rfl := Session.eq_of_begin opened
  exact Session.parent_of_applyAll applied

/-- **An execution can be moved to another parent of the same number.** -/
theorem onParent (executes : block.ExecutesTo parent session)
    (number : parent'.number = parent.number) :
    block.ExecutesTo parent' (session.onParent parent') := by
  obtain ⟨start, opened, applied⟩ := executes
  exact ⟨_, Session.begin_onParent number opened, Session.applyAll_onParent parent' applied⟩

/-- The root that it comes to is the same, if the states of both parents have one root. -/
theorem stateRoot_onParent (executes : block.ExecutesTo parent session)
    (root : parent'.stateRoot = parent.stateRoot) (withdrawals : List Withdrawal) :
    (session.onParent parent').stateRoot withdrawals = session.stateRoot withdrawals := by
  simp only [Session.stateRoot, Session.onParent, root, executes.parent_eq]

end Block.ExecutesTo

/-! ### Stateless executions -/

/-- The roots that a session of a block comes to. -/
def Session.roots (session : Session) (block : Block) : StatelessOutcome where
  stateRoot := session.stateRoot (block.withdrawals.getD [])
  receiptsRoot := Trie.listRoot session.receipts

/-- **What a stateless execution comes to.** -/
theorem executeStateless_eq_ok_iff {block : Block} {witness : Witness}
    {outcome : StatelessOutcome} :
    executeStateless block witness = .ok outcome ↔ ∃ parent session,
      witness.headers.find? (fun h => h.hash = block.parentHash) = some parent ∧
      parent.stateRoot.toList ∈ witness.state ∧ block.ExecutesTo parent session ∧
      outcome = session.roots block := by
  unfold executeStateless
  have listed (parent : Header) :
      (witness.state.any fun node => node = parent.stateRoot.toList) = true ↔
        parent.stateRoot.toList ∈ witness.state := by
    simp
  constructor
  · intro executed
    cases found : witness.headers.find? (fun h => h.hash = block.parentHash) with
    | none => simp [found] at executed
    | some parent =>
        by_cases there : parent.stateRoot.toList ∈ witness.state
        · simp only [found, (listed parent).mpr there, if_true, bind_eq_ok_iff, pure_eq_ok,
            Except.ok.injEq] at executed
          obtain ⟨start, opened, session, applied, same⟩ := executed
          exact ⟨parent, session, rfl, there, ⟨start, opened, applied⟩, same.symm⟩
        · simp [found, there] at executed
  · rintro ⟨parent, session, found, there, ⟨start, opened, applied⟩, rfl⟩
    simp only [found, (listed parent).mpr there, if_true, opened, ok_bind, applied]
    rfl

namespace Chain

variable {config : ChainConfig} {chain chain' : Chain} {block parent : Block}

/-- **The witness that insertion hands out serves after it was sent.** The header in it may come
back filled, which changes neither its hash nor what the execution reads. -/
theorem stateless_of_insert {witness : Option Witness}
    (inserted : chain.insert config block true = .ok (chain', witness))
    (stored : chain.blockByHash? block.parentHash = some parent)
    (keyed : parent.hash = block.parentHash) (short : parent.header.extraData.length < 2 ^ 63) :
    ∃ sent received, witness = some sent ∧ Witness.decode sent.encode = .ok received ∧
      executeStateless block received =
        .ok ⟨block.header.stateRoot, block.header.receiptsRoot⟩ := by
  obtain ⟨_, session, -, stored', -, executes, agrees, -, rfl⟩ := insert_eq_ok_iff.mp inserted
  cases stored.symm.trans stored'
  have sent : session.witness =
      { headers := [parent.header], state := [parent.header.stateRoot.toList] } := by
    rw [Session.witness, executes.parent_eq]
  have size : session.witness.contents.length < 256 ^ 8 := by
    rw [sent]
    exact Witness.length_contents_lt short parent.header.stateRoot.length_toList.le
  refine ⟨session.witness, session.witness.filled, rfl, Witness.decode_encode size, ?_⟩
  refine executeStateless_eq_ok_iff.mpr ⟨parent.header.filled,
    session.onParent parent.header.filled, ?_, ?_, executes.onParent rfl, ?_⟩
  · have named : parent.header.filled.hash = block.parentHash :=
      parent.header.hash_filled.trans keyed
    simp [sent, Witness.filled, named]
  · rw [sent]
    exact List.mem_cons_self
  · have root : (session.onParent parent.header.filled).stateRoot (block.withdrawals.getD []) =
        block.header.stateRoot :=
      (executes.stateRoot_onParent rfl _).trans agrees.stateRoot
    have receipts : Trie.listRoot session.receipts = block.header.receiptsRoot :=
      agrees.receiptsRoot
    rw [Session.roots, root, ← receipts]
    rfl

/-- **Whatever witness serves, the execution on the stored parent comes to the same roots.** -/
theorem execute_of_stateless {witness : Witness} {outcome : StatelessOutcome}
    (free : Header.CollisionFree (parent.header :: witness.headers))
    (keyed : parent.hash = block.parentHash)
    (executed : executeStateless block witness = .ok outcome) (wantWitness : Bool) :
    ∃ full, execute parent.header block wantWitness = .ok full ∧
      outcome = ⟨full.stateRoot, full.receiptsRoot⟩ := by
  obtain ⟨found, session, first, -, executes, rfl⟩ := executeStateless_eq_ok_iff.mp executed
  have member : found ∈ witness.headers := List.mem_of_find?_eq_some first
  have named : found.hash = block.parentHash := by
    simpa using List.find?_some first
  have same : parent.header.encode = found.encode :=
    free _ List.mem_cons_self _ (List.mem_cons_of_mem _ member) (keyed.trans named.symm)
  have moved := executes.onParent (Header.number_eq_of_encode_eq same)
  refine ⟨_, execute_eq_ok_iff.mpr ⟨_, moved, rfl⟩, ?_⟩
  have root := executes.stateRoot_onParent (Header.stateRoot_eq_of_encode_eq same)
    (block.withdrawals.getD [])
  exact congrArg (StatelessOutcome.mk · (Trie.listRoot session.receipts)) root.symm

end Chain

/-- **Stateless execution agrees with the execution on the stored parent**, whatever has happened
to the chain. The witness of an insertion that is accepted comes to the roots of the header after it
was encoded and decoded, and every witness at all that an execution succeeds with comes to the roots
of the execution on the stored parent, as long as no header in it is encoded differently but has the
same hash. No byte string in memory has `2 ^ 63` bytes. -/
theorem Node.stateless_agrees (node : Node) (actions : List Action) {block parent : Block}
    (stored : (node.fresh.actAll actions).chain.blockByHash? block.parentHash = some parent) :
    let chain := (node.fresh.actAll actions).chain
    (parent.header.extraData.length < 2 ^ 63 → ∀ chain' witness,
      chain.insert node.config block true = .ok (chain', witness) →
      ∃ sent received, witness = some sent ∧ Witness.decode sent.encode = .ok received ∧
        executeStateless block received =
          .ok ⟨block.header.stateRoot, block.header.receiptsRoot⟩) ∧
    ∀ witness outcome, Header.CollisionFree (parent.header :: witness.headers) →
      executeStateless block witness = .ok outcome → ∀ wantWitness,
        ∃ full, Chain.execute parent.header block wantWitness = .ok full ∧
          outcome = ⟨full.stateRoot, full.receiptsRoot⟩ := by
  have keyed : parent.hash = block.parentHash :=
    keyed_actAll (Chain.keyed_new node.config) actions _ _ stored
  constructor
  · intro short chain' witness inserted
    exact Chain.stateless_of_insert inserted stored keyed short
  · intro witness outcome free executed wantWitness
    exact Chain.execute_of_stateless free keyed executed wantWitness

namespace Siblings

/-- A witness that holds just the genesis block. -/
def genesisWitness : Witness :=
  { headers := [genesis.header], state := [genesis.header.stateRoot.toList] }

theorem genesisWitness_serves : ∃ outcome, executeStateless first genesisWitness = .ok outcome := by
  have executes : first.ExecutesTo genesis.header (Session.idle genesis) :=
    Block.emptyChild_executesTo rfl
  have found : genesisWitness.headers.find? (fun h => h.hash = first.parentHash) =
      some genesis.header :=
    List.find?_cons_of_pos (decide_eq_true rfl)
  exact ⟨_, executeStateless_eq_ok_iff.mpr ⟨genesis.header, _, found, List.mem_cons_self, executes,
    rfl⟩⟩

/-- On a new chain the first block is executed with its own witness, and with one from elsewhere. -/
theorem first_stateless_agrees :
    (∃ chain' witness, (Chain.new {}).insert {} first true = .ok (chain', witness) ∧
      ∃ sent received, witness = some sent ∧ Witness.decode sent.encode = .ok received ∧
        executeStateless first received =
          .ok ⟨first.header.stateRoot, first.header.receiptsRoot⟩) ∧
    ∃ outcome, executeStateless first genesisWitness = .ok outcome ∧
      ∃ full, Chain.execute genesis.header first false = .ok full ∧
        outcome = ⟨full.stateRoot, full.receiptsRoot⟩ := by
  have stored : ((Node.new {}).fresh.actAll []).chain.blockByHash? first.parentHash =
      some genesis := genesis_stored
  obtain ⟨complete, sound⟩ := Node.stateless_agrees (Node.new {}) [] stored
  obtain ⟨witness, inserted⟩ := first_inserted true
  obtain ⟨outcome, executed⟩ := genesisWitness_serves
  have free : Header.CollisionFree (genesis.header :: genesisWitness.headers) := by
    intro h member h' member' _
    simp only [genesisWitness, List.mem_cons, List.not_mem_nil, or_false, or_self]
      at member member'
    rw [member, member']
  exact ⟨⟨_, witness, inserted, complete (by decide) _ witness inserted⟩, outcome, executed,
    sound genesisWitness outcome free executed false⟩

end Siblings

end EngineNode
