import EngineNode.Proofs.Execution

/-!
Calls on a session.

A session is changed in place, one field after another, and whoever fills a block goes on after a
call that has failed. A call is taken here as the row of its checks and of its updates, in machine
words, and a failure keeps what was changed before it. That nothing was changed is then a fact about
the order of these steps.

* `Session.call_of_apply`, `Session.call_of_refused`: a call succeeds exactly when the transaction
  can be applied, and one that fails changes nothing, also where a number leaves its word.
* `Session.applyAll_succeeded`, `Session.calls_of_applyAll`: what a row of calls comes to is what
  the transactions of the successful ones come to.
* `Session.calls_ne_overflow`: where there is room for all transactions, no number leaves its word.
* `Session.calls_replay`: so the successful calls can be repeated alone, whatever failed in between.
-/

namespace EngineNode

/-- A program over a session that may fail. A failure keeps what was changed before it. -/
abbrev SessionM := ExceptT ExecutionError (StateM Session)

namespace SessionM

/-- A number that has to have its place in a word. -/
def inWord (size n : Nat) : SessionM Nat := if n < size then return n else throw .overflow

/-- A program fails for a reason of some kind and leaves the session as it was. -/
def Fails {α : Type} (program : SessionM α) (s : Session) (reason : ExecutionError → Prop) : Prop :=
  ∃ e, program.run s = (.error e, s) ∧ reason e

variable {α β : Type} {s : Session} {size n : Nat}

theorem inWord_of_lt (small : n < size) : inWord size n = pure n := if_pos small

theorem inWord_of_le (large : size ≤ n) : inWord size n = throw .overflow :=
  if_neg (Nat.not_lt.mpr large)

theorem run_get_bind (f : Session → SessionM α) : (get >>= f).run s = (f s).run s := rfl

theorem run_modify_bind (g : Session → Session) (f : PUnit → SessionM α) :
    (modify g >>= f).run s = (f ()).run (g s) := rfl

/-- What a program comes to that goes on after another one. -/
theorem run_bind (program : SessionM α) (f : α → SessionM β) :
    (program >>= f).run s =
      match program.run s with
      | (.ok a, s') => (f a).run s'
      | (.error e, s') => (.error e, s') := by
  have parts : (program >>= f).run s =
      ExceptT.bindCont f (program.run s).1 (program.run s).2 := rfl
  rw [parts]
  rcases program.run s with ⟨_ | _, _⟩ <;> rfl

namespace Fails

variable {program : SessionM α} {reason : ExecutionError → Prop} {e : ExecutionError}

theorem throw (holds : reason e) : Fails (α := α) (MonadExcept.throw e) s reason :=
  ⟨e, rfl, holds⟩

/-- What stands behind a failure is not reached. -/
theorem bind (fails : program.Fails s reason) (f : α → SessionM β) :
    (program >>= f).Fails s reason := by
  obtain ⟨e, ran, holds⟩ := fails
  refine ⟨e, ?_, holds⟩
  rw [run_bind, ran]

/-- A number has its place, or leaves its word. -/
theorem inWord {f : Nat → SessionM α} (fits : n < size → (f n).Fails s reason)
    (leaves : size ≤ n → reason .overflow) : (inWord size n >>= f).Fails s reason := by
  rcases Nat.lt_or_ge n size with small | large
  · rw [inWord_of_lt small]
    exact fits small
  · rw [inWord_of_le large]
    exact (throw (leaves large)).bind f

end Fails

end SessionM

namespace Session

open SessionM

/-- The checks of a call: the gas and the blob gas of a transaction, if there is room for both. -/
def assess (tx : Transaction) : SessionM (Nat × Nat) := do
  let byteGas ← inWord UInt64.size (gasPerByte * tx.bytes.length)
  let gas ← inWord UInt64.size (transactionBaseGas + byteGas)
  let s ← get
  let gasUsed ← inWord UInt64.size (s.gasUsed + gas)
  if s.env.gasLimit.toNat < gasUsed then
    throw (.gasLimitReached s.gasUsed gas s.env.gasLimit.toNat)
  match tx.blobVersionedHashes with
  | .error error => throw (.transaction error)
  | .ok hashes =>
    let blobGas ← inWord UInt64.size (gasPerBlob * hashes.length)
    let blobGasUsed ← inWord UInt64.size (s.blobGasUsed + blobGas)
    if maxBlobGas < blobGasUsed then throw .blobLimitReached
    return (gas, blobGas)

/-- The updates of a call, one field after another. -/
def record (tx : Transaction) (gas blobGas : Nat) : SessionM Unit := do
  let gasUsed ← inWord UInt64.size ((← get).gasUsed + gas)
  modify fun s => { s with gasUsed }
  let blobGasUsed ← inWord UInt64.size ((← get).blobGasUsed + blobGas)
  modify fun s => { s with blobGasUsed }
  unless tx.isDeposit do
    let fees ← inWord U256.size ((← get).fees + gas)
    modify fun s => { s with fees }
  modify fun s => { s with transactionHashes := s.transactionHashes ++ [tx.hash] }
  modify fun s => { s with receipts := s.receipts ++ [receipt tx s.gasUsed] }

/-- A call answers with the gas of its transaction. -/
def call (tx : Transaction) : SessionM Nat := do
  let (gas, blobGas) ← assess tx
  record tx gas blobGas
  return gas

/-- A row of calls, each of which is made whatever became of the others: what they answer. -/
def calls (transactions : List Transaction) : StateM Session (List (Except ExecutionError Nat)) :=
  transactions.mapM fun tx => (call tx).run

/-- The transactions whose calls succeeded. -/
def succeeded (transactions : List Transaction) (answers : List (Except ExecutionError Nat)) :
    List Transaction :=
  ((transactions.zip answers).filter fun entry => entry.2.isOk).map Prod.fst

/-- Nothing is above its limit, and fees are earned for gas alone. -/
structure Tallied (s : Session) : Prop where
  gas : s.gasUsed ≤ s.env.gasLimit.toNat
  blobGas : s.blobGasUsed ≤ maxBlobGas
  fees : s.fees ≤ s.gasUsed

variable {s s' : Session} {tx : Transaction} {rest transactions : List Transaction}
  {e : ExecutionError}

theorem tallied_begin {parent : Header} {env : BlockEnv} (begun : begin parent env = .ok s) :
    s.Tallied := by
  obtain rfl := eq_of_begin begun
  exact ⟨Nat.zero_le _, Nat.zero_le _, Nat.le_refl _⟩

/-- A transaction that is applied leaves everything within its limit. -/
theorem Tallied.apply (tallied : s.Tallied) (applied : s.apply tx = .ok s') : s'.Tallied := by
  obtain ⟨hashes, -, room, blobRoom, rfl⟩ := apply_eq_ok applied
  refine ⟨room, blobRoom, ?_⟩
  have fees := tallied.fees
  dsimp only
  split <;> omega

theorem Tallied.applyAll (tallied : s.Tallied) (applied : s.applyAll transactions = .ok s') :
    s'.Tallied := by
  induction transactions generalizing s with
  | nil =>
      cases applied
      exact tallied
  | cons tx rest ih =>
      obtain ⟨next, first, others⟩ := bind_eq_ok_iff.mp applied
      exact ih (tallied.apply first) others

theorem gasUsed_of_applyAll (applied : s.applyAll transactions = .ok s') :
    s'.gasUsed = s.gasUsed + (transactions.map transactionGas).sum := by
  induction transactions generalizing s with
  | nil =>
      cases applied
      rfl
  | cons tx rest ih =>
      obtain ⟨next, first, others⟩ := bind_eq_ok_iff.mp applied
      obtain ⟨_, -, -, -, rfl⟩ := apply_eq_ok first
      rw [ih others, List.map_cons, List.sum_cons, Nat.add_assoc]

/-! ### One call -/

/-- The session with a transaction added that costs so much. -/
def charge (s : Session) (tx : Transaction) (gas blobGas : Nat) : Session :=
  { s with
    gasUsed := s.gasUsed + gas
    blobGasUsed := s.blobGasUsed + blobGas
    fees := if tx.isDeposit then s.fees else s.fees + gas
    transactionHashes := s.transactionHashes ++ [tx.hash]
    receipts := s.receipts ++ [receipt tx (s.gasUsed + gas)] }

/-- Updates that have their place in their words come to their end. -/
theorem record_run {gas blobGas : Nat} (gasFits : s.gasUsed + gas < UInt64.size)
    (blobGasFits : s.blobGasUsed + blobGas < UInt64.size) (feesFit : s.fees + gas < U256.size) :
    (record tx gas blobGas).run s = (.ok (), s.charge tx gas blobGas) := by
  unfold record charge
  rw [run_get_bind, inWord_of_lt gasFits, pure_bind, run_modify_bind, run_get_bind,
    inWord_of_lt blobGasFits, pure_bind, run_modify_bind]
  cases tx.isDeposit with
  | true => rfl
  | false =>
      simp only [Bool.false_eq_true, if_false]
      rw [run_get_bind, inWord_of_lt feesFit]
      rfl

/-- The gas of a transaction is computed in two steps, and has its place if the second one has. -/
theorem inWord_transactionGas {α : Type} (f : Nat → SessionM α)
    (fits : transactionGas tx < UInt64.size) :
    (do
      let byteGas ← inWord UInt64.size (gasPerByte * tx.bytes.length)
      let gas ← inWord UInt64.size (transactionBaseGas + byteGas)
      f gas) = f (transactionGas tx) := by
  have cost : transactionBaseGas + gasPerByte * tx.bytes.length = transactionGas tx := rfl
  rw [inWord_of_lt (by omega), pure_bind, cost, inWord_of_lt fits, pure_bind]

/-- The checks let a transaction pass that can be applied. -/
theorem assess_of_apply (applied : s.apply tx = .ok s') :
    ∃ blobGas, (assess tx).run s = (.ok (transactionGas tx, blobGas), s) ∧
      s.blobGasUsed + blobGas ≤ maxBlobGas ∧ s' = s.charge tx (transactionGas tx) blobGas := by
  obtain ⟨hashes, told, room, blobRoom, rfl⟩ := apply_eq_ok applied
  refine ⟨gasPerBlob * hashes.length, ?_, blobRoom, rfl⟩
  have limit : s.env.gasLimit.toNat < UInt64.size := s.env.gasLimit.toNat_lt
  have blobLimit : maxBlobGas < UInt64.size := by decide
  unfold assess
  rw [inWord_transactionGas _ (by omega), run_get_bind, inWord_of_lt (by omega), pure_bind,
    if_neg (Nat.not_lt.mpr room), told]
  dsimp only
  rw [inWord_of_lt (by omega), pure_bind, inWord_of_lt (by omega), pure_bind,
    if_neg (Nat.not_lt.mpr blobRoom)]
  rfl

/-- **A transaction that can be applied is applied by its call.** -/
theorem call_of_apply (tallied : s.Tallied) (applied : s.apply tx = .ok s') :
    (call tx).run s = (.ok (transactionGas tx), s') := by
  have gas := (gasUsed_le_of_apply applied).2
  have limit : s.env.gasLimit.toNat < UInt64.size := s.env.gasLimit.toNat_lt
  have blobLimit : maxBlobGas < UInt64.size := by decide
  have wide : UInt64.size < U256.size := by decide
  have fees := tallied.fees
  obtain ⟨blobGas, assessed, blobRoom, rfl⟩ := assess_of_apply applied
  have total : s.gasUsed + transactionGas tx ≤ s.env.gasLimit.toNat := gas
  unfold call
  rw [run_bind, assessed]
  dsimp only
  rw [run_bind, record_run (by omega) (by omega) (by omega)]
  rfl

/-- The three reasons for which a transaction is refused. -/
inductive Refused (s : Session) (tx : Transaction) : ExecutionError → Prop where
  | gas : s.env.gasLimit.toNat < s.gasUsed + transactionGas tx →
      Refused s tx (.gasLimitReached s.gasUsed (transactionGas tx) s.env.gasLimit.toNat)
  | malformed {error : TransactionError} :
      s.gasUsed + transactionGas tx ≤ s.env.gasLimit.toNat →
      tx.blobVersionedHashes = .error error → Refused s tx (.transaction error)
  | blobs {hashes : List Hash} : s.gasUsed + transactionGas tx ≤ s.env.gasLimit.toNat →
      tx.blobVersionedHashes = .ok hashes →
      maxBlobGas < s.blobGasUsed + gasPerBlob * hashes.length → Refused s tx .blobLimitReached

theorem refused_of_apply (refused : s.apply tx = .error e) : s.Refused tx e := by
  unfold apply at refused
  by_cases room : s.gasUsed + transactionGas tx ≤ s.env.gasLimit.toNat
  · simp only [if_neg (Nat.not_lt.mpr room)] at refused
    cases told : tx.blobVersionedHashes with
    | error error =>
        simp only [told] at refused
        cases refused
        exact .malformed room told
    | ok hashes =>
        by_cases blobRoom : s.blobGasUsed + gasPerBlob * hashes.length ≤ maxBlobGas
        · simp only [told, if_neg (Nat.not_lt.mpr blobRoom)] at refused
          cases refused
        · simp only [told, if_pos (Nat.not_le.mp blobRoom)] at refused
          cases refused
          exact .blobs room told (Nat.not_le.mp blobRoom)
  · simp only [if_pos (Nat.not_le.mp room)] at refused
    cases refused
    exact .gas (Nat.not_le.mp room)

/-- The reason for which a call fails: that for which the transaction is refused, where there is
room for it. -/
def FailsLike (s : Session) (tx : Transaction) (e reason : ExecutionError) : Prop :=
  ∀ rest, s.Room (tx :: rest) → reason = e

/-- The checks stop a transaction that is refused. They come before the first update. -/
theorem assess_of_refused (refused : s.Refused tx e) : (assess tx).Fails s (s.FailsLike tx e) := by
  have cost : transactionBaseGas + gasPerByte * tx.bytes.length = transactionGas tx := rfl
  have limit : s.env.gasLimit.toNat < UInt64.size := s.env.gasLimit.toNat_lt
  unfold assess
  cases refused with
  | gas exceeds =>
      -- A cost that leaves its word is above the limit too.
      have leaves : UInt64.size ≤ s.gasUsed + transactionGas tx →
          s.FailsLike tx (.gasLimitReached s.gasUsed (transactionGas tx) s.env.gasLimit.toNat)
            .overflow := by
        intro large rest room
        have gas := room.gas
        rw [List.map_cons, List.sum_cons] at gas
        omega
      refine .inWord (fun _ => ?_) fun _ => leaves (by omega)
      rw [cost]
      refine .inWord (fun _ => ?_) fun _ => leaves (by omega)
      refine Fails.inWord (s := s) (fun _ => ?_) leaves
      rw [if_pos exceeds]
      exact ⟨_, rfl, fun _ _ => rfl⟩
  | malformed room told =>
      rw [inWord_transactionGas _ (by omega)]
      refine Fails.inWord (s := s) (fun _ => ?_) (by omega)
      rw [if_neg (Nat.not_lt.mpr room), told]
      exact .throw fun _ _ => rfl
  | @blobs hashes room told exceeds =>
      have leaves : UInt64.size ≤ s.blobGasUsed + gasPerBlob * hashes.length →
          s.FailsLike tx .blobLimitReached .overflow := by
        intro large rest room
        have blobs := room.blobs tx List.mem_cons_self hashes told
        have used := room.blobGasUsed
        omega
      rw [inWord_transactionGas _ (by omega)]
      refine Fails.inWord (s := s) (fun _ => ?_) (by omega)
      rw [if_neg (Nat.not_lt.mpr room), told]
      refine .inWord (fun _ => ?_) fun _ => leaves (by omega)
      refine .inWord (fun _ => ?_) leaves
      rw [if_pos exceeds]
      exact ⟨_, rfl, fun _ _ => rfl⟩

/-- **A call that fails changes nothing.** -/
theorem call_of_refused (refused : s.apply tx = .error e) :
    (call tx).Fails s (s.FailsLike tx e) :=
  (assess_of_refused (refused_of_apply refused)).bind _

/-! ### Rows of calls -/

theorem calls_cons {answer : Except ExecutionError Nat} (ran : (call tx).run s = (answer, s')) :
    (calls (tx :: rest)).run s =
      (answer :: ((calls rest).run s').1, ((calls rest).run s').2) := by
  have parts : (calls (tx :: rest)).run s =
      (((call tx).run s).1 :: ((calls rest).run ((call tx).run s).2).1,
        ((calls rest).run ((call tx).run s).2).2) := by
    unfold calls
    rw [List.mapM_cons]
    rfl
  rw [parts, ran]

/-- **After a row of calls a session is that of the transactions whose calls succeeded.** -/
theorem applyAll_succeeded (tallied : s.Tallied) (transactions : List Transaction) :
    s.applyAll (succeeded transactions ((calls transactions).run s).1) =
      .ok ((calls transactions).run s).2 := by
  induction transactions generalizing s with
  | nil => rfl
  | cons tx rest ih =>
      cases applied : s.apply tx with
      | ok next =>
          rw [calls_cons (call_of_apply tallied applied)]
          show s.applyAll (tx :: succeeded rest _) = _
          rw [applyAll, List.foldlM_cons, applied]
          exact ih (tallied.apply applied)
      | error e =>
          obtain ⟨reason, failed, -⟩ := call_of_refused applied
          rw [calls_cons failed]
          exact ih tallied

/-- Calls for transactions that can all be applied all succeed. -/
theorem calls_of_applyAll (tallied : s.Tallied) (applied : s.applyAll transactions = .ok s') :
    (calls transactions).run s =
      (transactions.map fun tx => .ok (transactionGas tx), s') := by
  induction transactions generalizing s with
  | nil =>
      cases applied
      rfl
  | cons tx rest ih =>
      obtain ⟨next, first, others⟩ := bind_eq_ok_iff.mp applied
      rw [calls_cons (call_of_apply tallied first), ih (tallied.apply first) others]
      rfl

/-- A transaction that is passed over leaves its room to the others. -/
theorem Room.skip (room : s.Room (tx :: rest)) : s.Room rest := by
  refine ⟨?_, fun tx member => room.blobs tx (List.mem_cons_of_mem _ member), room.blobGasUsed,
    room.fees⟩
  have gas := room.gas
  rw [List.map_cons, List.sum_cons] at gas
  omega

/-- **Where there is room for all transactions, no call fails because a number leaves its word.** -/
theorem calls_ne_overflow (tallied : s.Tallied) (room : s.Room transactions) :
    ∀ answer ∈ ((calls transactions).run s).1, answer ≠ .error .overflow := by
  induction transactions generalizing s with
  | nil => nofun
  | cons tx rest ih =>
      cases applied : s.apply tx with
      | ok next =>
          rw [calls_cons (call_of_apply tallied applied)]
          refine List.forall_mem_cons.mpr ⟨nofun, ?_⟩
          exact ih (tallied.apply applied) (room.step applied)
      | error e =>
          obtain ⟨reason, failed, like⟩ := call_of_refused applied
          rw [calls_cons failed]
          refine List.forall_mem_cons.mpr ⟨?_, ih tallied room.skip⟩
          rw [like rest room]
          rintro ⟨⟩
          exact apply_ne_overflow applied

/-- **A failed call leaves no trace.** Whatever transactions a session is called with, it ends as a
new one does that is called with those alone whose calls succeeded, and so with the same gas, the
same blob gas and the same outcome; there every call succeeds again. The gas used is that of these
transactions. It is within the limit of the block, and the blob gas is within that on blobs. A call
whose numbers leave their words has failed like any other. Below `2 ^ 59` bytes none does, if there
are fewer than `2 ^ 48` transactions and their blobs can be counted. -/
theorem calls_replay {parent : Header} {env : BlockEnv} {start : Session}
    (begun : begin parent env = .ok start) (transactions : List Transaction) :
    let ended := (calls transactions).run start
    let kept := succeeded transactions ended.1
    (calls kept).run start = (kept.map fun tx => .ok (21000 + 16 * tx.bytes.length), ended.2) ∧
      start.applyAll kept = .ok ended.2 ∧
      ended.2.gasUsed = (kept.map fun tx => 21000 + 16 * tx.bytes.length).sum ∧
      ended.2.gasUsed ≤ env.gasLimit.toNat ∧ ended.2.blobGasUsed ≤ 6 * 2 ^ 17 ∧
      ((transactions.map fun tx => tx.bytes.length).sum < 2 ^ 59 →
        transactions.length < 2 ^ 48 → (∀ tx ∈ transactions, BlobRoom tx) →
          ∀ answer ∈ ended.1, answer ≠ .error .overflow) := by
  intro ended kept
  have tallied := tallied_begin begun
  have applied : start.applyAll kept = .ok ended.2 := applyAll_succeeded tallied transactions
  have within := tallied.applyAll applied
  obtain rfl := eq_of_begin begun
  have used : ended.2.gasUsed = 0 + (kept.map transactionGas).sum := gasUsed_of_applyAll applied
  rw [Nat.zero_add] at used
  refine ⟨calls_of_applyAll tallied applied, applied, used,
    (gasUsed_le_of_applyAll (Nat.zero_le _) applied).2, within.blobGas, ?_⟩
  intro size count blobs
  exact calls_ne_overflow tallied (room_begin size count blobs)

end Session

/-! ### Calls that succeed and calls that fail -/

namespace MixedCalls

def plain : Transaction := ⟨[0xc2, 0x02, 0x03], .legacy, rfl⟩

/-- A blob transaction without any fields. -/
def garbled : Transaction := ⟨[0x03, 0xc0], .blob, rfl⟩

/-- A blob transaction with seven blobs. -/
def crowded : Transaction where
  bytes := 0x03 :: Rlp.encodeList (List.replicate 10 0x80 ++
    Rlp.encodeList ((List.replicate 7 (FixedBytes.zero 32)).flatMap Rlp.encodeFixed))
  type := .blob
  classify_bytes := by decide +kernel

def transactions : List Transaction := [plain, garbled, crowded, plain, plain]

/-- A session for a block that has room for two plain transactions. -/
def start : Session where
  parent := {}
  env := ⟨1, .zero 20, 50000⟩

/-- What the calls answer: one of them fails at each of the three checks. -/
def answers : List (Except ExecutionError Nat) :=
  [.ok 21048, .error (.transaction (.rlp .inputTooShort)), .error .blobLimitReached, .ok 21048,
    .error (.gasLimitReached 42096 21048 50000)]

/-- The two calls that succeed are replayed. -/
theorem mixed_replay : Session.begin {} start.env = .ok start ∧ ∃ ended,
    (Session.calls transactions).run start = (answers, ended) ∧
      (Session.calls [plain, plain]).run start = ([.ok 21048, .ok 21048], ended) ∧
        ended.gasUsed = 42096 := by
  have begun : Session.begin {} start.env = .ok start := rfl
  have answered : ((Session.calls transactions).run start).1 = answers := by decide +kernel
  have replay := Session.calls_replay begun transactions
  rcases ran : (Session.calls transactions).run start with ⟨given, ended⟩
  rw [ran] at answered replay
  obtain rfl : given = answers := answered
  obtain ⟨replayed, -, used, -⟩ := replay
  exact ⟨begun, ended, rfl, replayed, used⟩

end MixedCalls

end EngineNode
