import EngineNode.Build.Args
import EngineNode.Proofs.FeeMarket
import EngineNode.Proofs.Header.Filled

/-!
What the name of a payload says of its arguments.

The bytes that are hashed for a name hold the arguments one after another, without marks for those
that are absent. The time of a payload tells which of them are there (`BuildArgs.Shaped`), and the
length of the whole tells about the gas limit, so nothing is lost but the contents of transactions,
of which only the hashes are written.

* `Withdrawal.delimits_encode`: encoded withdrawals can be told apart one after another.
* `BuildArgs.agree_of_preimage_eq`: arguments with the same bytes agree in all that is written.
* `BuildArgs.Agree.eq`: so they are the same, as long as they were made for one version and the
  hashes of their transactions tell these apart.
-/

namespace EngineNode

/-! ### Fields of fixed length -/

theorem FixedBytes.append_inj {n : Nat} {a b : FixedBytes n} {x y : Bytes}
    (same : a.toList ++ x = b.toList ++ y) : a = b ∧ x = y := by
  obtain ⟨bytes, rest⟩ := List.append_inj same (by rw [a.length_toList, b.length_toList])
  exact ⟨FixedBytes.ext bytes, rest⟩

theorem Bytes.ofNatPadded_toNat_append_inj {a b : UInt64} {x y : Bytes}
    (same : ofNatPadded 8 a.toNat ++ x = ofNatPadded 8 b.toNat ++ y) : a = b ∧ x = y := by
  obtain ⟨bytes, rest⟩ := List.append_inj same (by simp)
  have numbers := congrArg toNat bytes
  have small (n : UInt64) : n.toNat < 256 ^ 8 := n.toNat_lt
  rw [toNat_ofNatPadded, toNat_ofNatPadded, Nat.mod_eq_of_lt (small a),
    Nat.mod_eq_of_lt (small b)] at numbers
  exact ⟨UInt64.toNat_inj.mp numbers, rest⟩

theorem FixedBytes.length_flatMap {α : Type} {n : Nat} (hash : α → FixedBytes n) (l : List α) :
    (l.flatMap fun a => (hash a).toList).length = n * l.length := by
  induction l with
  | nil => rfl
  | cons a rest ih =>
      rw [List.flatMap_cons, List.length_append, ih, (hash a).length_toList, List.length_cons,
        Nat.mul_succ, Nat.add_comm]

/-- Hashes in a row are told apart by their number. -/
theorem FixedBytes.flatMap_inj {α : Type} {n : Nat} {hash : α → FixedBytes n} {l l' : List α}
    {x y : Bytes} (lengths : l.length = l'.length)
    (same : (l.flatMap fun a => (hash a).toList) ++ x =
      (l'.flatMap fun a => (hash a).toList) ++ y) :
    l.map hash = l'.map hash ∧ x = y := by
  induction l generalizing l' with
  | nil =>
      obtain rfl := List.length_eq_zero_iff.mp lengths.symm
      exact ⟨rfl, same⟩
  | cons a l ih =>
      cases l' with
      | nil => cases lengths
      | cons b l' =>
          simp only [List.flatMap_cons, List.append_assoc] at same
          obtain ⟨first, others⟩ := append_inj same
          obtain ⟨hashes, rest⟩ := ih (Nat.succ.inj lengths) others
          exact ⟨by rw [List.map_cons, List.map_cons, first, hashes], rest⟩

/-- Rows with the same hashes are the same if the hashes tell apart what is in them. -/
theorem eq_of_map_eq {α β : Type} {hash : α → β} {l l' : List α}
    (apart : ∀ a ∈ l, ∀ b ∈ l', hash a = hash b → a = b) (same : l.map hash = l'.map hash) :
    l = l' := by
  induction l generalizing l' with
  | nil => exact (List.map_eq_nil_iff.mp same.symm).symm
  | cons a rest ih =>
      cases l' with
      | nil => cases same
      | cons b rest' =>
          rw [List.map_cons, List.map_cons] at same
          obtain ⟨first, others⟩ := List.cons.inj same
          obtain rfl := apart a List.mem_cons_self b List.mem_cons_self first
          rw [ih (fun a member b member' => apart a (List.mem_cons_of_mem _ member) b
            (List.mem_cons_of_mem _ member')) others]

/-! ### Withdrawals -/

namespace Rlp

/-- A list that is short enough delimits itself. -/
theorem encodeList_append_inj {a b x y : Bytes} (ha : a.length < 256 ^ 8)
    (hb : b.length < 256 ^ 8) (same : encodeList a ++ x = encodeList b ++ y) : a = b ∧ x = y := by
  rw [encodeList, encodeList, List.append_assoc, List.append_assoc] at same
  obtain ⟨lengths, rest⟩ := encodeLength_append_inj (Nat.le_refl _) ha hb same
  exact List.append_inj rest lengths

/-- Items that delimit themselves can be read off one after another. -/
theorem Delimits.flatMap_injective {α : Type} {encode : α → Bytes} (delimits : Delimits encode)
    {l l' : List α} (same : l.flatMap encode = l'.flatMap encode) : l = l' := by
  induction l generalizing l' with
  | nil =>
      cases l' with
      | nil => rfl
      | cons b l' =>
          rw [List.flatMap_nil, List.flatMap_cons] at same
          exact absurd (List.append_eq_nil_iff.mp same.symm).1 (delimits.ne_nil b)
  | cons a l ih =>
      cases l' with
      | nil =>
          rw [List.flatMap_nil, List.flatMap_cons] at same
          exact absurd (List.append_eq_nil_iff.mp same).1 (delimits.ne_nil a)
      | cons b l' =>
          rw [List.flatMap_cons, List.flatMap_cons] at same
          obtain ⟨rfl, rest⟩ := delimits.append_inj same
          rw [ih rest]

end Rlp

namespace Withdrawal

/-- The fields of a withdrawal, encoded one after another. -/
def encodeFields (w : Withdrawal) : Bytes :=
  Rlp.encodeNat w.index.toNat ++ Rlp.encodeNat w.validatorIndex.toNat ++
    Rlp.encodeFixed w.address ++ Rlp.encodeNat w.amount.toNat

theorem length_encodeFields_lt (w : Withdrawal) : w.encodeFields.length < 256 ^ 8 := by
  have index := Rlp.length_encodeUInt64_le w.index
  have validator := Rlp.length_encodeUInt64_le w.validatorIndex
  have address := Rlp.length_encodeFixed_le (by norm_num) w.address
  have amount := Rlp.length_encodeUInt64_le w.amount
  simp only [encodeFields, List.length_append]
  omega

/-- **Encoded withdrawals can be told apart one after another.** -/
theorem delimits_encode : Rlp.Delimits encode where
  ne_nil w := Rlp.encodeList_ne_nil w.encodeFields
  append_inj {a b x y} same := by
    obtain ⟨fields, rest⟩ := Rlp.encodeList_append_inj a.length_encodeFields_lt
      b.length_encodeFields_lt same
    rw [encodeFields, encodeFields, List.append_assoc, List.append_assoc, List.append_assoc,
      List.append_assoc] at fields
    obtain ⟨index, fields⟩ := Rlp.delimits_number.append_inj fields
    obtain ⟨validator, fields⟩ := Rlp.delimits_number.append_inj fields
    obtain ⟨address, fields⟩ := Rlp.encodeFixed_append_inj (by norm_num) fields
    rw [← List.append_nil (Rlp.encodeNat a.amount.toNat),
      ← List.append_nil (Rlp.encodeNat b.amount.toNat)] at fields
    obtain ⟨amount, -⟩ := Rlp.delimits_number.append_inj fields
    obtain ⟨_, _, _, _⟩ := a
    obtain ⟨_, _, _, _⟩ := b
    cases index
    cases validator
    cases address
    cases amount
    exact ⟨rfl, rest⟩

end Withdrawal

/-! ### Arguments -/

namespace BuildArgs

variable {config : ChainConfig} {a b : BuildArgs}

/-- The optional arguments are there exactly when the rules at their time ask for them. The gas
limit is free, but next to fee parameters it is always there. -/
structure Shaped (config : ChainConfig) (args : BuildArgs) : Prop where
  withdrawals : args.withdrawals.isSome = config.isShanghai args.timestamp
  beaconRoot : args.beaconRoot.isSome = config.isCancun args.timestamp
  feeParams : args.feeParams.isSome = config.isHolocene args.timestamp
  width : ∀ params, args.feeParams = some params → params.length = 8

/-- The withdrawals of the arguments can be encoded: the length of the whole fits in eight bytes. -/
def Encodable (args : BuildArgs) : Prop :=
  ∀ list, args.withdrawals = some list → (list.flatMap Withdrawal.encode).length < 2 ^ 64

/-- An optional field can be told apart if it is known whether it is there. -/
theorem optional_append_inj {α : Type} {encode : α → Bytes} {m n : Option α} {x y : Bytes}
    (present : m.isSome = n.isSome)
    (apart : ∀ p q, m = some p → n = some q → encode p ++ x = encode q ++ y → p = q ∧ x = y)
    (same : m.elim [] encode ++ x = n.elim [] encode ++ y) : m = n ∧ x = y := by
  cases m with
  | none =>
      cases n with
      | none => exact ⟨rfl, same⟩
      | some q => cases present
  | some p =>
      cases n with
      | none => cases present
      | some q => exact (apart p q rfl rfl same).imp_left (congrArg some)

theorem withdrawals_append_inj {x y : Bytes} (encodable : a.Encodable) (encodable' : b.Encodable)
    (present : a.withdrawals.isSome = b.withdrawals.isSome)
    (same : (a.withdrawals.elim [] fun l => Rlp.encodeList (l.flatMap Withdrawal.encode)) ++ x =
      (b.withdrawals.elim [] fun l => Rlp.encodeList (l.flatMap Withdrawal.encode)) ++ y) :
    a.withdrawals = b.withdrawals ∧ x = y := by
  refine optional_append_inj present ?_ same
  intro list list' given given' encoded
  exact (Rlp.encodeList_append_inj (encodable list given) (encodable' list' given')
    encoded).imp_left Withdrawal.delimits_encode.flatMap_injective

theorem noTxPool_cons_inj {p q : Bool} {x y : Bytes}
    (same : [if p then (1 : UInt8) else 0] ++ x = [if q then 1 else 0] ++ y) : p = q ∧ x = y := by
  obtain ⟨bytes, rest⟩ := List.cons.inj same
  refine ⟨?_, rest⟩
  cases p <;> cases q <;> first | rfl | cases bytes

theorem length_gasLimit (limit : Option UInt64) :
    (limit.elim [] fun n => Bytes.ofNatPadded 8 n.toNat).length =
      if limit.isSome then 8 else 0 := by
  cases limit with
  | none => rfl
  | some n => simp

theorem Shaped.length_feeParams (shaped : a.Shaped config) :
    (a.feeParams.getD []).length = if config.isHolocene a.timestamp then 8 else 0 := by
  rw [← shaped.feeParams]
  cases given : a.feeParams with
  | none => rfl
  | some params => exact shaped.width params given

/-- A hash is longer than a gas limit, so neither can stand for the other. -/
theorem counts_inj {m n rest : Nat} {p q : Bool}
    (same : 32 * m + ((if p then 8 else 0) + rest) = 32 * n + ((if q then 8 else 0) + rest)) :
    m = n ∧ p = q := by
  cases p <;> cases q <;> simp only [Bool.false_eq_true, if_false, if_true] at same
  · exact ⟨by omega, rfl⟩
  · omega
  · omega
  · exact ⟨by omega, rfl⟩

/-- The hashes, the gas limit and the fee parameters, which end the arguments, can be told apart by
their common length if it is known whether there are fee parameters. -/
theorem tail_inj (shaped : a.Shaped config) (shaped' : b.Shaped config)
    (times : a.timestamp = b.timestamp)
    (same : (a.transactions.flatMap fun tx => tx.hash.toList) ++
        ((a.gasLimit.elim [] fun n => Bytes.ofNatPadded 8 n.toNat) ++ a.feeParams.getD []) =
      (b.transactions.flatMap fun tx => tx.hash.toList) ++
        ((b.gasLimit.elim [] fun n => Bytes.ofNatPadded 8 n.toNat) ++ b.feeParams.getD [])) :
    a.transactions.map Transaction.hash = b.transactions.map Transaction.hash ∧
      a.gasLimit = b.gasLimit ∧ a.feeParams = b.feeParams := by
  have total := congrArg List.length same
  simp only [List.length_append, FixedBytes.length_flatMap, length_gasLimit,
    shaped.length_feeParams, shaped'.length_feeParams, times] at total
  obtain ⟨count, present⟩ := counts_inj total
  obtain ⟨hashes, rest⟩ := FixedBytes.flatMap_inj count same
  obtain ⟨limits, params⟩ := optional_append_inj present
    (fun _ _ _ _ => Bytes.ofNatPadded_toNat_append_inj) rest
  have told : a.feeParams.isSome = b.feeParams.isSome := by
    rw [shaped.feeParams, shaped'.feeParams, times]
  have plain (given : Option Bytes) : given.getD [] = (given.elim [] fun bytes => bytes) ++ [] := by
    cases given <;> simp
  rw [plain, plain] at params
  refine ⟨hashes, limits, (optional_append_inj told ?_ params).1⟩
  intro given given' ha hb bytes
  exact List.append_inj bytes ((shaped.width given ha).trans (shaped'.width given' hb).symm)

/-- Arguments that say the same, but for the version, and but for what the hashes of their
transactions do not tell. -/
structure Agree (a b : BuildArgs) : Prop where
  parent : a.parent = b.parent
  timestamp : a.timestamp = b.timestamp
  random : a.random = b.random
  feeRecipient : a.feeRecipient = b.feeRecipient
  withdrawals : a.withdrawals = b.withdrawals
  beaconRoot : a.beaconRoot = b.beaconRoot
  noTxPool : a.noTxPool = b.noTxPool
  hashes : a.transactions.map Transaction.hash = b.transactions.map Transaction.hash
  gasLimit : a.gasLimit = b.gasLimit
  feeParams : a.feeParams = b.feeParams

/-- **Arguments with the same bytes agree.** -/
theorem agree_of_preimage_eq (shaped : a.Shaped config) (shaped' : b.Shaped config)
    (encodable : a.Encodable) (encodable' : b.Encodable) (same : a.preimage = b.preimage) :
    a.Agree b := by
  simp only [preimage, List.append_assoc] at same
  obtain ⟨parents, same⟩ := FixedBytes.append_inj same
  obtain ⟨times, same⟩ := Bytes.ofNatPadded_toNat_append_inj same
  obtain ⟨randoms, same⟩ := FixedBytes.append_inj same
  obtain ⟨recipients, same⟩ := FixedBytes.append_inj same
  obtain ⟨withdrawals, same⟩ := withdrawals_append_inj encodable encodable'
    (by rw [shaped.withdrawals, shaped'.withdrawals, times]) same
  obtain ⟨roots, same⟩ := optional_append_inj
    (by rw [shaped.beaconRoot, shaped'.beaconRoot, times])
    (fun _ _ _ _ => FixedBytes.append_inj) same
  obtain ⟨pools, same⟩ := noTxPool_cons_inj same
  -- The count of the transactions is written modulo `2 ^ 64`; the length of the rest tells it.
  obtain ⟨-, same⟩ := List.append_inj same (by simp)
  obtain ⟨hashes, limits, params⟩ := tail_inj shaped shaped' times same
  exact ⟨parents, times, randoms, recipients, withdrawals, roots, pools, hashes, limits, params⟩

/-- Arguments that agree are the same, if they were made for one version and the hashes of their
transactions tell these apart. -/
theorem Agree.eq (agree : a.Agree b) (version : a.version = b.version)
    (apart : ∀ tx ∈ a.transactions, ∀ tx' ∈ b.transactions, tx.hash = tx'.hash → tx = tx') :
    a = b := by
  obtain ⟨parents, times, randoms, recipients, withdrawals, roots, pools, hashes, limits, params⟩ :=
    agree
  have transactions := eq_of_map_eq apart hashes
  obtain ⟨_, _, _, _, _, _, _, _, _, _, _⟩ := a
  obtain ⟨_, _, _, _, _, _, _, _, _, _, _⟩ := b
  simp only at *
  simp only [parents, times, randoms, recipients, withdrawals, roots, version, pools,
    transactions, limits, params]

end BuildArgs

end EngineNode
