import EngineNode.Proofs.Build.Preimage
import EngineNode.Proofs.Header.Canonical
import EngineNode.Transaction

/-!
Which byte strings are transactions.

A transaction is one list, or the byte of a type and one list. A list is told by its first byte,
which is no type, and it ends where its announcement says. The announcement has one form for each
length, so that nothing is left open: what a byte string is read as, and where it ends.

* `Rlp.AnnouncesList`, `Rlp.IsList`: lists, as they are spelled.
* `Rlp.decodeListPayload_eq_ok_iff`: a list is read off the front of exactly the byte strings that
  begin with one.
* `Transaction.Spells`: transactions, as they are spelled.
* `Transaction.decode_grammar`: which byte strings are transactions, and that none of them begins
  another.
-/

namespace EngineNode

/-! ### Lists -/

namespace Rlp

variable {bytes header rest : Bytes} {length : Nat}

/-- The bytes that announce a list of some length: one byte for a length below 56, otherwise the
number of its digits and the digits, of which there are at most eight and the first is not zero. -/
inductive AnnouncesList : Bytes → Nat → Prop
  | short {length : Nat} (small : length < 56) :
    AnnouncesList [UInt8.ofNat (0xc0 + length)] length
  | long {digits : Bytes} (few : digits.length ≤ 8) (leading : digits.head? ≠ some 0)
    (large : 56 ≤ Bytes.toNat digits) :
    AnnouncesList (UInt8.ofNat (0xf7 + digits.length) :: digits) (Bytes.toNat digits)

/-- One list: an announcement, and as many bytes as it announces. -/
def IsList (bytes : Bytes) : Prop :=
  ∃ header payload, AnnouncesList header payload.length ∧ bytes = header ++ payload

/-- There is one announcement for each length, the one that is written. -/
theorem announcesList_iff :
    AnnouncesList header length ↔ length < 2 ^ 64 ∧ header = encodeLength 0xc0 length := by
  constructor
  · intro announced
    cases announced with
    | short small => exact ⟨by omega, by rw [encodeLength, if_pos small]⟩
    | @long digits few leading large =>
        have width : 256 ^ digits.length ≤ 256 ^ 8 := Nat.pow_le_pow_right (by decide) few
        refine ⟨(Bytes.toNat_lt digits).trans_le (width.trans (by norm_num)), ?_⟩
        rw [encodeLength, if_neg (by omega), Bytes.ofNat_toNat leading]
  · rintro ⟨fits, rfl⟩
    by_cases small : length < 56
    · rw [encodeLength, if_pos small]
      exact .short small
    · have few : (Bytes.ofNat length).length ≤ 8 := Bytes.length_ofNat_le (by omega)
      have announced : AnnouncesList _ (Bytes.toNat (Bytes.ofNat length)) :=
        .long few (Bytes.head?_ofNat_ne_zero length) (by rw [Bytes.toNat_ofNat]; omega)
      rw [Bytes.toNat_ofNat] at announced
      rw [encodeLength, if_neg small]
      exact announced

theorem isList_iff :
    IsList bytes ↔ ∃ payload : Bytes, payload.length < 2 ^ 64 ∧ bytes = encodeList payload := by
  constructor
  · rintro ⟨header, payload, announced, rfl⟩
    obtain ⟨fits, rfl⟩ := announcesList_iff.mp announced
    exact ⟨payload, fits, rfl⟩
  · rintro ⟨payload, fits, rfl⟩
    exact ⟨_, payload, announcesList_iff.mpr ⟨fits, rfl⟩, rfl⟩

/-- The first byte of a list tells that it is one. -/
theorem IsList.exists_cons (list : IsList bytes) :
    ∃ first rest, bytes = first :: rest ∧ 0xc0 ≤ first := by
  obtain ⟨payload, fits, rfl⟩ := isList_iff.mp list
  obtain ⟨first, rest, same, byte⟩ := head_encodeLength (Nat.le_refl 0xc0) fits
  refine ⟨first, rest ++ payload, by rw [encodeList, same, List.cons_append], ?_⟩
  rw [UInt8.le_iff_toNat_le, byte]
  exact Nat.le_add_right _ _

/-- Lengths are announced with at most eight digits. -/
theorem length_lt_of_decodePrefixOnly {announced : Prefix}
    (read : decodePrefixOnly bytes = .ok (announced, rest)) : announced.length < 2 ^ 64 := by
  have spelled {isList : Bool} {count : Nat} {digits : Bytes} (few : count ≤ 8)
      (read : decodeLongLength isList count digits = .ok (announced, rest)) :
      announced.length < 2 ^ 64 := by
    obtain ⟨-, -, -, width⟩ := decodeLongLength_eq_ok read
    have bound := Bytes.toNat_lt (Bytes.ofNat announced.length)
    rw [Bytes.toNat_ofNat, width] at bound
    exact bound.trans_le ((Nat.pow_le_pow_right (by decide) few).trans (by norm_num))
  cases bytes with
  | nil => cases read
  | cons b tail =>
      have byte := b.toNat_lt
      unfold decodePrefixOnly at read
      dsimp only at read
      split at read
      · cases read
        norm_num
      split at read
      · split at read
        · split at read
          · cases read
          · split at read
            · cases read
            · cases read
              norm_num
        · cases read
          dsimp only
          omega
      split at read
      · rename_i string
        rw [UInt8.lt_iff_toNat_lt, show (0xc0 : UInt8).toNat = 0xc0 from rfl] at string
        exact spelled (by omega) read
      split at read
      · cases read
        dsimp only
        omega
      · exact spelled (by omega) read

/-- **A list is read off the front of exactly the byte strings that begin with one.** -/
theorem decodeListPayload_eq_ok_iff {payload : Bytes} :
    decodeListPayload.run bytes = .ok (payload, rest) ↔
      payload.length < 2 ^ 64 ∧ bytes = encodeList payload ++ rest := by
  constructor
  · intro read
    refine ⟨?_, acceptsOnly_listPayload _ _ _ read⟩
    obtain ⟨announced, behind, found, read⟩ := run_bind_eq_ok read
    obtain ⟨only, there⟩ := decodePrefix_eq_ok found
    have fits := length_lt_of_decodePrefixOnly only
    dsimp only at read
    split at read
    · cases read
      rw [List.length_take]
      omega
    · cases read
  · rintro ⟨fits, rfl⟩
    exact reads_listPayload fits rest

end Rlp

/-! ### Types -/

/-- The bytes that announce a type. -/
theorem TransactionType.ofByte?_eq_some_iff {b : UInt8} {type : TransactionType} :
    ofByte? b = some type ↔ type ≠ .legacy ∧ type.toByte = b := by
  constructor
  · intro found
    refine ⟨?_, by simpa using List.find?_some found⟩
    rintro rfl
    exact absurd (List.mem_of_find?_eq_some found) (by decide)
  · rintro ⟨known, rfl⟩
    cases type with
    | legacy => exact absurd rfl known
    | _ => rfl

theorem TransactionType.toByte_mem_iff {type : TransactionType} :
    type.toByte ∈ ([0x01, 0x02, 0x03, 0x04, 0x7e] : List UInt8) ↔ type ≠ .legacy := by
  cases type <;> decide

/-! ### Transactions -/

namespace Transaction

open Rlp

variable {bytes list : Bytes} {type : TransactionType}

/-- The bytes of a transaction, and the byte of its type: one list, which is of type zero, or one of
five bytes and one list. -/
inductive Spells : Bytes → UInt8 → Prop
  | legacy {list : Bytes} (single : IsList list) : Spells list 0
  | typed {type : UInt8} {list : Bytes} (known : type ∈ [0x01, 0x02, 0x03, 0x04, 0x7e])
    (single : IsList list) : Spells (type :: list) type

theorem Spells.exists_type {announced : UInt8} (spelled : Spells bytes announced) :
    ∃ type : TransactionType, type.toByte = announced := by
  cases spelled with
  | legacy => exact ⟨.legacy, rfl⟩
  | typed known =>
      simp only [List.mem_cons, List.not_mem_nil, or_false] at known
      rcases known with rfl | rfl | rfl | rfl | rfl
      · exact ⟨.accessList, rfl⟩
      · exact ⟨.dynamicFee, rfl⟩
      · exact ⟨.blob, rfl⟩
      · exact ⟨.setCode, rfl⟩
      · exact ⟨.deposit, rfl⟩

/-- What follows a list is noticed. -/
theorem checkSingleList_append (single : IsList list) (more : Bytes) :
    checkSingleList (list ++ more) = if more.isEmpty then .ok () else .error .trailingBytes := by
  obtain ⟨payload, fits, rfl⟩ := isList_iff.mp single
  rw [checkSingleList, reads_listPayload fits more]

theorem checkSingleList_eq_ok_iff : checkSingleList list = .ok () ↔ IsList list := by
  constructor
  · intro accepted
    unfold checkSingleList at accepted
    split at accepted
    · cases accepted
    · rename_i payload rest read
      split at accepted
      · rename_i nothing
        obtain ⟨fits, rfl⟩ := decodeListPayload_eq_ok_iff.mp read
        rw [List.isEmpty_iff.mp nothing, List.append_nil]
        exact isList_iff.mpr ⟨payload, fits, rfl⟩
      · cases accepted
  · intro single
    simpa using checkSingleList_append single []

theorem classify_list {first : UInt8} {rest : Bytes} (high : 0xc0 ≤ first) :
    classify (first :: rest) = (fun _ => .legacy) <$> checkSingleList (first :: rest) :=
  if_pos high

theorem classify_typed {list : Bytes} (known : type ≠ .legacy) (some : list ≠ []) :
    classify (type.toByte :: list) = (fun _ => type) <$> checkSingleList list := by
  have low : ¬0xc0 ≤ type.toByte := by cases type <;> decide
  simp only [classify, if_neg low, TransactionType.ofByte?_eq_some_iff.mpr ⟨known, rfl⟩]
  exact if_neg (by simpa using some)

theorem Spells.cases_type (spelled : Spells bytes type.toByte) :
    (type = .legacy ∧ IsList bytes) ∨
      ∃ list, type ≠ .legacy ∧ bytes = type.toByte :: list ∧ IsList list := by
  generalize byte : type.toByte = announced at spelled
  cases spelled with
  | legacy single =>
      cases type with
      | legacy => exact .inl ⟨rfl, single⟩
      | _ => cases byte
  | @typed _ list known single =>
      rw [← byte] at known
      exact .inr ⟨list, TransactionType.toByte_mem_iff.mp known, rfl, single⟩

/-- What follows a transaction is noticed. -/
theorem classify_append (spelled : Spells bytes type.toByte) (more : Bytes) :
    classify (bytes ++ more) = if more.isEmpty then .ok type else .error .trailingBytes := by
  rcases spelled.cases_type with ⟨rfl, single⟩ | ⟨list, known, rfl, single⟩
  · have read := checkSingleList_append single more
    obtain ⟨first, rest, rfl, high⟩ := single.exists_cons
    rw [List.cons_append] at read ⊢
    rw [classify_list high, read]
    cases more <;> rfl
  · obtain ⟨first, rest, same, -⟩ := single.exists_cons
    rw [List.cons_append, classify_typed known (by simp [same]), checkSingleList_append single]
    cases more <;> rfl

/-- **What a transaction is classified as is how it is spelled.** -/
theorem classify_eq_ok_iff : classify bytes = .ok type ↔ Spells bytes type.toByte := by
  constructor
  · intro found
    cases bytes with
    | nil => cases found
    | cons first rest =>
        by_cases high : 0xc0 ≤ first
        · rw [classify_list high] at found
          obtain ⟨_, single, told⟩ := bind_eq_ok_iff.mp found
          cases told
          exact .legacy (checkSingleList_eq_ok_iff.mp single)
        · simp only [classify, if_neg high] at found
          split at found
          · cases found
          · rename_i own announced
            obtain ⟨known, rfl⟩ := TransactionType.ofByte?_eq_some_iff.mp announced
            obtain ⟨-, found⟩ := ite_error_eq_ok_iff.mp found
            obtain ⟨_, single, told⟩ := bind_eq_ok_iff.mp found
            cases told
            exact .typed (TransactionType.toByte_mem_iff.mpr known)
              (checkSingleList_eq_ok_iff.mp single)
  · intro spelled
    simpa using classify_append spelled []

theorem decode_append (tx : Transaction) {more : Bytes} (there : more ≠ []) :
    decode (tx.bytes ++ more) = .error .trailingBytes := by
  refine decode_eq_error ?_
  rw [classify_append (classify_eq_ok_iff.mp tx.classify_bytes), if_neg (by simpa using there)]

/-- **Which byte strings are transactions**: one list, or the byte of a type and one list. The
transaction keeps the bytes, and its type is the one that they announce. It neither begins another
transaction nor begins with one: with more bytes behind it it is refused, and so is whatever is left
of it when the last bytes are missing. -/
theorem decode_grammar (bytes : Bytes) :
    ((∃ tx, decode bytes = .ok tx) ↔ ∃ type, Spells bytes type) ∧
      ∀ tx, decode bytes = .ok tx → tx.bytes = bytes ∧ Spells bytes tx.type.toByte ∧
        (∀ more, more ≠ [] → decode (bytes ++ more) = .error .trailingBytes) ∧
        ∀ front back, bytes = front ++ back → back ≠ [] → ∃ e, decode front = .error e := by
  refine ⟨⟨?_, ?_⟩, ?_⟩
  · rintro ⟨tx, read⟩
    obtain rfl := decode_eq_ok_iff.mp read
    exact ⟨_, classify_eq_ok_iff.mp tx.classify_bytes⟩
  · rintro ⟨type, spelled⟩
    obtain ⟨type, rfl⟩ := spelled.exists_type
    exact ⟨⟨bytes, type, classify_eq_ok_iff.mpr spelled⟩, decode_eq_ok_iff.mpr rfl⟩
  · intro tx read
    obtain rfl := decode_eq_ok_iff.mp read
    refine ⟨rfl, classify_eq_ok_iff.mp tx.classify_bytes, fun more => tx.decode_append, ?_⟩
    intro front back spelled there
    cases shorter : decode front with
    | error e => exact ⟨e, rfl⟩
    | ok found =>
        -- The whole would be refused for the bytes behind the transaction that is its front.
        obtain rfl := decode_eq_ok_iff.mp shorter
        rw [spelled] at read
        cases read.symm.trans (found.decode_append there)

/-- A deposit of two items, with a byte more and with a byte less. -/
theorem decode_grammar_deposit :
    (∃ tx, decode [0x7e, 0xc2, 0x01, 0x80] = .ok tx) ∧
      decode [0x7e, 0xc2, 0x01, 0x80, 0x00] = .error .trailingBytes ∧
      ∃ e, decode [0x7e, 0xc2, 0x01] = .error e := by
  have announced : AnnouncesList [UInt8.ofNat (0xc0 + 2)] 2 := .short (by decide)
  have single : IsList [0xc2, 0x01, 0x80] := ⟨[0xc2], [0x01, 0x80], announced, rfl⟩
  obtain ⟨spelled, exact⟩ := decode_grammar [0x7e, 0xc2, 0x01, 0x80]
  obtain ⟨tx, read⟩ := spelled.mpr ⟨0x7e, .typed (by decide) single⟩
  obtain ⟨-, -, longer, shorter⟩ := exact tx read
  exact ⟨⟨tx, read⟩, longer [0x00] (List.cons_ne_nil _ _),
    shorter [0x7e, 0xc2, 0x01] [0x80] rfl (List.cons_ne_nil _ _)⟩

end Transaction

end EngineNode
