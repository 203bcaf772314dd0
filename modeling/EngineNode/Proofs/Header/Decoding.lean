import EngineNode.Proofs.Chain.Insert
import EngineNode.Proofs.Header.Filled

/-!
Reading encodings back.

A decoder reads a value off an encoding if it takes exactly the encoding off the front of whatever
byte string begins with it (`Rlp.Reads`). Readings compose as decoders do, so that every item below
rests on those it is made of.

* `Rlp.reads_string`, `Rlp.reads_word`, `Rlp.reads_number`, `Rlp.reads_fixed`: strings and numbers
  are read as they were written, if their length fits into eight bytes.
* `Rlp.run_decodeOptional`: what is read for an absent optional field is a zero, if a later one is
  present.
* `Header.reads`: the header that is read off an encoding is the filled one.
-/

namespace EngineNode

namespace Bytes

/-- The fewest bytes never begin with zero. -/
theorem head?_ofNat_ne_zero (n : Nat) : (ofNat n).head? ≠ some 0 := by
  induction n using Nat.strongRecOn with
  | ind n ih =>
      by_cases hn : n = 0
      · simp [hn]
      · rw [ofNat_of_pos (by omega)]
        by_cases hsmall : n / 256 = 0
        · rw [hsmall, ofNat_zero]
          intro first
          have low : (UInt8.ofNat n).toNat = 0 := by
            rw [Option.some.inj first]
            rfl
          rw [UInt8.toNat_ofNat'] at low
          omega
        · have digits := length_ofNat_pos (n := n / 256) (by omega)
          rw [List.head?_append_of_ne_nil _ (List.ne_nil_of_length_pos digits)]
          exact ih _ (by omega)

end Bytes

namespace Rlp

variable {α β : Type}

/-- A decoder reads a value off the front of every byte string that begins with its encoding. -/
def Reads (decoder : Decoder α) (encoded : Bytes) (value : α) : Prop :=
  ∀ rest, decoder.run (encoded ++ rest) = .ok (value, rest)

namespace Reads

variable {decoder : Decoder α} {next : α → Decoder β} {encoded encoded' : Bytes} {value : α}
  {value' : β}

theorem pure (value : α) : Reads (pure value) [] value := fun _ => rfl

/-- What is read first is handed on. -/
theorem run_bind (first : Reads decoder encoded value) (rest : Bytes) :
    (decoder >>= next).run (encoded ++ rest) = (next value).run rest := by
  rw [StateT.run_bind, first rest]
  rfl

theorem bind (first : Reads decoder encoded value) (second : Reads (next value) encoded' value') :
    Reads (decoder >>= next) (encoded ++ encoded') value' := by
  intro rest
  rw [List.append_assoc, first.run_bind, second rest]

theorem map (f : α → β) (reads : Reads decoder encoded value) :
    Reads (f <$> decoder) encoded (f value) := by
  intro rest
  rw [StateT.run_map, reads rest]
  rfl

/-- A value that is read off the whole of a byte string leaves nothing. -/
theorem run_self (reads : Reads decoder encoded value) :
    decoder.run encoded = .ok (value, []) := by
  simpa using reads []

end Reads

/-! ### Announcements -/

/-- A length that takes several bytes is read back from them. -/
theorem decodeLongLength_ofNat {isList : Bool} {n : Nat} (long : 56 ≤ n) (rest : Bytes) :
    decodeLongLength isList (Bytes.ofNat n).length (Bytes.ofNat n ++ rest) =
      .ok (⟨isList, n⟩, rest) := by
  have digits := Bytes.length_ofNat_pos (n := n) (by omega)
  have leading : (Bytes.ofNat n ++ rest).head? ≠ some 0 := by
    rw [List.head?_append_of_ne_nil _ (List.ne_nil_of_length_pos digits)]
    exact Bytes.head?_ofNat_ne_zero n
  unfold decodeLongLength
  rw [if_neg (by simp), if_neg leading, List.take_left, List.drop_left, Bytes.toNat_ofNat]
  exact if_neg (by omega)

/-- The announcement of a list is read back. -/
theorem decodePrefixOnly_list {n : Nat} (hn : n < 256 ^ 8) (rest : Bytes) :
    decodePrefixOnly (encodeLength 0xc0 n ++ rest) = .ok (⟨true, n⟩, rest) := by
  have digits := Bytes.length_ofNat_le hn
  unfold encodeLength
  by_cases hsmall : n < 56
  · have first : (UInt8.ofNat (0xc0 + n)).toNat = 0xc0 + n := by
      rw [UInt8.toNat_ofNat']
      omega
    rw [if_pos hsmall, List.singleton_append]
    simp only [decodePrefixOnly, UInt8.lt_iff_toNat_lt, first]
    rw [if_neg (by simp; omega), if_neg (by simp; omega), if_neg (by simp), if_pos (by simp; omega)]
    simp
  · have first : (UInt8.ofNat (0xc0 + 55 + (Bytes.ofNat n).length)).toNat =
        0xf7 + (Bytes.ofNat n).length := by
      rw [UInt8.toNat_ofNat']
      omega
    have some := Bytes.length_ofNat_pos (n := n) (by omega)
    rw [if_neg hsmall, List.cons_append]
    simp only [decodePrefixOnly, UInt8.lt_iff_toNat_lt, first]
    rw [if_neg (by simp; omega), if_neg (by simp; omega), if_neg (by simp; omega),
      if_neg (by simp; omega), Nat.add_sub_cancel_left]
    exact decodeLongLength_ofNat (by omega) rest

/-- The announcement of a string is read back, unless the string should be its own encoding. -/
theorem decodePrefixOnly_string {n : Nat} (hn : n < 256 ^ 8) {rest : Bytes}
    (low : n = 1 → ∃ b tail, rest = b :: tail ∧ 0x80 ≤ b) :
    decodePrefixOnly (encodeLength 0x80 n ++ rest) = .ok (⟨false, n⟩, rest) := by
  have digits := Bytes.length_ofNat_le hn
  unfold encodeLength
  by_cases hsmall : n < 56
  · have first : (UInt8.ofNat (0x80 + n)).toNat = 0x80 + n := by
      rw [UInt8.toNat_ofNat']
      omega
    rw [if_pos hsmall, List.singleton_append]
    by_cases hone : n = 1
    · obtain ⟨b, tail, rfl, high⟩ := low hone
      subst hone
      simp [decodePrefixOnly, UInt8.not_lt.mpr high]
    · have other : UInt8.ofNat (0x80 + n) ≠ 0x81 := by
        intro same
        have := congrArg UInt8.toNat same
        rw [first] at this
        simp at this
        omega
      simp only [decodePrefixOnly, UInt8.lt_iff_toNat_lt, first]
      rw [if_neg (by simp), if_pos (by simp; omega), if_neg other]
      simp
  · have first : (UInt8.ofNat (0x80 + 55 + (Bytes.ofNat n).length)).toNat =
        0xb7 + (Bytes.ofNat n).length := by
      rw [UInt8.toNat_ofNat']
      omega
    have some := Bytes.length_ofNat_pos (n := n) (by omega)
    rw [if_neg hsmall, List.cons_append]
    simp only [decodePrefixOnly, UInt8.lt_iff_toNat_lt, first]
    rw [if_neg (by simp; omega), if_neg (by simp; omega), if_pos (by simp; omega),
      Nat.add_sub_cancel_left]
    exact decodeLongLength_ofNat (by omega) rest

/-- The announcement of what is there in full. -/
theorem run_decodePrefix {bytes rest : Bytes} {announced : Prefix}
    (read : decodePrefixOnly bytes = .ok (announced, rest))
    (there : announced.length ≤ rest.length) :
    decodePrefix.run bytes = .ok (announced, rest) := by
  change (decodePrefixOnly bytes >>= _) = _
  rw [read, ok_bind]
  exact if_neg (Nat.not_lt.mpr there)

theorem run_takeBytes (bytes rest : Bytes) :
    (takeBytes bytes.length).run (bytes ++ rest) = .ok (bytes, rest) := by
  change Except.ok _ = _
  rw [List.take_left, List.drop_left]

/-! ### Strings and numbers -/

/-- **Every string is read as it was written.** -/
theorem reads_string {bytes : Bytes} (short : bytes.length < 256 ^ 8) :
    Reads decodeString (encodeString bytes) bytes := by
  intro rest
  rcases encodeString_eq bytes with ⟨b, rfl, low, same⟩ | same
  · have announced : decodePrefixOnly (b :: rest) = .ok (⟨false, 1⟩, b :: rest) := by
      simp [decodePrefixOnly, low]
    rw [same, decodeString, List.singleton_append, StateT.run_bind,
      run_decodePrefix announced (by simp)]
    rfl
  · have low : bytes.length = 1 → ∃ b tail, bytes ++ rest = b :: tail ∧ 0x80 ≤ b := by
      intro one
      obtain ⟨b, rfl⟩ := List.length_eq_one_iff.mp one
      refine ⟨b, rest, rfl, ?_⟩
      by_contra high
      simp [encodeString, UInt8.not_le.mp high, encodeLength] at same
    have announced := decodePrefixOnly_string short low
    rw [same, List.append_assoc, decodeString, StateT.run_bind,
      run_decodePrefix announced (by simp)]
    exact run_takeBytes bytes rest

/-- A number is read as it was written, if it fits into as many bytes as are allowed. -/
theorem reads_nat (width : Nat) {n : Nat} (fits : n < 256 ^ width) (narrow : width < 256 ^ 8) :
    Reads (decodeNat width) (encodeNat n) n := by
  intro rest
  have digits := Bytes.length_ofNat_le fits
  have read : Reads decodeString _ (Bytes.ofNat n) := reads_string (by omega)
  unfold decodeNat encodeNat
  rw [read.run_bind, if_neg (by omega), if_neg (Bytes.head?_ofNat_ne_zero n), Bytes.toNat_ofNat]
  rfl

theorem reads_word (word : U256) : Reads decodeU256 (encodeNat word.toNat) word := by
  have read := (reads_nat 32 word.isLt (by norm_num)).map (BitVec.ofNat 256)
  rwa [BitVec.ofNat_toNat, BitVec.setWidth_eq] at read

theorem reads_number (number : UInt64) :
    Reads decodeUInt64 (encodeNat number.toNat) number := by
  have read := (reads_nat 8 number.toNat_lt (by norm_num)).map UInt64.ofNat
  rwa [UInt64.ofNat_toNat] at read

theorem reads_fixed {n : Nat} (small : n < 256 ^ 8) (bytes : FixedBytes n) :
    Reads (decodeFixed n) (encodeFixed bytes) bytes := by
  intro rest
  have read : Reads decodeString _ bytes.toList := reads_string (by rwa [bytes.length_toList])
  unfold decodeFixed encodeFixed
  rw [read.run_bind, FixedBytes.ofBytes?_toList]
  rfl

theorem reads_hash (hash : Hash) : Reads (decodeFixed 32) (encodeFixed hash) hash :=
  reads_fixed (by norm_num) hash

/-! ### Sizes -/

theorem length_encodeList_le {payload : Bytes} (short : payload.length < 256 ^ 8) :
    (encodeList payload).length ≤ payload.length + 9 := by
  have digits := Bytes.length_ofNat_le short
  rw [encodeList, List.length_append, encodeLength]
  split <;> simp only [List.length_cons, List.length_nil] <;> omega

theorem length_le_length_encodeList (payload : Bytes) :
    payload.length ≤ (encodeList payload).length := by
  rw [encodeList, List.length_append]
  omega

/-! ### Lists -/

theorem reads_listPayload {payload : Bytes} (short : payload.length < 256 ^ 8) :
    Reads decodeListPayload (encodeList payload) payload := by
  intro rest
  have announced := decodePrefixOnly_list short (payload ++ rest)
  rw [encodeList, List.append_assoc, decodeListPayload, StateT.run_bind,
    run_decodePrefix announced (by simp)]
  exact run_takeBytes payload rest

/-- Items that are written one after another are read one after another. -/
theorem decodeAll_flatMap {decoder : Decoder β} {encode : α → Bytes} {value : α → β}
    (ne_nil : ∀ a, encode a ≠ []) {items : List α}
    (reads : ∀ a ∈ items, Reads decoder (encode a) (value a)) :
    decodeAll decoder (items.flatMap encode) = .ok (items.map value) := by
  induction items with
  | nil =>
      rw [decodeAll]
      rfl
  | cons a items ih =>
      have size := List.length_pos_of_ne_nil (ne_nil a)
      have others := ih fun b member => reads b (List.mem_cons_of_mem a member)
      have first : decoder (encode a ++ items.flatMap encode) = _ :=
        reads a List.mem_cons_self (items.flatMap encode)
      rw [decodeAll, List.flatMap_cons, if_neg (by simp [ne_nil a]), first]
      simp only [List.length_append, Nat.lt_add_left_iff_pos, size, if_true, others]
      rfl

/-- A list of items is read as it was written. -/
theorem reads_listOf {decoder : Decoder β} {encode : α → Bytes} {value : α → β}
    (ne_nil : ∀ a, encode a ≠ []) {items : List α}
    (reads : ∀ a ∈ items, Reads decoder (encode a) (value a))
    (short : (items.flatMap encode).length < 256 ^ 8) :
    Reads (decodeListOf decoder) (encodeList (items.flatMap encode)) (items.map value) := by
  intro rest
  unfold decodeListOf
  rw [(reads_listPayload short).run_bind, decodeAll_flatMap ne_nil reads]
  rfl

/-- The contents of a list are read, if nothing of them is left. -/
theorem reads_fields {decoder : Decoder α} {onRest : Error} {payload : Bytes} {value : α}
    (contents : decoder.run payload = .ok (value, [])) (short : payload.length < 256 ^ 8) :
    Reads (decodeFields decoder onRest) (encodeList payload) value := by
  intro rest
  unfold decodeFields
  rw [(reads_listPayload short).run_bind, contents]
  rfl

/-! ### Optional fields -/

/-- An optional field is read as it is, but for a zero in place of absent where a later field is
present. -/
theorem run_decodeOptional {decoder : Decoder α} {encode : α → Bytes}
    (ne_nil : ∀ a, encode a ≠ []) (reads : ∀ a, Reads decoder (encode a) a) (zero : α)
    (field : Option α) (fields : List (Option Bytes × Bytes)) :
    (decodeOptional decoder).run
        (encodeOptionalFields ((field.map encode, encode zero) :: fields)) =
      .ok (field <|> if anyPresent fields then some zero else none,
        encodeOptionalFields fields) := by
  cases shown : anyPresent ((field.map encode, encode zero) :: fields) with
  | false =>
      have none : field = none ∧ anyPresent fields = false := by
        simpa [anyPresent] using shown
      rw [encodeOptionalFields_of_not_present shown, encodeOptionalFields_of_not_present none.2,
        none.1, none.2]
      rfl
  | true =>
      have value : (field <|> if anyPresent fields then some zero else none) =
          some (field.getD zero) := by
        cases field with
        | some a => rfl
        | none =>
            have later : anyPresent fields = true := by simpa [anyPresent] using shown
            rw [later]
            rfl
      rw [encodeOptionalFields_of_present shown, Option.getD_map, value]
      change (if _ then _ else _) = _
      rw [if_neg (by simp [ne_nil])]
      exact (reads (field.getD zero)).map some _

/-- What is read for an optional field is handed on. -/
theorem run_decodeOptional_bind {decoder : Decoder α} {next : Option α → Decoder β}
    {encode : α → Bytes} (ne_nil : ∀ a, encode a ≠ []) (reads : ∀ a, Reads decoder (encode a) a)
    (zero : α) (field : Option α) (fields : List (Option Bytes × Bytes)) :
    (decodeOptional decoder >>= next).run
        (encodeOptionalFields ((field.map encode, encode zero) :: fields)) =
      (next (field <|> if anyPresent fields then some zero else none)).run
        (encodeOptionalFields fields) := by
  rw [StateT.run_bind, run_decodeOptional ne_nil reads]
  rfl

end Rlp

/-! ### Headers -/

namespace Header

open Rlp

/-- The optional fields are read after the required ones, to the end of the list. -/
theorem run_decodeContents {h : Header} (short : h.extraData.length < 256 ^ 8) :
    decodeContents.run (h.encodeRequired ++ encodeOptionalFields h.optionalFields) =
      .ok (h.filled, []) := by
  unfold decodeContents encodeRequired
  simp only [List.append_assoc]
  rw [(reads_hash h.parentHash).run_bind, (reads_hash h.ommersHash).run_bind,
    (reads_fixed (by norm_num) h.feeRecipient).run_bind, (reads_hash h.stateRoot).run_bind,
    (reads_hash h.transactionsRoot).run_bind, (reads_hash h.receiptsRoot).run_bind,
    (reads_fixed (by norm_num) h.logsBloom).run_bind, (reads_word h.difficulty).run_bind,
    (reads_number h.number).run_bind, (reads_number h.gasLimit).run_bind,
    (reads_number h.gasUsed).run_bind, (reads_number h.timestamp).run_bind,
    (reads_string short).run_bind, (reads_hash h.mixHash).run_bind,
    (reads_fixed (by norm_num) h.nonce).run_bind]
  refine (run_decodeOptional_bind delimits_word.ne_nil reads_word 0 _ _).trans ?_
  refine (run_decodeOptional_bind delimits_hash.ne_nil reads_hash (.zero 32) _ _).trans ?_
  refine (run_decodeOptional_bind delimits_number.ne_nil reads_number 0 _ _).trans ?_
  refine (run_decodeOptional_bind delimits_number.ne_nil reads_number 0 _ _).trans ?_
  refine (run_decodeOptional_bind delimits_hash.ne_nil reads_hash (.zero 32) _ _).trans ?_
  refine (run_decodeOptional_bind delimits_hash.ne_nil reads_hash (.zero 32) _ _).trans ?_
  obtain ⟨_, _, _, _, _, _, _, _, _, _, _, _, _, _, _, fee, withdrawals, blob, excess, beacon,
    requests⟩ := h
  cases requests <;> cases beacon <;> cases excess <;> cases blob <;> cases withdrawals <;>
    cases fee <;> rfl

/-- Apart from its extra data a header takes fewer than a thousand bytes. -/
theorem length_contents_lt {h : Header} (short : h.extraData.length < 256 ^ 8) :
    (h.encodeRequired ++ encodeOptionalFields h.optionalFields).length <
      h.extraData.length + 1000 := by
  have extraData := length_encodeString_le h.extraData short
  have hash (a : Hash) := length_encodeFixed_le (by norm_num) a
  have feeRecipient := length_encodeFixed_le (by norm_num) h.feeRecipient
  have logsBloom := length_encodeFixed_le (by norm_num) h.logsBloom
  have nonce := length_encodeFixed_le (by norm_num) h.nonce
  have difficulty := length_encodeNat_le 32 h.difficulty.isLt (by norm_num)
  have parentHash := hash h.parentHash
  have ommersHash := hash h.ommersHash
  have stateRoot := hash h.stateRoot
  have transactionsRoot := hash h.transactionsRoot
  have receiptsRoot := hash h.receiptsRoot
  have mixHash := hash h.mixHash
  have own := length_encodeUInt64_le h.number
  have gasLimit := length_encodeUInt64_le h.gasLimit
  have gasUsed := length_encodeUInt64_le h.gasUsed
  have timestamp := length_encodeUInt64_le h.timestamp
  have optional := h.length_optionalFields_le
  simp only [encodeRequired, List.length_append]
  omega

theorem length_encode_lt {h : Header} (short : h.extraData.length < 2 ^ 63) :
    h.encode.length < h.extraData.length + 1009 := by
  have fits : h.extraData.length < 256 ^ 8 := short.trans (by norm_num)
  have contents := length_contents_lt fits
  have size := length_encodeList_le (contents.trans (by omega))
  rw [encode]
  omega

theorem length_extraData_le (h : Header) :
    h.extraData.length ≤ (h.encodeRequired ++ encodeOptionalFields h.optionalFields).length := by
  have own := length_le_length_encodeString h.extraData
  simp only [encodeRequired, List.length_append]
  omega

/-- **The header that is read off an encoding is the filled one**, if the encoding is not so long
that its length takes more than eight bytes. -/
theorem reads {h : Header} (short : h.encode.length < 256 ^ 8) :
    Reads decode h.encode h.filled := by
  have contents := length_le_length_encodeList
    (h.encodeRequired ++ encodeOptionalFields h.optionalFields)
  have extraData := h.length_extraData_le
  rw [encode] at short
  exact reads_fields (run_decodeContents (by omega)) (by omega)

end Header

end EngineNode
