import EngineNode.Proofs.Header.Encoding

/-!
What the encoding of a header says of its optional fields.

The encoding does not show whether an optional field before the last present one is absent or zero.
`Header.filled` puts zeros there, and this is all that the encoding forgets:

* `Header.encode_filled`: filling changes neither the encoding nor the hash.
* `Header.filled_eq_of_encode_eq`: headers that are encoded identically are equal once filled, as
  long as the extra data of one of them keeps its limit.
-/

namespace EngineNode

/-! ### Optional fields in a row -/

namespace Rlp

variable {α : Type} {fields fields' : List (Option Bytes × Bytes)}

/-- Whether one of some optional fields is present. -/
def anyPresent (fields : List (Option Bytes × Bytes)) : Bool := fields.any (·.1.isSome)

theorem encodeOptionalFields_of_not_present (absent : anyPresent fields = false) :
    encodeOptionalFields fields = [] := by
  cases fields with
  | nil => rfl
  | cons field rest =>
      rw [encodeOptionalFields, if_pos]
      simpa [anyPresent] using absent

theorem encodeOptionalFields_of_present {field : Option Bytes × Bytes}
    (present : anyPresent (field :: fields) = true) :
    encodeOptionalFields (field :: fields) =
      field.1.getD field.2 ++ encodeOptionalFields fields := by
  rw [encodeOptionalFields, if_neg]
  intro none
  rw [anyPresent, List.any_eq_true] at present
  obtain ⟨other, member, some⟩ := present
  have absent := List.all_eq_true.mp none other member
  cases h : other.1 <;> simp [h] at some absent

/-- An encoding that is never empty and can be told apart at the front of any byte string. -/
structure Delimits (encode : α → Bytes) : Prop where
  ne_nil : ∀ a, encode a ≠ []
  append_inj : ∀ {a b x y}, encode a ++ x = encode b ++ y → a = b ∧ x = y

/-- The encoding of optional fields shows whether any of them is present, and then what the first
one is, up to a zero. -/
theorem encodeOptionalFields_cons_inj {encode : α → Bytes} (delimits : Delimits encode)
    {a b : Option α} (zero : α)
    (same : encodeOptionalFields ((a.map encode, encode zero) :: fields) =
      encodeOptionalFields ((b.map encode, encode zero) :: fields')) :
    ((a.isSome || anyPresent fields) = (b.isSome || anyPresent fields')) ∧
      ((a.isSome || anyPresent fields) = true → a.getD zero = b.getD zero) ∧
      encodeOptionalFields fields = encodeOptionalFields fields' := by
  have present (c : Option α) (rest : List (Option Bytes × Bytes)) :
      anyPresent ((c.map encode, encode zero) :: rest) = (c.isSome || anyPresent rest) := by
    simp [anyPresent]
  rw [← present a, ← present b]
  cases ha : anyPresent ((a.map encode, encode zero) :: fields) with
  | false =>
      cases hb : anyPresent ((b.map encode, encode zero) :: fields') with
      | false =>
          rw [present, Bool.or_eq_false_iff] at ha hb
          refine ⟨rfl, nofun, ?_⟩
          rw [encodeOptionalFields_of_not_present ha.2, encodeOptionalFields_of_not_present hb.2]
      | true =>
          rw [encodeOptionalFields_of_not_present ha, encodeOptionalFields_of_present hb,
            Option.getD_map] at same
          exact absurd (List.append_eq_nil_iff.mp same.symm).1 (delimits.ne_nil _)
  | true =>
      cases hb : anyPresent ((b.map encode, encode zero) :: fields') with
      | false =>
          rw [encodeOptionalFields_of_present ha, encodeOptionalFields_of_not_present hb,
            Option.getD_map] at same
          exact absurd (List.append_eq_nil_iff.mp same).1 (delimits.ne_nil _)
      | true =>
          rw [encodeOptionalFields_of_present ha, encodeOptionalFields_of_present hb,
            Option.getD_map, Option.getD_map] at same
          obtain ⟨values, rest⟩ := delimits.append_inj same
          exact ⟨rfl, fun _ => values, rest⟩

theorem length_encodeOptionalFields_le {n : Nat}
    (bounded : ∀ field ∈ fields, (field.1.getD field.2).length ≤ n) :
    (encodeOptionalFields fields).length ≤ fields.length * n := by
  induction fields with
  | nil => exact Nat.zero_le _
  | cons field rest ih =>
      have first := bounded field List.mem_cons_self
      have others := ih fun field member => bounded field (List.mem_cons_of_mem _ member)
      rw [encodeOptionalFields]
      split
      · exact Nat.zero_le _
      · rw [List.length_append, List.length_cons, Nat.add_mul]
        omega

theorem length_le_length_encodeString (bytes : Bytes) :
    bytes.length ≤ (encodeString bytes).length := by
  rcases encodeString_eq bytes with ⟨b, rfl, -, same⟩ | same <;> simp [same]

theorem length_encodeString_le (bytes : Bytes) (short : bytes.length < 256 ^ 8) :
    (encodeString bytes).length ≤ bytes.length + 9 := by
  rcases encodeString_eq bytes with ⟨b, rfl, -, same⟩ | same
  · simp [same]
  · have digits := Bytes.length_ofNat_le short
    rw [same, List.length_append, encodeLength]
    split <;> simp only [List.length_cons, List.length_nil] <;> omega

theorem length_encodeFixed_le {n : Nat} (small : n < 256 ^ 8) (bytes : FixedBytes n) :
    (encodeFixed bytes).length ≤ n + 9 := by
  have size := length_encodeString_le bytes.toList (by rwa [bytes.length_toList])
  rwa [bytes.length_toList] at size

theorem length_encodeNat_le (width : Nat) {n : Nat} (fits : n < 256 ^ width)
    (narrow : width < 256 ^ 8) : (encodeNat n).length ≤ width + 9 := by
  have digits := Bytes.length_ofNat_le fits
  exact (length_encodeString_le (Bytes.ofNat n) (by omega)).trans (by omega)

theorem length_encodeUInt64_le (n : UInt64) : (encodeNat n.toNat).length ≤ 17 :=
  length_encodeNat_le 8 n.toNat_lt (by norm_num)

theorem encodeString_ne_nil (bytes : Bytes) : encodeString bytes ≠ [] := by
  rcases encodeString_eq bytes with ⟨b, rfl, -, same⟩ | same
  · simp [same]
  · rw [same, encodeLength]
    split <;> simp

theorem encodeList_ne_nil (payload : Bytes) : encodeList payload ≠ [] := by
  rw [encodeList, encodeLength]
  split <;> simp

theorem delimits_word : Delimits fun word : U256 => encodeNat word.toNat where
  ne_nil _ := encodeString_ne_nil _
  append_inj same :=
    (encodeNat_append_inj (BitVec.isLt _) (BitVec.isLt _) same).imp_left BitVec.eq_of_toNat_eq

theorem delimits_number : Delimits fun number : UInt64 => encodeNat number.toNat where
  ne_nil _ := encodeString_ne_nil _
  append_inj same :=
    (encodeNat_append_inj ((UInt64.toNat_lt _).trans (by norm_num))
      ((UInt64.toNat_lt _).trans (by norm_num)) same).imp_left UInt64.toNat_inj.mp

theorem delimits_hash : Delimits fun hash : Hash => encodeFixed hash where
  ne_nil _ := encodeString_ne_nil _
  append_inj := encodeFixed_append_inj (by norm_num)

end Rlp

/-! ### Filled headers -/

namespace Header

/-- An optional field, with zero in place of absent if a later one is present. -/
def fillBefore {α β : Type} (later : Option β) (zero : α) (field : Option α) : Option α :=
  field <|> later.map fun _ => zero

/-- The header with zeros for the fields that are absent before a present one. -/
def filled (h : Header) : Header :=
  let beaconRoot := fillBefore h.requestsHash (.zero 32) h.parentBeaconBlockRoot
  let excessBlobGas := fillBefore beaconRoot 0 h.excessBlobGas
  let blobGasUsed := fillBefore excessBlobGas 0 h.blobGasUsed
  let withdrawalsRoot := fillBefore blobGasUsed (.zero 32) h.withdrawalsRoot
  { h with
    baseFeePerGas := fillBefore withdrawalsRoot 0 h.baseFeePerGas
    withdrawalsRoot
    blobGasUsed
    excessBlobGas
    parentBeaconBlockRoot := beaconRoot }

section Fill

variable {α β : Type} {a b : Option α} {later later' : Option β} {zero : α}

@[simp] theorem isSome_fillBefore :
    (fillBefore later zero a).isSome = (a.isSome || later.isSome) := by
  cases a <;> cases later <;> rfl

/-- What the encoding shows of a field determines it once it is filled. -/
theorem fillBefore_congr (present : (a.isSome || later.isSome) = (b.isSome || later'.isSome))
    (value : (a.isSome || later.isSome) = true → a.getD zero = b.getD zero) :
    fillBefore later zero a = fillBefore later' zero b := by
  have filled (c : Option α) (after : Option β) : fillBefore after zero c =
      if c.isSome || after.isSome then some (c.getD zero) else none := by
    cases c <;> cases after <;> rfl
  rw [filled, filled, ← present]
  split
  · rename_i shown
    rw [value shown]
  · rfl

end Fill

/-- Filling does not change what is encoded. -/
theorem encode_filled (h : Header) : h.filled.encode = h.encode := by
  have optional : Rlp.encodeOptionalFields h.filled.optionalFields =
      Rlp.encodeOptionalFields h.optionalFields := by
    obtain ⟨_, _, _, _, _, _, _, _, _, _, _, _, _, _, _, fee, withdrawals, blob, excess, beacon,
      requests⟩ := h
    cases requests <;> cases beacon <;> cases excess <;> cases blob <;> cases withdrawals <;>
      cases fee <;> rfl
  rw [encode, encode, optional]
  rfl

@[simp] theorem hash_filled (h : Header) : h.filled.hash = h.hash :=
  congrArg keccak256 h.encode_filled

/-- A base fee of zero may be left out in front of a withdrawals root. -/
theorem hash_without_baseFee {h : Header} (free : h.baseFeePerGas = some 0)
    (root : h.withdrawalsRoot.isSome) :
    ({ h with baseFeePerGas := none } : Header).hash = h.hash := by
  have same : ({ h with baseFeePerGas := none } : Header).filled = h.filled := by
    obtain ⟨root, present⟩ := Option.isSome_iff_exists.mp root
    simp [filled, fillBefore, free, present]
  rw [← hash_filled, same, hash_filled]

theorem length_optionalFields_le (h : Header) :
    (Rlp.encodeOptionalFields h.optionalFields).length ≤ 6 * 41 := by
  have hash (a : Hash) : (Rlp.encodeFixed a).length ≤ 41 :=
    Rlp.length_encodeFixed_le (by norm_num) a
  have number (n : U256) : (Rlp.encodeNat n.toNat).length ≤ 41 :=
    Rlp.length_encodeNat_le 32 n.isLt (by norm_num)
  have word (n : UInt64) : (Rlp.encodeNat n.toNat).length ≤ 41 :=
    (Rlp.length_encodeUInt64_le n).trans (by norm_num)
  have bounded : ∀ field ∈ h.optionalFields, (field.1.getD field.2).length ≤ 41 := by
    simp only [optionalFields, List.forall_mem_cons]
    refine ⟨?_, ?_, ?_, ?_, ?_, ?_, List.forall_mem_nil _⟩
    · rw [show Rlp.encodeNat 0 = Rlp.encodeNat (0 : U256).toNat from rfl, Option.getD_map]
      exact number _
    · rw [Option.getD_map]
      exact hash _
    · rw [show Rlp.encodeNat 0 = Rlp.encodeNat (0 : UInt64).toNat from rfl, Option.getD_map]
      exact word _
    · rw [show Rlp.encodeNat 0 = Rlp.encodeNat (0 : UInt64).toNat from rfl, Option.getD_map]
      exact word _
    · rw [Option.getD_map]
      exact hash _
    · rw [Option.getD_map]
      exact hash _
  exact Rlp.length_encodeOptionalFields_le bounded

/-- Optional fields that are encoded identically are equal once filled. -/
theorem optional_eq_of_encode_eq {h h' : Header}
    (same : Rlp.encodeOptionalFields h.optionalFields =
      Rlp.encodeOptionalFields h'.optionalFields) :
    h.filled.baseFeePerGas = h'.filled.baseFeePerGas ∧
      h.filled.withdrawalsRoot = h'.filled.withdrawalsRoot ∧
      h.filled.blobGasUsed = h'.filled.blobGasUsed ∧
      h.filled.excessBlobGas = h'.filled.excessBlobGas ∧
      h.filled.parentBeaconBlockRoot = h'.filled.parentBeaconBlockRoot ∧
      h.requestsHash = h'.requestsHash := by
  obtain ⟨fee, feeValue, same⟩ := Rlp.encodeOptionalFields_cons_inj Rlp.delimits_word 0 same
  obtain ⟨root, rootValue, same⟩ :=
    Rlp.encodeOptionalFields_cons_inj Rlp.delimits_hash (.zero 32) same
  obtain ⟨blob, blobValue, same⟩ :=
    Rlp.encodeOptionalFields_cons_inj Rlp.delimits_number 0 same
  obtain ⟨excess, excessValue, same⟩ :=
    Rlp.encodeOptionalFields_cons_inj Rlp.delimits_number 0 same
  obtain ⟨beacon, beaconValue, same⟩ :=
    Rlp.encodeOptionalFields_cons_inj Rlp.delimits_hash (.zero 32) same
  obtain ⟨requests, requestsValue, -⟩ :=
    Rlp.encodeOptionalFields_cons_inj Rlp.delimits_hash (.zero 32) same
  simp only [Rlp.anyPresent, List.any_cons, List.any_nil, Option.isSome_map, Bool.or_false] at *
  refine ⟨?_, ?_, ?_, ?_, ?_, ?_⟩
  · exact fillBefore_congr (by simpa using fee) (by simpa using feeValue)
  · exact fillBefore_congr (by simpa using root) (by simpa using rootValue)
  · exact fillBefore_congr (by simpa using blob) (by simpa using blobValue)
  · exact fillBefore_congr (by simpa using excess) (by simpa using excessValue)
  · exact fillBefore_congr beacon beaconValue
  · have alone (field : Option Hash) :
        fillBefore (none : Option Hash) (.zero 32) field = field := by
      cases field <;> rfl
    rw [← alone h.requestsHash, ← alone h'.requestsHash]
    exact fillBefore_congr (by simpa using requests) (by simpa using requestsValue)

/-- **The encoding forgets nothing of a header but which of its fields are zero because a later one
is present.** The limit on the extra data of one header is shared by the other, since both are
encoded in as many bytes. -/
theorem filled_eq_of_encode_eq {h h' : Header} (same : h.encode = h'.encode)
    (short : h.extraData.length ≤ maximumExtraDataSize) : h.filled = h'.filled := by
  have fields := Rlp.encodeList_injective same
  simp only [encodeRequired, List.append_assoc] at fields
  obtain ⟨parentHash, fields⟩ := Rlp.encodeFixed_append_inj (by norm_num) fields
  obtain ⟨ommersHash, fields⟩ := Rlp.encodeFixed_append_inj (by norm_num) fields
  obtain ⟨feeRecipient, fields⟩ := Rlp.encodeFixed_append_inj (by norm_num) fields
  obtain ⟨stateRoot, fields⟩ := Rlp.encodeFixed_append_inj (by norm_num) fields
  obtain ⟨transactionsRoot, fields⟩ := Rlp.encodeFixed_append_inj (by norm_num) fields
  obtain ⟨receiptsRoot, fields⟩ := Rlp.encodeFixed_append_inj (by norm_num) fields
  obtain ⟨logsBloom, fields⟩ := Rlp.encodeFixed_append_inj (by norm_num) fields
  obtain ⟨difficulty, fields⟩ := Rlp.delimits_word.append_inj fields
  obtain ⟨number, fields⟩ := Rlp.delimits_number.append_inj fields
  obtain ⟨gasLimit, fields⟩ := Rlp.delimits_number.append_inj fields
  obtain ⟨gasUsed, fields⟩ := Rlp.delimits_number.append_inj fields
  obtain ⟨timestamp, fields⟩ := Rlp.delimits_number.append_inj fields
  have short' : h'.extraData.length < 256 ^ 8 := by
    have total := congrArg List.length fields
    have own := Rlp.length_encodeString_le h.extraData
      (short.trans_lt (by norm_num [maximumExtraDataSize]))
    have other := Rlp.length_le_length_encodeString h'.extraData
    have mixHash := Rlp.length_encodeString_le h.mixHash.toList
      (by rw [h.mixHash.length_toList]; norm_num)
    have nonce := Rlp.length_encodeString_le h.nonce.toList
      (by rw [h.nonce.length_toList]; norm_num)
    have optional := h.length_optionalFields_le
    rw [h.mixHash.length_toList] at mixHash
    rw [h.nonce.length_toList] at nonce
    simp only [List.length_append, Rlp.encodeFixed, maximumExtraDataSize] at total short
    omega
  obtain ⟨extraData, fields⟩ := Rlp.encodeString_append_inj
    (short.trans_lt (by norm_num [maximumExtraDataSize])) short' fields
  obtain ⟨mixHash, fields⟩ := Rlp.encodeFixed_append_inj (by norm_num) fields
  obtain ⟨nonce, fields⟩ := Rlp.encodeFixed_append_inj (by norm_num) fields
  obtain ⟨baseFee, withdrawalsRoot, blobGasUsed, excessBlobGas, beaconRoot, requestsHash⟩ :=
    optional_eq_of_encode_eq fields
  cases h
  cases h'
  exact Header.mk.injEq .. ▸ ⟨parentHash, ommersHash, feeRecipient, stateRoot, transactionsRoot,
    receiptsRoot, logsBloom, difficulty, number, gasLimit, gasUsed, timestamp, extraData, mixHash,
    nonce, baseFee, withdrawalsRoot, blobGasUsed, excessBlobGas, beaconRoot, requestsHash⟩

end Header

end EngineNode
