import EngineNode.Proofs.Transaction.Grammar
import EngineNode.Proofs.Witness

/-!
The blob hashes of a transaction.

The hashes stand behind ten fields, which are passed over by their announcements alone, whatever
they hold. Between nodes the list of fields travels in another one, beside the blobs; which of the
two a list is is told by what it begins with.

* `Rlp.Item`: what is passed over in one step.
* `Rlp.reads_skipItem`, `Transaction.reads_skipItems`: an item is passed over exactly, and so are
  items in a row.
* `Transaction.HoldsFields`: the fields of a blob transaction, in both forms.
* `Transaction.blobVersionedHashes_found`: the hashes are those of the eleventh field, and if there
  is none, none are made up.
-/

namespace EngineNode

/-! ### Items -/

namespace Rlp

variable {bytes : Bytes}

/-- A string or a list. Lists are not looked into, so they may hold any bytes, and items among
others. -/
inductive Item where
  | string (bytes : Bytes)
  | list (payload : Bytes)

namespace Item

def encode : Item → Bytes
  | .string bytes => encodeString bytes
  | .list payload => encodeList payload

end Item

/-- The first byte of a string tells that it is no list. -/
theorem encodeString_exists_cons (short : bytes.length < 2 ^ 64) :
    ∃ first rest, encodeString bytes = first :: rest ∧ ¬0xc0 ≤ first := by
  rcases encodeString_eq bytes with ⟨b, rfl, low, same⟩ | same
  · refine ⟨b, [], same, UInt8.not_le.mpr (UInt8.lt_trans low (by decide))⟩
  · obtain ⟨first, rest, announced, byte⟩ :=
      head_encodeLength (show 0x80 ≤ 0xc0 by decide) short
    have digits := Bytes.length_ofNat_le (n := bytes.length) (show _ < 256 ^ 8 from short)
    refine ⟨first, rest ++ bytes, by rw [same, announced, List.cons_append], ?_⟩
    rw [UInt8.le_iff_toNat_le, byte, show (0xc0 : UInt8).toNat = 0xc0 from rfl]
    split <;> omega

/-- What is announced is passed over. -/
theorem run_skipItem {rest : Bytes} {announced : Prefix}
    (found : decodePrefix.run bytes = .ok (announced, rest)) :
    skipItem.run bytes = .ok ((), rest.drop announced.length) := by
  rw [skipItem, StateT.run_bind, found]
  rfl

/-- **An item is passed over exactly.** -/
theorem reads_skipItem (item : Item) (short : item.encode.length < 2 ^ 64) :
    Reads skipItem item.encode () := by
  intro rest
  cases item with
  | string bytes =>
      have size := length_le_length_encodeString bytes
      have read := reads_string (size.trans_lt short) rest
      obtain ⟨announced, behind, found, read⟩ := run_bind_eq_ok read
      rw [Item.encode, run_skipItem found]
      dsimp only at read
      split at read
      · cases read
      · cases read
        rfl
  | list payload =>
      have size := length_le_length_encodeList payload
      have read := reads_listPayload (size.trans_lt short) rest
      obtain ⟨announced, behind, found, read⟩ := run_bind_eq_ok read
      rw [Item.encode, run_skipItem found]
      dsimp only at read
      split at read
      · cases read
        rfl
      · cases read

end Rlp

/-! ### Fields -/

namespace Transaction

open Rlp

variable {bytes beside : Bytes} {fields further : List Item} {hashes : List Hash}

/-- Items in a row are passed over exactly. -/
theorem reads_skipItems (short : (fields.flatMap Item.encode).length < 2 ^ 64) :
    Reads (skipItems fields.length) (fields.flatMap Item.encode) () := by
  induction fields with
  | nil => exact .pure ()
  | cons item rest ih =>
      rw [List.flatMap_cons, List.length_append] at short
      exact (reads_skipItem item (by omega)).bind (ih (by omega))

theorem skipItems_add (m n : Nat) : skipItems (m + n) = skipItems m >>= fun _ => skipItems n := by
  induction m with
  | zero => rw [Nat.zero_add, skipItems, pure_bind]
  | succ m ih => rw [Nat.succ_add, skipItems, skipItems, ih, bind_assoc]

/-- The hashes are read behind ten fields. -/
theorem run_decodeBlobHashes (ten : fields.length = 10)
    (short : ((fields ++ .list (hashes.flatMap encodeFixed) :: further).flatMap
      Item.encode).length < 2 ^ 64) :
    decodeBlobHashes.run
        ((fields ++ .list (hashes.flatMap encodeFixed) :: further).flatMap Item.encode) =
      .ok (hashes, further.flatMap Item.encode) := by
  rw [List.flatMap_append, List.flatMap_cons] at short ⊢
  simp only [List.length_append, Item.encode] at short
  have size := length_le_length_encodeList (hashes.flatMap encodeFixed)
  have read : Reads (decodeListOf (decodeFixed 32)) (encodeList (hashes.flatMap encodeFixed))
      (hashes.map id) :=
    reads_listOf delimits_hash.ne_nil (fun hash _ => reads_hash hash) (by omega)
  rw [List.map_id] at read
  have skipped : Reads (skipItems fields.length) _ () := reads_skipItems (by omega)
  rw [ten] at skipped
  rw [decodeBlobHashes, blobHashesIndex, skipped.run_bind]
  exact read _

/-- Fields run out before the hashes. -/
theorem run_decodeBlobHashes_of_few (few : fields.length < 11)
    (short : (fields.flatMap Item.encode).length < 2 ^ 64) :
    decodeBlobHashes.run (fields.flatMap Item.encode) = .error .inputTooShort := by
  obtain ⟨missing, sum⟩ := Nat.exists_eq_add_of_le (Nat.le_of_lt_succ few)
  rw [decodeBlobHashes, blobHashesIndex, sum, skipItems_add, bind_assoc,
    ← List.append_nil (fields.flatMap Item.encode), (reads_skipItems short).run_bind]
  -- Nothing is left, neither for another field nor for the hashes.
  cases missing <;> rfl

/-! ### Both forms -/

/-- The fields of a blob transaction: the items of its list, of which the first is a string, or the
items of a list that stands first in its list, beside anything else. -/
inductive HoldsFields : Bytes → List Item → Prop
  | plain {fields : List Item} (bare : ∀ payload, fields.head? ≠ some (.list payload)) :
    HoldsFields (0x03 :: encodeList (fields.flatMap Item.encode)) fields
  | wrapped {fields : List Item} {beside : Bytes} :
    HoldsFields (0x03 :: encodeList (encodeList (fields.flatMap Item.encode) ++ beside)) fields

/-- Fields that do not begin with a list do not begin as a list. -/
theorem low_of_bare (bare : ∀ payload, fields.head? ≠ some (.list payload))
    (short : (fields.flatMap Item.encode).length < 2 ^ 64) :
    ∀ first ∈ (fields.flatMap Item.encode).head?, ¬0xc0 ≤ first := by
  cases fields with
  | nil => nofun
  | cons item rest =>
      cases item with
      | list payload => exact absurd rfl (bare payload)
      | string bytes =>
          have size := length_le_length_encodeString bytes
          rw [List.flatMap_cons, List.length_append, Item.encode] at short
          have fits : bytes.length < 2 ^ 64 := by omega
          obtain ⟨first, tail, same, low⟩ := encodeString_exists_cons fits
          rw [List.flatMap_cons, Item.encode, same]
          rintro _ ⟨⟩
          exact low

theorem blobFields_plain {payload : Bytes} (fits : payload.length < 2 ^ 64)
    (low : ∀ first ∈ payload.head?, ¬0xc0 ≤ first) :
    blobFields (encodeList payload) = .ok payload := by
  rw [blobFields, (reads_listPayload fits).run_self, ok_bind]
  cases payload with
  | nil => rfl
  | cons first rest => exact if_neg (low first rfl)

theorem blobFields_wrapped {payload : Bytes}
    (fits : (encodeList payload ++ beside).length < 2 ^ 64) :
    blobFields (encodeList (encodeList payload ++ beside)) = .ok payload := by
  have size := length_le_length_encodeList payload
  rw [List.length_append] at fits
  have single : IsList (encodeList payload) := isList_iff.mpr ⟨payload, by omega, rfl⟩
  obtain ⟨first, rest, same, high⟩ := single.exists_cons
  have read : decodeListPayload.run (encodeList payload ++ beside) = .ok (payload, beside) :=
    reads_listPayload (by omega) beside
  rw [blobFields, (reads_listPayload (by rw [List.length_append]; omega)).run_self, ok_bind]
  rw [same] at read ⊢
  dsimp only [List.cons_append] at read ⊢
  rw [if_pos high, read]
  rfl

/-- Both forms are one list behind the type byte, in which the fields are found. -/
theorem HoldsFields.exists_payload (holds : HoldsFields bytes fields)
    (short : bytes.length < 2 ^ 64) :
    ∃ payload, payload.length < 2 ^ 64 ∧ bytes = 0x03 :: encodeList payload ∧
      blobFields (encodeList payload) = .ok (fields.flatMap Item.encode) ∧
      (fields.flatMap Item.encode).length ≤ payload.length := by
  cases holds with
  | plain bare =>
      have size := length_le_length_encodeList (fields.flatMap Item.encode)
      rw [List.length_cons] at short
      have fits : (fields.flatMap Item.encode).length < 2 ^ 64 := by omega
      exact ⟨_, fits, rfl, blobFields_plain fits (low_of_bare bare fits), Nat.le_refl _⟩
  | @wrapped _ beside =>
      have inner := length_le_length_encodeList (fields.flatMap Item.encode)
      have outer := length_le_length_encodeList (encodeList (fields.flatMap Item.encode) ++ beside)
      rw [List.length_cons] at short
      refine ⟨_, by omega, rfl, blobFields_wrapped (by omega), ?_⟩
      rw [List.length_append]
      omega

/-- **The blob hashes of a transaction are those of the eleventh field.** Whatever ten fields stand
before the list of hashes, and whatever follows it, the hashes are found, in the plain form and in
the one for the network. If there are fewer fields, none are. Other transactions have no blobs. The
bytes need only be short enough for their length to be written down. -/
theorem blobVersionedHashes_found (bytes : Bytes) (addressable : bytes.length < 2 ^ 64) :
    (∀ fields, HoldsFields bytes fields → ∃ tx, decode bytes = .ok tx ∧ tx.type = .blob ∧
      (∀ ten hashes further, ten.length = 10 →
        fields = ten ++ .list (hashes.flatMap encodeFixed) :: further →
          tx.blobVersionedHashes = .ok hashes) ∧
      (fields.length < 11 → tx.blobVersionedHashes = .error (.rlp .inputTooShort))) ∧
    ∀ tx, decode bytes = .ok tx → tx.type ≠ .blob → tx.blobVersionedHashes = .ok [] := by
  refine ⟨?_, fun tx _ other => if_neg other⟩
  intro fields holds
  obtain ⟨payload, fits, spelled, found, size⟩ := holds.exists_payload addressable
  have short := size.trans_lt fits
  have single : IsList (encodeList payload) := isList_iff.mpr ⟨payload, fits, rfl⟩
  have typed : classify bytes = .ok .blob :=
    classify_eq_ok_iff.mpr (spelled ▸ .typed (by decide) single)
  have told : blobFields (bytes.drop 1) = .ok (fields.flatMap Item.encode) := by
    rw [spelled]
    exact found
  refine ⟨⟨bytes, .blob, typed⟩, decode_eq_ok_iff.mpr rfl, rfl, ?_, ?_⟩
  · rintro ten hashes further count rfl
    rw [blobVersionedHashes, if_pos rfl, told, ok_bind, run_decodeBlobHashes count short]
  · intro few
    rw [blobVersionedHashes, if_pos rfl, told, ok_bind, run_decodeBlobHashes_of_few few short]

/-- A transaction in the form for the network. Among its ten fields are a byte that is its own
encoding, and a list that is not one of items. -/
theorem blobVersionedHashes_wrapped :
    let ten : List Item := [.string [1], .string [0x80], .string [2, 3], .list [0xc1, 0xff],
      .list [], .string [], .string [], .string [4], .list [5], .string []]
    let hashes : List Hash := [.ofNat 32 6, .ofNat 32 7]
    let fields := ten ++ [.list (hashes.flatMap encodeFixed), .string [8]]
    let bytes := 0x03 :: encodeList (encodeList (fields.flatMap Item.encode) ++ [0xc0])
    bytes.length < 2 ^ 64 ∧ ten.length = 10 ∧ HoldsFields bytes fields ∧
      ∃ tx, decode bytes = .ok tx ∧ tx.blobVersionedHashes = .ok hashes := by
  intro ten hashes fields bytes
  have addressable : bytes.length < 2 ^ 64 := by decide +kernel
  have holds : HoldsFields bytes fields := .wrapped
  obtain ⟨tx, read, -, found, -⟩ := (blobVersionedHashes_found bytes addressable).1 fields holds
  exact ⟨addressable, rfl, holds, tx, read, found ten hashes [.string [8]] rfl rfl⟩

end Transaction

end EngineNode
