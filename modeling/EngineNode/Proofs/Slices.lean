import EngineNode.Proofs.Checked
import EngineNode.Proofs.Header.Canonical
import EngineNode.Proofs.Trie.Walk
import EngineNode.Witness

/-!
Slices of encodings.

Reading an encoding takes slices of byte strings at lengths that the bytes themselves announce, and
the node of a list of items is found by reading keys at places that other keys determine. Each place
was compared with the length before, so every slice exists, whatever the bytes are.

* `Rlp.CheckedDecoder.Follows`: a checked decoder never stops, and reads what a plain one reads.
  Decoders that follow compose as decoders do.
* `Rlp.listPayloadChecked_follows`, `Rlp.u256Checked_follows`: lists and words.
* `Header.decodeChecked_follows`, `Witness.decodeChecked_agrees`: what is read off a witness.
* `Trie.listRootChecked?_eq`: the root of a list never reads a key past its end.
-/

namespace EngineNode

open Checked

namespace Rlp

variable {α β : Type}

/-- A decoder that stops where a slice does not exist. -/
abbrev CheckedDecoder := StateT Bytes (ExceptT Error Option)

/-! ### Decoders that follow -/

namespace CheckedDecoder

/-- A decoder that takes no slices of its own: it refuses bytes that end early. -/
def plain (decoder : Decoder α) : CheckedDecoder α := fun bytes => liftM (decoder.run bytes)

/-- **A checked decoder never stops, and reads what a plain one reads**, off every byte string. -/
def Follows (checked : CheckedDecoder α) (decoder : Decoder α) : Prop :=
  ∀ bytes, Agrees (checked.run bytes) (decoder.run bytes)

namespace Follows

theorem plain (decoder : Decoder α) : Follows (plain decoder) decoder := fun _ => .self _

theorem pure (a : α) : Follows (Pure.pure a) (Pure.pure a) := fun _ => .pure _

theorem throw {error : Error} : Follows (α := α) (MonadExcept.throw error)
    (MonadExcept.throw error) := fun _ => .throw _

/-- What does not look at the bytes. -/
theorem lift {checked : ExceptT Error Option α} {plain : Except Error α}
    (agrees : Agrees checked plain) : Follows (liftM checked) (liftM plain) :=
  fun bytes => agrees.map fun a => (a, bytes)

/-- Decoders that follow step by step follow as a whole. -/
theorem bind {checked : CheckedDecoder α} {decoder : Decoder α} {next : α → CheckedDecoder β}
    {next' : α → Decoder β} (first : Follows checked decoder)
    (rest : ∀ a, Follows (next a) (next' a)) : Follows (checked >>= next) (decoder >>= next') :=
  fun bytes => (first bytes).bind fun taken _ => rest taken.1 taken.2

theorem map {checked : CheckedDecoder α} {decoder : Decoder α} (first : Follows checked decoder)
    (f : α → β) : Follows (f <$> checked) (f <$> decoder) :=
  fun bytes => (first bytes).map fun taken => (f taken.1, taken.2)

end Follows

end CheckedDecoder

open CheckedDecoder

/-! ### Lists and words -/

/-- Takes bytes off the front, which have to be there. -/
def takeChecked (count : Nat) : CheckedDecoder Bytes := fun bytes => splitAt? count bytes

/-- The joined items of a list. -/
def listPayloadChecked : CheckedDecoder Bytes := do
  let announced ← plain decodePrefix
  unless announced.isList do throw .unexpectedString
  takeChecked announced.length

/-- Steps over one item of either kind. -/
def skipItemChecked : CheckedDecoder Unit := do
  let announced ← plain decodePrefix
  let _ ← takeChecked announced.length

/-- A 256-bit number, read off bytes that have their place in a word. -/
def u256Checked : CheckedDecoder U256 := do
  let bytes ← plain decodeString
  if bytes.length > 32 then throw .overflow
  if bytes.head? = some 0 then throw .leadingZero
  let digits ← narrow? 32 bytes
  return BitVec.ofNat 256 (Bytes.toNat digits)

/-- Reads a value if anything is left. -/
def optionalChecked (item : CheckedDecoder α) : CheckedDecoder (Option α) := fun bytes =>
  if bytes.isEmpty then return (none, []) else (some <$> item).run bytes

/-- Reads items until nothing is left. -/
def allChecked (item : CheckedDecoder α) (bytes : Bytes) : ExceptT Error Option (List α) :=
  if bytes.isEmpty then return []
  else do
    let (a, rest) ← item.run bytes
    if _ : rest.length < bytes.length then return a :: (← allChecked item rest)
    else throw .inputTooShort
termination_by bytes.length

/-- A list of items of one kind. -/
def listOfChecked (item : CheckedDecoder α) : CheckedDecoder (List α) := do
  let payload ← plain decodeListPayload
  allChecked item payload

/-- Reads the contents of a list with a decoder that must use them up. -/
def fieldsChecked (contents : CheckedDecoder α) (onRest : Error) : CheckedDecoder α := do
  let payload ← listPayloadChecked
  let (value, rest) ← contents.run payload
  unless rest.isEmpty do throw onRest
  return value

/-- What was announced is there. -/
theorem takeChecked_of_le {count : Nat} {bytes : Bytes} (there : count ≤ bytes.length) :
    Agrees ((takeChecked count).run bytes) ((takeBytes count).run bytes) := by
  unfold Agrees takeChecked
  rw [StateT.run, splitAt?_of_le there]
  rfl

theorem listPayloadChecked_follows : listPayloadChecked.Follows decodeListPayload := by
  intro bytes
  rw [listPayloadChecked, decodeListPayload, StateT.run_bind, StateT.run_bind]
  refine (Follows.plain decodePrefix bytes).bind ?_
  rintro ⟨announced, rest⟩ found
  have there := (decodePrefix_eq_ok found).2
  dsimp only
  cases announced.isList with
  | false => rfl
  | true => exact takeChecked_of_le there

theorem skipItemChecked_follows : skipItemChecked.Follows skipItem := by
  intro bytes
  rw [skipItemChecked, skipItem, StateT.run_bind, StateT.run_bind]
  refine (Follows.plain decodePrefix bytes).bind ?_
  rintro ⟨announced, rest⟩ found
  have there := (decodePrefix_eq_ok found).2
  exact (takeChecked_of_le there).bind fun _ _ => .pure _

theorem u256Checked_follows : u256Checked.Follows decodeU256 := by
  rw [u256Checked, decodeU256, decodeNat, map_bind]
  refine (Follows.plain decodeString).bind fun bytes => ?_
  by_cases long : bytes.length > 32
  · simp only [long, if_true]
    exact .throw
  by_cases leading : bytes.head? = some 0
  · simp only [long, leading, if_true, if_false]
    exact .throw
  · simp only [long, leading, if_false, narrow?_of_le (Nat.le_of_not_lt long)]
    exact .pure _

/-- What is optional follows if it does where it is present. -/
theorem CheckedDecoder.Follows.optional {item : CheckedDecoder α} {decoder : Decoder α}
    (follows : item.Follows decoder) : (optionalChecked item).Follows (decodeOptional decoder) := by
  intro bytes
  change Agrees (if _ then _ else _) (if _ then _ else _)
  split
  · exact .pure _
  · exact follows.map some bytes

/-- The first item is read, and then the others. -/
theorem decodeAll_eq_bind (decoder : Decoder α) {bytes : Bytes} (some : ¬ bytes.isEmpty) :
    decodeAll decoder bytes = decoder.run bytes >>= fun taken =>
      if taken.2.length < bytes.length then (taken.1 :: ·) <$> decodeAll decoder taken.2
      else .error .inputTooShort := by
  rw [decodeAll, if_neg some, StateT.run]
  cases decoder bytes <;> rfl

/-- A list follows if its items do. -/
theorem allChecked_agrees {item : CheckedDecoder α} {decoder : Decoder α}
    (follows : item.Follows decoder) (bytes : Bytes) :
    Agrees (allChecked item bytes) (decodeAll decoder bytes) := by
  fun_induction allChecked item bytes with
  | case1 bytes empty =>
      rw [decodeAll, if_pos empty]
      exact .pure _
  | case2 bytes some ih =>
      rw [decodeAll_eq_bind decoder some]
      refine (follows bytes).bind fun taken _ => ?_
      by_cases shorter : taken.2.length < bytes.length
      · simp only [shorter, dite_true, if_true]
        exact (ih taken.2 shorter).map _
      · simp only [shorter, dite_false, if_false]
        exact .throw _

theorem CheckedDecoder.Follows.listOf {item : CheckedDecoder α} {decoder : Decoder α}
    (follows : item.Follows decoder) : (listOfChecked item).Follows (decodeListOf decoder) :=
  (Follows.plain decodeListPayload).bind fun payload => .lift (allChecked_agrees follows payload)

theorem CheckedDecoder.Follows.fields {contents : CheckedDecoder α} {decoder : Decoder α}
    (follows : contents.Follows decoder) (onRest : Error) :
    (fieldsChecked contents onRest).Follows (decodeFields decoder onRest) := by
  refine listPayloadChecked_follows.bind fun payload => ?_
  refine (Follows.lift (follows payload)).bind fun (value, left) => ?_
  cases left with
  | nil => exact .pure _
  | cons _ _ => exact .throw

end Rlp

/-! ### Headers and witnesses -/

namespace Header

open Rlp Rlp.CheckedDecoder

/-- Reads the fields of a header in their order. -/
def decodeContentsChecked : CheckedDecoder Header := do
  let parentHash ← plain (decodeFixed 32)
  let ommersHash ← plain (decodeFixed 32)
  let feeRecipient ← plain (decodeFixed 20)
  let stateRoot ← plain (decodeFixed 32)
  let transactionsRoot ← plain (decodeFixed 32)
  let receiptsRoot ← plain (decodeFixed 32)
  let logsBloom ← plain (decodeFixed 256)
  let difficulty ← u256Checked
  let number ← plain decodeUInt64
  let gasLimit ← plain decodeUInt64
  let gasUsed ← plain decodeUInt64
  let timestamp ← plain decodeUInt64
  let extraData ← plain decodeString
  let mixHash ← plain (decodeFixed 32)
  let nonce ← plain (decodeFixed 8)
  let baseFeePerGas ← optionalChecked u256Checked
  let withdrawalsRoot ← plain (decodeOptional (decodeFixed 32))
  let blobGasUsed ← plain (decodeOptional decodeUInt64)
  let excessBlobGas ← plain (decodeOptional decodeUInt64)
  let parentBeaconBlockRoot ← plain (decodeOptional (decodeFixed 32))
  let requestsHash ← plain (decodeOptional (decodeFixed 32))
  return ⟨parentHash, ommersHash, feeRecipient, stateRoot, transactionsRoot, receiptsRoot,
    logsBloom, difficulty, number, gasLimit, gasUsed, timestamp, extraData, mixHash, nonce,
    baseFeePerGas, withdrawalsRoot, blobGasUsed, excessBlobGas, parentBeaconBlockRoot,
    requestsHash⟩

/-- Reads a header off the front of a byte string. -/
def decodeChecked : CheckedDecoder Header :=
  fieldsChecked decodeContentsChecked .trailingHeaderFields

/-- Two fields are words, the others are read as they are. -/
theorem decodeContentsChecked_follows : decodeContentsChecked.Follows decodeContents := by
  refine (Follows.plain _).bind fun parentHash => ?_
  refine (Follows.plain _).bind fun ommersHash => ?_
  refine (Follows.plain _).bind fun feeRecipient => ?_
  refine (Follows.plain _).bind fun stateRoot => ?_
  refine (Follows.plain _).bind fun transactionsRoot => ?_
  refine (Follows.plain _).bind fun receiptsRoot => ?_
  refine (Follows.plain _).bind fun logsBloom => ?_
  refine u256Checked_follows.bind fun difficulty => ?_
  refine (Follows.plain _).bind fun number => ?_
  refine (Follows.plain _).bind fun gasLimit => ?_
  refine (Follows.plain _).bind fun gasUsed => ?_
  refine (Follows.plain _).bind fun timestamp => ?_
  refine (Follows.plain _).bind fun extraData => ?_
  refine (Follows.plain _).bind fun mixHash => ?_
  refine (Follows.plain _).bind fun nonce => ?_
  refine u256Checked_follows.optional.bind fun baseFeePerGas => ?_
  refine (Follows.plain _).bind fun withdrawalsRoot => ?_
  refine (Follows.plain _).bind fun blobGasUsed => ?_
  refine (Follows.plain _).bind fun excessBlobGas => ?_
  refine (Follows.plain _).bind fun parentBeaconBlockRoot => ?_
  exact (Follows.plain _).bind fun requestsHash => .pure _

theorem decodeChecked_follows : decodeChecked.Follows decode :=
  decodeContentsChecked_follows.fields _

end Header

namespace Witness

open Rlp Rlp.CheckedDecoder

/-- Reads the three lists in their order. -/
def decodeContentsChecked : CheckedDecoder Witness := do
  let headers ← listOfChecked Header.decodeChecked
  let codes ← listOfChecked (plain decodeString)
  let state ← listOfChecked (plain decodeString)
  return { headers, codes, state }

/-- Reads a witness that is the whole of a byte string. -/
def decodeChecked (bytes : Bytes) : ExceptT Rlp.Error Option Witness := do
  let (witness, rest) ← (fieldsChecked decodeContentsChecked .unexpectedLength).run bytes
  unless rest.isEmpty do throw .trailingWitnessBytes
  return witness

/-- **Reading a witness never stops.** -/
theorem decodeChecked_agrees (bytes : Bytes) : Agrees (decodeChecked bytes) (decode bytes) := by
  have contents : CheckedDecoder.Follows decodeContentsChecked decodeContents := by
    refine Header.decodeChecked_follows.listOf.bind fun headers => ?_
    refine (Follows.plain _).listOf.bind fun codes => ?_
    exact (Follows.plain _).listOf.bind fun state => .pure _
  refine (contents.fields .unexpectedLength bytes).bind ?_
  rintro ⟨witness, rest⟩ -
  cases rest with
  | nil => rfl
  | cons _ _ => rfl

end Witness

/-! ### Roots -/

/-- The root of a list, read off whole keys. -/
def Trie.listRootChecked? (items : List Bytes) : Option Hash :=
  if items.isEmpty then some (listRoot [])
  else (encodeAt? (sortEntries (listEntries items)) 0).map keccak256

/-- **The root of a list never reads a key past its end.** -/
theorem Trie.listRootChecked?_eq (items : List Bytes) :
    listRootChecked? items = some (listRoot items) := by
  unfold listRootChecked?
  cases items with
  | nil => rfl
  | cons item rest =>
      have filled : sortEntries (listEntries (item :: rest)) ≠ [] := by
        intro none
        have same := (perm_sortEntries (listEntries (item :: rest))).length_eq
        rw [none, listEntries, List.length_mapIdx] at same
        cases same
      have walked := encodeAt?_behind (ascending_listEntries (item :: rest)) filled []
      rw [behind_nil, List.length_nil] at walked
      rw [List.isEmpty_cons, if_neg Bool.false_ne_true, walked]
      rfl

end EngineNode
