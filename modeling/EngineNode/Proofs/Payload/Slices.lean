import EngineNode.Proofs.Payload.Conversion
import EngineNode.Proofs.Slices

/-!
Slices of payloads.

Transactions are read with slices behind their type byte and at the lengths that their lists
announce. Converting a payload takes no other slices, and finds the roots of two lists.

* `Transaction.decodeChecked_agrees`, `Transaction.blobVersionedHashesChecked_agrees`: what reading
  transactions and the blob hashes in them slices is there.
* `Payload.toBlockChecked_agrees`: converting a payload never stops.
-/

namespace EngineNode

open Checked

/-! ### Transactions -/

namespace Transaction

open Rlp Rlp.CheckedDecoder

/-- Checks that the bytes are one list and nothing else. -/
def checkSingleListChecked (bytes : Bytes) : ExceptT TransactionError Option Unit := do
  match ← (listPayloadChecked.run bytes).run with
  | .error error => throw (.rlp error)
  | .ok (_, rest) => unless rest.isEmpty do throw .trailingBytes

/-- The type of the transaction that the bytes hold. Behind a type byte the list is looked for in a
slice, once there are two bytes. -/
def classifyChecked (bytes : Bytes) : ExceptT TransactionError Option TransactionType :=
  match bytes.head? with
  | none => throw .tooShort
  | some first =>
    if 0xc0 ≤ first then do
      checkSingleListChecked bytes
      return .legacy
    else
      match TransactionType.ofByte? first with
      | none => throw (.unsupportedType first)
      | some type => do
        if bytes.length < 2 then throw .tooShort
        checkSingleListChecked (← behind? 1 bytes)
        return type

/-- Accepts the byte strings that are classified. -/
def decodeChecked (bytes : Bytes) : ExceptT TransactionError Option Transaction := do
  let _ ← classifyChecked bytes
  decode bytes

/-- Steps over a number of items. -/
def skipItemsChecked : Nat → CheckedDecoder Unit
  | 0 => return ()
  | n + 1 => do
    skipItemChecked
    skipItemsChecked n

/-- Reads the blob hashes out of the fields of a blob transaction. -/
def decodeBlobHashesChecked : CheckedDecoder (List Hash) := do
  skipItemsChecked blobHashesIndex
  plain (decodeListOf (decodeFixed 32))

/-- The list of fields of a blob transaction, out of the form that travels between nodes too. -/
def blobFieldsChecked (bytes : Bytes) : ExceptT Rlp.Error Option Bytes := do
  let (payload, _) ← listPayloadChecked.run bytes
  match payload with
  | first :: _ =>
    if 0xc0 ≤ first then return (← listPayloadChecked.run payload).1 else return payload
  | [] => return payload

/-- The hashes of the blobs that the transaction carries, behind its type byte. -/
def blobVersionedHashesChecked (tx : Transaction) : ExceptT TransactionError Option (List Hash) :=
  if tx.type = .blob then do
    let bytes ← behind? 1 tx.bytes
    match ← (blobFieldsChecked bytes >>= decodeBlobHashesChecked.run).run with
    | .ok (hashes, _) => return hashes
    | .error error => throw (.rlp error)
  else return []

theorem checkSingleListChecked_agrees (bytes : Bytes) :
    Agrees (checkSingleListChecked bytes) (checkSingleList bytes) := by
  unfold checkSingleListChecked checkSingleList
  refine Agrees.operation (listPayloadChecked_follows bytes) ?_
  cases decodeListPayload.run bytes with
  | error e => exact .throw _
  | ok result =>
      dsimp only
      cases result.2.isEmpty with
      | true => rfl
      | false => rfl

theorem classifyChecked_agrees (bytes : Bytes) :
    Agrees (classifyChecked bytes) (classify bytes) := by
  cases bytes with
  | nil => exact .throw _
  | cons first rest =>
      rw [classifyChecked, List.head?_cons]
      dsimp only [classify]
      split
      · exact (checkSingleListChecked_agrees (first :: rest)).map _
      · cases TransactionType.ofByte? first with
        | none => exact .throw _
        | some type =>
            cases rest with
            | nil => rfl
            | cons second rest =>
                have long : ¬ (first :: second :: rest).length < 2 := by simp
                dsimp only
                rw [if_neg long]
                refine Agrees.operation (behind?_of_le (by simp)) ?_
                exact (checkSingleListChecked_agrees (second :: rest)).map _

/-- **Decoding a transaction never stops.** -/
theorem decodeChecked_agrees (bytes : Bytes) : Agrees (decodeChecked bytes) (decode bytes) := by
  have steps : (classify bytes >>= fun _ => decode bytes) = decode bytes := by
    cases found : classify bytes with
    | ok type => rfl
    | error e => exact (decode_eq_error found).symm
  rw [← steps]
  exact (classifyChecked_agrees bytes).bind fun _ _ => .self _

theorem skipItemsChecked_follows (n : Nat) :
    CheckedDecoder.Follows (skipItemsChecked n) (skipItems n) := by
  induction n with
  | zero => exact .pure _
  | succ n ih => exact skipItemChecked_follows.bind fun _ => ih

theorem decodeBlobHashesChecked_follows :
    CheckedDecoder.Follows decodeBlobHashesChecked decodeBlobHashes :=
  (skipItemsChecked_follows blobHashesIndex).bind fun _ => .plain _

theorem blobFieldsChecked_agrees (bytes : Bytes) :
    Agrees (blobFieldsChecked bytes) (blobFields bytes) := by
  refine (listPayloadChecked_follows bytes).bind ?_
  rintro ⟨payload, _⟩ -
  cases payload with
  | nil => exact .pure _
  | cons first rest =>
      dsimp only
      split
      · exact (listPayloadChecked_follows _).bind fun _ _ => .pure _
      · exact .pure _

/-- A transaction has a type byte, or a list that begins with its length. -/
theorem length_bytes_pos (tx : Transaction) : 1 ≤ tx.bytes.length := by
  have classified := tx.classify_bytes
  cases found : tx.bytes with
  | nil =>
      rw [found] at classified
      cases classified
  | cons first rest => simp

/-- **Reading the blob hashes of a transaction never stops.** -/
theorem blobVersionedHashesChecked_agrees (tx : Transaction) :
    Agrees tx.blobVersionedHashesChecked tx.blobVersionedHashes := by
  unfold blobVersionedHashesChecked blobVersionedHashes
  split
  · refine Agrees.operation (behind?_of_le tx.length_bytes_pos) ?_
    have read : Agrees (blobFieldsChecked (tx.bytes.drop 1) >>= decodeBlobHashesChecked.run)
        (blobFields (tx.bytes.drop 1) >>= decodeBlobHashes.run) :=
      (blobFieldsChecked_agrees _).bind fun fields _ => decodeBlobHashesChecked_follows fields
    refine Agrees.operation read ?_
    cases blobFields (tx.bytes.drop 1) >>= decodeBlobHashes.run with
    | error e => exact .throw _
    | ok result => exact .pure _
  · exact .pure _

end Transaction

/-! ### Payloads -/

namespace Payload

/-- Decodes transactions; `index` counts those before these. -/
def decodeTransactionsChecked (index : Nat) :
    List Bytes → ExceptT ConversionError Option (List Transaction)
  | [] => return []
  | bytes :: rest => do
    match ← (Transaction.decodeChecked bytes).run with
    | .error error => throw (.transaction index error)
    | .ok tx => return tx :: (← decodeTransactionsChecked (index + 1) rest)

/-- The blob hashes of all transactions, in order. -/
def blobHashesChecked (index : Nat) :
    List Transaction → ExceptT ConversionError Option (List Hash)
  | [] => return []
  | tx :: rest => do
    match ← tx.blobVersionedHashesChecked.run with
    | .error error => throw (.transaction index error)
    | .ok hashes => return hashes ++ (← blobHashesChecked (index + 1) rest)

/-- The header that a payload and its sidecar describe, with the roots of both lists. -/
def headerChecked? (p : Payload) (sidecar : Sidecar) (transactions : List Transaction)
    (baseFee : U256) (bloom : Bloom) : Option Header := do
  let transactionsRoot ← Trie.listRootChecked? (transactions.map Transaction.bytes)
  let ownRoot ← p.withdrawals.mapM fun withdrawals =>
    Trie.listRootChecked? (withdrawals.map Withdrawal.encode)
  return { p.header sidecar transactions baseFee bloom with
    transactionsRoot, withdrawalsRoot := p.withdrawalsRoot <|> ownRoot }

/-- The block of a payload, whatever its hash. -/
def toBlockChecked (config : ChainConfig) (p : Payload) (sidecar : Sidecar) :
    ExceptT ConversionError Option Block := do
  let transactions ← decodeTransactionsChecked 0 p.transactions
  if maximumExtraDataSize < p.extraData.length then throw (.extraDataLength p.extraData.length)
  match FixedBytes.ofBytes? 256 p.logsBloom with
  | none => throw (.logsBloomLength p.logsBloom.length)
  | some bloom =>
    match p.baseFeePerGas with
    | none => throw .missingBaseFee
    | some baseFee =>
      let hashes ← blobHashesChecked 0 transactions
      checkVersionedHashes hashes sidecar.versionedHashes
      if config.isIsthmus p.timestamp then p.checkIsthmus
      return ⟨← p.headerChecked? sidecar transactions baseFee bloom, ⟨transactions, p.withdrawals⟩⟩

theorem decodeTransactionsChecked_agrees (index : Nat) (list : List Bytes) :
    Agrees (decodeTransactionsChecked index list) (decodeTransactions index list) := by
  induction list generalizing index with
  | nil => exact .pure _
  | cons bytes rest ih =>
      refine Agrees.operation (Transaction.decodeChecked_agrees bytes) ?_
      rw [decodeTransactions]
      cases Transaction.decode bytes with
      | error e => exact .throw _
      | ok tx => exact (ih (index + 1)).bind fun _ _ => .pure _

theorem blobHashesChecked_agrees (index : Nat) (transactions : List Transaction) :
    Agrees (blobHashesChecked index transactions) (blobHashes index transactions) := by
  induction transactions generalizing index with
  | nil => exact .pure _
  | cons tx rest ih =>
      refine Agrees.operation tx.blobVersionedHashesChecked_agrees ?_
      rw [blobHashes]
      cases tx.blobVersionedHashes with
      | error e => exact .throw _
      | ok hashes => exact (ih (index + 1)).bind fun _ _ => .pure _

/-- The header is found for all transactions and all withdrawals. -/
theorem headerChecked?_eq (p : Payload) (sidecar : Sidecar) (transactions : List Transaction)
    (baseFee : U256) (bloom : Bloom) : p.headerChecked? sidecar transactions baseFee bloom =
      some (p.header sidecar transactions baseFee bloom) := by
  have own : p.withdrawals.mapM (fun withdrawals =>
      Trie.listRootChecked? (withdrawals.map Withdrawal.encode)) =
        some (p.withdrawals.map Withdrawal.root) := by
    simp only [Trie.listRootChecked?_eq]
    cases p.withdrawals <;> rfl
  rw [headerChecked?, Trie.listRootChecked?_eq, own]
  rfl

/-- **Converting a payload never stops**, whatever it holds. -/
theorem toBlockChecked_agrees (config : ChainConfig) (p : Payload) (sidecar : Sidecar) :
    Agrees (p.toBlockChecked config sidecar) (p.toBlockUnchecked config sidecar) := by
  refine (decodeTransactionsChecked_agrees 0 p.transactions).bind fun transactions _ => ?_
  by_cases long : maximumExtraDataSize < p.extraData.length
  · simp only [long, if_true]
    exact .throw _
  simp only [long, if_false]
  cases FixedBytes.ofBytes? 256 p.logsBloom with
  | none => exact .throw _
  | some bloom =>
      cases p.baseFeePerGas with
      | none => exact .throw _
      | some baseFee =>
          refine (blobHashesChecked_agrees 0 transactions).bind fun hashes _ => ?_
          refine (Agrees.self (checkVersionedHashes hashes sidecar.versionedHashes)).bind
            fun _ _ => ?_
          rw [headerChecked?_eq]
          split
          · exact (Agrees.self p.checkIsthmus).bind fun _ _ => .pure _
          · exact .pure _

end Payload

end EngineNode
