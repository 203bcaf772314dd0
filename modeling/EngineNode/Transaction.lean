import EngineNode.Hex
import EngineNode.Trie

/-!
# Transactions

A transaction is kept in its consensus encoding: one list for the oldest kind, otherwise a type
byte and one list. Only this envelope is checked here. The type of a `Transaction` is the one that
its bytes announce, by construction.
-/

namespace EngineNode

/-- The kinds of transaction that are known. -/
inductive TransactionType where
  | legacy
  | accessList
  | dynamicFee
  | blob
  | setCode
  | deposit
deriving DecidableEq, Repr

namespace TransactionType

/-- The byte that announces the type; legacy transactions have none and count as zero. -/
def toByte : TransactionType → UInt8
  | .legacy => 0x00
  | .accessList => 0x01
  | .dynamicFee => 0x02
  | .blob => 0x03
  | .setCode => 0x04
  | .deposit => 0x7e

/-- The type that a leading byte announces. -/
def ofByte? (b : UInt8) : Option TransactionType :=
  [accessList, dynamicFee, blob, setCode, deposit].find? (·.toByte = b)

end TransactionType

/-- Why a byte string is no transaction. -/
inductive TransactionError where
  | tooShort
  | unsupportedType (type : UInt8)
  | rlp (error : Rlp.Error)
  | trailingBytes
deriving DecidableEq, Repr

def TransactionError.message : TransactionError → String
  | .tooShort => "typed transaction too short"
  | .unsupportedType type => "transaction type not supported: " ++ Hex.text [type]
  | .rlp error => "rlp: " ++ error.message
  | .trailingBytes => "rlp: input contains more than one value"

namespace Transaction

/-- Checks that the bytes are one list and nothing else. -/
def checkSingleList (bytes : Bytes) : Except TransactionError Unit :=
  match Rlp.decodeListPayload.run bytes with
  | .error error => .error (.rlp error)
  | .ok (_, rest) => if rest.isEmpty then .ok () else .error .trailingBytes

/-- The type of the transaction that the bytes hold. -/
def classify : Bytes → Except TransactionError TransactionType
  | [] => .error .tooShort
  | first :: rest =>
    if 0xc0 ≤ first then (fun _ => .legacy) <$> checkSingleList (first :: rest)
    else
      match TransactionType.ofByte? first with
      | none => .error (.unsupportedType first)
      | some type =>
        if rest.isEmpty then .error .tooShort else (fun _ => type) <$> checkSingleList rest

end Transaction

/-- A transaction in its consensus encoding. -/
structure Transaction where
  bytes : Bytes
  type : TransactionType
  classify_bytes : Transaction.classify bytes = .ok type

namespace Transaction

/-- A transaction is determined by its bytes. -/
theorem eq_of_bytes_eq {a b : Transaction} (h : a.bytes = b.bytes) : a = b := by
  obtain ⟨x, s, hs⟩ := a
  obtain ⟨y, t, ht⟩ := b
  subst h
  have : s = t := Except.ok.inj (hs.symm.trans ht)
  subst this
  rfl

instance : DecidableEq Transaction := fun a b =>
  if h : a.bytes = b.bytes then isTrue (eq_of_bytes_eq h)
  else isFalse fun e => h (e ▸ rfl)

/-- Accepts exactly the byte strings that `classify` gives a type. -/
def decode (bytes : Bytes) : Except TransactionError Transaction :=
  match h : classify bytes with
  | .ok type => .ok ⟨bytes, type, h⟩
  | .error error => .error error

/-- A byte string is decoded as the transaction that has it. -/
theorem decode_eq_ok_iff {bytes : Bytes} {tx : Transaction} :
    decode bytes = .ok tx ↔ tx.bytes = bytes := by
  unfold decode
  split
  · constructor
    · rintro ⟨⟩
      rfl
    · intro same
      exact congrArg Except.ok (eq_of_bytes_eq same.symm)
  · rename_i refused
    constructor
    · nofun
    · rintro rfl
      cases tx.classify_bytes.symm.trans refused

@[simp] theorem decode_bytes (tx : Transaction) : decode tx.bytes = .ok tx :=
  decode_eq_ok_iff.mpr rfl

/-- What is given no type is refused for the same reason. -/
theorem decode_eq_error {bytes : Bytes} {error : TransactionError}
    (refused : classify bytes = .error error) : decode bytes = .error error := by
  unfold decode
  split
  · rename_i found
    cases refused.symm.trans found
  · rename_i found
    cases refused.symm.trans found
    rfl

/-- The hash that names the transaction. -/
def hash (tx : Transaction) : Hash := keccak256 tx.bytes

def isDeposit (tx : Transaction) : Bool := tx.type = .deposit

/-- The size that counts against the limits on published data. -/
def dataSize (tx : Transaction) : Nat := tx.bytes.length

/-- The position of the blob hashes among the fields of a blob transaction. -/
def blobHashesIndex : Nat := 10

/-- Steps over a number of items. -/
def skipItems : Nat → Rlp.Decoder Unit
  | 0 => pure ()
  | n + 1 => do
    Rlp.skipItem
    skipItems n

/-- Reads the blob hashes out of the fields of a blob transaction. -/
def decodeBlobHashes : Rlp.Decoder (List Hash) := do
  skipItems blobHashesIndex
  Rlp.decodeListOf (Rlp.decodeFixed 32)

/-- The list of fields of a blob transaction; the form that travels between nodes wraps it in a
second list, beside the blobs. -/
def blobFields (bytes : Bytes) : Except Rlp.Error Bytes := do
  let (payload, _) ← Rlp.decodeListPayload.run bytes
  match payload with
  | first :: _ =>
    if 0xc0 ≤ first then return (← Rlp.decodeListPayload.run payload).1 else return payload
  | [] => return payload

/-- The hashes of the blobs that the transaction carries; only blob transactions have any. -/
def blobVersionedHashes (tx : Transaction) : Except TransactionError (List Hash) :=
  if tx.type = .blob then
    match blobFields (tx.bytes.drop 1) >>= decodeBlobHashes.run with
    | .ok (hashes, _) => .ok hashes
    | .error error => .error (.rlp error)
  else .ok []

/-- The root that commits to a list of transactions. -/
def root (transactions : List Transaction) : Hash := Trie.listRoot (transactions.map bytes)

end Transaction

end EngineNode
