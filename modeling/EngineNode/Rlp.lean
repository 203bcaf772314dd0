import EngineNode.Bytes

/-!
# Recursive length prefixes

An item is a byte string or a list of items. Strings and lists carry their length in front; a
single byte below `0x80` is its own encoding. Decoding accepts canonical encodings only: the
shortest length, and numbers without leading zeros.

`Error.message` fixes the wording of every refusal.
-/

namespace EngineNode.Rlp

/-- Why a byte string is not the encoding that was asked for. -/
inductive Error where
  | overflow
  | leadingZero
  | inputTooShort
  | nonCanonicalSingleByte
  | nonCanonicalSize
  | unexpectedLength
  | unexpectedString
  | unexpectedList
  | trailingHeaderFields
  | trailingWitnessBytes
deriving DecidableEq, Repr

def Error.message : Error → String
  | .overflow => "overflow"
  | .leadingZero => "leading zero"
  | .inputTooShort => "input too short"
  | .nonCanonicalSingleByte => "non-canonical single byte"
  | .nonCanonicalSize => "non-canonical size"
  | .unexpectedLength => "unexpected length"
  | .unexpectedString => "unexpected string"
  | .unexpectedList => "unexpected list"
  | .trailingHeaderFields => "header contains unexpected trailing fields"
  | .trailingWitnessBytes => "witness is followed by trailing bytes"

/-! ## Encoding -/

/-- A length in front of a payload: one byte below 56, otherwise the number of length bytes and
the length itself. `base` is `0x80` for strings and `0xc0` for lists. -/
def encodeLength (base length : Nat) : Bytes :=
  if length < 56 then [UInt8.ofNat (base + length)]
  else
    let digits := Bytes.ofNat length
    UInt8.ofNat (base + 55 + digits.length) :: digits

/-- A byte string. -/
def encodeString (bytes : Bytes) : Bytes :=
  match bytes with
  | [b] => if b < 0x80 then [b] else 0x81 :: [b]
  | _ => encodeLength 0x80 bytes.length ++ bytes

/-- A list whose items are already encoded and joined. -/
def encodeList (payload : Bytes) : Bytes :=
  encodeLength 0xc0 payload.length ++ payload

/-- A number, as its shortest byte string. -/
def encodeNat (n : Nat) : Bytes := encodeString (Bytes.ofNat n)

/-- A hash or another string of fixed length. -/
def encodeFixed {n : Nat} (bytes : FixedBytes n) : Bytes := encodeString bytes.toList

/-- Fields that may be absent, each with the encoding that stands in its place when a later one is
present. Absent fields at the end are left out. -/
def encodeOptionalFields : List (Option Bytes × Bytes) → Bytes
  | [] => []
  | field :: rest =>
    if (field :: rest).all (·.1.isNone) then []
    else field.1.getD field.2 ++ encodeOptionalFields rest

/-! ## Decoding -/

/-- Reads a value off the front of a byte string. -/
abbrev Decoder := StateT Bytes (Except Error)

/-- The announcement in front of a payload. -/
structure Prefix where
  isList : Bool
  length : Nat
deriving DecidableEq, Repr

/-- The length spelled by `count` bytes, which is only used for lengths that need them. -/
def decodeLongLength (isList : Bool) (count : Nat) (rest : Bytes) : Except Error (Prefix × Bytes) :=
  if rest.length < count then .error .inputTooShort
  else if rest.head? = some 0 then .error .leadingZero
  else
    let length := Bytes.toNat (rest.take count)
    if length < 56 then .error .nonCanonicalSize
    else .ok (⟨isList, length⟩, rest.drop count)

/-- Reads the announcement, without checking that the payload is there. A single byte below
`0x80` announces itself and is left in place. -/
def decodePrefixOnly (bytes : Bytes) : Except Error (Prefix × Bytes) :=
  match bytes with
  | [] => .error .inputTooShort
  | b :: rest =>
    if b < 0x80 then .ok (⟨false, 1⟩, bytes)
    else if b < 0xb8 then
      if b = 0x81 then
        match rest with
        | [] => .error .inputTooShort
        | next :: _ =>
          if next < 0x80 then .error .nonCanonicalSingleByte else .ok (⟨false, 1⟩, rest)
      else .ok (⟨false, b.toNat - 0x80⟩, rest)
    else if b < 0xc0 then decodeLongLength false (b.toNat - 0xb7) rest
    else if b < 0xf8 then .ok (⟨true, b.toNat - 0xc0⟩, rest)
    else decodeLongLength true (b.toNat - 0xf7) rest

/-- Reads the announcement of a payload that is there in full. -/
def decodePrefix : Decoder Prefix := fun bytes => do
  let (announced, rest) ← decodePrefixOnly bytes
  if rest.length < announced.length then throw .inputTooShort
  return (announced, rest)

/-- Takes bytes off the front. -/
def takeBytes (count : Nat) : Decoder Bytes := fun bytes =>
  .ok (bytes.take count, bytes.drop count)

/-- The contents of a byte string. -/
def decodeString : Decoder Bytes := do
  let announced ← decodePrefix
  if announced.isList then throw .unexpectedList
  takeBytes announced.length

/-- The joined items of a list. -/
def decodeListPayload : Decoder Bytes := do
  let announced ← decodePrefix
  unless announced.isList do throw .unexpectedString
  takeBytes announced.length

/-- Steps over one item of either kind. -/
def skipItem : Decoder Unit := do
  let announced ← decodePrefix
  let _ ← takeBytes announced.length

/-- A number of at most `width` bytes. -/
def decodeNat (width : Nat) : Decoder Nat := do
  let bytes ← decodeString
  if bytes.length > width then throw .overflow
  if bytes.head? = some 0 then throw .leadingZero
  return Bytes.toNat bytes

/-- A 64-bit number. -/
def decodeUInt64 : Decoder UInt64 := UInt64.ofNat <$> decodeNat 8

/-- A 256-bit number. -/
def decodeU256 : Decoder U256 := BitVec.ofNat 256 <$> decodeNat 32

/-- A byte string of exactly `n` bytes. -/
def decodeFixed (n : Nat) : Decoder (FixedBytes n) := do
  let bytes ← decodeString
  match FixedBytes.ofBytes? n bytes with
  | some fixed => return fixed
  | none => throw .unexpectedLength

/-- Reads items until nothing is left. Every item takes at least one byte. -/
def decodeAll {α : Type} (decodeItem : Decoder α) (bytes : Bytes) : Except Error (List α) :=
  if bytes.isEmpty then .ok []
  else
    match decodeItem bytes with
    | .error e => .error e
    | .ok (item, rest) =>
      if rest.length < bytes.length then (item :: ·) <$> decodeAll decodeItem rest
      else .error .inputTooShort
termination_by bytes.length

/-- A list of items of one kind. -/
def decodeListOf {α : Type} (decodeItem : Decoder α) : Decoder (List α) := do
  let payload ← decodeListPayload
  decodeAll decodeItem payload

/-- Reads a value if anything is left. -/
def decodeOptional {α : Type} (decodeItem : Decoder α) : Decoder (Option α) := fun bytes =>
  if bytes.isEmpty then .ok (none, []) else (some <$> decodeItem).run bytes

/-- Reads the contents of a list with a decoder that must use them up. -/
def decodeFields {α : Type} (decodeContents : Decoder α) (onRest : Error) : Decoder α := do
  let payload ← decodeListPayload
  let (value, rest) ← decodeContents.run payload
  unless rest.isEmpty do throw onRest
  return value

end EngineNode.Rlp
