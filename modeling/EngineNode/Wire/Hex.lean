import EngineNode.Json.Decode

/-!
# Hexadecimal numbers and byte strings in JSON

Three notations occur. *Quantities* are numbers after the mark `0x`, without leading zeros. *Byte
strings* have two digits a byte after the mark; a second mark is passed over. *Words* of a fixed
or greatest width may lack the mark, and blanks between their digits are passed over.
-/

namespace EngineNode.Wire

/-- The digits behind the mark. -/
def afterMark (chars : List Char) : Except HexError (List Char) :=
  match chars with
  | '0' :: 'x' :: digits => .ok digits
  | _ => .error .missingMark

/-- Reads digits one after another; the first that is none, or does not fit, decides. -/
def readDigits (limit : Nat) : (n : Nat) → List Char → Except HexError Nat
  | n, [] => .ok n
  | n, c :: rest =>
    match Hex.digitValue? c with
    | none => .error .invalidDigit
    | some d => if 16 * n + d ≥ limit then .error .tooLarge else readDigits limit (16 * n + d) rest

/-- The number that a text spells, below a limit. A plus sign may stand in front of its digits. -/
def readQuantity (limit : Nat) (text : List Char) : Except HexError Nat := do
  let digits ← afterMark text
  match digits with
  | [] => throw .noDigits
  | ['0'] => return 0
  | '0' :: _ => throw .leadingZeros
  | ['+'] => throw .invalidDigit
  | '+' :: digits => readDigits limit 0 digits
  | digits => readDigits limit 0 digits

/-- Digits are looked at byte by byte. -/
def byteDigitValue? (byte : UInt8) : Option Nat := Hex.digitValue? (Char.ofNat byte.toNat)

/-- The place of the first byte that is no digit. -/
def firstInvalid? (index : Nat) : Bytes → Option (UInt8 × Nat)
  | [] => none
  | b :: rest =>
    if (byteDigitValue? b).isSome then firstInvalid? (index + 1) rest else some (b, index)

/-- Two digits a byte, in a text of even length. -/
def readDigitPairs : Bytes → Bytes
  | hi :: lo :: rest =>
    UInt8.ofNat (16 * (byteDigitValue? hi).getD 0 + (byteDigitValue? lo).getD 0) ::
      readDigitPairs rest
  | _ => []

/-- The bytes of a text. -/
def utf8 (chars : List Char) : Bytes := (String.ofList chars).toUTF8.toList

/-- The byte string that a text spells. -/
def readByteString (text : List Char) : Except HexError Bytes := do
  let digits ← afterMark text
  let digits := utf8 <|
    match digits with
    | '0' :: 'x' :: digits => digits
    | digits => digits
  if digits.length % 2 = 1 then throw .oddLength
  match firstInvalid? 0 digits with
  | some (byte, index) => throw (.invalidByteDigit byte index)
  | none => return readDigitPairs digits

/-- Blanks that words pass over. -/
def isWordBlank (byte : UInt8) : Bool := byte = 32 || byte = 13 || byte = 10 || byte = 9

/-- Reads the digits of a word; `half` is the value of a digit that still waits for its partner.
A digit without partner at the end is dropped. -/
def readWordDigits (index : Nat) (half : Option Nat) : Bytes → Except HexError Bytes
  | [] => .ok []
  | b :: rest =>
    if isWordBlank b then readWordDigits (index + 1) half rest
    else
      match byteDigitValue? b, half with
      | none, _ => .error (.invalidWordDigit b index)
      | some d, none => readWordDigits (index + 1) (some d) rest
      | some d, some h => (UInt8.ofNat (16 * h + d) :: ·) <$> readWordDigits (index + 1) none rest

/-- The bytes of a word without its mark. In a text of odd length the first digit has none to its
left. -/
def readWord (marked : Bool) (digits : Bytes) : Except HexError Bytes :=
  readWordDigits (if marked then 2 else 0) (if digits.length % 2 = 1 then some 0 else none) digits

/-- Takes the mark off, if there is one. -/
def stripMark (chars : List Char) : Bool × Bytes :=
  match chars with
  | '0' :: 'x' :: digits => (true, utf8 digits)
  | digits => (false, utf8 digits)

/-! ## Decoders and encoders -/

/-- What is expected of quantities and byte strings. -/
def markedExpectation : String := "a string of hexadecimal digits prefixed with 0x"

/-- What is expected of words. -/
def wordExpectation (width : String) : String :=
  "a (both 0x-prefixed or not) hex string or byte array containing " ++ width ++ " bytes"

/-- Reads a text and passes on why it is not accepted. -/
def liftHex {α : Type} : Except HexError α → Except DecodeError α
  | .ok value => .ok value
  | .error error => .error (.hex error)

/-- A quantity of at most so many bits. -/
def decodeQuantity (bits : Nat) : Decoder Nat
  | .str text => liftHex (readQuantity (Nat.pow 2 bits) text.toList)
  | json => .error (.invalidType json markedExpectation)

/-- A 64-bit quantity. -/
def decodeUInt64 : Decoder UInt64 := fun json => UInt64.ofNat <$> decodeQuantity 64 json

/-- A number that is written as an integer, or with digits behind the mark. -/
def decodeInteger : Decoder Nat
  | .number (.nat n) => .ok n.toNat
  | .str text => liftHex do
    match Hex.natOfDigits? (← afterMark text.toList) with
    | some n => return n
    | none => throw .invalidDigit
  | json => .error (.invalidType json "an integer")

/-- A byte string of any length. -/
def decodeByteString : Decoder Bytes
  | .str text => liftHex (readByteString text.toList)
  | json => .error (.invalidType json markedExpectation)

/-- A word of exactly `n` bytes. Digits that are missing because of blanks count as zero. -/
def decodeFixed (n : Nat) : Decoder (FixedBytes n)
  | .str text => do
    let (marked, digits) := stripMark text.toList
    if digits.length ≠ 2 * n then
      throw (.invalidLength digits.length (wordExpectation (toString n)))
    return FixedBytes.ofBytesPadded n (← liftHex (readWord marked digits))
  | json => .error (.invalidType json (wordExpectation (toString n)))

/-- A word of one to 32 bytes. -/
def decodeU256 : Decoder U256
  | .str text => do
    let (marked, digits) := stripMark text.toList
    if digits.length = 0 ∨ 64 < digits.length then
      throw (.invalidLength digits.length (wordExpectation "between (0; 32]"))
    return BitVec.ofNat 256 (Bytes.toNat (← liftHex (readWord marked digits)))
  | json => .error (.invalidType json (wordExpectation "between (0; 32]"))

def encodeQuantity (n : Nat) : Json := .str (Hex.natText n)

def encodeUInt64 (n : UInt64) : Json := encodeQuantity n.toNat

def encodeByteString (bytes : Bytes) : Json := .str (Hex.text bytes)

def encodeFixed {n : Nat} (bytes : FixedBytes n) : Json := .str (Hex.text bytes.toList)

def encodeU256 (n : U256) : Json := encodeQuantity n.toNat

end EngineNode.Wire
