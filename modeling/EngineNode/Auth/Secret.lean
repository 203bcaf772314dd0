import EngineNode.Bytes
import EngineNode.Hex
import EngineNode.Text.Quoted

/-!
# The shared secret

The node and the consensus layer share 32 bytes, which lie in a file as hexadecimal digits. The
file is made when there is none.
-/

namespace EngineNode

/-- The bytes that node and consensus layer share. -/
abbrev Secret := FixedBytes 32

/-- Why a file holds no secret. -/
inductive SecretError where
  | oddLength
  | invalidCharacter (byte : UInt8) (index : Nat)
  | incorrectSize (size : Nat)
deriving DecidableEq, Repr

def SecretError.message : SecretError → String
  | .oddLength => "failed to parse JWT secret: Odd number of digits"
  | .invalidCharacter byte index =>
    "failed to parse JWT secret: Invalid character " ++
      Text.quotedChar (Char.ofNat byte.toNat) ++ " at position " ++ toString index
  | .incorrectSize size => "JWT secret must be 32 bytes, got " ++ toString size

namespace Secret

/-- Blanks that may stand around the digits. -/
def isBlank (b : UInt8) : Bool := b = 32 || b = 9 || b = 10 || b = 12 || b = 13

/-- Takes blanks off both ends. -/
def trim (bytes : Bytes) : Bytes :=
  ((bytes.dropWhile isBlank).reverse.dropWhile isBlank).reverse

/-- Takes the mark off, if there is one. -/
def stripMark : Bytes → Bytes
  | 48 :: 120 :: rest => rest
  | bytes => bytes

/-- The value of a digit. -/
def digitValue? (b : UInt8) : Option Nat := Hex.digitValue? (Char.ofNat b.toNat)

/-- Reads pairs of digits; `index` counts the digits before these. -/
def readPairs (index : Nat) : Bytes → Except SecretError Bytes
  | hi :: lo :: rest =>
    match digitValue? hi, digitValue? lo with
    | some h, some l => (UInt8.ofNat (16 * h + l) :: ·) <$> readPairs (index + 2) rest
    | none, _ => .error (.invalidCharacter hi index)
    | _, none => .error (.invalidCharacter lo (index + 1))
  | _ => .ok []

/-- The secret that a file holds. -/
def ofFile (contents : Bytes) : Except SecretError Secret := do
  let digits := stripMark (trim contents)
  if digits.length % 2 = 1 then throw .oddLength
  let bytes ← readPairs 0 digits
  match FixedBytes.ofBytes? 32 bytes with
  | some secret => return secret
  | none => throw (.incorrectSize bytes.length)

/-- What a file that holds a secret looks like. -/
def toFile (secret : Secret) : Bytes := (String.ofList (Hex.encode secret.toList)).toUTF8.toList

/-- The secret of a file and what the file holds afterwards. A file that is missing is made from
a new secret. -/
def loadOrCreate (file : Option Bytes) (new : Secret) : Except SecretError Secret × Bytes :=
  match file with
  | some contents => (ofFile contents, contents)
  | none => (.ok new, toFile new)

end Secret

end EngineNode
