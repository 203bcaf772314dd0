import EngineNode.Bytes

/-!
# Base64 for addresses

Six bits a character, in the alphabet that is safe in addresses, without padding at the end.
-/

namespace EngineNode.Base64

def digits : List Char :=
  "ABCDEFGHIJKLMNOPQRSTUVWXYZabcdefghijklmnopqrstuvwxyz0123456789-_".toList

/-- The character of six bits. -/
def digit (n : Nat) : Char := digits.getD n 'A'

/-- Four characters for three bytes; fewer for those that are left over. -/
def encode : Bytes → List Char
  | a :: b :: c :: rest =>
    let n := Bytes.toNat [a, b, c]
    digit (n / 262144) :: digit (n / 4096 % 64) :: digit (n / 64 % 64) :: digit (n % 64) ::
      encode rest
  | [a, b] =>
    let n := 4 * Bytes.toNat [a, b]
    [digit (n / 4096), digit (n / 64 % 64), digit (n % 64)]
  | [a] =>
    let n := 16 * a.toNat
    [digit (n / 64), digit (n % 64)]
  | [] => []

/-- The six bits of a character. -/
def digitValue? (c : Char) : Option Nat := digits.idxOf? c

/-- The bytes of six-bit values. Bits that are left over must be zero. -/
def bytesOfValues? : List Nat → Option Bytes
  | a :: b :: c :: d :: rest =>
    (Bytes.ofNatPadded 3 (((64 * a + b) * 64 + c) * 64 + d) ++ ·) <$> bytesOfValues? rest
  | [a, b, c] =>
    let n := (64 * a + b) * 64 + c
    if n % 4 = 0 then some (Bytes.ofNatPadded 2 (n / 4)) else none
  | [a, b] =>
    let n := 64 * a + b
    if n % 16 = 0 then some (Bytes.ofNatPadded 1 (n / 16)) else none
  | [_] => none
  | [] => some []

/-- The bytes that a text spells, if it spells any. -/
def decode? (chars : List Char) : Option Bytes := chars.mapM digitValue? >>= bytesOfValues?

end EngineNode.Base64
