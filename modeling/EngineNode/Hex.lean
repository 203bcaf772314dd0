import EngineNode.Bytes

/-!
# Hexadecimal text

Digits are written in lower case and read in either case. `decodePairs_encode` says that
reading undoes writing.
-/

namespace EngineNode.Hex

/-- The digit of a value below sixteen. -/
def digitChar (n : Nat) : Char :=
  if n < 10 then Char.ofNat (48 + n) else Char.ofNat (87 + n)

/-- The value of a digit, in either case. -/
def digitValue? (c : Char) : Option Nat :=
  let n := c.toNat
  if 48 ≤ n ∧ n ≤ 57 then some (n - 48)
  else if 97 ≤ n ∧ n ≤ 102 then some (n - 87)
  else if 65 ≤ n ∧ n ≤ 70 then some (n - 55)
  else none

/-- Two digits a byte. -/
def encode : Bytes → List Char
  | [] => []
  | b :: rest => digitChar (b.toNat / 16) :: digitChar (b.toNat % 16) :: encode rest

/-- Reads pairs of digits; `none` at the first character that is no digit, or when one digit
is left over. -/
def decodePairs? : List Char → Option Bytes
  | [] => some []
  | [_] => none
  | hi :: lo :: rest => do
    let h ← digitValue? hi
    let l ← digitValue? lo
    return UInt8.ofNat (16 * h + l) :: (← decodePairs? rest)

/-- The digits of `n` in front of `tail`. -/
def natDigitsAux (n : Nat) (tail : List Char) : List Char :=
  if n < 16 then digitChar n :: tail else natDigitsAux (n / 16) (digitChar (n % 16) :: tail)
termination_by n

/-- The digits of a number without leading zeros, a single zero for zero. -/
def natDigits (n : Nat) : List Char := natDigitsAux n []

/-- The number that hexadecimal digits spell. -/
def natOfDigits? (digits : List Char) : Option Nat :=
  digits.foldlM (fun n c => (16 * n + ·) <$> digitValue? c) 0

theorem digitValue?_digitChar : ∀ n < 16, digitValue? (digitChar n) = some n := by decide

theorem decodePairs_encode (bytes : Bytes) : decodePairs? (encode bytes) = some bytes := by
  induction bytes with
  | nil => rfl
  | cons b rest ih =>
    have hb : b.toNat < 256 := b.toNat_lt
    simp only [encode, decodePairs?, digitValue?_digitChar _ (show b.toNat / 16 < 16 by omega),
      digitValue?_digitChar _ (show b.toNat % 16 < 16 by omega), ih, Option.bind_eq_bind,
      Option.bind_some, Option.pure_def]
    have : 16 * (b.toNat / 16) + b.toNat % 16 = b.toNat := by omega
    simp [this]

/-- Bytes as text with the mark `0x` in front. -/
def text (bytes : Bytes) : String := String.ofList ('0' :: 'x' :: encode bytes)

/-- A number as text with the mark `0x` in front and without leading zeros. -/
def natText (n : Nat) : String := String.ofList ('0' :: 'x' :: natDigits n)

end EngineNode.Hex
