import EngineNode.Json.Float
import EngineNode.Json.Raw

/-!
# Reading the values of a document

`Raw.toJson` turns the tree of a text into a value. It refuses numbers that are too large,
halves of surrogate pairs, and nesting of 128 levels and more, and says where they stand.
-/

namespace EngineNode.Json

/-- Why a document of the grammar has no value. -/
inductive ValueError where
  | numberOutOfRange
  | loneSurrogate
  | unfinishedSurrogate
  | tooDeep
deriving DecidableEq, Repr

def ValueError.message : ValueError → String
  | .numberOutOfRange => "number out of range"
  | .loneSurrogate => "lone leading surrogate in hex escape"
  | .unfinishedSurrogate => "unexpected end of hex escape"
  | .tooDeep => "recursion limit exceeded"

/-! ### Numbers -/

/-- The parts of a number literal. -/
structure Literal where
  negative : Bool
  whole : List Char
  fraction : List Char
  exponentMark : List Char
  exponentNegative : Bool
  exponent : List Char

def Literal.ofChars (literal : List Char) : Literal :=
  let negative := literal.head? = some '-'
  let chars := if negative then literal.drop 1 else literal
  let whole := chars.takeWhile Char.isDigit
  let chars := chars.dropWhile Char.isDigit
  let (fraction, chars) :=
    match chars with
    | '.' :: rest => (rest.takeWhile Char.isDigit, rest.dropWhile Char.isDigit)
    | _ => ([], chars)
  match chars with
  | [] => ⟨negative, whole, fraction, [], false, []⟩
  | mark :: '-' :: digits => ⟨negative, whole, fraction, [mark, '-'], true, digits⟩
  | mark :: '+' :: digits => ⟨negative, whole, fraction, [mark, '+'], false, digits⟩
  | mark :: digits => ⟨negative, whole, fraction, [mark], false, digits⟩

/-- Reads digits while the number stays within the limit; says how many were left. -/
def accumulate (limit : Nat) : (n : Nat) → List Char → Nat × Nat
  | n, [] => (n, 0)
  | n, c :: rest =>
    let next := 10 * n + (c.toNat - 48)
    if next > limit then (n, rest.length + 1) else accumulate limit next rest

def maxUInt64 : Nat := UInt64.size - 1

/-- A power of ten that a floating point number can hold. -/
def floatPowerOfTen (n : Nat) : Float := Float.ofScientific 1 false n

/-- Scales a significand by a power of ten, in steps that a power of ten can take. The fuel
covers every exponent that does not end at zero before. -/
def scaleFloat : (fuel : Nat) → Float → Int → Option Float
  | 0, f, _ => some f
  | fuel + 1, f, exponent =>
    if exponent.natAbs ≤ 308 then
      if exponent ≥ 0 then
        let f := f * floatPowerOfTen exponent.natAbs
        if f.isInf then none else some f
      else some (f / floatPowerOfTen exponent.natAbs)
    else if f == 0.0 then some f
    else if exponent ≥ 0 then none
    else scaleFloat fuel (f / floatPowerOfTen 308) (exponent + 308)

/-- The floating point number of a literal. Digits of the significand that do not fit in 64 bits
only count as powers of ten before the point, and not at all behind it. The place of an error
counts from the start of the literal. -/
def Literal.toFloat (l : Literal) : Except (ValueError × Nat) UInt64 :=
  let signLength := if l.negative then 1 else 0
  let (significand, skipped) := accumulate maxUInt64 0 l.whole
  let (significand, left) := accumulate maxUInt64 significand l.fraction
  let exponent : Int := (skipped : Int) - (l.fraction.length - left : Nat)
  let fractionLength := if l.fraction.isEmpty then 0 else l.fraction.length + 1
  let mantissaLength := signLength + l.whole.length + fractionLength
  let limit := 2147483647
  let (power, left) := accumulate limit 0 l.exponent
  let finish (f : Float) : UInt64 := (if l.negative then -f else f).toBits
  if left > 0 then
    if significand ≠ 0 ∧ ¬ l.exponentNegative then
      .error (.numberOutOfRange,
        mantissaLength + l.exponentMark.length + (l.exponent.length - left + 1))
    else .ok (finish 0.0)
  else
    let exponent := if l.exponentNegative then exponent - power else exponent + power
    match scaleFloat 8 (Float.ofNat significand) (max (-2147483648) (min 2147483647 exponent)) with
    | some f => .ok (finish f)
    | none => .error (.numberOutOfRange,
        mantissaLength + l.exponentMark.length + l.exponent.length)

/-- The number of a literal: an integer where it is written as one and fits. -/
def numberOfLiteral (literal : List Char) : Except (ValueError × Nat) JsonNumber :=
  let l := Literal.ofChars literal
  let (value, left) := accumulate maxUInt64 0 l.whole
  if left = 0 ∧ l.fraction.isEmpty ∧ l.exponentMark.isEmpty then
    if ¬ l.negative then .ok (.nat (UInt64.ofNat value))
    else if 0 < value ∧ value ≤ Nat.pow 2 63 then .ok (.negative (UInt64.ofNat value))
    else .ok (.float (-(Float.ofNat value)).toBits)
  else .float <$> l.toFloat

/-! ### Strings -/

def hexValue (digits : List Char) : Nat :=
  digits.foldl (fun n c =>
    16 * n + (if c.isDigit then c.toNat - 48 else if c.toNat ≥ 97 then c.toNat - 87
      else c.toNat - 55)) 0

def escapedChar : Char → Char
  | 'b' => '\x08'
  | 'f' => '\x0c'
  | 'n' => '\n'
  | 'r' => '\r'
  | 't' => '\t'
  | c => c

/-- The text that a content with escapes stands for. The place of an error counts in bytes from
the start of the content; `offset` is the place of the characters that are left. -/
def unescape : (offset : Nat) → List Char → Except (ValueError × Nat) (List Char)
  | _, [] => .ok []
  | offset, '\\' :: 'u' :: a :: b :: c :: d :: rest =>
    let n := hexValue [a, b, c, d]
    if 0xDC00 ≤ n ∧ n ≤ 0xDFFF then .error (.loneSurrogate, offset + 6)
    else if n < 0xD800 ∨ 0xDBFF < n then (Char.ofNat n :: ·) <$> unescape (offset + 6) rest
    else
      match rest with
      | '\\' :: 'u' :: e :: f :: g :: h :: rest =>
        let m := hexValue [e, f, g, h]
        if m < 0xDC00 ∨ 0xDFFF < m then .error (.loneSurrogate, offset + 12)
        else
          (Char.ofNat ((n - 0xD800) * 1024 + (m - 0xDC00) + 0x10000) :: ·) <$>
            unescape (offset + 12) rest
      | '\\' :: _ => .error (.unfinishedSurrogate, offset + 8)
      | _ => .error (.unfinishedSurrogate, offset + 7)
  | offset, '\\' :: c :: rest => (escapedChar c :: ·) <$> unescape (offset + 2) rest
  | offset, c :: rest => (c :: ·) <$> unescape (offset + c.utf8Size) rest

/-! ### Documents -/

/-- The number of nested arrays and objects that are too many. -/
def maxDepth : Nat := 128

/-- An error and its place in the text. -/
abbrev ReadError := ValueError × Position

/-- Reads the number of a literal. -/
def readNumber (start : Position) (literal : List Char) : Except ReadError JsonNumber :=
  match numberOfLiteral literal with
  | .ok n => .ok n
  | .error (error, offset) => .error (error, start.shift offset)

/-- Reads the text of a string that starts with a quote at `start`. -/
def readString (start : Position) (content : List Char) : Except ReadError String :=
  match unescape 1 content with
  | .ok text => .ok (String.ofList text)
  | .error (error, offset) => .error (error, start.shift offset)

mutual

/-- The value of a tree, `depth` levels below the limit. Of fields with one name the last one
counts, in the place of the first. -/
def Raw.toJson (depth : Nat) : Raw → Except ReadError Json
  | .null _ => .ok .null
  | .bool _ value => .ok (.bool value)
  | .number start literal => .number <$> readNumber start literal
  | .string start content => .str <$> readString start content
  | .array start items =>
    if depth ≤ 1 then .error (.tooDeep, start.shift 1)
    else .arr <$> itemsToJson (depth - 1) items
  | .object start fields =>
    if depth ≤ 1 then .error (.tooDeep, start.shift 1)
    else .obj <$> fieldsToJson (depth - 1) [] fields

def itemsToJson (depth : Nat) : List Raw → Except ReadError (List Json)
  | [] => .ok []
  | item :: rest => do
    let value ← Raw.toJson depth item
    return value :: (← itemsToJson depth rest)

def fieldsToJson (depth : Nat) (before : List (String × Json)) :
    List ((Position × List Char) × Raw) → Except ReadError (List (String × Json))
  | [] => .ok before
  | ((start, name), item) :: rest => do
    let name ← readString start name
    let value ← Raw.toJson depth item
    fieldsToJson depth (setField name value before) rest

end

/-- The value of a text, where it has one. -/
def parse? (text : String) : Option Json := do
  let raw ← Raw.parse? text.toList
  (raw.toJson maxDepth).toOption

end EngineNode.Json
