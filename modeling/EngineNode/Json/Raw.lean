import EngineNode.Json.Basic

/-!
# Parsed text before its values are read

A document that follows the grammar of JSON may still hold a number out of range, half a surrogate
pair or too deep a nesting. `Raw` is the tree of such a document: literals are kept as they are
written, with the place where they start. `Raw.parse` accepts the documents of the grammar;
`Raw.toJson` reads the values and says where the first one is that cannot be read.
-/

namespace EngineNode.Json

/-- A place in a text: lines count from one, columns are the bytes of the line before the place. -/
structure Position where
  line : Nat
  column : Nat
deriving DecidableEq, Repr

namespace Position

/-- The start of a text. -/
def zero : Position := ⟨1, 0⟩

/-- The place behind a character. -/
def advance (p : Position) (c : Char) : Position :=
  if c = '\n' then ⟨p.line + 1, 0⟩ else ⟨p.line, p.column + c.utf8Size⟩

/-- The place behind some bytes of the same line. -/
def shift (p : Position) (bytes : Nat) : Position := ⟨p.line, p.column + bytes⟩

/-- The same place, counted from an earlier one. -/
def relativeTo (p start : Position) : Position :=
  ⟨p.line - start.line + 1, if p.line = start.line then p.column - start.column else p.column⟩

end Position

/-- The tree of a document whose literals are not read yet. Strings are kept without their quotes
but with their escapes. -/
inductive Raw where
  | null (start : Position)
  | bool (start : Position) (value : Bool)
  | number (start : Position) (literal : List Char)
  | string (start : Position) (content : List Char)
  | array (start : Position) (items : List Raw)
  | object (start : Position) (fields : List ((Position × List Char) × Raw))

namespace Raw

instance : Inhabited Raw := ⟨.null .zero⟩

/-- Where the value starts. -/
def start : Raw → Position
  | .null start | .bool start _ | .number start _ | .string start _ | .array start _
  | .object start _ => start

/-! ### The grammar -/

/-- What is left of a text, and the place where it stands. -/
structure Cursor where
  rest : List Char
  position : Position

namespace Cursor

/-- Moves over one character. -/
def skip (cursor : Cursor) : Cursor :=
  match cursor.rest with
  | [] => cursor
  | c :: rest => ⟨rest, cursor.position.advance c⟩

/-- Moves over the characters of a class. -/
def skipWhile (p : Char → Bool) (cursor : Cursor) : Cursor :=
  ⟨cursor.rest.dropWhile p, (cursor.rest.takeWhile p).foldl Position.advance cursor.position⟩

/-- Blanks between the parts of a document. -/
def isBlank (c : Char) : Bool := c = ' ' || c = '\n' || c = '\t' || c = '\r'

def skipBlanks (cursor : Cursor) : Cursor := cursor.skipWhile isBlank

/-- Moves over a word that must stand here. -/
def word? (word : List Char) (cursor : Cursor) : Option Cursor :=
  match word with
  | [] => some cursor
  | c :: word => if cursor.rest.head? = some c then word? word cursor.skip else none

end Cursor

/-- One or more digits. -/
def digits? (chars : List Char) : Option (List Char × List Char) :=
  let digits := chars.takeWhile Char.isDigit
  if digits.isEmpty then none else some (digits, chars.dropWhile Char.isDigit)

/-- The digits before the point: a single zero, or digits that do not start with one. -/
def integerPart? (chars : List Char) : Option (List Char × List Char) :=
  match chars with
  | '0' :: rest => if rest.head?.any Char.isDigit then none else some (['0'], rest)
  | _ => digits? chars

/-- The point and the digits behind it, when there is a point. -/
def fractionPart? (chars : List Char) : Option (List Char × List Char) :=
  match chars with
  | '.' :: rest => (digits? rest).map fun (digits, rest) => ('.' :: digits, rest)
  | _ => some ([], chars)

/-- The mark, sign and digits of the exponent, when there is a mark. -/
def exponentPart? (chars : List Char) : Option (List Char × List Char) :=
  match chars with
  | c :: rest =>
    if c = 'e' || c = 'E' then
      match rest with
      | sign :: rest' =>
        if sign = '+' || sign = '-' then
          (digits? rest').map fun (digits, rest) => (c :: sign :: digits, rest)
        else (digits? rest).map fun (digits, rest) => (c :: digits, rest)
      | [] => none
    else some ([], chars)
  | [] => some ([], [])

/-- The literal of a number, and what follows it. -/
def numberLiteral? (chars : List Char) : Option (List Char × List Char) := do
  let (sign, chars) :=
    match chars with
    | '-' :: rest => (['-'], rest)
    | _ => ([], chars)
  let (whole, chars) ← integerPart? chars
  let (fraction, chars) ← fractionPart? chars
  let (exponent, chars) ← exponentPart? chars
  return (sign ++ whole ++ fraction ++ exponent, chars)

def isHexDigit (c : Char) : Bool :=
  c.isDigit || ('a' ≤ c && c ≤ 'f') || ('A' ≤ c && c ≤ 'F')

/-- The content of a string up to its closing quote, and what follows the quote. -/
def stringContent? : List Char → Option (List Char × List Char)
  | [] => none
  | '"' :: rest => some ([], rest)
  | '\\' :: 'u' :: a :: b :: c :: d :: rest =>
    if isHexDigit a && isHexDigit b && isHexDigit c && isHexDigit d then
      (stringContent? rest).map fun (content, rest) =>
        ('\\' :: 'u' :: a :: b :: c :: d :: content, rest)
    else none
  | '\\' :: c :: rest =>
    if c ∈ ['"', '\\', '/', 'b', 'f', 'n', 'r', 't'] then
      (stringContent? rest).map fun (content, rest) => ('\\' :: c :: content, rest)
    else none
  | c :: rest =>
    if c = '\\' || c.toNat < 32 then none
    else (stringContent? rest).map fun (content, rest) => (c :: content, rest)

/-- A string whose opening quote has been read. -/
def string? (cursor : Cursor) : Option (List Char × Cursor) := do
  let (content, rest) ← stringContent? cursor.rest
  return (content, ⟨rest, (content.foldl Position.advance cursor.position).shift 1⟩)

mutual

/-- One value. The fuel bounds the number of steps; the length of the text is enough. -/
def value? : (fuel : Nat) → Cursor → Option (Raw × Cursor)
  | 0, _ => none
  | fuel + 1, cursor =>
    let start := cursor.position
    match cursor.rest with
    | [] => none
    | '"' :: _ => (string? cursor.skip).map fun (content, next) => (.string start content, next)
    | '[' :: _ =>
      let inner := cursor.skip.skipBlanks
      if inner.rest.head? = some ']' then some (.array start [], inner.skip)
      else (items? fuel inner).map fun (items, next) => (.array start items, next)
    | '\x7b' :: _ =>
      let inner := cursor.skip.skipBlanks
      if inner.rest.head? = some '\x7d' then some (.object start [], inner.skip)
      else (fields? fuel inner).map fun (fields, next) => (.object start fields, next)
    | 'n' :: _ => (cursor.word? "null".toList).map fun next => (.null start, next)
    | 't' :: _ => (cursor.word? "true".toList).map fun next => (.bool start true, next)
    | 'f' :: _ => (cursor.word? "false".toList).map fun next => (.bool start false, next)
    | _ =>
      (numberLiteral? cursor.rest).map fun (literal, rest) =>
        (.number start literal, ⟨rest, start.shift literal.length⟩)

/-- The items of an array up to its closing bracket. -/
def items? : (fuel : Nat) → Cursor → Option (List Raw × Cursor)
  | 0, _ => none
  | fuel + 1, cursor => do
    let (item, next) ← value? fuel cursor
    let next := next.skipBlanks
    match next.rest with
    | ',' :: _ =>
      let (items, last) ← items? fuel next.skip.skipBlanks
      return (item :: items, last)
    | ']' :: _ => return ([item], next.skip)
    | _ => none

/-- The fields of an object up to its closing brace. -/
def fields? : (fuel : Nat) → Cursor → Option (List ((Position × List Char) × Raw) × Cursor)
  | 0, _ => none
  | fuel + 1, cursor => do
    let '"' :: _ := cursor.rest | none
    let (name, next) ← string? cursor.skip
    let next := next.skipBlanks
    let ':' :: _ := next.rest | none
    let (value, next) ← value? fuel next.skip.skipBlanks
    let next := next.skipBlanks
    match next.rest with
    | ',' :: _ =>
      let (fields, last) ← fields? fuel next.skip.skipBlanks
      return (((cursor.position, name), value) :: fields, last)
    | '\x7d' :: _ => return ([((cursor.position, name), value)], next.skip)
    | _ => none

end

/-- The tree of a text that is one document with blanks around it. -/
def parse? (text : List Char) : Option Raw := do
  let (raw, next) ← value? (text.length + 1) (Cursor.skipBlanks ⟨text, .zero⟩)
  if next.skipBlanks.rest.isEmpty then some raw else none

end Raw

end EngineNode.Json
