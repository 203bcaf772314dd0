/-!
# Places in a YAML text

Columns decide how the parts of a YAML text nest, so reading keeps track of them. Five characters
break lines; a carriage return and the line feed behind it count as one break.
-/

namespace EngineNode.Yaml

/-! ### Classes of characters -/

/-- Characters that end a line. -/
def isBreak (c : Char) : Bool :=
  c = '\n' || c = '\r' || c = '\u0085' || c = '\u2028' || c = '\u2029'

/-- Characters between the words of a line. -/
def isBlank (c : Char) : Bool := c = ' ' || c = '\t'

/-- Blanks and the ends of lines. -/
def isSpace (c : Char) : Bool := isBlank c || isBreak c

/-- The letters of the names of anchors, tags and directives. -/
def isNameLetter (c : Char) : Bool := c.isAlphanum || c = '_' || c = '-'

/-- The mark that may stand at the start of a text or a line. -/
def byteOrderMark : Char := '\uFEFF'

/-- Characters that a text may hold. -/
def isAllowed (c : Char) : Bool :=
  let n := c.toNat
  n = 9 || n = 10 || n = 13 || (32 ≤ n && n ≤ 126) || n = 0x85 || (0xA0 ≤ n && n ≤ 0xD7FF) ||
    (0xE000 ≤ n && n ≤ 0xFFFD) || 0x10000 ≤ n

/-- Whether the text ends, or a blank or a break follows. -/
def atWordEnd : List Char → Bool
  | [] => true
  | c :: _ => isSpace c

/-- Whether the text ends or a break follows. -/
def atLineEnd : List Char → Bool
  | [] => true
  | c :: _ => isBreak c

/-- Whether a mark that starts or ends a document follows. -/
def startsWithMark (mark : Char) : List Char → Bool
  | a :: b :: c :: rest => a = mark && b = mark && c = mark && atWordEnd rest
  | _ => false

/-! ### Places -/

/-- What is left of a text, and the place where it stands. -/
structure Cursor where
  rest : List Char
  /-- How many characters come before. -/
  index : Nat := 0
  line : Nat := 0
  column : Nat := 0

namespace Cursor

/-- Moves over as many characters, none of which is a break. -/
def skip (cursor : Cursor) (count : Nat) : Cursor :=
  { cursor with
    rest := cursor.rest.drop count
    index := cursor.index + count
    column := cursor.column + count }

/-- The place behind the characters that come next. -/
def advance (cursor : Cursor) : List Char → Cursor
  | [] => cursor
  | '\r' :: '\n' :: more =>
    advance { rest := cursor.rest.drop 2, index := cursor.index + 2, line := cursor.line + 1 } more
  | c :: more =>
    if isBreak c then
      advance { rest := cursor.rest.drop 1, index := cursor.index + 1, line := cursor.line + 1 }
        more
    else advance (cursor.skip 1) more

/-- The characters of a class that come next, and what follows them. -/
def takeWhile (p : Char → Bool) (cursor : Cursor) : List Char × Cursor :=
  let taken := cursor.rest.takeWhile p
  (taken, cursor.advance taken)

def skipWhile (p : Char → Bool) (cursor : Cursor) : Cursor := (cursor.takeWhile p).2

/-- Moves over one break, if one comes next. -/
def skipBreak (cursor : Cursor) : Cursor :=
  match cursor.rest with
  | '\r' :: '\n' :: _ => cursor.advance ['\r', '\n']
  | c :: _ => if isBreak c then cursor.advance [c] else cursor
  | [] => cursor

/-- Whether a document starts or ends here. -/
def atMark (cursor : Cursor) : Bool :=
  cursor.column = 0 && (startsWithMark '-' cursor.rest || startsWithMark '.' cursor.rest)

/-- Moves over blanks and a comment to the end of the line; `none` when something else follows. -/
def finishLine? (cursor : Cursor) : Option Cursor :=
  let cursor := cursor.skipWhile isBlank
  let cursor :=
    if cursor.rest.head? = some '#' then cursor.skipWhile fun c => !isBreak c else cursor
  if atLineEnd cursor.rest then some cursor.skipBreak else none

end Cursor

/-- The breaks among some characters, one character each. The usual ones count as line feeds. -/
def lineBreaks : List Char → List Char
  | [] => []
  | '\r' :: '\n' :: rest => '\n' :: lineBreaks rest
  | c :: rest =>
    if c = '\r' || c = '\u0085' then '\n' :: lineBreaks rest
    else if isBreak c then c :: lineBreaks rest
    else lineBreaks rest

/-- What breaks between two words stand for: a single line feed for a blank, and the first of
several for nothing. -/
def foldBreaks : List Char → List Char
  | ['\n'] => [' ']
  | '\n' :: more => more
  | breaks => breaks

/-- What stands for the blanks and breaks between two words. -/
def foldSpace (space : List Char) : List Char :=
  match lineBreaks space with
  | [] => space
  | breaks => foldBreaks breaks

end EngineNode.Yaml
