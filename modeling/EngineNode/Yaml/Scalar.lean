import EngineNode.Hex
import EngineNode.Yaml.Cursor

/-!
# Scalars in YAML

A scalar is written plainly, between quotes, or as a block of lines that are indented more than
what surrounds them. Line breaks inside plain and quoted scalars are folded; blocks keep theirs or
fold them, as their first mark says.
-/

namespace EngineNode.Yaml

/-- How a scalar is written. -/
inductive ScalarStyle where
  | plain
  | quoted
  | literalBlock
  | foldedBlock
deriving DecidableEq, Repr

/-- The characters of a scalar, and what follows it. -/
abbrev ScalarText := List Char × Cursor

/-- Puts characters in front of a scalar that is read further. -/
def prepend (front : List Char) : Option ScalarText → Option ScalarText :=
  Option.map fun (text, next) => (front ++ text, next)

/-! ### Plain scalars -/

/-- Characters that end words inside brackets. -/
def isFlowMark (c : Char) : Bool := c ∈ [',', '[', ']', '\x7b', '\x7d']

/-- The word that comes next; `none` when it holds a colon that cannot be told from a mark. -/
def plainWord? (inFlow : Bool) : List Char → Option (List Char)
  | [] => some []
  | c :: rest =>
    if isSpace c then some []
    else if inFlow && c = ':' && rest.head?.any (fun d => isFlowMark d || d = '?') then none
    else if (c = ':' && atWordEnd rest) || (inFlow && isFlowMark c) then some []
    else (c :: ·) <$> plainWord? inFlow rest

/-- Whether a tab stands before a column in a line behind the first break. `column` is the place
of the next character when it is in such a line. -/
def misplacedTab (indent : Nat) : (column : Option Nat) → List Char → Bool
  | _, [] => false
  | column, c :: rest =>
    if isBreak c then misplacedTab indent (some 0) rest
    else
      match column with
      | none => misplacedTab indent none rest
      | some n => (c = '\t' && n < indent) || misplacedTab indent (some (n + 1)) rest

/-- A plain scalar: words up to a mark, a comment, or a line that is indented too little. Besides
what follows, it says whether a line ends between the last word and that. The fuel bounds the
number of words. -/
def plainWords? (inFlow : Bool) (indent : Nat) : (fuel : Nat) → Cursor →
    Option (List Char × Bool × Cursor)
  | 0, _ => none
  | fuel + 1, cursor => do
    let word ← plainWord? inFlow cursor.rest
    let (space, next) := (cursor.skip word.length).takeWhile isSpace
    if misplacedTab indent none space then none
    else if space.isEmpty || (!inFlow && next.column < indent) || next.atMark ||
        next.rest.head? = some '#' then
      return (word, space.any isBreak, next)
    else
      let (text, broken, last) ← plainWords? inFlow indent fuel next
      if text.isEmpty then return (word, space.any isBreak, last)
      else return (word ++ foldSpace space ++ text, broken, last)

def plainScalar? (inFlow : Bool) (indent : Nat) (cursor : Cursor) :
    Option (List Char × Bool × Cursor) :=
  plainWords? inFlow indent (cursor.rest.length + 1) cursor

/-! ### Quoted scalars -/

/-- A scalar behind its single opening quote; two quotes stand for one. The fuel bounds the number
of steps. -/
def singleQuoted? : (fuel : Nat) → Cursor → Option ScalarText
  | 0, _ => none
  | fuel + 1, cursor =>
    match cursor.rest with
    | [] => none
    | '\'' :: '\'' :: _ => prepend ['\''] (singleQuoted? fuel (cursor.skip 2))
    | '\'' :: _ => some ([], cursor.skip 1)
    | c :: _ =>
      if isSpace c then
        let (space, next) := cursor.takeWhile isSpace
        if next.atMark then none else prepend (foldSpace space) (singleQuoted? fuel next)
      else prepend [c] (singleQuoted? fuel (cursor.skip 1))

/-- What a character behind a backslash stands for. -/
def escapeValue? : Char → Option Char
  | '0' => some '\x00'
  | 'a' => some '\x07'
  | 'b' => some '\x08'
  | 't' | '\t' => some '\t'
  | 'n' => some '\n'
  | 'v' => some '\x0B'
  | 'f' => some '\x0C'
  | 'r' => some '\r'
  | 'e' => some '\x1B'
  | ' ' => some ' '
  | '"' => some '"'
  | '/' => some '/'
  | '\\' => some '\\'
  | 'N' => some '\u0085'
  | '_' => some '\u00A0'
  | 'L' => some '\u2028'
  | 'P' => some '\u2029'
  | _ => none

/-- How many digits a character behind a backslash asks for. -/
def escapeDigits? : Char → Option Nat
  | 'x' => some 2
  | 'u' => some 4
  | 'U' => some 8
  | _ => none

/-- The character with a code point in so many digits. -/
def codePoint? (count : Nat) (chars : List Char) : Option Char := do
  let digits := chars.take count
  let n ← Hex.natOfDigits? digits
  if digits.length = count ∧ n.isValidChar then some (Char.ofNat n) else none

/-- A scalar behind its double opening quote. A backslash at the end of a line joins the lines. The
fuel bounds the number of steps. -/
def doubleQuoted? : (fuel : Nat) → Cursor → Option ScalarText
  | 0, _ => none
  | fuel + 1, cursor =>
    match cursor.rest with
    | [] => none
    | '"' :: _ => some ([], cursor.skip 1)
    | ['\\'] => none
    | '\\' :: c :: digits =>
      if isBreak c then
        let (space, next) := (cursor.skip 1).skipBreak.takeWhile isSpace
        if next.atMark then none else prepend (lineBreaks space) (doubleQuoted? fuel next)
      else
        match escapeDigits? c with
        | some count =>
          (codePoint? count digits).bind fun value =>
            prepend [value] (doubleQuoted? fuel (cursor.skip (count + 2)))
        | none =>
          (escapeValue? c).bind fun value =>
            prepend [value] (doubleQuoted? fuel (cursor.skip 2))
    | c :: _ =>
      if isSpace c then
        let (space, next) := cursor.takeWhile isSpace
        if next.atMark then none else prepend (foldSpace space) (doubleQuoted? fuel next)
      else prepend [c] (doubleQuoted? fuel (cursor.skip 1))

/-- A scalar that starts with a quote. -/
def quotedScalar? (cursor : Cursor) : Option ScalarText :=
  let inner := cursor.skip 1
  if cursor.rest.head? = some '"' then doubleQuoted? (cursor.rest.length + 1) inner
  else singleQuoted? (cursor.rest.length + 1) inner

/-! ### Blocks -/

/-- What becomes of the breaks at the end of a block. -/
inductive Chomping where
  | strip
  | clip
  | keep
deriving DecidableEq, Repr

def Chomping.ofChar? : Char → Option Chomping
  | '+' => some .keep
  | '-' => some .strip
  | _ => none

/-- The mark for the breaks at the end, if one comes next. -/
def chomping (chars : List Char) : Chomping × List Char :=
  match chars with
  | c :: rest => ((Chomping.ofChar? c).map (·, rest)).getD (.clip, chars)
  | [] => (.clip, [])

/-- The digit for the indentation, if one comes next; it is not zero. -/
def indentation? (chars : List Char) : Option (Option Nat × List Char) :=
  match chars with
  | c :: rest =>
    if c = '0' then none
    else if c.isDigit then some (some (c.toNat - '0'.toNat), rest)
    else some (none, chars)
  | [] => some (none, [])

/-- The marks behind the one that opens a block, in either order. -/
def blockMarks? (chars : List Char) : Option (Chomping × Option Nat × List Char) := do
  let (chomp, rest) := chomping chars
  let (indent, rest) ← indentation? rest
  if chomp = .clip ∧ indent.isSome then
    let (chomp, rest) := chomping rest
    return (chomp, indent, rest)
  else return (chomp, indent, rest)

/-- The indentation of a line: all its blanks, or as many as the block has. -/
def leadingSpaces (indent : Option Nat) (chars : List Char) : Nat :=
  let spaces := (chars.takeWhile (· = ' ')).length
  indent.elim spaces (min spaces)

/-- The empty lines that come next, how far the deepest of them and the line behind them are
indented, and what follows. A tab cannot stand for indentation. The fuel bounds the number of
lines. -/
def emptyLines? (indent : Option Nat) : (fuel deepest : Nat) → Cursor →
    Option (List Char × Nat × Cursor)
  | 0, _, _ => none
  | fuel + 1, deepest, cursor =>
    let next := cursor.skip (leadingSpaces indent cursor.rest)
    let deepest := max deepest next.column
    if indent.all (next.column < ·) && next.rest.head? = some '\t' then none
    else if next.rest.head?.any isBreak then
      let behind := next.skipBreak
      (emptyLines? indent fuel deepest behind).map fun (breaks, deepest, last) =>
        (lineBreaks (next.rest.take (behind.index - next.index)) ++ breaks, deepest, last)
    else some ([], deepest, next)

/-- The lines of a block. `ending` is the break behind the line before and `breaks` are those of
empty lines since then; `blank` says whether that line starts with a blank. The result still has
the breaks at its end apart. The fuel bounds the number of lines. -/
def blockLines? (folded : Bool) (indent : Nat) : (fuel : Nat) → (ending breaks : List Char) →
    (blank : Bool) → Cursor → Option (List Char × List Char × List Char × Cursor)
  | 0, _, _, _, _ => none
  | fuel + 1, ending, breaks, blank, cursor =>
    match cursor.rest with
    | [] => some ([], ending, breaks, cursor)
    | c :: _ =>
      if cursor.column ≠ indent then some ([], ending, breaks, cursor)
      else do
        let front :=
          if folded && ending = ['\n'] && !blank && !isBlank c then
            if breaks.isEmpty then [' '] else breaks
          else ending ++ breaks
        let (line, ended) := cursor.takeWhile fun c => !isBreak c
        let behind := ended.skipBreak
        let ending := lineBreaks (ended.rest.take (behind.index - ended.index))
        let (breaks, _, next) ← emptyLines? (some indent) (behind.rest.length + 1) 0 behind
        let (text, tail) ← blockLines? folded indent fuel ending breaks (isBlank c) next
        return (front ++ line ++ text, tail)

/-- A block that its first mark opens, inside what is indented to a column, if anything is. -/
def blockScalar? (outer : Option Nat) (cursor : Cursor) : Option ScalarText := do
  let folded := cursor.rest.head? = some '>'
  let (chomp, given, rest) ← blockMarks? (cursor.rest.drop 1)
  let start ← (cursor.skip (cursor.rest.length - rest.length)).finishLine?
  let given := given.map (outer.getD 0 + ·)
  let (breaks, deepest, first) ← emptyLines? given (start.rest.length + 1) 0 start
  let indent := given.getD (max deepest (max (outer.elim 0 (· + 1)) 1))
  let (text, ending, breaks, last) ←
    blockLines? folded indent (first.rest.length + 1) [] breaks false first
  match chomp with
  | .strip => return (text, last)
  | .clip => return (text ++ ending, last)
  | .keep => return (text ++ ending ++ breaks, last)

end EngineNode.Yaml
