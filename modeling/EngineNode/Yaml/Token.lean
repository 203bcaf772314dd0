import EngineNode.Yaml.Scalar

/-!
# Tokens of YAML

A text is read as a list of tokens in which the nesting that indentation shows is explicit: block
collections start and end with tokens of their own. A key may be known as one only when the colon
behind it is found; its token is then put in front of what has been read since.

`Token.ofText?` gives the tokens of a text.
-/

namespace EngineNode.Yaml

/-- Several tokens name a collection by how it is written: by indentation or by brackets. -/
inductive Token where
  | version (major minor : Nat)
  | tagHandle (handle replacement : List Char)
  | documentStart
  | documentEnd
  | blockSequence
  | blockMapping
  | blockEnd
  | flowSequence
  | flowSequenceEnd
  | flowMapping
  | flowMappingEnd
  | blockEntry
  | flowEntry
  | key
  | value
  | alias (name : List Char)
  | anchor (name : List Char)
  | tag (handle suffix : List Char)
  | scalar (style : ScalarStyle) (text : List Char)
deriving DecidableEq, Repr

/-! ### Names, tags and directives -/

/-- The name of an anchor behind its mark. -/
def anchorName? (cursor : Cursor) : Option (List Char × Cursor) :=
  let (name, next) := cursor.takeWhile isNameLetter
  let ended :=
    atWordEnd next.rest || next.rest.head?.any (· ∈ ['?', ':', ',', ']', '\x7d', '%', '@', '\x60'])
  if name.isEmpty || !ended then none else some (name, next)

/-- Characters of tags besides letters. Inside angle brackets there are three more. -/
def isTagMark (bracketed : Bool) (c : Char) : Bool :=
  c ∈ [';', '/', '?', ':', '@', '&', '=', '+', '$', '.', '!', '~', '*', '\'', '(', ')'] ||
    (bracketed && c ∈ [',', '[', ']'])

/-- The characters of a tag, in which a percent sign and two digits stand for one. -/
def tagText (bracketed : Bool) : List Char → Option (List Char × List Char)
  | '%' :: hi :: lo :: rest => do
    let n ← Hex.natOfDigits? [hi, lo]
    let (text, rest) ← tagText bracketed rest
    return (Char.ofNat n :: text, rest)
  | c :: rest =>
    if c = '%' then none
    else if isNameLetter c || isTagMark bracketed c then
      (tagText bracketed rest).map fun (text, rest) => (c :: text, rest)
    else some ([], c :: rest)
  | [] => some ([], [])

/-- A handle: an exclamation mark, letters, and mostly a second mark. -/
def tagHandle? : List Char → Option (List Char × List Char)
  | '!' :: rest =>
    let name := rest.takeWhile isNameLetter
    match rest.dropWhile isNameLetter with
    | '!' :: rest => some ('!' :: name ++ ['!'], rest)
    | rest => some ('!' :: name, rest)
  | _ => none

/-- A tag: in angle brackets, behind a handle with two marks, or behind one mark. -/
def tag? (chars : List Char) : Option (Token × List Char) :=
  match chars with
  | '!' :: '<' :: rest => do
    let (text, rest) ← tagText true rest
    match text, rest with
    | _ :: _, '>' :: rest => return (.tag [] text, rest)
    | _, _ => none
  | _ => do
    let (handle, rest) ← tagHandle? chars
    let (text, rest) ← tagText false rest
    if 1 < handle.length ∧ handle.getLast? = some '!' then
      if text.isEmpty then none else return (.tag handle text, rest)
    else
      match handle.drop 1 ++ text with
      | [] => return (.tag [] ['!'], rest)
      | suffix => return (.tag ['!'] suffix, rest)

/-- A number of at most nine digits. -/
def versionNumber? (chars : List Char) : Option (Nat × List Char) :=
  let digits := chars.takeWhile Char.isDigit
  if digits.isEmpty || 9 < digits.length then none
  else (String.ofList digits).toNat?.map (·, chars.dropWhile Char.isDigit)

/-- A directive behind its mark: the version, or a handle for tags. -/
def directive? (chars : List Char) : Option (Token × List Char) := do
  let name := chars.takeWhile isNameLetter
  let rest := chars.dropWhile isNameLetter
  unless atWordEnd rest do failure
  let rest := rest.dropWhile isBlank
  match String.ofList name with
  | "YAML" =>
    let (major, rest) ← versionNumber? rest
    let '.' :: rest := rest | none
    let (minor, rest) ← versionNumber? rest
    return (.version major minor, rest)
  | "TAG" =>
    let (handle, rest) ← tagHandle? rest
    unless handle = ['!'] ∨ handle.getLast? = some '!' do failure
    unless rest.head?.any isBlank do failure
    let (text, rest) ← tagText true (rest.dropWhile isBlank)
    if text.isEmpty || !atWordEnd rest then none else return (.tagHandle handle text, rest)
  | _ => none

/-! ### Reading tokens -/

/-- What may turn out to be a key: the tokens before it, and where it stands. -/
structure KeyCandidate where
  before : Nat
  cursor : Cursor
  /-- A key must stand here. -/
  required : Bool

/-- How far a text has been read. -/
structure Lexer where
  cursor : Cursor
  tokens : List Token := []
  /-- The columns of the block collections that are open, the innermost first. -/
  indents : List Nat := []
  /-- Whether a key may start here. -/
  keyAllowed : Bool := true
  /-- What may be a key, in the innermost brackets. -/
  candidate : Option KeyCandidate := none
  /-- The same for the brackets around them; none are left outside of all brackets. -/
  outer : List (Option KeyCandidate) := []

namespace Lexer

/-- Whether the place is inside brackets. -/
def inFlow (lexer : Lexer) : Bool := !lexer.outer.isEmpty

/-- The column that parts of the innermost block collection are indented more than, plus one. -/
def nextIndent (lexer : Lexer) : Nat := lexer.indents.head?.elim 0 (· + 1)

def emit (lexer : Lexer) (token : Token) : Lexer :=
  { lexer with tokens := lexer.tokens ++ [token] }

/-- Puts a token in front of the later ones. -/
def insert (lexer : Lexer) (position : Nat) (token : Token) : Lexer :=
  { lexer with tokens := lexer.tokens.take position ++ token :: lexer.tokens.drop position }

/-- Reads a token of so many characters. -/
def emitMark (lexer : Lexer) (length : Nat) (token : Token) : Lexer :=
  { lexer.emit token with cursor := lexer.cursor.skip length }

/-- Moves over blanks, comments and breaks. Behind a break a key may start. The fuel bounds the
number of lines. -/
def skipSpace : (fuel : Nat) → Lexer → Lexer
  | 0, lexer => lexer
  | fuel + 1, lexer =>
    let cursor := lexer.cursor
    let cursor :=
      if cursor.column = 0 && cursor.rest.head? = some byteOrderMark then cursor.skip 1 else cursor
    let tabs := lexer.inFlow || !lexer.keyAllowed
    let cursor := cursor.skipWhile fun c => c = ' ' || (tabs && c = '\t')
    let cursor :=
      if cursor.rest.head? = some '#' then cursor.skipWhile fun c => !isBreak c else cursor
    if cursor.rest.head?.any isBreak then
      skipSpace fuel { lexer with
        cursor := cursor.skipBreak
        keyAllowed := lexer.keyAllowed || !lexer.inFlow }
    else { lexer with cursor }

/-- A key stands on one line and is not long; what it may be is given up behind that. -/
def expire? (cursor : Cursor) : Option KeyCandidate → Option (Option KeyCandidate)
  | none => some none
  | some candidate =>
    if candidate.cursor.line < cursor.line || candidate.cursor.index + 1024 < cursor.index then
      if candidate.required then none else some none
    else some (some candidate)

def expireAll? (lexer : Lexer) : Option Lexer := do
  return { lexer with
    candidate := ← expire? lexer.cursor lexer.candidate
    outer := ← lexer.outer.mapM (expire? lexer.cursor) }

/-- Ends the block collections that are indented more than to a column, or all of them. Inside
brackets none ends. -/
def closeBlocks (lexer : Lexer) (column : Option Nat) : Lexer :=
  let inner := lexer.indents.takeWhile fun indent => !lexer.inFlow && column.all (· < indent)
  { lexer with
    tokens := lexer.tokens ++ List.replicate inner.length .blockEnd
    indents := lexer.indents.drop inner.length }

/-- Opens a block collection at a column unless one is open there. Its token stands in front of
what has been read behind a position. -/
def openBlock (lexer : Lexer) (column position : Nat) (token : Token) : Lexer :=
  if lexer.inFlow || lexer.indents.head?.any (column ≤ ·) then lexer
  else { lexer.insert position token with indents := column :: lexer.indents }

/-- What might have been a key is none. -/
def dropCandidate? (lexer : Lexer) : Option Lexer :=
  if lexer.candidate.any (·.required) then none else some { lexer with candidate := none }

/-- What comes next may be a key. -/
def saveCandidate? (lexer : Lexer) : Option Lexer := do
  if lexer.keyAllowed then
    let required := !lexer.inFlow && lexer.indents.head? = some lexer.cursor.column
    let candidate := ⟨lexer.tokens.length, lexer.cursor, required⟩
    return { ← lexer.dropCandidate? with candidate := some candidate }
  else return lexer

/-- Opening brackets. -/
def openFlow? (lexer : Lexer) (token : Token) : Option Lexer := do
  let lexer ← lexer.saveCandidate?
  return { lexer.emitMark 1 token with
    keyAllowed := true
    candidate := none
    outer := lexer.candidate :: lexer.outer }

/-- Closing brackets. -/
def closeFlow? (lexer : Lexer) (token : Token) : Option Lexer := do
  let lexer ← lexer.dropCandidate?
  let lexer := { lexer.emitMark 1 token with keyAllowed := false }
  match lexer.outer with
  | [] => return lexer
  | candidate :: outer => return { lexer with candidate, outer }

def flowEntry? (lexer : Lexer) : Option Lexer := do
  return { (← lexer.dropCandidate?).emitMark 1 .flowEntry with keyAllowed := true }

def blockEntry? (lexer : Lexer) : Option Lexer := do
  unless lexer.inFlow || lexer.keyAllowed do failure
  let lexer := lexer.openBlock lexer.cursor.column lexer.tokens.length .blockSequence
  return { (← lexer.dropCandidate?).emitMark 1 .blockEntry with keyAllowed := true }

/-- A question mark, behind which stands a key of any form. -/
def key? (lexer : Lexer) : Option Lexer := do
  unless lexer.inFlow || lexer.keyAllowed do failure
  let lexer := lexer.openBlock lexer.cursor.column lexer.tokens.length .blockMapping
  return { (← lexer.dropCandidate?).emitMark 1 .key with keyAllowed := !lexer.inFlow }

/-- A colon, which makes a key of what might be one. -/
def value? (lexer : Lexer) : Option Lexer := do
  match lexer.candidate with
  | some candidate =>
    let lexer := lexer.insert candidate.before .key
    let lexer := lexer.openBlock candidate.cursor.column candidate.before .blockMapping
    return { lexer.emitMark 1 .value with candidate := none, keyAllowed := false }
  | none =>
    unless lexer.inFlow || lexer.keyAllowed do failure
    let lexer := lexer.openBlock lexer.cursor.column lexer.tokens.length .blockMapping
    return { lexer.emitMark 1 .value with keyAllowed := !lexer.inFlow }

/-- The marks and directives of documents, which end everything before them. -/
def boundary? (lexer : Lexer) : Option Lexer := do
  return { ← (lexer.closeBlocks none).dropCandidate? with keyAllowed := false }

/-- The token of an anchor, an alias or a tag. -/
def property? (lexer : Lexer) (read : Cursor → Option (Token × Cursor)) : Option Lexer := do
  let lexer ← lexer.saveCandidate?
  let (token, cursor) ← read lexer.cursor
  return { lexer.emit token with cursor, keyAllowed := false }

def readName? (form : List Char → Token) (cursor : Cursor) : Option (Token × Cursor) := do
  let (name, next) ← anchorName? (cursor.skip 1)
  return (form name, next)

def readTag? (inFlow : Bool) (cursor : Cursor) : Option (Token × Cursor) := do
  let (token, rest) ← tag? cursor.rest
  if (inFlow && rest.head? = some ',') || atWordEnd rest then
    return (token, cursor.skip (cursor.rest.length - rest.length))
  else none

def readQuoted? (cursor : Cursor) : Option (Token × Cursor) := do
  let (text, next) ← quotedScalar? cursor
  return (.scalar .quoted text, next)

def directiveToken? (lexer : Lexer) : Option Lexer := do
  let lexer ← lexer.boundary?
  let (token, rest) ← directive? (lexer.cursor.rest.drop 1)
  let next := lexer.cursor.skip (lexer.cursor.rest.length - rest.length)
  return { lexer.emit token with cursor := ← next.finishLine? }

def block? (lexer : Lexer) (style : ScalarStyle) : Option Lexer := do
  let lexer ← lexer.dropCandidate?
  let (text, cursor) ← blockScalar? lexer.indents.head? lexer.cursor
  return { lexer.emit (.scalar style text) with cursor, keyAllowed := true }

def plain? (lexer : Lexer) : Option Lexer := do
  let lexer ← lexer.saveCandidate?
  let (text, broken, cursor) ← plainScalar? lexer.inFlow lexer.nextIndent lexer.cursor
  return { lexer.emit (.scalar .plain text) with cursor, keyAllowed := broken }

/-- Whether a plain scalar starts with a character, in front of others. -/
def startsPlain (inFlow : Bool) (c : Char) (rest : List Char) : Bool :=
  if c = '-' then !rest.head?.any isBlank
  else if c = '?' || c = ':' then !inFlow && !atWordEnd rest
  else
    !isSpace c && !isFlowMark c &&
      c ∉ ['#', '&', '*', '!', '|', '>', '\'', '"', '%', '@', '\x60']

/-- Reads one token where no space comes next. -/
def token? (lexer : Lexer) (c : Char) (rest : List Char) : Option Lexer :=
  let inFlow := lexer.inFlow
  if lexer.cursor.column = 0 && c = '%' then lexer.directiveToken?
  else if lexer.cursor.column = 0 && startsWithMark '-' lexer.cursor.rest then
    lexer.boundary?.map (·.emitMark 3 .documentStart)
  else if lexer.cursor.column = 0 && startsWithMark '.' lexer.cursor.rest then
    lexer.boundary?.map (·.emitMark 3 .documentEnd)
  else
    match c with
    | '[' => lexer.openFlow? .flowSequence
    | '\x7b' => lexer.openFlow? .flowMapping
    | ']' => lexer.closeFlow? .flowSequenceEnd
    | '\x7d' => lexer.closeFlow? .flowMappingEnd
    | ',' => lexer.flowEntry?
    | '*' => lexer.property? (readName? .alias)
    | '&' => lexer.property? (readName? .anchor)
    | '!' => lexer.property? (readTag? inFlow)
    | '\'' | '"' => lexer.property? readQuoted?
    | _ =>
      if c = '-' && atWordEnd rest then lexer.blockEntry?
      else if c = '?' && (inFlow || atWordEnd rest) then lexer.key?
      else if c = ':' && (inFlow || atWordEnd rest) then lexer.value?
      else if c = '|' && !inFlow then lexer.block? .literalBlock
      else if c = '>' && !inFlow then lexer.block? .foldedBlock
      else if startsPlain inFlow c rest then lexer.plain?
      else none

/-- Reads tokens to the end of the text. The fuel bounds their number. -/
def run? : (fuel : Nat) → Lexer → Option (List Token)
  | 0, _ => none
  | fuel + 1, lexer => do
    let lexer ← (lexer.skipSpace (lexer.cursor.rest.length + 1)).expireAll?
    let lexer := lexer.closeBlocks (some lexer.cursor.column)
    match lexer.cursor.rest with
    | [] => return (← lexer.boundary?).tokens
    | c :: rest => run? fuel (← lexer.token? c rest)

end Lexer

/-- The tokens of a text. -/
def Token.ofText? (text : String) : Option (List Token) :=
  let chars :=
    match text.toList with
    | c :: rest => if c = byteOrderMark then rest else c :: rest
    | [] => []
  if chars.all isAllowed then Lexer.run? (chars.length + 1) { cursor := { rest := chars } }
  else none

end EngineNode.Yaml
