import EngineNode.Yaml.Token

/-!
# Documents in YAML

A document is a tree of scalars, sequences and mappings. A node may have an anchor, by which
others refer to it. `Document.ofText?` reads a text that holds one document.
-/

namespace EngineNode.Yaml

inductive Node where
  | scalar (tag : Option String) (style : ScalarStyle) (text : String)
  | sequence (items : List Node)
  | mapping (pairs : List (Node × Node))
  /-- The node with an anchor, which is known by its number. -/
  | alias (anchor : Nat)

namespace Node

instance : Inhabited Node := ⟨.sequence []⟩

/-- What stands where nothing is written. -/
def empty : Node := .scalar none .plain ""

end Node

structure Document where
  /-- A text without any part has none. -/
  root : Option Node
  anchors : List (Nat × Node) := []

/-! ### Reading -/

/-- What is left of the tokens, and what is known by name. -/
structure Reader where
  tokens : List Token
  /-- What the handles of tags stand for. -/
  handles : List (List Char × List Char)
  names : List (List Char × Nat) := []
  anchors : List (Nat × Node) := []

abbrev ReadM := StateT Reader Option

namespace Reader

def peek : ReadM (Option Token) := return (← get).tokens.head?

def drop : ReadM Unit := modify fun reader => { reader with tokens := reader.tokens.drop 1 }

/-- Moves over a token if it comes next. -/
def accept (token : Token) : ReadM Bool := do
  if (← peek) = some token then
    drop
    return true
  else return false

/-- Whether one of some tokens comes next, or none. -/
def endsWith (tokens : List Token) : ReadM Bool := return (← peek).all (· ∈ tokens)

/-- The anchor of the node that comes next. -/
def anchor? : ReadM (Option (List Char)) := do
  match ← peek with
  | some (.anchor name) =>
    drop
    return some name
  | _ => return none

/-- The tag of the node that comes next. -/
def tag? : ReadM (Option String) := do
  match ← peek with
  | some (.tag handle suffix) =>
    drop
    if handle.isEmpty then return some (String.ofList suffix)
    let replacement ← (← get).handles.lookup handle
    return some (String.ofList (replacement ++ suffix))
  | _ => return none

/-- The anchor and the tag of the node that comes next, in either order. -/
def properties : ReadM (Option (List Char) × Option String) := do
  let anchor ← anchor?
  let tag ← tag?
  let anchor ← if anchor.isNone then anchor? else pure anchor
  return (anchor, tag)

/-- Gives the number of names known so far to a name. A name that is given again shares its new
number with the next new name. -/
def number (name : List Char) : ReadM Nat := do
  let reader ← get
  let number := reader.names.length
  set { reader with
    names := (name, number) :: reader.names.filter (·.1 ≠ name)
    anchors := reader.anchors.filter (·.1 ≠ number) }
  return number

/-- Keeps a node under its number, unless a node inside it has the same number. -/
def keep (number : Nat) (node : Node) : ReadM Unit :=
  modify fun reader =>
    if (reader.anchors.lookup number).isSome then reader
    else { reader with anchors := (number, node) :: reader.anchors }

/-- A node with properties may be left out. -/
def absent (marked : Bool) (tag : Option String) : ReadM Node :=
  if marked then return .scalar tag .plain "" else failure

mutual

/-- A node. Outside of brackets it may be a block collection, and behind a key a sequence that is
not indented. The fuel bounds the depth and length of what is read. -/
def node (block unindented : Bool) : (fuel : Nat) → ReadM Node
  | 0 => failure
  | fuel + 1 => do
    if let some (.alias name) ← peek then
      drop
      return .alias (← (← get).names.lookup name)
    let (anchor, tag) ← properties
    let number ← anchor.mapM number
    let node ← content block unindented (anchor.isSome || tag.isSome) tag fuel
    number.forM (keep · node)
    return node

/-- A node without its properties. -/
def content (block unindented marked : Bool) (tag : Option String) : (fuel : Nat) → ReadM Node
  | 0 => failure
  | fuel + 1 => do
    match ← peek with
    | some (.scalar style text) =>
      drop
      return .scalar tag style (String.ofList text)
    | some .flowSequence =>
      drop
      return .sequence (← flowItems true fuel)
    | some .flowMapping =>
      drop
      return .mapping (← flowPairs true fuel)
    | some .blockEntry =>
      if unindented then return .sequence (← unindentedItems fuel)
      else absent marked tag
    | some .blockSequence =>
      if block then
        drop
        return .sequence (← blockItems fuel)
      else absent marked tag
    | some .blockMapping =>
      if block then
        drop
        return .mapping (← blockPairs fuel)
      else absent marked tag
    | _ => absent marked tag

/-- A node, or the empty one in front of some tokens. -/
def nodeUnless (stops : List Token) (block unindented : Bool) : (fuel : Nat) → ReadM Node
  | 0 => failure
  | fuel + 1 => do
    if ← endsWith stops then return .empty else node block unindented fuel

/-- The items of a block sequence and its end. -/
def blockItems : (fuel : Nat) → ReadM (List Node)
  | 0 => failure
  | fuel + 1 => do
    if ← accept .blockEntry then
      let item ← nodeUnless [.blockEntry, .blockEnd] true false fuel
      return item :: (← blockItems fuel)
    else if ← accept .blockEnd then return []
    else failure

/-- The items of a sequence that ends where no further item follows. -/
def unindentedItems : (fuel : Nat) → ReadM (List Node)
  | 0 => failure
  | fuel + 1 => do
    if ← accept .blockEntry then
      let item ← nodeUnless [.blockEntry, .key, .value, .blockEnd] true false fuel
      return item :: (← unindentedItems fuel)
    else return []

/-- The pairs of a block mapping and its end. -/
def blockPairs : (fuel : Nat) → ReadM (List (Node × Node))
  | 0 => failure
  | fuel + 1 => do
    if ← accept .key then
      let key ← nodeUnless [.key, .value, .blockEnd] true true fuel
      let value ←
        if ← accept .value then nodeUnless [.key, .value, .blockEnd] true true fuel
        else pure .empty
      return (key, value) :: (← blockPairs fuel)
    else if ← accept .blockEnd then return []
    else failure

/-- The value behind a key in brackets, which may be left out. -/
def flowValue (stop : Token) : (fuel : Nat) → ReadM Node
  | 0 => failure
  | fuel + 1 => do
    if ← accept .value then nodeUnless [.flowEntry, stop] false false fuel
    else return .empty

/-- The items of a sequence in brackets and its end. An item may be a single pair. -/
def flowItems (first : Bool) : (fuel : Nat) → ReadM (List Node)
  | 0 => failure
  | fuel + 1 => do
    if ← accept .flowSequenceEnd then return []
    unless first || (← accept .flowEntry) do failure
    if ← accept .flowSequenceEnd then return []
    let item ←
      if ← accept .key then
        if ← endsWith [.value, .flowEntry, .flowSequenceEnd] then
          drop
          pure (.mapping [(.empty, ← flowValue .flowSequenceEnd fuel)])
        else
          let key ← node false false fuel
          pure (.mapping [(key, ← flowValue .flowSequenceEnd fuel)])
      else node false false fuel
    return item :: (← flowItems false fuel)

/-- The pairs of a mapping in brackets and its end. -/
def flowPairs (first : Bool) : (fuel : Nat) → ReadM (List (Node × Node))
  | 0 => failure
  | fuel + 1 => do
    if ← accept .flowMappingEnd then return []
    unless first || (← accept .flowEntry) do failure
    if ← accept .flowMappingEnd then return []
    let pair ←
      if ← accept .key then
        let key ← nodeUnless [.value, .flowEntry, .flowMappingEnd] false false fuel
        pure (key, ← flowValue .flowMappingEnd fuel)
      else
        let key ← node false false fuel
        pure (key, .empty)
    return pair :: (← flowPairs false fuel)

end

end Reader

/-! ### Documents -/

/-- The directives in front of a document: the version at most once, and handles for tags. -/
def directives? (versioned : Bool) (handles : List (List Char × List Char)) :
    List Token → Option (List (List Char × List Char) × List Token)
  | .version major minor :: rest =>
    if versioned || major ≠ 1 || (minor ≠ 1 && minor ≠ 2) then none
    else directives? true handles rest
  | .tagHandle handle replacement :: rest =>
    if (handles.lookup handle).isSome then none
    else directives? versioned (handles ++ [(handle, replacement)]) rest
  | tokens => some (handles, tokens)

/-- Handles that need no directive. -/
def standardHandles : List (List Char × List Char) :=
  [(['!'], ['!']), (['!', '!'], "tag:yaml.org,2002:".toList)]

namespace Document

/-- The end of a document with nothing behind it. -/
def isLast (tokens : List Token) : Bool := tokens.all (· = .documentEnd)

/-- The document of some tokens. -/
def ofTokens? (tokens : List Token) : Option Document := do
  if tokens.isEmpty then return ⟨none, []⟩
  let fuel := 4 * tokens.length + 4
  let (handles, rest) ← directives? false [] tokens
  let reader : Reader := { tokens := rest, handles := handles ++ standardHandles }
  let opened := rest.head? = some .documentStart
  if !opened ∧ rest.length < tokens.length then failure
  let read : ReadM Node := do
    if ← Reader.accept .documentStart then
      match ← Reader.peek with
      | none | some (.version ..) | some (.tagHandle ..) | some .documentStart
      | some .documentEnd => return .empty
      | _ => Reader.node true false fuel
    else Reader.node true false fuel
  let (root, reader) ← read.run reader
  if isLast reader.tokens then return ⟨some root, reader.anchors⟩ else failure

/-- The document of a text that holds one. -/
def ofText? (text : String) : Option Document := do
  ofTokens? (← Token.ofText? text)

end Document

end EngineNode.Yaml
