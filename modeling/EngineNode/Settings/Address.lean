import EngineNode.Hex

/-!
# Addresses to listen at

Addresses of the internet protocol in both versions, as text, and ports beside them.
-/

namespace EngineNode

/-- An address: four bytes, or eight groups of sixteen bits. -/
inductive IpAddress where
  | v4 (bytes : Vector UInt8 4)
  | v6 (groups : Vector UInt16 8)
deriving DecidableEq

namespace IpAddress

def localhost : IpAddress := .v4 #v[127, 0, 0, 1]

/-! ### Reading

A reader takes what it reads off the front of a text. -/

/-- A decimal byte: at most three digits, without leading zeros. -/
def byte? (chars : List Char) : Option (Nat × List Char) :=
  let digits := chars.takeWhile Char.isDigit
  let value := digits.foldl (fun n c => 10 * n + (c.toNat - '0'.toNat)) 0
  if digits.isEmpty || 3 < digits.length || 255 < value ||
      (digits.head? = some '0' && 1 < digits.length) then none
  else some (value, chars.dropWhile Char.isDigit)

/-- Moves over a character that must stand here. -/
def expect? (c : Char) : List Char → Option (List Char)
  | d :: rest => if c = d then some rest else none
  | [] => none

/-- Four bytes with points between them. -/
def bytes? (chars : List Char) : Option (List Nat × List Char) := do
  let (a, chars) ← byte? chars
  let (b, chars) ← byte? (← expect? '.' chars)
  let (c, chars) ← byte? (← expect? '.' chars)
  let (d, chars) ← byte? (← expect? '.' chars)
  return ([a, b, c, d], chars)

def isHexDigit (c : Char) : Bool := (Hex.digitValue? c).isSome

/-- One to four hexadecimal digits. -/
def group? (chars : List Char) : Option (Nat × List Char) :=
  let digits := chars.takeWhile isHexDigit
  if digits.isEmpty || 4 < digits.length then none
  else (Hex.natOfDigits? digits).map (·, chars.dropWhile isHexDigit)

/-- The colon between groups; none stands in front of the first one. -/
def separator? (first : Bool) (chars : List Char) : Option (List Char) :=
  if first then some chars else expect? ':' chars

/-- As many groups as can be read, at most `room` of them. The last two may be written as four
bytes; whether they are is told beside them. -/
def groups (first : Bool) : (room : Nat) → List Char → List Nat × Bool × List Char
  | 0, chars => ([], false, chars)
  | room + 1, chars =>
    let embedded := if room = 0 then none else separator? first chars >>= bytes?
    match embedded with
    | some ([a, b, c, d], rest) => ([256 * a + b, 256 * c + d], true, rest)
    | _ =>
      match separator? first chars >>= group? with
      | some (value, rest) =>
        let (more, embedded, rest) := groups false room rest
        (value :: more, embedded, rest)
      | none => ([], false, chars)

/-- The eight groups of an address. Two colons stand for one or more groups of zeros. -/
def allGroups? (chars : List Char) : Option (List Nat × List Char) := do
  let (front, embedded, rest) := groups true 8 chars
  if front.length = 8 then return (front, rest)
  if embedded then failure
  let rest ← expect? ':' (← expect? ':' rest)
  let (back, _, rest) := groups true (7 - front.length) rest
  return (front ++ List.replicate (8 - front.length - back.length) 0 ++ back, rest)

/-- An address of the newer version from its groups. -/
def ofGroups (groups : List Nat) : IpAddress :=
  .v6 (Vector.ofFn fun i => UInt16.ofNat (groups.getD i 0))

def ofText? (text : String) : Option IpAddress :=
  match bytes? text.toList with
  | some (bytes, []) => some (.v4 (Vector.ofFn fun i => UInt8.ofNat (bytes.getD i 0)))
  | some _ => none
  | none =>
    match allGroups? text.toList with
    | some (groups, []) => some (ofGroups groups)
    | _ => none

/-! ### Writing -/

/-- How many zeros stand at the front. -/
def zeroRun (groups : List Nat) : Nat := (groups.takeWhile (· = 0)).length

/-- Where the longest run of zeros starts, the first of several, and its length. -/
def longestRun : (index : Nat) → List Nat → Nat × Nat
  | _, [] => (0, 0)
  | index, group :: rest =>
    let run := zeroRun (group :: rest)
    let best := longestRun (index + 1) rest
    if run ≠ 0 && best.2 ≤ run then (index, run) else best

/-- Groups in hexadecimal digits with colons between them. -/
def groupText (groups : List Nat) : String :=
  String.intercalate ":" (groups.map fun group => String.ofList (Hex.natDigits group))

/-- Bytes in decimal digits with points between them. -/
def byteText (bytes : List Nat) : String := String.intercalate "." (bytes.map toString)

def toText : IpAddress → String
  | .v4 bytes => byteText (bytes.toList.map UInt8.toNat)
  | .v6 groups =>
    match groups.toList.map UInt16.toNat with
    | [0, 0, 0, 0, 0, 0xFFFF, a, b] => "::ffff:" ++ byteText [a / 256, a % 256, b / 256, b % 256]
    | groups =>
      let (start, length) := longestRun 0 groups
      if 1 < length then
        groupText (groups.take start) ++ "::" ++ groupText (groups.drop (start + length))
      else groupText groups

end IpAddress

/-- An address and a port. -/
structure SocketAddress where
  ip : IpAddress
  port : UInt16
deriving DecidableEq

/-- The port stands behind a colon. Brackets tell it from the groups of the newer version. -/
def SocketAddress.toText (address : SocketAddress) : String :=
  let port := ":" ++ toString address.port.toNat
  match address.ip with
  | .v4 _ => address.ip.toText ++ port
  | .v6 _ => "[" ++ address.ip.toText ++ "]" ++ port

end EngineNode
