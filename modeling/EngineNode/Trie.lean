import EngineNode.Hash.Keccak
import EngineNode.Rlp

/-!
# Merkle-Patricia roots of lists

The root of the trie that holds item `i` under the key `rlp(i)`. This is how transactions,
receipts and withdrawals are committed to. The entries are sorted by key, so that the entries
below one branch child stand together.
-/

namespace EngineNode.Trie

/-- Half a byte of a key. -/
abbrev Nibble := Fin 16

/-- What is left of a key, and its value. -/
abbrev Entry := List Nibble × Bytes

/-- The halves of the bytes of a key, high half first. -/
def nibbles (bytes : Bytes) : List Nibble :=
  bytes.flatMap fun b => [Fin.ofNat 16 (b.toNat / 16), Fin.ofNat 16 b.toNat]

/-- Two nibbles a byte. -/
def packPairs : List Nibble → Bytes
  | hi :: lo :: rest => UInt8.ofNat (16 * hi.val + lo.val) :: packPairs rest
  | _ => []

/-- The hex-prefix encoding of a path: the first nibble tells leaves from extensions and odd
lengths from even ones. -/
def hexPrefix (path : List Nibble) (isLeaf : Bool) : Bytes :=
  let flag := if isLeaf then 2 else 0
  match path with
  | first :: rest =>
    if path.length % 2 = 1 then UInt8.ofNat (16 * (flag + 1) + first.val) :: packPairs rest
    else UInt8.ofNat (16 * flag) :: packPairs path
  | [] => [UInt8.ofNat (16 * flag)]

/-- Nodes shorter than a hash stand in their parent, longer ones are replaced by their hash. -/
def nodeReference (node : Bytes) : Bytes :=
  if node.length < 32 then node else Rlp.encodeString (keccak256 node).toList

/-- The longest common beginning of two paths. -/
def commonPrefix : List Nibble → List Nibble → List Nibble
  | a :: as, b :: bs => if a = b then a :: commonPrefix as bs else []
  | _, _ => []

/-- The entries of a sorted list that start with a nibble, without that nibble, and the entries
after them. -/
def splitChild (nibble : Nibble) : List Entry → List Entry × List Entry
  | (first :: path, value) :: rest =>
    if first = nibble then
      let (child, others) := splitChild nibble rest
      ((path, value) :: child, others)
    else ([], (first :: path, value) :: rest)
  | entries => ([], entries)

/-- The groups of a sorted list for each of the nibbles, in their order. -/
def splitChildren : List Nibble → List Entry → List (List Entry)
  | [], _ => []
  | nibble :: nibbles, entries =>
    let (child, others) := splitChild nibble entries
    child :: splitChildren nibbles others

/-- The number of nibbles that are left in all keys. -/
def weight : List Entry → Nat
  | [] => 0
  | (path, _) :: rest => path.length + weight rest

theorem weight_splitChild (nibble : Nibble) (entries : List Entry) :
    weight (splitChild nibble entries).1 + (splitChild nibble entries).1.length +
      weight (splitChild nibble entries).2 = weight entries := by
  fun_induction splitChild nibble entries with
  | case1 path value rest child others h ih => simp_all [weight]; omega
  | case2 => simp [weight]
  | case3 => simp [weight]

theorem weight_of_mem_splitChildren {nibbles : List Nibble} {entries child : List Entry}
    (h : child ∈ splitChildren nibbles entries) : weight child + child.length ≤ weight entries := by
  induction nibbles generalizing entries with
  | nil => simp [splitChildren] at h
  | cons nibble nibbles ih =>
    have split := weight_splitChild nibble entries
    simp only [splitChildren, List.mem_cons] at h
    rcases h with rfl | h
    · omega
    · have := ih h; omega

/-- Drops the first `n` nibbles of every key. -/
def stripPath (n : Nat) (entries : List Entry) : List Entry :=
  entries.map fun e => (e.1.drop n, e.2)

@[simp] theorem length_stripPath (n : Nat) (entries : List Entry) :
    (stripPath n entries).length = entries.length := by
  simp [stripPath]

theorem weight_stripPath_le (n : Nat) (entries : List Entry) :
    weight (stripPath n entries) ≤ weight entries := by
  induction entries with
  | nil => simp [stripPath]
  | cons e rest ih => simp [weight, stripPath] at ih ⊢; omega

theorem weight_stripPath_lt {entries : List Entry} {n : Nat} (hn : 0 < n)
    (h : ∃ e ∈ entries, 0 < e.1.length) : weight (stripPath n entries) < weight entries := by
  induction entries with
  | nil => simp at h
  | cons e rest ih =>
    by_cases he : 0 < e.1.length
    · have := weight_stripPath_le n rest
      simp [weight, stripPath] at this ⊢; omega
    · have : ∃ e ∈ rest, 0 < e.1.length := by simpa [he] using h
      have := ih this
      simp [weight, stripPath] at this ⊢; omega

/-- The path that all keys of a sorted list share. -/
def sharedPath (entries : List Entry) : List Nibble :=
  match entries.head?, entries.getLast? with
  | some first, some last => commonPrefix first.1 last.1
  | _, _ => []

theorem length_commonPrefix_le (a b : List Nibble) : (commonPrefix a b).length ≤ a.length := by
  fun_induction commonPrefix a b <;> simp_all

theorem exists_of_sharedPath {entries : List Entry} (h : sharedPath entries ≠ []) :
    ∃ e ∈ entries, 0 < e.1.length := by
  cases entries with
  | nil => simp [sharedPath] at h
  | cons e rest =>
    refine ⟨e, List.mem_cons_self, ?_⟩
    unfold sharedPath at h
    split at h
    · rename_i first last hf hl
      have : first = e := by simpa using hf.symm
      subst this
      have := length_commonPrefix_le first.1 last.1
      have := List.length_pos_iff.2 h
      omega
    · simp at h

/-- The value whose key ends here; in a sorted list it stands first. -/
def valueHere : List Entry → Bytes
  | ([], value) :: _ => value
  | _ => []

/-- The entries whose keys go on. -/
def entriesBelow : List Entry → List Entry
  | ([], _) :: rest => rest
  | entries => entries

theorem weight_entriesBelow (entries : List Entry) :
    weight (entriesBelow entries) = weight entries := by
  fun_cases entriesBelow entries <;> simp [weight]

/-- The entries below each child of a branch. -/
def branchChildren (entries : List Entry) : List (List Entry) :=
  splitChildren (List.finRange 16) (entriesBelow entries)

theorem weight_of_mem_branchChildren {entries child : List Entry}
    (h : child ∈ branchChildren entries) : weight child + child.length ≤ weight entries :=
  weight_entriesBelow entries ▸ weight_of_mem_splitChildren h

/-- The node that holds the entries of a sorted list: a leaf for one entry, an extension for a
shared path, otherwise a branch with one place for each nibble and one for the value whose key
ends here. -/
def encodeNode (entries : List Entry) : Bytes :=
  match entries with
  | [] => Rlp.encodeString []
  | [(path, value)] =>
    Rlp.encodeList (Rlp.encodeString (hexPrefix path true) ++ Rlp.encodeString value)
  | e :: e' :: rest =>
    if _ : sharedPath (e :: e' :: rest) ≠ [] then
      let child := encodeNode (stripPath (sharedPath (e :: e' :: rest)).length (e :: e' :: rest))
      Rlp.encodeList (Rlp.encodeString (hexPrefix (sharedPath (e :: e' :: rest)) false) ++
        nodeReference child)
    else
      let references := (branchChildren (e :: e' :: rest)).attach.map fun child =>
        if child.val.isEmpty then Rlp.encodeString [] else nodeReference (encodeNode child.val)
      Rlp.encodeList (references.flatten ++ Rlp.encodeString (valueHere (e :: e' :: rest)))
termination_by weight entries + entries.length
decreasing_by
  · rename_i h
    have := weight_stripPath_lt (List.length_pos_iff.2 h) (exists_of_sharedPath h)
    simp only [length_stripPath]
    omega
  · have := weight_of_mem_branchChildren child.property
    simp only [List.length_cons] at this ⊢
    omega

/-- Keys in the order of their nibbles, a key before its continuations. -/
def keyLe : List Nibble → List Nibble → Bool
  | [], _ => true
  | _ :: _, [] => false
  | a :: as, b :: bs => a < b || (a == b && keyLe as bs)

/-- Puts an entry in front of the first one whose key is not below its own. -/
def insertSorted (entry : Entry) : List Entry → List Entry
  | [] => [entry]
  | e :: rest => if keyLe entry.1 e.1 then entry :: e :: rest else e :: insertSorted entry rest

/-- The entries in the order of their keys. -/
def sortEntries (entries : List Entry) : List Entry := entries.foldr insertSorted []

/-- The entries of a list of items: item `i` stands under the nibbles of `rlp(i)`. -/
def listEntries (items : List Bytes) : List Entry :=
  items.mapIdx fun i item => (nibbles (Rlp.encodeNat i), item)

/-- The root of the trie that holds a list. -/
def listRoot (items : List Bytes) : Hash := keccak256 (encodeNode (sortEntries (listEntries items)))

end EngineNode.Trie
