import EngineNode.Proofs.Trie.Walk
import Mathlib.Algebra.Order.BigOperators.Group.Finset
import Mathlib.Order.Lattice.Nat

/-!
The Merkle-Patricia trie of a set of pairs.

`Patricia.root` is the root of appendix D of the Yellow Paper: it is defined on a set of pairs,
whose keys stand in no order, with a depth up to which they agree.

* `Patricia.compactPath_eq`, `Patricia.keyNibbles_eq`: paths and keys are packed and split place by
  place.
* `Patricia.sharedLength_eq`: the longest beginning that all keys have is the one that the first and
  the last of sorted keys have.
* `Patricia.node_eq`: sorted entries are encoded as the node of their set.
* `Trie.listRoot_eq_patriciaRoot`: the root of a list is that of the map from the encoded index of
  each item to the item.
-/

namespace EngineNode

namespace Patricia

open Trie

/-! ### The trie of a set -/

/-- The nibbles of a key: the high half of a byte stands at an even place, the low half behind
it. -/
def keyNibbles (key : Bytes) : List Nibble :=
  (List.range (2 * key.length)).map fun i =>
    ⟨(key.getD (i / 2) 0).toNat / (if i % 2 = 0 then 16 else 1) % 16, Nat.mod_lt _ (by decide)⟩

/-- The hex-prefix encoding of a path. The first nibble is 2 for leaves and 0 for extensions, and
one more if the length is odd; a path of even length follows a second nibble. -/
def compactPath (path : List Nibble) (isLeaf : Bool) : Bytes :=
  let flag := if isLeaf then 2 else 0
  let digits := (if path.length % 2 = 0 then [flag, 0] else [flag + 1]) ++ path.map Fin.val
  (List.range (digits.length / 2)).map fun i =>
    UInt8.ofNat (16 * digits.getD (2 * i) 0 + digits.getD (2 * i + 1) 0)

/-- A node as it stands in its parent: itself if it is shorter than a hash, otherwise its hash. -/
def reference (node : Bytes) : Bytes :=
  if node.length < 32 then node else Rlp.encodeString (keccak256 node).toList

/-- The length of the longest path that all keys begin with. -/
noncomputable def sharedLength (pairs : Finset (List Nibble × Bytes)) : Nat :=
  sSup {n | ∃ path : List Nibble, path.length = n ∧ ∀ pair ∈ pairs, path <+: pair.1}

/-- The value of the key that ends at a depth, and nothing if there is no such key. -/
noncomputable def valueAt (pairs : Finset (List Nibble × Bytes)) (depth : Nat) : Bytes :=
  if h : ∃ pair ∈ pairs, pair.1.length = depth then h.choose.2 else []

/-- The nibbles that are left of all keys, and the number of keys. -/
def size (pairs : Finset (List Nibble × Bytes)) (depth : Nat) : Nat :=
  ∑ pair ∈ pairs, (pair.1.length - depth) + pairs.card

theorem isPrefix_lengths_nonempty (pairs : Finset (List Nibble × Bytes)) :
    {n | ∃ path : List Nibble, path.length = n ∧ ∀ pair ∈ pairs, path <+: pair.1}.Nonempty :=
  ⟨0, [], rfl, fun _ _ => List.nil_prefix⟩

theorem sharedLength_le {pairs : Finset (List Nibble × Bytes)} {pair : List Nibble × Bytes}
    (member : pair ∈ pairs) : sharedLength pairs ≤ pair.1.length := by
  refine csSup_le (isPrefix_lengths_nonempty pairs) ?_
  rintro _ ⟨path, rfl, shared⟩
  exact (shared pair member).length_le

theorem size_sharedLength_lt {pairs : Finset (List Nibble × Bytes)} {depth : Nat}
    (filled : pairs.Nonempty) (shared : depth < sharedLength pairs) :
    size pairs (sharedLength pairs) < size pairs depth := by
  refine Nat.add_lt_add_right (Finset.sum_lt_sum_of_nonempty filled fun pair member => ?_) _
  have := sharedLength_le member
  omega

theorem size_filter_lt {pairs : Finset (List Nibble × Bytes)} (filled : pairs.Nonempty)
    (depth : Nat) (nibble : Nibble) :
    size (pairs.filter fun pair => pair.1[depth]? = some nibble) (depth + 1) <
      size pairs depth := by
  have goesOn : ∀ pair ∈ pairs.filter (fun pair => pair.1[depth]? = some nibble),
      pair.1.length - (depth + 1) + 1 = pair.1.length - depth := by
    intro pair member
    have := (List.getElem?_eq_some_iff.mp (Finset.mem_filter.mp member).2).1
    omega
  have fewer := Finset.sum_le_sum_of_subset (f := fun pair => pair.1.length - depth)
    (Finset.filter_subset (fun pair => pair.1[depth]? = some nibble) pairs)
  have some := filled.card_pos
  rw [size, size, Finset.card_eq_sum_ones, ← Finset.sum_add_distrib, Finset.sum_congr rfl goesOn]
  omega

open Classical in
/-- The node that holds the pairs of a set, whose keys agree up to a depth: none, a leaf for one
pair, an extension where all keys go on together, otherwise a branch with one place for each nibble
and one for the value whose key ends there. -/
noncomputable def node (pairs : Finset (List Nibble × Bytes)) (depth : Nat) : Bytes :=
  if filled : ∃ pair, pair ∈ pairs then
    if pairs.card = 1 then
      Rlp.encodeList (Rlp.encodeString (compactPath (filled.choose.1.drop depth) true) ++
        Rlp.encodeString filled.choose.2)
    else if depth < sharedLength pairs then
      Rlp.encodeList (Rlp.encodeString
          (compactPath ((filled.choose.1.take (sharedLength pairs)).drop depth) false) ++
        reference (node pairs (sharedLength pairs)))
    else
      Rlp.encodeList (((List.finRange 16).flatMap fun nibble =>
          reference (node (pairs.filter fun pair => pair.1[depth]? = some nibble) (depth + 1))) ++
        Rlp.encodeString (valueAt pairs depth))
  else Rlp.encodeString []
termination_by size pairs depth
decreasing_by
  · exact size_sharedLength_lt filled ‹_›
  · exact size_filter_lt filled depth nibble

/-- The map from the encoded index of each item of a list to the item. -/
def pairs (items : List Bytes) : Finset (Bytes × Bytes) :=
  Finset.univ.image fun i : Fin items.length => (Rlp.encodeNat i, items[i])

/-- The root of the trie that holds a map from byte strings to byte strings. -/
noncomputable def root (map : Finset (Bytes × Bytes)) : Hash :=
  keccak256 (node (map.image fun pair => (keyNibbles pair.1, pair.2)) 0)

/-! ### Places -/

theorem packDigits_eq (digits : List Nat) :
    packDigits digits = (List.range (digits.length / 2)).map fun i =>
      UInt8.ofNat (16 * digits.getD (2 * i) 0 + digits.getD (2 * i + 1) 0) := by
  match digits with
  | [] => rfl
  | [_] => simp [packDigits]
  | hi :: lo :: rest =>
      have half : (hi :: lo :: rest).length / 2 = rest.length / 2 + 1 := by
        simp only [List.length_cons]
        omega
      rw [half, List.range_succ_eq_map, List.map_cons, List.map_map, packDigits, packDigits_eq rest]
      rfl

/-- **Paths are packed place by place.** -/
theorem compactPath_eq (path : List Nibble) (isLeaf : Bool) :
    compactPath path isLeaf = hexPrefix path isLeaf := by
  rw [hexPrefix_eq, packDigits_eq]
  rfl

/-- **Keys are split place by place.** -/
theorem keyNibbles_eq (key : Bytes) : keyNibbles key = nibbles key := by
  induction key with
  | nil => rfl
  | cons b key ih =>
      rw [nibbles_cons, ← ih, keyNibbles, List.length_cons, Nat.mul_succ, List.range_succ_eq_map,
        List.range_succ_eq_map, List.map_cons, List.map_map, List.map_cons, List.map_map]
      have low : b.toNat / 1 % 16 = b.toNat % 16 := by rw [Nat.div_one]
      refine congrArg₂ List.cons rfl (congrArg₂ List.cons (Fin.ext low)
        (List.map_congr_left fun i _ => ?_))
      have place : (i + 1 + 1) / 2 = i / 2 + 1 := by omega
      have parity : (i + 1 + 1) % 2 = i % 2 := by omega
      simp only [Function.comp_apply, Nat.succ_eq_add_one, place, parity, List.getD_cons_succ]

/-! ### Sets of sorted entries -/

section Sorted

variable {entries : List Entry} {path : List Nibble}

theorem mem_toFinset_behind {pair : List Nibble × Bytes} :
    pair ∈ (behind path entries).toFinset ↔ ∃ e ∈ entries, (path ++ e.1, e.2) = pair := by
  rw [List.mem_toFinset, behind, List.mem_map]

theorem card_behind (ascending : Ascending entries) :
    (behind path entries).toFinset.card = entries.length := by
  have nodup : (behind path entries).Nodup := by
    refine ((ascending_behind path).mpr ascending).imp ?_
    rintro e e' before rfl
    exact lt_irrefl _ before
  rw [List.toFinset_card_of_nodup nodup, length_behind]

/-- **What all keys begin with ends where the first and the last of sorted keys part.** -/
theorem sharedLength_eq (ascending : Ascending entries) (filled : entries ≠ [])
    (path : List Nibble) :
    sharedLength (behind path entries).toFinset = path.length + (sharedPath entries).length := by
  have greatest : IsGreatest {n | ∃ common : List Nibble, common.length = n ∧
      ∀ pair ∈ (behind path entries).toFinset, common <+: pair.1}
        (path.length + (sharedPath entries).length) := by
    constructor
    · refine ⟨path ++ sharedPath entries, List.length_append, ?_⟩
      intro pair member
      obtain ⟨e, among, rfl⟩ := mem_toFinset_behind.mp member
      exact (List.prefix_append_right_inj path).mpr (ascending.sharedPath_isPrefix among)
    · rintro _ ⟨common, rfl, shared⟩
      have begins : ∀ e ∈ entries, common <+: path ++ e.1 := fun e member =>
        shared _ (mem_toFinset_behind.mpr ⟨e, member, rfl⟩)
      obtain ⟨e, member⟩ := List.exists_mem_of_ne_nil entries filled
      rcases List.prefix_or_prefix_of_prefix (begins e member) (List.prefix_append path e.1) with
        short | ⟨rest, rfl⟩
      · exact short.length_le.trans (Nat.le_add_right _ _)
      · have among := isPrefix_sharedPath filled fun e member =>
          (List.prefix_append_right_inj path).mp (begins e member)
        rw [List.length_append]
        exact Nat.add_le_add_left among.length_le _
  exact greatest.csSup_eq

/-- The value of the key that ends at the path stands first among sorted entries. -/
theorem valueAt_eq (ascending : Ascending entries) :
    valueAt (behind path entries).toFinset path.length = valueHere entries := by
  have ends {e : Entry} : (path ++ e.1).length = path.length ↔ e.1 = [] := by
    simp
  match entries, ascending with
  | [], _ => rfl
  | (first :: key, value) :: rest, ascending =>
      refine dif_neg ?_
      rintro ⟨pair, member, short⟩
      obtain ⟨e, among, rfl⟩ := mem_toFinset_behind.mp member
      exact ascending.ne_nil_of_mem_entriesBelow among (ends.mp short)
  | ([], value) :: rest, ascending =>
      have found : ∃ pair ∈ (behind path (([], value) :: rest)).toFinset,
          pair.1.length = path.length :=
        ⟨_, mem_toFinset_behind.mpr ⟨_, List.mem_cons_self, rfl⟩, ends.mpr rfl⟩
      rw [valueAt, dif_pos found]
      obtain ⟨member, short⟩ := found.choose_spec
      obtain ⟨e, member, same⟩ := mem_toFinset_behind.mp member
      rw [← same] at short ⊢
      rcases List.mem_cons.mp member with rfl | member
      · rfl
      · exact absurd (ends.mp short) (ascending.ne_nil_of_mem_entriesBelow member)

/-- The pairs whose keys have a nibble behind the path are the entries below it. -/
theorem filter_behind (nibble : Nibble) :
    ((behind path entries).toFinset.filter fun pair => pair.1[path.length]? = some nibble) =
      (behind (path ++ [nibble]) (below nibble entries)).toFinset := by
  ext pair
  rw [Finset.mem_filter, mem_toFinset_behind, mem_toFinset_behind]
  constructor
  · rintro ⟨⟨⟨key, value⟩, member, rfl⟩, found⟩
    rw [List.getElem?_append_right le_rfl, Nat.sub_self] at found
    cases key with
    | nil => cases found
    | cons first key =>
        cases found
        exact ⟨(key, value), mem_below.mpr member, by simp⟩
  · rintro ⟨⟨key, value⟩, member, rfl⟩
    exact ⟨⟨_, mem_below.mp member, by simp⟩, by simp⟩

/-- **Sorted entries are encoded as the node of their set.** -/
theorem node_eq (ascending : Ascending entries) (path : List Nibble) :
    node (behind path entries).toFinset path.length = encodeNode entries := by
  have filled {entries : List Entry} (path : List Nibble) (some : entries ≠ []) :
      ∃ pair, pair ∈ (behind path entries).toFinset := by
    obtain ⟨e, member⟩ := List.exists_mem_of_ne_nil entries some
    exact ⟨_, mem_toFinset_behind.mpr ⟨e, member, rfl⟩⟩
  induction ascending using Ascending.induction generalizing path with
  | empty => rw [node, dif_neg (by simp [behind]), encodeNode]
  | leaf key value =>
      have some := filled path (List.cons_ne_nil (key, value) [])
      obtain ⟨e, member, same⟩ := mem_toFinset_behind.mp some.choose_spec
      obtain rfl := List.mem_singleton.mp member
      rw [node, dif_pos some, if_pos (by simp [behind]), ← same, List.drop_left, compactPath_eq,
        encodeNode_leaf]
  | extension shared entries ascending nonempty many whole ih =>
      have ordered := (ascending_behind shared).mpr ascending
      have several : behind shared entries ≠ [] := List.ne_nil_of_length_pos (by simp; omega)
      have some := filled path several
      obtain ⟨e, member, same⟩ := mem_toFinset_behind.mp some.choose_spec
      obtain ⟨rest, key⟩ := ordered.sharedPath_isPrefix member
      have length := sharedLength_eq ordered several path
      have child := ih (path ++ shared)
      rw [whole] at length key
      rw [List.length_append, behind_append] at child
      have positive := List.length_pos_iff.mpr nonempty
      have slice : ((path ++ (shared ++ rest)).take (path.length + shared.length)).drop
          path.length = shared := by
        rw [← List.append_assoc, ← List.length_append, List.take_left, List.drop_left]
      rw [node, dif_pos some, if_neg (by rw [card_behind ordered, length_behind]; omega),
        if_pos (by omega), length, child, ← same, compactPath_eq, ← key, slice,
        encodeNode_behind nonempty many whole]
      rfl
  | branch entries ascending many apart ih =>
      have several : entries ≠ [] := List.ne_nil_of_length_pos (by omega)
      have some := filled path several
      have length := sharedLength_eq ascending several path
      rw [apart, List.length_nil, Nat.add_zero] at length
      have child (nibble : Nibble) := ih nibble (path ++ [nibble])
      simp only [List.length_append, List.length_singleton] at child
      rw [node, dif_pos some, if_neg (by rw [card_behind ascending]; omega), if_neg (by omega),
        valueAt_eq ascending, encodeNode_branch ascending many apart]
      simp only [filter_behind, child]
      rfl

end Sorted

/-- The set of the entries of a list is the map from indexes to items, with its keys split. -/
theorem toFinset_sortEntries (items : List Bytes) :
    (behind [] (sortEntries (listEntries items))).toFinset =
      (pairs items).image fun pair => (keyNibbles pair.1, pair.2) := by
  ext pair
  rw [behind_nil, List.mem_toFinset, (perm_sortEntries _).mem_iff, mem_listEntries, pairs,
    Finset.image_image, Finset.mem_image]
  simp only [Function.comp_apply, keyNibbles_eq, Finset.mem_univ, true_and]
  exact ⟨fun ⟨i, within, same⟩ => ⟨⟨i, within⟩, same⟩, fun ⟨i, same⟩ => ⟨i.1, i.2, same⟩⟩

end Patricia

/-- **The root of a list is the root of the trie that maps the encoded index of each item to the
item.** If there are any items, the walk over their whole keys ends in the node that is hashed,
without reading a key past its end. -/
theorem Trie.listRoot_eq_patriciaRoot (items : List Bytes) :
    listRoot items = Patricia.root (Patricia.pairs items) ∧
      (items ≠ [] → encodeAt? (sortEntries (listEntries items)) 0 =
        some (encodeNode (sortEntries (listEntries items)))) := by
  have ascending := ascending_listEntries items
  constructor
  · have node := Patricia.node_eq ascending []
    rw [Patricia.toFinset_sortEntries] at node
    rw [Patricia.root, ← List.length_nil, node]
    rfl
  · intro filled
    have entries : sortEntries (listEntries items) ≠ [] := by
      intro none
      have := (perm_sortEntries (listEntries items)).length_eq
      rw [none, listEntries, List.length_mapIdx] at this
      exact filled (List.eq_nil_of_length_eq_zero this.symm)
    have walked := encodeAt?_behind ascending entries []
    rwa [behind_nil] at walked

end EngineNode
