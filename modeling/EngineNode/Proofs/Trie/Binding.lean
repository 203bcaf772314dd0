import EngineNode.Proofs.Build.Preimage
import EngineNode.Proofs.Trie.Sorted

/-!
What the root of a trie determines.

* `Rlp.encodeList_append_ne_encodeString_append`: lists and strings are told apart by how they
  begin.
* `Trie.nodeReference_append_inj`: nodes are told apart by what stands for them in their parent,
  unless their hashes collide.
* `Trie.encodeNode_inj`: entries whose keys are short and do not begin each other are determined by
  the node that holds them, level by level.
* `Trie.eq_of_listRoot_eq`: roots of lists determine the lists, and so the transactions and the
  withdrawals of a block.
-/

namespace EngineNode

namespace Rlp

/-- **Lists and strings are told apart by how they begin.** -/
theorem encodeList_append_ne_encodeString_append {a b x y : Bytes} (ha : a.length < 256 ^ 8)
    (hb : b.length < 256 ^ 8) : encodeList a ++ x ≠ encodeString b ++ y := by
  intro same
  have listDigits := Bytes.length_ofNat_le ha
  have stringDigits := Bytes.length_ofNat_le hb
  obtain ⟨first, rest, list, high⟩ := head_encodeLength (show 0xc0 ≤ 0xc0 from le_rfl) ha
  rw [encodeList, list, List.append_assoc, List.cons_append] at same
  have above : 0xc0 ≤ first.toNat := by
    rw [high]
    exact Nat.le_add_right _ _
  rcases encodeString_eq b with ⟨c, rfl, low, string⟩ | string
  · rw [string] at same
    obtain rfl := (List.cons.inj same).1
    have := UInt8.lt_iff_toNat_lt.mp low
    simp at this
    omega
  · obtain ⟨first', rest', prefixed, lower⟩ := head_encodeLength (show 0x80 ≤ 0xc0 by omega) hb
    rw [string, prefixed, List.append_assoc, List.cons_append] at same
    obtain rfl := (List.cons.inj same).1
    split at lower <;> omega

end Rlp

namespace Trie

open Rlp

/-! ### References -/

/-- The encoding of no node or of a node. -/
def IsNode (node : Bytes) : Prop := node = encodeString [] ∨ ∃ payload, node = encodeList payload

theorem isNode_encodeNode (entries : List Entry) : IsNode (encodeNode entries) := by
  match entries with
  | [] =>
      rw [encodeNode]
      exact .inl rfl
  | [(path, value)] =>
      rw [encodeNode]
      exact .inr ⟨_, rfl⟩
  | e :: e' :: rest =>
      rw [encodeNode]
      split <;> exact .inr ⟨_, rfl⟩

/-- What stands for a node in its parent is a short list, or a string that is empty or a hash. -/
theorem nodeReference_cases {node : Bytes} (isNode : IsNode node) :
    (∃ payload, payload.length < 256 ^ 8 ∧ node = encodeList payload ∧
      nodeReference node = encodeList payload) ∨
    ∃ bytes, bytes.length < 256 ^ 8 ∧ nodeReference node = encodeString bytes ∧
      ((bytes.length = 0 ∧ node = encodeString []) ∨
        bytes.length = 32 ∧ 32 ≤ node.length ∧ bytes = (keccak256 node).toList) := by
  by_cases short : node.length < 32
  · rcases isNode with rfl | ⟨payload, rfl⟩
    · exact .inr ⟨[], by simp, rfl, .inl ⟨rfl, rfl⟩⟩
    · refine .inl ⟨payload, ?_, rfl, if_pos short⟩
      rw [encodeList, List.length_append] at short
      omega
  · have size := (keccak256 node).length_toList
    exact .inr ⟨_, by omega, if_neg short, .inr ⟨size, by omega, rfl⟩⟩

/-- **Nodes are told apart by what stands for them in their parent**, unless their hashes
collide. -/
theorem nodeReference_append_inj {node node' x y : Bytes} (isNode : IsNode node)
    (isNode' : IsNode node')
    (apart : 32 ≤ node.length → 32 ≤ node'.length → keccak256 node = keccak256 node' →
      node = node')
    (same : nodeReference node ++ x = nodeReference node' ++ y) : node = node' ∧ x = y := by
  rcases nodeReference_cases isNode with
      ⟨payload, short, list, stands⟩ | ⟨bytes, short, stands, spelled⟩ <;>
    rcases nodeReference_cases isNode' with
      ⟨payload', short', list', stands'⟩ | ⟨bytes', short', stands', spelled'⟩ <;>
    rw [stands, stands'] at same
  · obtain ⟨rfl, rest⟩ := encodeList_append_inj short short' same
    exact ⟨list.trans list'.symm, rest⟩
  · exact absurd same (encodeList_append_ne_encodeString_append short short')
  · exact absurd same.symm (encodeList_append_ne_encodeString_append short' short)
  · obtain ⟨rfl, rest⟩ := encodeString_append_inj short short' same
    refine ⟨?_, rest⟩
    rcases spelled with ⟨none, empty⟩ | ⟨size, long, hash⟩ <;>
      rcases spelled' with ⟨none', empty'⟩ | ⟨size', long', hash'⟩
    · exact empty.trans empty'.symm
    · omega
    · omega
    · exact apart long long' (FixedBytes.ext (hash.symm.trans hash'))

/-- A packed path is no reference: it is neither empty nor as long as a hash. -/
theorem packed_append_ne_reference {path : List Nibble} {isLeaf : Bool} {node x y : Bytes}
    (short : path.length < 62) (isNode : IsNode node) :
    encodeString (hexPrefix path isLeaf) ++ x ≠ nodeReference node ++ y := by
  have size := length_hexPrefix path isLeaf
  have narrow : (hexPrefix path isLeaf).length < 256 ^ 8 := by omega
  intro same
  rcases nodeReference_cases isNode with
    ⟨payload, few, -, stands⟩ | ⟨bytes, few, stands, spelled⟩ <;> rw [stands] at same
  · exact encodeList_append_ne_encodeString_append few narrow same.symm
  · obtain ⟨packed, -⟩ := encodeString_append_inj narrow few same
    rw [packed] at size
    omega

/-- Packed paths are told apart in front of anything. -/
theorem packed_append_inj {path path' : List Nibble} {isLeaf isLeaf' : Bool} {x y : Bytes}
    (short : path.length < 62) (short' : path'.length < 62)
    (same : encodeString (hexPrefix path isLeaf) ++ x =
      encodeString (hexPrefix path' isLeaf') ++ y) :
    path = path' ∧ isLeaf = isLeaf' ∧ x = y := by
  have small (path : List Nibble) (isLeaf : Bool) (short : path.length < 62) :
      (hexPrefix path isLeaf).length < 256 ^ 8 := by
    rw [length_hexPrefix]
    omega
  obtain ⟨packed, rest⟩ := encodeString_append_inj (small path isLeaf short)
    (small path' isLeaf' short') same
  obtain ⟨paths, kinds⟩ := hexPrefix_inj packed
  exact ⟨paths, kinds, rest⟩

/-- What stands in the places of two branches is told apart place by place. -/
theorem flatMap_append_inj {α : Type} {f g : α → Bytes} {same : α → Prop} {places : List α}
    {x y : Bytes} (apart : ∀ a x y, f a ++ x = g a ++ y → same a ∧ x = y)
    (equal : places.flatMap f ++ x = places.flatMap g ++ y) : (∀ a ∈ places, same a) ∧ x = y := by
  induction places with
  | nil => exact ⟨fun _ none => absurd none List.not_mem_nil, equal⟩
  | cons a places ih =>
      rw [List.flatMap_cons, List.flatMap_cons, List.append_assoc, List.append_assoc] at equal
      obtain ⟨first, equal⟩ := apart a _ _ equal
      obtain ⟨others, rest⟩ := ih equal
      exact ⟨List.forall_mem_cons.mpr ⟨first, others⟩, rest⟩

/-! ### The nodes of a trie -/

/-- The entries that the children of a node hold. -/
def children (entries : List Entry) : List (List Entry) :=
  if entries.length < 2 then []
  else if sharedPath entries ≠ [] then [stripPath (sharedPath entries).length entries]
  else (branchChildren entries).filter fun child => !child.isEmpty

theorem lt_of_mem_children {entries child : List Entry} (member : child ∈ children entries) :
    weight child + child.length < weight entries + entries.length := by
  unfold children at member
  split at member
  · cases member
  · rename_i many
    split at member
    · rename_i shared
      obtain rfl := List.mem_singleton.mp member
      have := weight_stripPath_lt (List.length_pos_iff.mpr shared) (exists_of_sharedPath shared)
      rw [length_stripPath]
      omega
    · have := weight_of_mem_branchChildren (List.mem_filter.mp member).1
      omega

/-- The encodings of the nodes of a trie, each before those of its children. -/
def nodeEncodings (entries : List Entry) : List Bytes :=
  encodeNode entries :: (children entries).attach.flatMap fun child => nodeEncodings child.val
termination_by weight entries + entries.length
decreasing_by exact lt_of_mem_children child.property

theorem encodeNode_mem (entries : List Entry) : encodeNode entries ∈ nodeEncodings entries := by
  rw [nodeEncodings]
  exact List.mem_cons_self

theorem nodeEncodings_subset {entries child : List Entry} (member : child ∈ children entries) :
    nodeEncodings child ⊆ nodeEncodings entries := by
  intro node among
  rw [nodeEncodings]
  exact List.mem_cons_of_mem _ (List.mem_flatMap.mpr ⟨⟨child, member⟩, List.mem_attach _ _, among⟩)

theorem mem_children_behind {path : List Nibble} {entries : List Entry} (nonempty : path ≠ [])
    (many : 2 ≤ entries.length) (whole : sharedPath (behind path entries) = path) :
    entries ∈ children (behind path entries) := by
  rw [children, if_neg (by rw [length_behind]; omega), if_pos (by rwa [whole]), whole,
    stripPath_behind]
  exact List.mem_singleton_self entries

theorem below_mem_children {entries : List Entry} (ascending : Ascending entries)
    (many : 2 ≤ entries.length) (apart : sharedPath entries = []) (nibble : Nibble)
    (filled : below nibble entries ≠ []) : below nibble entries ∈ children entries := by
  rw [children, if_neg (by omega), if_neg (not_not.mpr apart), ascending.branchChildren_eq,
    List.mem_filter]
  exact ⟨List.mem_map_of_mem (List.mem_finRange nibble), by simpa using filled⟩

/-- No two different encodings among some nodes have the same hash. -/
def CollisionFree (nodes : List Bytes) : Prop :=
  ∀ node ∈ nodes, ∀ node' ∈ nodes, keccak256 node = keccak256 node' → node = node'

theorem CollisionFree.subset {nodes nodes' : List Bytes} (free : CollisionFree nodes)
    (sub : nodes' ⊆ nodes) : CollisionFree nodes' :=
  fun node member node' member' => free node (sub member) node' (sub member')

theorem collisionFree_of_nodup {nodes : List Bytes} (nodup : (nodes.map keccak256).Nodup) :
    CollisionFree nodes :=
  fun _ member _ member' same => List.inj_on_of_nodup_map nodup member member' same

/-! ### Separate keys -/

/-- Sorted entries whose keys are short and do not begin each other. -/
structure Separate (entries : List Entry) : Prop where
  ascending : Ascending entries
  apart : entries.Pairwise fun e e' => ¬e.1 <+: e'.1
  short : ∀ e ∈ entries, e.1.length < 62

section Separate

variable {entries : List Entry}

theorem Separate.of_behind {path : List Nibble} (separate : Separate (behind path entries)) :
    Separate entries where
  ascending := (ascending_behind path).mp separate.ascending
  apart := by
    refine (List.pairwise_map.mp separate.apart).imp fun apart begins => apart ?_
    exact (List.prefix_append_right_inj path).mpr begins
  short e member := by
    have := separate.short _ (List.mem_map_of_mem member)
    rw [List.length_append] at this
    omega

theorem Separate.sublist {entries' : List Entry} (separate : Separate entries)
    (sub : entries'.Sublist entries) : Separate entries' where
  ascending := separate.ascending.sublist sub
  apart := separate.apart.sublist sub
  short e member := separate.short e (sub.subset member)

theorem Separate.below (separate : Separate entries) (nibble : Nibble) :
    Separate (below nibble entries) :=
  (separate.sublist (behind_below_sublist nibble entries)).of_behind

theorem Separate.length_path_lt {path : List Nibble} (separate : Separate (behind path entries))
    (many : 2 ≤ entries.length) : path.length < 62 := by
  obtain ⟨e, member⟩ := List.exists_mem_of_length_pos (show 0 < entries.length by omega)
  have := separate.short _ (List.mem_map_of_mem member)
  rw [List.length_append] at this
  omega

/-- Where there are several entries, each key goes on. -/
theorem Separate.ne_nil (separate : Separate entries) (many : 2 ≤ entries.length) :
    ∀ e ∈ entries, e.1 ≠ [] := by
  intro e member
  match entries, many with
  | (first :: key, value) :: e' :: rest, _ =>
      exact separate.ascending.ne_nil_of_mem_entriesBelow member
  | ([], value) :: e' :: rest, _ =>
      have apart := (List.pairwise_cons.mp separate.apart).1 e' List.mem_cons_self
      exact absurd List.nil_prefix apart

/-- Several entries are known from those below each nibble. -/
theorem Separate.eq_of_below {entries' : List Entry} (separate : Separate entries)
    (separate' : Separate entries') (many : 2 ≤ entries.length) (many' : 2 ≤ entries'.length)
    (same : ∀ nibble, Trie.below nibble entries = Trie.below nibble entries') :
    entries = entries' := by
  have sub {a b : List Entry} (goesOn : ∀ e ∈ a, e.1 ≠ [])
      (same : ∀ nibble, Trie.below nibble a = Trie.below nibble b) : ∀ e ∈ a, e ∈ b := by
    rintro ⟨key, value⟩ member
    cases key with
    | nil => exact absurd rfl (goesOn _ member)
    | cons first key => exact mem_below.mp (same first ▸ mem_below.mpr member)
  refine separate.ascending.eq_of_mem_iff separate'.ascending fun e => ⟨?_, ?_⟩
  · exact sub (separate.ne_nil many) same e
  · exact sub (separate'.ne_nil many') (fun nibble => (same nibble).symm) e

end Separate

/-! ### Level by level -/

theorem length_encodeNode_nil : (encodeNode []).length = 1 := by
  rw [encodeNode]
  rfl

/-- No entries are encoded in one byte, some in more. -/
theorem encodeNode_ne_nil {entries : List Entry} (filled : entries ≠ []) :
    encodeNode entries ≠ encodeNode [] := by
  have size (payload : Bytes) (some : payload ≠ []) : 1 < (encodeList payload).length := by
    have := List.length_pos_of_ne_nil some
    rw [encodeList, List.length_append, encodeLength]
    split <;> simp only [List.length_cons, List.length_nil] <;> omega
  have long : 1 < (encodeNode entries).length := by
    rcases entries with _ | ⟨⟨path, value⟩, _ | ⟨e', rest⟩⟩
    · exact absurd rfl filled
    · rw [encodeNode]
      exact size _ (List.append_ne_nil_of_left_ne_nil (encodeString_ne_nil _) _)
    · rw [encodeNode]
      split
      · exact size _ (List.append_ne_nil_of_left_ne_nil (encodeString_ne_nil _) _)
      · exact size _ (List.append_ne_nil_of_right_ne_nil _ (encodeString_ne_nil _))
  intro same
  rw [same, length_encodeNode_nil] at long
  exact absurd long (lt_irrefl 1)

/-- A leaf or an extension is no branch. -/
theorem packed_ne_branch {path : List Nibble} {isLeaf : Bool} {x y : Bytes}
    {child : Nibble → List Entry} (short : path.length < 62) :
    encodeString (hexPrefix path isLeaf) ++ x ≠
      ((List.finRange 16).flatMap fun nibble =>
        nodeReference (encodeNode (child nibble))) ++ y := by
  rw [List.finRange_succ, List.flatMap_cons, List.append_assoc]
  exact packed_append_ne_reference short (isNode_encodeNode _)

section Children

variable {a b c c' : List Entry}

theorem CollisionFree.of_children (free : CollisionFree (nodeEncodings a ++ nodeEncodings b))
    (child : c ∈ children a) (child' : c' ∈ children b) :
    CollisionFree (nodeEncodings c ++ nodeEncodings c') :=
  free.subset (List.append_subset.mpr
    ⟨List.subset_append_of_subset_left _ (nodeEncodings_subset child),
      List.subset_append_of_subset_right _ (nodeEncodings_subset child')⟩)

/-- What stands for children in their parents tells their nodes apart. -/
theorem CollisionFree.child_append_inj {x y : Bytes}
    (free : CollisionFree (nodeEncodings a ++ nodeEncodings b)) (child : c ≠ [] → c ∈ children a)
    (child' : c' ≠ [] → c' ∈ children b)
    (same : nodeReference (encodeNode c) ++ x = nodeReference (encodeNode c') ++ y) :
    encodeNode c = encodeNode c' ∧ x = y := by
  have filled {entries : List Entry} (long : 32 ≤ (encodeNode entries).length) :
      entries ≠ [] := by
    rintro rfl
    rw [length_encodeNode_nil] at long
    omega
  refine nodeReference_append_inj (isNode_encodeNode c) (isNode_encodeNode c') ?_ same
  intro long long' hashes
  exact free.of_children (child (filled long)) (child' (filled long')) _
    (List.mem_append_left _ (encodeNode_mem c)) _ (List.mem_append_right _ (encodeNode_mem c'))
    hashes

end Children

/-! Nodes of two kinds differ in how they begin, nodes of one kind lead to their children. -/

section Kinds

variable {path : List Nibble} {entries b : List Entry}

/-- A leaf determines its entry. -/
theorem leaf_inj {value : Bytes} (low : path.length < 62) (separate : Separate b)
    (same : encodeNode [(path, value)] = encodeNode b) : [(path, value)] = b := by
  have ascending := separate.ascending
  induction ascending using Ascending.induction with
  | empty => exact absurd same (encodeNode_ne_nil (List.cons_ne_nil _ _))
  | leaf path' value' =>
      rw [encodeNode_leaf, encodeNode_leaf] at same
      obtain ⟨rfl, -, values⟩ := packed_append_inj low (separate.short _ List.mem_cons_self)
        (encodeList_injective same)
      rw [encodeString_injective values]
  | extension path' entries' ascending nonempty many whole =>
      rw [encodeNode_leaf, encodeNode_behind nonempty many whole] at same
      obtain ⟨-, kinds, -⟩ := packed_append_inj low (separate.length_path_lt many)
        (encodeList_injective same)
      cases kinds
  | branch entries' ascending many apart =>
      rw [encodeNode_leaf, encodeNode_branch ascending many apart] at same
      exact absurd (encodeList_injective same) (packed_ne_branch low)

/-- An extension determines its entries, if their own node does. -/
theorem extension_inj (nonempty : path ≠ []) (many : 2 ≤ entries.length)
    (whole : sharedPath (behind path entries) = path) (low : path.length < 62)
    (separate : Separate b)
    (free : CollisionFree (nodeEncodings (behind path entries) ++ nodeEncodings b))
    (determined : ∀ c ∈ children b, Separate c → encodeNode entries = encodeNode c → entries = c)
    (same : encodeNode (behind path entries) = encodeNode b) : behind path entries = b := by
  have ascending := separate.ascending
  induction ascending using Ascending.induction with
  | empty =>
      refine absurd same (encodeNode_ne_nil (List.ne_nil_of_length_pos ?_))
      rw [length_behind]
      omega
  | leaf path' value' =>
      rw [encodeNode_leaf, encodeNode_behind nonempty many whole] at same
      obtain ⟨-, kinds, -⟩ := packed_append_inj low (separate.short _ List.mem_cons_self)
        (encodeList_injective same)
      cases kinds
  | extension path' entries' ascending nonempty' many' whole' =>
      rw [encodeNode_behind nonempty many whole, encodeNode_behind nonempty' many' whole'] at same
      obtain ⟨rfl, -, references⟩ := packed_append_inj low (separate.length_path_lt many')
        (encodeList_injective same)
      have child := mem_children_behind nonempty many whole
      have child' := mem_children_behind nonempty' many' whole'
      obtain ⟨nodes, -⟩ := free.child_append_inj (fun _ => child) (fun _ => child')
        (congrArg (· ++ []) references)
      rw [determined entries' child' separate.of_behind nodes]
  | branch entries' ascending many' apart =>
      rw [encodeNode_behind nonempty many whole, encodeNode_branch ascending many' apart] at same
      exact absurd (encodeList_injective same) (packed_ne_branch low)

/-- A branch determines its entries, if the nodes below each nibble do. -/
theorem branch_inj (many : 2 ≤ entries.length) (apart : sharedPath entries = [])
    (separate : Separate entries) (separate' : Separate b)
    (free : CollisionFree (nodeEncodings entries ++ nodeEncodings b))
    (determined : ∀ nibble, below nibble entries ∈ children entries → ∀ c ∈ children b, Separate c →
      encodeNode (below nibble entries) = encodeNode c → below nibble entries = c)
    (same : encodeNode entries = encodeNode b) : entries = b := by
  have ascending' := separate'.ascending
  induction ascending' using Ascending.induction with
  | empty => exact absurd same (encodeNode_ne_nil (List.ne_nil_of_length_pos (by omega)))
  | leaf path' value' =>
      rw [encodeNode_leaf, encodeNode_branch separate.ascending many apart] at same
      exact absurd (encodeList_injective same).symm
        (packed_ne_branch (separate'.short _ List.mem_cons_self))
  | extension path' entries' ascending nonempty many' whole =>
      rw [encodeNode_branch separate.ascending many apart,
        encodeNode_behind nonempty many' whole] at same
      exact absurd (encodeList_injective same).symm
        (packed_ne_branch (separate'.length_path_lt many'))
  | branch entries' ascending' many' apart' =>
      rw [encodeNode_branch separate.ascending many apart,
        encodeNode_branch ascending' many' apart'] at same
      have child := below_mem_children separate.ascending many apart
      have child' := below_mem_children ascending' many' apart'
      obtain ⟨nodes, -⟩ := flatMap_append_inj (fun nibble _ _ =>
        free.child_append_inj (child nibble) (child' nibble)) (encodeList_injective same)
      refine separate.eq_of_below separate' many many' fun nibble => ?_
      have node := nodes nibble (List.mem_finRange nibble)
      by_cases filled : below nibble entries = []
      · rw [filled] at node ⊢
        by_contra other
        exact encodeNode_ne_nil (Ne.symm other) node.symm
      · by_cases filled' : below nibble entries' = []
        · rw [filled'] at node
          exact absurd node (encodeNode_ne_nil filled)
        · exact determined nibble (child nibble filled) _ (child' nibble filled')
            (separate'.below nibble) node

end Kinds

/-- **Entries whose keys are short and do not begin each other are determined by the node that holds
them**, unless the hashes of two different nodes of the tries collide. -/
theorem encodeNode_inj {a b : List Entry} (separate : Separate a) (separate' : Separate b)
    (free : CollisionFree (nodeEncodings a ++ nodeEncodings b))
    (same : encodeNode a = encodeNode b) : a = b := by
  have ascending := separate.ascending
  induction ascending using Ascending.induction generalizing b with
  | empty =>
      by_contra other
      exact encodeNode_ne_nil (Ne.symm other) same.symm
  | leaf path value => exact leaf_inj (separate.short _ List.mem_cons_self) separate' same
  | extension path entries ascending nonempty many whole ih =>
      have child := mem_children_behind nonempty many whole
      refine extension_inj nonempty many whole (separate.length_path_lt many) separate' free ?_ same
      intro c child' apart' nodes
      exact ih separate.of_behind apart' (free.of_children child child') nodes
  | branch entries ascending many apart ih =>
      refine branch_inj many apart separate separate' free ?_ same
      intro nibble child c child' apart' nodes
      exact ih nibble (separate.below nibble) apart' (free.of_children child child') nodes

/-! ### Lists -/

/-- The nodes of the trie that holds a list. -/
def listNodes (items : List Bytes) : List Bytes := nodeEncodings (sortEntries (listEntries items))

/-- **Encoded indexes do not begin each other.** -/
theorem separate_listEntries {items : List Bytes} (addressable : items.length ≤ 2 ^ 64) :
    Separate (sortEntries (listEntries items)) where
  ascending := ascending_listEntries items
  apart := by
    refine (ascending_listEntries items).imp_of_mem ?_
    intro e e' member member' before begins
    obtain ⟨i, hi, rfl⟩ := mem_listEntries.mp ((perm_sortEntries _).mem_iff.mp member)
    obtain ⟨j, hj, rfl⟩ := mem_listEntries.mp ((perm_sortEntries _).mem_iff.mp member')
    obtain ⟨rest, key⟩ := isPrefix_of_nibbles begins
    have narrow {k : Nat} (within : k < items.length) : k < 256 ^ 32 :=
      (within.trans_le addressable).trans (by norm_num)
    obtain ⟨rfl, -⟩ := encodeNat_append_inj (narrow hi) (narrow hj)
      (key.trans (List.append_nil _).symm)
    exact lt_irrefl _ before
  short := by
    intro e member
    obtain ⟨i, within, rfl⟩ := mem_listEntries.mp ((perm_sortEntries _).mem_iff.mp member)
    have size := length_encodeNat_le 8 (n := i)
      ((within.trans_le addressable).trans_eq (by norm_num)) (by norm_num)
    rw [length_nibbles]
    omega

/-- The entries of a list determine it. -/
theorem listEntries_injective {a b : List Bytes}
    (same : sortEntries (listEntries a) = sortEntries (listEntries b)) : a = b := by
  have perm : (listEntries a).Perm (listEntries b) :=
    (perm_sortEntries _).symm.trans (same ▸ perm_sortEntries _)
  have lengths : a.length = b.length := by
    have := perm.length_eq
    rwa [listEntries, listEntries, List.length_mapIdx, List.length_mapIdx] at this
  refine List.ext_getElem lengths fun i hi hi' => ?_
  obtain ⟨j, hj, entry⟩ := mem_listEntries.mp (perm.mem_iff.mp (mem_listEntries.mpr ⟨i, hi, rfl⟩))
  obtain ⟨keys, items⟩ := Prod.mk.inj entry
  obtain rfl := key_injective keys
  exact items.symm

theorem listRoot_inj {a b : List Bytes} (addressable : a.length ≤ 2 ^ 64)
    (addressable' : b.length ≤ 2 ^ 64) (free : CollisionFree (listNodes a ++ listNodes b))
    (same : listRoot a = listRoot b) : a = b := by
  have nodes := free _ (List.mem_append_left _ (encodeNode_mem _)) _
    (List.mem_append_right _ (encodeNode_mem _)) same
  exact listEntries_injective (encodeNode_inj (separate_listEntries addressable)
    (separate_listEntries addressable') free nodes)

/-- **Roots commit to their lists**: unless two different nodes of their tries have the same hash,
lists with one root are the same, and so are the transactions and the withdrawals of blocks with one
root. Only the number of items is limited, to those that a machine word counts. -/
theorem eq_of_listRoot_eq :
    (∀ a b : List Bytes, a.length ≤ 2 ^ 64 → b.length ≤ 2 ^ 64 →
      CollisionFree (listNodes a ++ listNodes b) → listRoot a = listRoot b → a = b) ∧
    (∀ a b : List Transaction, a.length ≤ 2 ^ 64 → b.length ≤ 2 ^ 64 →
      CollisionFree (listNodes (a.map Transaction.bytes) ++ listNodes (b.map Transaction.bytes)) →
        Transaction.root a = Transaction.root b → a = b) ∧
    ∀ a b : List Withdrawal, a.length ≤ 2 ^ 64 → b.length ≤ 2 ^ 64 →
      CollisionFree (listNodes (a.map Withdrawal.encode) ++ listNodes (b.map Withdrawal.encode)) →
        Withdrawal.root a = Withdrawal.root b → a = b := by
  have mapped {α : Type} {encode : α → Bytes} (injective : Function.Injective encode)
      {a b : List α} (addressable : a.length ≤ 2 ^ 64) (addressable' : b.length ≤ 2 ^ 64)
      (free : CollisionFree (listNodes (a.map encode) ++ listNodes (b.map encode)))
      (same : listRoot (a.map encode) = listRoot (b.map encode)) : a = b :=
    List.map_injective_iff.mpr injective (listRoot_inj
      (by rwa [List.length_map]) (by rwa [List.length_map]) free same)
  refine ⟨?_, ?_, ?_⟩
  · intro a b addressable addressable' free same
    exact listRoot_inj addressable addressable' free same
  · intro a b addressable addressable' free same
    exact mapped (fun _ _ => Transaction.eq_of_bytes_eq) addressable addressable' free same
  · intro a b addressable addressable' free same
    refine mapped (fun w w' encoded => ?_) addressable addressable' free same
    exact (Withdrawal.delimits_encode.append_inj (congrArg (· ++ []) encoded)).1

/-- An empty item and one byte: the root tells their order. -/
theorem listRoot_ne_of_order :
    CollisionFree (listNodes [[], [1]] ++ listNodes [[1], []]) ∧
      listRoot [[], [1]] ≠ listRoot [[1], []] := by
  have first : listNodes [[], [1]] =
      [[0xd5, 0xc2, 0x31, 1, 0x80, 0x80, 0x80, 0x80, 0x80, 0x80, 0x80, 0xc2, 0x30, 0x80, 0x80, 0x80,
        0x80, 0x80, 0x80, 0x80, 0x80, 0x80], [0xc2, 0x31, 1], [0xc2, 0x30, 0x80]] := by
    cbv
  have second : listNodes [[1], []] =
      [[0xd5, 0xc2, 0x31, 0x80, 0x80, 0x80, 0x80, 0x80, 0x80, 0x80, 0x80, 0xc2, 0x30, 1, 0x80, 0x80,
        0x80, 0x80, 0x80, 0x80, 0x80, 0x80], [0xc2, 0x31, 0x80], [0xc2, 0x30, 1]] := by
    cbv
  have free : CollisionFree (listNodes [[], [1]] ++ listNodes [[1], []]) := by
    rw [first, second]
    exact collisionFree_of_nodup (by decide +kernel)
  refine ⟨free, fun same => ?_⟩
  have equal := eq_of_listRoot_eq.1 _ _ (by decide) (by decide) free same
  cases equal

end Trie

end EngineNode
