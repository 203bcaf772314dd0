import EngineNode.Proofs.Trie.Path
import Mathlib.Data.List.Lex
import Mathlib.Data.List.Pairwise
import Mathlib.Data.List.Sort

/-!
The shape of a trie over sorted entries.

* `Trie.ascending_sortEntries`: entries with different keys are brought into ascending order.
* `Trie.Ascending.sharedPath_isPrefix`, `Trie.isPrefix_sharedPath`: the path that the first and the
  last key share is the longest that all keys begin with.
* `Trie.Ascending.branchChildren_eq`: the entries that stand together below one nibble are all whose
  keys begin with it.
* `Trie.Ascending.induction`: sorted entries are those of no node, of a leaf, of an extension or of
  a branch.
-/

namespace EngineNode.Trie

/-! ### The order of keys -/

theorem keyLe_iff (a b : List Nibble) : keyLe a b = true ↔ a ≤ b := by
  rw [← not_lt]
  induction a generalizing b with
  | nil => simp [keyLe]
  | cons x a ih =>
      cases b with
      | nil => simp [keyLe]
      | cons y b =>
          rw [List.cons_lt_cons_iff]
          simp only [keyLe, Bool.or_eq_true, decide_eq_true_eq, Bool.and_eq_true, beq_iff_eq, ih b,
            not_or, not_and, not_lt]
          constructor
          · rintro (below | ⟨rfl, le⟩)
            · exact ⟨below.le, fun same => absurd same below.ne'⟩
            · exact ⟨le_rfl, fun _ => le⟩
          · rintro ⟨le, tails⟩
            rcases le.lt_or_eq with below | same
            · exact .inl below
            · exact .inr ⟨same, tails same.symm⟩

/-- Keys in ascending order, none of them twice. -/
def Ascending (entries : List Entry) : Prop :=
  entries.Pairwise fun e e' => e.1 < e'.1

/-- Whether the key of an entry goes before another one's or is the same. -/
abbrev KeyOrder : Entry → Entry → Prop := Order.Preimage Prod.fst (· ≤ ·)

theorem insertSorted_eq (entry : Entry) (entries : List Entry) :
    insertSorted entry entries = entries.orderedInsert KeyOrder entry := by
  induction entries with
  | nil => rfl
  | cons e rest ih => simp only [insertSorted, List.orderedInsert_cons, keyLe_iff, ih]; rfl

theorem sortEntries_eq (entries : List Entry) :
    sortEntries entries = entries.insertionSort KeyOrder := by
  induction entries with
  | nil => rfl
  | cons e rest ih =>
      rw [List.insertionSort_cons, ← ih, ← insertSorted_eq]
      rfl

theorem perm_sortEntries (entries : List Entry) : (sortEntries entries).Perm entries := by
  rw [sortEntries_eq]
  exact List.perm_insertionSort KeyOrder entries

/-- **Entries with different keys are brought into ascending order.** -/
theorem ascending_sortEntries {entries : List Entry} (nodup : (entries.map Prod.fst).Nodup) :
    Ascending (sortEntries entries) := by
  have sorted : (sortEntries entries).Pairwise KeyOrder := by
    rw [sortEntries_eq]
    exact List.pairwise_insertionSort KeyOrder entries
  have distinct : (sortEntries entries).Pairwise fun e e' => e.1 ≠ e'.1 :=
    List.pairwise_map.mp (((perm_sortEntries entries).map Prod.fst).nodup_iff.mpr nodup)
  exact (sorted.and distinct).imp fun both => lt_of_le_of_ne both.1 both.2

/-! ### Entries behind a path -/

/-- Entries whose keys continue a path. -/
def behind (path : List Nibble) (entries : List Entry) : List Entry :=
  entries.map fun e => (path ++ e.1, e.2)

@[simp] theorem length_behind (path : List Nibble) (entries : List Entry) :
    (behind path entries).length = entries.length := List.length_map ..

@[simp] theorem behind_nil (entries : List Entry) : behind [] entries = entries := by
  simp [behind]

theorem behind_append (path path' : List Nibble) (entries : List Entry) :
    behind (path ++ path') entries = behind path (behind path' entries) := by
  simp [behind]

@[simp] theorem stripPath_behind (path : List Nibble) (entries : List Entry) :
    stripPath path.length (behind path entries) = entries := by
  rw [behind, stripPath, List.map_map]
  refine (List.map_congr_left fun e _ => ?_).trans (List.map_id entries)
  exact Prod.ext List.drop_left rfl

/-- Entries whose keys all begin with a path stand behind it. -/
theorem behind_stripPath {path : List Nibble} {entries : List Entry}
    (shared : ∀ e ∈ entries, path <+: e.1) :
    behind path (stripPath path.length entries) = entries := by
  rw [behind, stripPath, List.map_map]
  refine (List.map_congr_left fun e member => ?_).trans (List.map_id entries)
  obtain ⟨rest, key⟩ := shared e member
  exact Prod.ext (by simp [← key]) rfl

theorem append_lt_append_iff (path : List Nibble) {a b : List Nibble} :
    path ++ a < path ++ b ↔ a < b := by
  induction path with
  | nil => rfl
  | cons x path ih => rw [List.cons_append, List.cons_append, List.cons_lt_cons_self, ih]

@[simp] theorem ascending_behind (path : List Nibble) {entries : List Entry} :
    Ascending (behind path entries) ↔ Ascending entries := by
  simp only [Ascending, behind, List.pairwise_map, append_lt_append_iff]

/-! ### Shared paths -/

/-- What two keys begin with, every key between them begins with. -/
theorem commonPrefix_isPrefix {a b c : List Nibble} (low : a ≤ b) (high : b ≤ c) :
    commonPrefix a c <+: b := by
  induction a generalizing b c with
  | nil => exact List.nil_prefix
  | cons x a ih =>
      cases c with
      | nil => exact List.nil_prefix
      | cons z c =>
          rw [commonPrefix]
          split
          · rename_i same
            subst same
            cases b with
            | nil => exact absurd (List.nil_lt_cons x a) (not_lt.mpr low)
            | cons y b =>
                rw [← not_lt, List.cons_lt_cons_iff, not_or] at low high
                obtain rfl : x = y := le_antisymm (not_lt.mp low.1) (not_lt.mp high.1)
                refine List.cons_prefix_cons.mpr ⟨rfl, ih ?_ ?_⟩
                · exact not_lt.mp fun below => low.2 ⟨rfl, below⟩
                · exact not_lt.mp fun above => high.2 ⟨rfl, above⟩
          · exact List.nil_prefix

theorem isPrefix_commonPrefix {path a b : List Nibble} (left : path <+: a) (right : path <+: b) :
    path <+: commonPrefix a b := by
  induction path generalizing a b with
  | nil => exact List.nil_prefix
  | cons x path ih =>
      obtain ⟨rest, rfl⟩ := left
      obtain ⟨rest', rfl⟩ := right
      rw [List.cons_append, List.cons_append, commonPrefix, if_pos rfl]
      exact List.cons_prefix_cons.mpr ⟨rfl, ih ⟨rest, rfl⟩ ⟨rest', rfl⟩⟩

theorem sharedPath_eq {entries : List Entry} (nonempty : entries ≠ []) :
    sharedPath entries =
      commonPrefix (entries.head nonempty).1 (entries.getLast nonempty).1 := by
  rw [sharedPath, List.head?_eq_some_head nonempty, List.getLast?_eq_some_getLast nonempty]

/-- Whatever all keys begin with, the first and the last share. -/
theorem isPrefix_sharedPath {entries : List Entry} (nonempty : entries ≠ []) {path : List Nibble}
    (shared : ∀ e ∈ entries, path <+: e.1) : path <+: sharedPath entries := by
  rw [sharedPath_eq nonempty]
  exact isPrefix_commonPrefix (shared _ (List.head_mem nonempty))
    (shared _ (List.getLast_mem nonempty))

/-- **All keys begin with what the first and the last share.** -/
theorem Ascending.sharedPath_isPrefix {entries : List Entry} (ascending : Ascending entries)
    {e : Entry} (member : e ∈ entries) : sharedPath entries <+: e.1 := by
  have nonempty : entries ≠ [] := List.ne_nil_of_mem member
  have ordered : entries.Pairwise KeyOrder := ascending.imp fun below => below.le
  rw [sharedPath_eq nonempty]
  exact commonPrefix_isPrefix (ordered.rel_head member) (ordered.rel_getLast member)

/-! ### Children -/

/-- The entries whose keys begin with a nibble, without that nibble. -/
def below (nibble : Nibble) (entries : List Entry) : List Entry :=
  entries.filterMap fun e =>
    match e.1 with
    | [] => none
    | first :: path => if first = nibble then some (path, e.2) else none

section Below

variable {nibble nibble' : Nibble} {entries : List Entry}

@[simp] theorem below_nil : below nibble [] = [] := rfl

@[simp] theorem below_cons_nil (value : Bytes) :
    below nibble (([], value) :: entries) = below nibble entries := rfl

theorem below_cons_self (path : List Nibble) (value : Bytes) :
    below nibble ((nibble :: path, value) :: entries) = (path, value) :: below nibble entries := by
  simp [below]

theorem below_cons_of_ne (other : nibble' ≠ nibble) (path : List Nibble) (value : Bytes) :
    below nibble ((nibble' :: path, value) :: entries) = below nibble entries := by
  simp [below, other]

theorem mem_below {path : List Nibble} {value : Bytes} :
    (path, value) ∈ below nibble entries ↔ (nibble :: path, value) ∈ entries := by
  induction entries with
  | nil => simp
  | cons e rest ih =>
      obtain ⟨key, item⟩ := e
      cases key with
      | nil => simp [ih]
      | cons first key =>
          by_cases same : first = nibble
          · subst same
            rw [below_cons_self, List.mem_cons, ih]
            simp
          · rw [below_cons_of_ne same, ih]
            simp [Ne.symm same]

theorem behind_below_sublist (nibble : Nibble) (entries : List Entry) :
    (behind [nibble] (below nibble entries)).Sublist entries := by
  induction entries with
  | nil => exact List.Sublist.slnil
  | cons e rest ih =>
      obtain ⟨key, item⟩ := e
      cases key with
      | nil => exact ih.cons _
      | cons first key =>
          by_cases same : first = nibble
          · subst same
            rw [below_cons_self]
            exact ih.cons_cons _
          · rw [below_cons_of_ne same]
            exact ih.cons _

theorem ascending_below (ascending : Ascending entries) : Ascending (below nibble entries) :=
  (ascending_behind [nibble]).mp (ascending.sublist (behind_below_sublist nibble entries))

theorem below_eq_nil (others : ∀ e ∈ entries, e.1.head? ≠ some nibble) :
    below nibble entries = [] := by
  refine List.eq_nil_iff_forall_not_mem.mpr ?_
  rintro ⟨path, value⟩ member
  exact others _ (mem_below.mp member) rfl

theorem below_filter (other : nibble' ≠ nibble) :
    below nibble (entries.filter fun e => e.1.head? ≠ some nibble') = below nibble entries := by
  induction entries with
  | nil => rfl
  | cons e rest ih =>
      obtain ⟨key, item⟩ := e
      cases key with
      | nil => simpa using ih
      | cons first key =>
          by_cases same : first = nibble'
          · subst same
            rw [below_cons_of_ne other, List.filter_cons_of_neg (by simp), ih]
          · rw [List.filter_cons_of_pos (by simp [same])]
            by_cases found : first = nibble
            · subst found
              rw [below_cons_self, below_cons_self, ih]
            · rw [below_cons_of_ne found, below_cons_of_ne found, ih]

end Below

theorem head_le_of_lt {first first' : Nibble} {path path' : List Nibble}
    (lt : first :: path < first' :: path') : first ≤ first' := by
  rcases List.cons_lt_cons_iff.mp lt with below | ⟨same, -⟩
  · exact below.le
  · exact same.le

/-- A group that is taken off the front is all that begins with the nibble, if nothing begins with a
smaller one. -/
theorem splitChild_eq {nibble : Nibble} {entries : List Entry} (ascending : Ascending entries)
    (above : ∀ e ∈ entries, ∃ first, e.1.head? = some first ∧ nibble ≤ first) :
    splitChild nibble entries =
      (below nibble entries, entries.filter fun e => e.1.head? ≠ some nibble) := by
  induction entries with
  | nil => rfl
  | cons e rest ih =>
      obtain ⟨before, ordered⟩ := List.pairwise_cons.mp ascending
      obtain ⟨key, value⟩ := e
      cases key with
      | nil =>
          obtain ⟨first, none, -⟩ := above _ List.mem_cons_self
          cases none
      | cons first path =>
          by_cases same : first = nibble
          · subst same
            have rests := ih ordered fun e member => above e (List.mem_cons_of_mem _ member)
            rw [splitChild, if_pos rfl, rests, below_cons_self, List.filter_cons_of_neg (by simp)]
          · obtain ⟨_, found, low⟩ := above _ List.mem_cons_self
            cases found
            have others : ∀ e ∈ rest, e.1.head? ≠ some nibble := by
              rintro ⟨key', value'⟩ member begins
              cases key' with
              | nil => cases begins
              | cons first' path' =>
                  cases begins
                  exact same (le_antisymm (head_le_of_lt (before _ member)) low)
            rw [splitChild, if_neg same, below_cons_of_ne same, below_eq_nil others,
              List.filter_cons_of_pos (by simp [same]),
              List.filter_eq_self.mpr fun e member => by simpa using others e member]

/-- **The groups that are taken off the front, nibble by nibble, are the entries below each.** -/
theorem splitChildren_eq {nibbles : List Nibble} {entries : List Entry}
    (ascending : Ascending entries) (increasing : nibbles.Pairwise (· < ·))
    (covered : ∀ e ∈ entries, ∃ first ∈ nibbles, e.1.head? = some first) :
    splitChildren nibbles entries = nibbles.map (below · entries) := by
  induction nibbles generalizing entries with
  | nil => rfl
  | cons nibble nibbles ih =>
      obtain ⟨smallest, increasing⟩ := List.pairwise_cons.mp increasing
      have above : ∀ e ∈ entries, ∃ first, e.1.head? = some first ∧ nibble ≤ first := by
        intro e member
        obtain ⟨first, among, begins⟩ := covered e member
        refine ⟨first, begins, ?_⟩
        rcases List.mem_cons.mp among with rfl | among
        · exact le_rfl
        · exact (smallest first among).le
      have others := ih (ascending.filter fun e => e.1.head? ≠ some nibble) increasing (by
        intro e member
        obtain ⟨member, other⟩ := List.mem_filter.mp member
        obtain ⟨first, among, begins⟩ := covered e member
        refine ⟨first, (List.mem_cons.mp among).resolve_left ?_, begins⟩
        rintro rfl
        simp [begins] at other)
      rw [splitChildren, splitChild_eq ascending above, List.map_cons]
      dsimp only
      rw [others]
      refine congrArg (_ :: ·) (List.map_congr_left fun nibble' among => ?_)
      exact below_filter (smallest nibble' among).ne

theorem below_entriesBelow (nibble : Nibble) (entries : List Entry) :
    below nibble (entriesBelow entries) = below nibble entries := by
  fun_cases entriesBelow entries with
  | case1 value rest => rfl
  | case2 => rfl

/-- Behind the first of sorted entries no key is empty. -/
theorem Ascending.ne_nil_of_mem_entriesBelow {entries : List Entry} (ascending : Ascending entries)
    {e : Entry} (member : e ∈ entriesBelow entries) : e.1 ≠ [] := by
  intro empty
  have first : ∀ e' rest, entries = e' :: rest → e ∈ rest → False := by
    rintro e' rest rfl member
    have before := (List.pairwise_cons.mp ascending).1 e member
    rw [empty] at before
    exact List.not_lt_nil e'.1 before
  cases entries with
  | nil => cases member
  | cons e' rest =>
      obtain ⟨key, value⟩ := e'
      cases key with
      | nil => exact first _ _ rfl member
      | cons nibble path =>
          rcases List.mem_cons.mp member with rfl | member
          · cases empty
          · exact first _ _ rfl member

/-- **Each child of a branch holds all entries below its nibble.** -/
theorem Ascending.branchChildren_eq {entries : List Entry} (ascending : Ascending entries) :
    branchChildren entries = (List.finRange 16).map (below · entries) := by
  have sub : Ascending (entriesBelow entries) := by
    refine List.Pairwise.sublist ?_ ascending
    fun_cases entriesBelow entries with
    | case1 value rest => exact List.sublist_cons_self _ _
    | case2 => exact List.Sublist.refl _
  rw [branchChildren, splitChildren_eq sub (by decide)]
  · exact List.map_congr_left fun nibble _ => below_entriesBelow nibble entries
  · intro e member
    obtain ⟨first, path, key⟩ :=
      List.exists_cons_of_ne_nil (ascending.ne_nil_of_mem_entriesBelow member)
    exact ⟨first, List.mem_finRange first, by rw [key]; rfl⟩

/-! ### Nodes -/

/-- What stands for no entries is short enough to stand for itself. -/
theorem nodeReference_encodeNode_nil : nodeReference (encodeNode []) = Rlp.encodeString [] := by
  rw [encodeNode]
  rfl

theorem encodeNode_leaf (path : List Nibble) (value : Bytes) :
    encodeNode [(path, value)] =
      Rlp.encodeList (Rlp.encodeString (hexPrefix path true) ++ Rlp.encodeString value) := by
  rw [encodeNode]

/-- Several entries behind the path that they share are an extension. -/
theorem encodeNode_behind {path : List Nibble} {entries : List Entry} (some : path ≠ [])
    (many : 2 ≤ entries.length) (shared : sharedPath (behind path entries) = path) :
    encodeNode (behind path entries) =
      Rlp.encodeList (Rlp.encodeString (hexPrefix path false) ++
        nodeReference (encodeNode entries)) := by
  match entries, many with
  | e :: e' :: rest, _ =>
      have stripped := stripPath_behind path (e :: e' :: rest)
      simp only [behind, List.map_cons] at shared stripped ⊢
      rw [encodeNode, dif_pos (by rwa [shared])]
      simp only [shared, stripped]

/-- Several entries that share no path are a branch. -/
theorem encodeNode_branch {entries : List Entry} (ascending : Ascending entries)
    (many : 2 ≤ entries.length) (apart : sharedPath entries = []) :
    encodeNode entries =
      Rlp.encodeList (((List.finRange 16).flatMap fun nibble =>
        nodeReference (encodeNode (below nibble entries))) ++
          Rlp.encodeString (valueHere entries)) := by
  have reference (child : List Entry) :
      (if child.isEmpty then Rlp.encodeString [] else nodeReference (encodeNode child)) =
        nodeReference (encodeNode child) := by
    cases child with
    | nil => exact nodeReference_encodeNode_nil.symm
    | cons e rest => rfl
  match entries, many with
  | e :: e' :: rest, _ =>
      rw [encodeNode, dif_neg (by simpa using apart)]
      dsimp only
      simp only [reference]
      rw [List.attach_map_val (f := fun child => nodeReference (encodeNode child)),
        ascending.branchChildren_eq, List.map_map, List.flatMap_def]
      rfl

/-- **Sorted entries are none, one, several behind the path that they share, or several that share
no path**, and each child of a branch holds fewer of their nibbles. -/
@[elab_as_elim]
theorem Ascending.induction {motive : (entries : List Entry) → Ascending entries → Prop}
    (empty : motive [] List.Pairwise.nil)
    (leaf : ∀ path value, motive [(path, value)] (List.pairwise_singleton _ _))
    (extension : ∀ path entries (ascending : Ascending entries), path ≠ [] → 2 ≤ entries.length →
      sharedPath (behind path entries) = path → motive entries ascending →
        motive (behind path entries) ((ascending_behind path).mpr ascending))
    (branch : ∀ entries (ascending : Ascending entries), 2 ≤ entries.length →
      sharedPath entries = [] →
        (∀ nibble, motive (below nibble entries) (ascending_below ascending)) →
          motive entries ascending)
    {entries : List Entry} (ascending : Ascending entries) : motive entries ascending := by
  induction size : weight entries + entries.length using Nat.strongRecOn generalizing entries with
  | ind n ih =>
      subst size
      match entries, ascending with
      | [], _ => exact empty
      | [(path, value)], _ => exact leaf path value
      | e :: e' :: rest, ascending =>
          by_cases apart : sharedPath (e :: e' :: rest) = []
          · refine branch _ ascending (by simp) apart fun nibble => ?_
            have child : below nibble (e :: e' :: rest) ∈ branchChildren (e :: e' :: rest) := by
              rw [ascending.branchChildren_eq]
              exact List.mem_map_of_mem (List.mem_finRange nibble)
            have smaller := weight_of_mem_branchChildren child
            refine ih _ ?_ (ascending_below ascending) rfl
            simp only [List.length_cons]
            omega
          · have whole := behind_stripPath fun e member =>
              ascending.sharedPath_isPrefix (e := e) member
            have sub : Ascending (stripPath (sharedPath (e :: e' :: rest)).length
                (e :: e' :: rest)) := by
              rwa [← ascending_behind (sharedPath (e :: e' :: rest)), whole]
            have smaller := weight_stripPath_lt (List.length_pos_iff.mpr apart)
              (exists_of_sharedPath apart)
            have found := extension (sharedPath (e :: e' :: rest)) _ sub apart (by simp)
              (by rw [whole]) (ih _ (by rw [length_stripPath]; omega) sub rfl)
            simpa only [whole] using found

/-! ### Lists -/

theorem key_injective {i j : Nat} (same : nibbles (Rlp.encodeNat i) = nibbles (Rlp.encodeNat j)) :
    i = j :=
  Bytes.ofNat_injective (Rlp.encodeString_injective (nibbles_injective same))

theorem mem_listEntries {items : List Bytes} {e : Entry} :
    e ∈ listEntries items ↔
      ∃ (i : Nat) (within : i < items.length), (nibbles (Rlp.encodeNat i), items[i]) = e :=
  List.mem_mapIdx

/-- **The keys of the items of a list are different.** -/
theorem nodup_listEntries (items : List Bytes) : ((listEntries items).map Prod.fst).Nodup := by
  rw [List.Nodup, List.pairwise_iff_getElem]
  intro i j hi hj before same
  simp only [listEntries, List.getElem_map, List.getElem_mapIdx] at same
  exact before.ne (key_injective same)

theorem ascending_listEntries (items : List Bytes) :
    Ascending (sortEntries (listEntries items)) :=
  ascending_sortEntries (nodup_listEntries items)

end EngineNode.Trie
