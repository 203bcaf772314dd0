import EngineNode.Proofs.Trie.Sorted

/-!
Tries read off whole keys.

The entries of a node can be kept with their whole keys and a depth, up to which the keys agree.
`Trie.encodeAt?` walks the trie in this way, and gives nothing where a key would be read past its
end.

* `Trie.takeGroups?_behind`: nibble by nibble, the groups behind a path are the entries below each.
* `Trie.encodeAt?_behind`: on sorted entries the walk ends in the node that holds what is left of
  their keys.
-/

namespace EngineNode.Trie

/-- The entries at the front that have a nibble at a depth, and the entries after them. -/
def takeGroup? (depth : Nat) (nibble : Nibble) : List Entry → Option (List Entry × List Entry)
  | [] => some ([], [])
  | e :: rest =>
    match e.1[depth]? with
    | none => none
    | some first =>
      if first = nibble then
        (takeGroup? depth nibble rest).map fun taken => (e :: taken.1, taken.2)
      else some ([], e :: rest)

/-- The groups at the front for each of the nibbles, in their order. -/
def takeGroups? (depth : Nat) : List Nibble → List Entry → Option (List (List Entry))
  | [], _ => some []
  | nibble :: nibbles, entries =>
    match takeGroup? depth nibble entries with
    | none => none
    | some (group, others) => (takeGroups? depth nibbles others).map (group :: ·)

theorem weight_stripPath_cons (depth : Nat) (e : Entry) (entries : List Entry) :
    weight (stripPath depth (e :: entries)) =
      e.1.length - depth + weight (stripPath depth entries) := by
  rw [stripPath, List.map_cons, weight, List.length_drop]
  rfl

theorem stripPath_stripPath (m n : Nat) (entries : List Entry) :
    stripPath m (stripPath n entries) = stripPath (n + m) entries := by
  simp [stripPath]

theorem weight_takeGroup? {depth : Nat} {nibble : Nibble} {entries group others : List Entry}
    (taken : takeGroup? depth nibble entries = some (group, others)) :
    weight (stripPath (depth + 1) group) + group.length + weight (stripPath depth others) =
      weight (stripPath depth entries) := by
  induction entries generalizing group with
  | nil =>
      cases taken
      rfl
  | cons e rest ih =>
      rw [takeGroup?] at taken
      split at taken
      · cases taken
      · rename_i first found
        have within : depth < e.1.length := (List.getElem?_eq_some_iff.mp found).1
        split at taken
        · obtain ⟨⟨child, behind⟩, inner, same⟩ := Option.map_eq_some_iff.mp taken
          cases same
          have rests := ih inner
          rw [weight_stripPath_cons, weight_stripPath_cons, List.length_cons]
          dsimp only at rests ⊢
          omega
        · cases taken
          exact Nat.zero_add _

theorem weight_of_mem_takeGroups? {depth : Nat} {nibbles : List Nibble}
    {entries group : List Entry} {groups : List (List Entry)}
    (taken : takeGroups? depth nibbles entries = some groups) (member : group ∈ groups) :
    weight (stripPath (depth + 1) group) + group.length ≤ weight (stripPath depth entries) := by
  induction nibbles generalizing entries groups with
  | nil =>
      cases taken
      cases member
  | cons nibble nibbles ih =>
      rw [takeGroups?] at taken
      split at taken
      · cases taken
      · rename_i child others first
        obtain ⟨rests, inner, rfl⟩ := Option.map_eq_some_iff.mp taken
        have total := weight_takeGroup? first
        rcases List.mem_cons.mp member with rfl | member
        · omega
        · have := ih inner member
          omega

/-- The entries of a branch whose keys go on at a depth. -/
def beyond (depth : Nat) : List Entry → List Entry
  | e :: rest => if e.1.length = depth then rest else e :: rest
  | [] => []

theorem weight_beyond_le (depth : Nat) (entries : List Entry) :
    weight (stripPath depth (beyond depth entries)) ≤ weight (stripPath depth entries) := by
  fun_cases beyond depth entries with
  | case1 e rest ends =>
      rw [weight_stripPath_cons]
      omega
  | case2 => exact Nat.le_refl _
  | case3 => exact Nat.le_refl _

/-- The node that holds entries whose keys agree up to a depth, and nothing if a key ends before it
is read to: the first and the last key are read from the depth on, and in a branch the keys are read
at the depth. -/
def encodeAt? (entries : List Entry) (depth : Nat) : Option Bytes :=
  match entries with
  | [] => none
  | [(key, value)] =>
    if depth ≤ key.length then
      some (Rlp.encodeList (Rlp.encodeString (hexPrefix (key.drop depth) true) ++
        Rlp.encodeString value))
    else none
  | e :: e' :: rest =>
    if depth ≤ e.1.length ∧ depth ≤ ((e' :: rest).getLast (List.cons_ne_nil _ _)).1.length then
      if _ : sharedPath (stripPath depth (e :: e' :: rest)) ≠ [] then
        let shared := sharedPath (stripPath depth (e :: e' :: rest))
        (encodeAt? (e :: e' :: rest) (depth + shared.length)).map fun child =>
          Rlp.encodeList (Rlp.encodeString (hexPrefix shared false) ++ nodeReference child)
      else
        match _ : takeGroups? depth (List.finRange 16) (beyond depth (e :: e' :: rest)) with
        | none => none
        | some groups =>
          let references := groups.attach.mapM fun group =>
            if group.val.isEmpty then some (Rlp.encodeString [])
            else (encodeAt? group.val (depth + 1)).map nodeReference
          references.map fun references =>
            Rlp.encodeList (references.flatten ++
              Rlp.encodeString (if e.1.length = depth then e.2 else []))
    else none
termination_by weight (stripPath depth entries) + entries.length
decreasing_by
  · rename_i some
    have := weight_stripPath_lt (List.length_pos_iff.mpr some) (exists_of_sharedPath some)
    rw [stripPath_stripPath] at this
    omega
  · rename_i taken _
    have := weight_of_mem_takeGroups? taken group.property
    have := weight_beyond_le depth (e :: e' :: rest)
    simp only [List.length_cons]
    omega

/-! ### Groups behind a path -/

section Groups

variable {path : List Nibble} {nibble : Nibble} {entries : List Entry}

theorem mem_of_mem_splitChild {e : Entry} (member : e ∈ (splitChild nibble entries).2) :
    e ∈ entries := by
  fun_induction splitChild nibble entries with
  | case1 path value rest child others split ih =>
      rw [split] at ih
      exact List.mem_cons_of_mem _ (ih member)
  | case2 => exact member
  | case3 => exact member

/-- Behind a path the group of a nibble is taken as it is without the path. -/
theorem takeGroup?_behind (continued : ∀ e ∈ entries, e.1 ≠ []) :
    takeGroup? path.length nibble (behind path entries) =
      some (behind (path ++ [nibble]) (splitChild nibble entries).1,
        behind path (splitChild nibble entries).2) := by
  induction entries with
  | nil => rfl
  | cons e rest ih =>
      have rests := ih fun e member => continued e (List.mem_cons_of_mem _ member)
      obtain ⟨key, value⟩ := e
      cases key with
      | nil => exact absurd rfl (continued _ List.mem_cons_self)
      | cons first key =>
          have found : (path ++ first :: key)[path.length]? = some first := by simp
          simp only [behind, List.map_cons] at rests ⊢
          rw [takeGroup?, found, splitChild]
          dsimp only
          by_cases same : first = nibble
          · subst same
            rw [if_pos rfl, if_pos rfl, rests]
            simp
          · rw [if_neg same, if_neg same]
            rfl

/-- Behind a path the groups of the nibbles are those without the path. -/
theorem takeGroups?_behind {nibbles : List Nibble} (continued : ∀ e ∈ entries, e.1 ≠ []) :
    takeGroups? path.length nibbles (behind path entries) =
      some (List.zipWith (fun nibble child => behind (path ++ [nibble]) child) nibbles
        (splitChildren nibbles entries)) := by
  induction nibbles generalizing entries with
  | nil => rfl
  | cons nibble nibbles ih =>
      have others := @ih (splitChild nibble entries).2 fun e member =>
        continued e (mem_of_mem_splitChild member)
      rw [takeGroups?, takeGroup?_behind continued]
      dsimp only
      rw [others]
      rfl

theorem beyond_behind : beyond path.length (behind path entries) =
    behind path (entriesBelow entries) := by
  match entries with
  | [] => rfl
  | ([], value) :: rest =>
      simp only [behind, List.map_cons]
      rw [beyond, if_pos (by simp)]
      rfl
  | (first :: key, value) :: rest =>
      simp only [behind, List.map_cons]
      rw [beyond, if_neg (by simp)]
      rfl

theorem stripPath_behind_concat (path : List Nibble) (nibble : Nibble) (entries : List Entry) :
    stripPath (path.length + 1) (behind (path ++ [nibble]) entries) = entries := by
  have stripped := stripPath_behind (path ++ [nibble]) entries
  rwa [List.length_append, List.length_singleton] at stripped

/-- **In a branch the groups behind a path are the entries below each nibble.** -/
theorem takeGroups?_beyond (ascending : Ascending entries) :
    takeGroups? path.length (List.finRange 16) (beyond path.length (behind path entries)) =
      some ((List.finRange 16).map fun nibble =>
        behind (path ++ [nibble]) (below nibble entries)) := by
  have children := ascending.branchChildren_eq
  rw [branchChildren] at children
  rw [beyond_behind, takeGroups?_behind fun e => ascending.ne_nil_of_mem_entriesBelow, children,
    List.zipWith_map_right, List.zipWith_self]

end Groups

/-! ### The walk -/

section Walk

variable {entries : List Entry} {depth : Nat}

/-- Entries that share a path beyond the depth are walked on at its end. -/
theorem encodeAt?_of_shared (many : 2 ≤ entries.length)
    (within : ∀ e ∈ entries, depth ≤ e.1.length)
    (shared : sharedPath (stripPath depth entries) ≠ []) :
    encodeAt? entries depth =
      (encodeAt? entries (depth + (sharedPath (stripPath depth entries)).length)).map fun child =>
        Rlp.encodeList (Rlp.encodeString
          (hexPrefix (sharedPath (stripPath depth entries)) false) ++ nodeReference child) := by
  match entries, many with
  | e :: e' :: rest, _ =>
      rw [encodeAt?, if_pos ⟨within _ (by simp), within _ (by simp)⟩, dif_pos shared]

/-- Entries that share no more than the depth are walked group by group. -/
theorem encodeAt?_of_apart {groups : List (List Entry)} (many : 2 ≤ entries.length)
    (within : ∀ e ∈ entries, depth ≤ e.1.length)
    (apart : sharedPath (stripPath depth entries) = [])
    (taken : takeGroups? depth (List.finRange 16) (beyond depth entries) = some groups)
    (walked : ∀ group ∈ groups, group ≠ [] →
      encodeAt? group (depth + 1) = some (encodeNode (stripPath (depth + 1) group))) :
    encodeAt? entries depth =
      some (Rlp.encodeList ((groups.flatMap fun group =>
        nodeReference (encodeNode (stripPath (depth + 1) group))) ++
          Rlp.encodeString (valueHere (stripPath depth entries)))) := by
  have references : (groups.attach.mapM fun group =>
      if group.val.isEmpty then some (Rlp.encodeString [])
      else (encodeAt? group.val (depth + 1)).map nodeReference) =
        some (groups.map fun group =>
          nodeReference (encodeNode (stripPath (depth + 1) group))) := by
    have each : (fun group : { group // group ∈ groups } =>
        if group.val.isEmpty then some (Rlp.encodeString [])
        else (encodeAt? group.val (depth + 1)).map nodeReference) =
          fun group => pure (nodeReference (encodeNode (stripPath (depth + 1) group.val))) := by
      funext ⟨group, member⟩
      cases group with
      | nil => exact congrArg some nodeReference_encodeNode_nil.symm
      | cons e rest =>
          have node := walked _ member (List.cons_ne_nil e rest)
          dsimp only
          rw [if_neg (by simp), node]
          rfl
    rw [each, List.mapM_pure, List.attach_map_val
      (f := fun group => nodeReference (encodeNode (stripPath (depth + 1) group)))]
    rfl
  match entries, many with
  | e :: e' :: rest, _ =>
      have value : valueHere (stripPath depth (e :: e' :: rest)) =
          if e.1.length = depth then e.2 else [] := by
        have := within e List.mem_cons_self
        rw [stripPath, List.map_cons]
        split
        · rename_i ends
          rw [List.drop_eq_nil_of_le ends.le]
          rfl
        · rename_i goes
          rw [List.drop_eq_getElem_cons (by omega)]
          rfl
      rw [encodeAt?, if_pos ⟨within _ (by simp), within _ (by simp)⟩, dif_neg (not_not.mpr apart)]
      split
      · rename_i none
        rw [none] at taken
        cases taken
      · rename_i groups' found
        rw [found] at taken
        cases taken
        dsimp only
        rw [references, value, List.flatMap_def]
        rfl

end Walk

/-- **On sorted entries the walk ends in the node that holds what is left of their keys**, and reads
no key past its end. -/
theorem encodeAt?_behind {entries : List Entry} (ascending : Ascending entries)
    (filled : entries ≠ []) (path : List Nibble) :
    encodeAt? (behind path entries) path.length = some (encodeNode entries) := by
  have within (entries : List Entry) (path : List Nibble) :
      ∀ e ∈ behind path entries, path.length ≤ e.1.length := by
    intro e member
    obtain ⟨e', -, rfl⟩ := List.mem_map.mp member
    simp
  induction ascending using Ascending.induction generalizing path with
  | empty => exact absurd rfl filled
  | leaf key value =>
      rw [behind, List.map_singleton, encodeAt?, if_pos (by simp), List.drop_left, encodeNode_leaf]
  | extension shared entries ascending nonempty many whole ih =>
      have left : stripPath path.length (behind path (behind shared entries)) =
          behind shared entries := stripPath_behind path _
      have child := ih (by rintro rfl; cases many) (path ++ shared)
      rw [List.length_append, behind_append] at child
      rw [encodeAt?_of_shared (by simpa using many) (within _ path)
        (by rw [left, whole]; exact nonempty), left, whole, child,
        encodeNode_behind nonempty many whole]
      rfl
  | branch entries ascending many apart ih =>
      have left := stripPath_behind path entries
      have walked : ∀ group ∈ (List.finRange 16).map (fun nibble =>
          behind (path ++ [nibble]) (below nibble entries)), group ≠ [] →
            encodeAt? group (path.length + 1) =
              some (encodeNode (stripPath (path.length + 1) group)) := by
        intro group member some
        obtain ⟨nibble, -, rfl⟩ := List.mem_map.mp member
        have child := ih nibble (by intro none; rw [none] at some; exact some rfl)
          (path ++ [nibble])
        rw [List.length_append, List.length_singleton] at child
        rw [stripPath_behind_concat, child]
      rw [encodeAt?_of_apart (by simpa using many) (within _ path) (by rw [left, apart])
        (takeGroups?_beyond ascending) walked, left, encodeNode_branch ascending many apart,
        List.flatMap_map]
      simp only [stripPath_behind_concat]

end EngineNode.Trie
