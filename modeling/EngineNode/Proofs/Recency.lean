import EngineNode.RecencyMap
import Mathlib.Data.Finset.Card
import Mathlib.Data.List.DropRight
import Mathlib.Data.List.Induction

/-!
What a bounded map keeps of the entries that are put into it.

Entries are put into an empty map one after the other. Take their keys without repetitions, in the
order in which each was put last: the map holds the newest of them, as many as it has room for, and
under each the value that was put last.

* `mem_recentKeys_iff`, `mem_recentKeys_of_card_lt`: a key is among the newest if few enough others
  have been put after it.
* `BoundedMap.keys_ofList`: which keys are in the map, and in which order.
* `BoundedMap.get?_ofList_eq_some_iff`: what is found in the map.
-/

namespace EngineNode

/-! ### The newest keys of a row -/

section Keys

variable {κ : Type} {keys : List κ} {key : κ} {capacity : Nat}

/-- A key that a row contains comes last somewhere. -/
theorem exists_last_of_mem (member : key ∈ keys) :
    ∃ before later, keys = before ++ key :: later ∧ key ∉ later := by
  obtain ⟨later, before, split, absent⟩ :=
    List.eq_append_cons_of_mem (List.mem_reverse.mpr member)
  refine ⟨before.reverse, later.reverse, ?_, by simpa using absent⟩
  rw [← List.reverse_reverse keys, split, List.reverse_append, List.reverse_cons,
    List.append_assoc, List.singleton_append]

/-- Whether a key is left at the end of a row depends on what comes after it. -/
theorem mem_rtake_iff_of_notMem {older newer : List κ} (absent : key ∉ newer) :
    key ∈ (older ++ key :: newer).rtake capacity ↔ newer.length < capacity := by
  have length : (older ++ key :: newer).length = older.length + (newer.length + 1) := by
    rw [List.length_append, List.length_cons]
  rw [List.rtake, length]
  constructor
  · intro left
    by_contra many
    have passed : older.length + (newer.length + 1) - capacity =
        older.length + (newer.length - capacity + 1) := by omega
    rw [passed, List.drop_length_add_append, List.drop_succ_cons] at left
    exact absent (List.mem_of_mem_drop left)
  · intro few
    rw [List.drop_append_of_le_length (by omega)]
    exact List.mem_append_right _ List.mem_cons_self

variable [DecidableEq κ]

/-- The newest keys of a row, at most `capacity`, in the order in which each of them comes last. -/
def recentKeys (capacity : Nat) (keys : List κ) : List κ := keys.dedup.rtake capacity

/-- A key that is added comes last, wherever it was before. -/
theorem dedup_concat (keys : List κ) (key : κ) :
    (keys ++ [key]).dedup = keys.dedup.erase key ++ [key] := by
  induction keys with
  | nil => simp
  | cons first rest ih =>
      by_cases same : first = key
      · subst same
        rw [List.cons_append, List.dedup_cons_of_mem (List.mem_append_right _ List.mem_cons_self),
          ih]
        by_cases again : first ∈ rest
        · rw [List.dedup_cons_of_mem again]
        · rw [List.dedup_cons_of_notMem again, List.erase_cons_head,
            List.erase_of_not_mem fun there => again (List.mem_dedup.mp there)]
      · by_cases again : first ∈ rest
        · rw [List.cons_append, List.dedup_cons_of_mem (List.mem_append_left _ again), ih,
            List.dedup_cons_of_mem again]
        · have new : first ∉ rest ++ [key] := by simp [again, same]
          rw [List.cons_append, List.dedup_cons_of_notMem new, ih, List.dedup_cons_of_notMem again,
            List.erase_cons_tail (by simpa using same), List.cons_append]

/-- What is dropped behind one more place than is looked at does not matter to what is erased. -/
theorem take_erase_take (keys : List κ) (key : κ) (n : Nat) :
    ((keys.take (n + 1)).erase key).take n = (keys.erase key).take n := by
  induction keys generalizing n with
  | nil => rfl
  | cons first rest ih =>
      rw [List.take_succ_cons]
      by_cases same : first = key
      · rw [same, List.erase_cons_head, List.erase_cons_head, List.take_take, Nat.min_self]
      · have other : ¬(first == key) = true := by simpa using same
        rw [List.erase_cons_tail other, List.erase_cons_tail other]
        cases n with
        | zero => rfl
        | succ n => rw [List.take_succ_cons, List.take_succ_cons, ih]

theorem rtake_erase_rtake (nodup : keys.Nodup) (key : κ) (n : Nat) :
    ((keys.rtake (n + 1)).erase key).rtake n = (keys.erase key).rtake n := by
  have reversed {l : List κ} (nodup : l.Nodup) : (l.erase key).reverse = l.reverse.erase key := by
    rw [nodup.erase_eq_filter, (List.nodup_reverse.mpr nodup).erase_eq_filter, List.filter_reverse]
  have recent : (keys.rtake (n + 1)).Nodup := nodup.sublist (List.drop_sublist _ _)
  rw [List.rtake_eq_reverse_take_reverse, List.rtake_eq_reverse_take_reverse (keys.erase key),
    reversed recent, reversed nodup, List.rtake_eq_reverse_take_reverse keys, List.reverse_reverse,
    take_erase_take]

/-- Only the newest keys matter to which are the newest when one is added. -/
theorem recentKeys_concat (capacity : Nat) (keys : List κ) (key : κ) :
    recentKeys capacity (keys ++ [key]) =
      ((recentKeys capacity keys).erase key ++ [key]).rtake capacity := by
  rw [recentKeys, recentKeys, dedup_concat]
  cases capacity with
  | zero => simp
  | succ n =>
      rw [List.rtake_concat_succ, List.rtake_concat_succ,
        rtake_erase_rtake (List.nodup_dedup keys)]

/-- **A key is among the newest ones** if it is in the row, and fewer than `capacity` others come
after it. -/
theorem mem_recentKeys_iff : key ∈ recentKeys capacity keys ↔
    ∃ before later, keys = before ++ key :: later ∧ key ∉ later ∧
      later.toFinset.card < capacity := by
  -- Behind the last place of a key stand those that come after it, without repetitions.
  have counted {before later : List κ} (absent : key ∉ later) :
      key ∈ recentKeys capacity (before ++ key :: later) ↔ later.toFinset.card < capacity := by
    obtain ⟨older, split⟩ := List.suffix_union_right before (key :: later).dedup
    rw [recentKeys, List.dedup_append, ← split, List.dedup_cons_of_notMem absent,
      mem_rtake_iff_of_notMem fun again => absent (List.mem_dedup.mp again), List.card_toFinset]
  constructor
  · intro newest
    obtain ⟨before, later, rfl, absent⟩ :=
      exists_last_of_mem (List.mem_dedup.mp (List.mem_of_mem_drop newest))
    exact ⟨before, later, rfl, absent, (counted absent).mp newest⟩
  · rintro ⟨before, later, rfl, absent, few⟩
    exact (counted absent).mpr few

/-- A key stays among the newest ones while fewer than `capacity` others come after it, whether it
comes again or not. -/
theorem mem_recentKeys_of_card_lt (before : List κ) {later : List κ}
    (few : (later.toFinset.erase key).card < capacity) :
    key ∈ recentKeys capacity (before ++ key :: later) := by
  have member : key ∈ key :: later := List.mem_cons_self
  obtain ⟨between, last, split, absent⟩ := exists_last_of_mem member
  refine mem_recentKeys_iff.mpr ⟨before ++ between, last, ?_, absent,
    (Finset.card_le_card ?_).trans_lt few⟩
  · rw [split, List.append_assoc]
  · intro other after
    have after := List.mem_toFinset.mp after
    have differs : other ≠ key := fun same => absent (same ▸ after)
    have among : other ∈ key :: later := by
      rw [split]
      exact List.mem_append_right _ (List.mem_cons_of_mem _ after)
    exact Finset.mem_erase.mpr
      ⟨differs, List.mem_toFinset.mpr ((List.mem_cons.mp among).resolve_left differs)⟩

end Keys

/-! ### Maps that entries are put into -/

namespace BoundedMap

variable {κ α : Type} [DecidableEq κ] {capacity : Nat} {key : κ} {value : α}

/-- A map into which entries were put, one after the other. -/
def ofList (entries : List (κ × α)) : BoundedMap κ α capacity :=
  entries.foldl (fun m entry => m.insert entry.1 entry.2) default

theorem ofList_concat (entries : List (κ × α)) (entry : κ × α) :
    (ofList (entries ++ [entry]) : BoundedMap κ α capacity) =
      (ofList entries).insert entry.1 entry.2 :=
  List.foldl_concat _ _ _ _

/-- The key that is inserted stands last, and the newest keys are left. -/
theorem keys_insert_erase (m : BoundedMap κ α capacity) (key : κ) (value : α) :
    (m.insert key value).keys = (m.keys.erase key ++ [key]).rtake capacity := by
  have untrimmed : (m.map.insert key value).keys = m.keys.erase key ++ [key] :=
    RecencyMap.keys_insert_erase m.map key value
  rw [← untrimmed, List.rtake, RecencyMap.length_keys]
  exact List.map_drop

/-- **The keys of a map are the newest of those that were put.** -/
theorem keys_ofList (entries : List (κ × α)) :
    (ofList entries : BoundedMap κ α capacity).keys =
      recentKeys capacity (entries.map Prod.fst) := by
  induction entries using List.reverseRecOn with
  | nil => exact (List.rtake_nil capacity).symm
  | append_singleton entries entry ih =>
      rw [ofList_concat, keys_insert_erase, ih, List.map_append, List.map_singleton,
        recentKeys_concat]

/-- What is found under a key was put last under it. -/
theorem lookup_of_get?_ofList {entries : List (κ × α)}
    (found : (ofList entries : BoundedMap κ α capacity).get? key = some value) :
    entries.reverse.lookup key = some value := by
  induction entries using List.reverseRecOn with
  | nil => cases found
  | append_singleton entries entry ih =>
      obtain ⟨put, newest⟩ := entry
      rw [ofList_concat] at found
      have untrimmed := RecencyMap.get?_of_get?_trim found
      rw [RecencyMap.get?_insert] at untrimmed
      rw [List.reverse_append, List.reverse_singleton, List.singleton_append]
      split at untrimmed
      · rename_i same
        rw [same, List.lookup_cons_self]
        exact untrimmed
      · rename_i other
        rw [List.lookup_cons, beq_eq_false_iff_ne.mpr other]
        exact ih untrimmed

/-- What is found under a key was put under it. -/
theorem mem_of_get?_ofList {entries : List (κ × α)}
    (found : (ofList entries : BoundedMap κ α capacity).get? key = some value) :
    (key, value) ∈ entries := by
  obtain ⟨before, after, split, -⟩ := List.lookup_eq_some_iff.mp (lookup_of_get?_ofList found)
  rw [← List.mem_reverse, split]
  exact List.mem_append_right _ List.mem_cons_self

/-- **What is found in a map** is what was put last under one of the newest keys. -/
theorem get?_ofList_eq_some_iff {entries : List (κ × α)} :
    (ofList entries : BoundedMap κ α capacity).get? key = some value ↔
      key ∈ recentKeys capacity (entries.map Prod.fst) ∧
        entries.reverse.lookup key = some value := by
  rw [← keys_ofList, mem_keys_iff]
  constructor
  · intro found
    exact ⟨Option.isSome_iff_exists.mpr ⟨value, found⟩, lookup_of_get?_ofList found⟩
  · rintro ⟨there, last⟩
    obtain ⟨other, found⟩ := Option.isSome_iff_exists.mp there
    cases last.symm.trans (lookup_of_get?_ofList found)
    exact found

end BoundedMap

end EngineNode
