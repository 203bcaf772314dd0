/-!
# Maps that remember the order of insertion

A map from keys to values whose entries are kept in the order in which their keys were last
inserted, the oldest first. Inserting a key that is there already replaces its value and makes it
the newest. Keys occur once (`RecencyMap.nodup`), so looking a key up finds its only entry
(`RecencyMap.get?_eq_some_iff`), and the last insertion of a key decides about its value
(`RecencyMap.get?_insert`). The newest entries are those that trimming leaves
(`RecencyMap.trim_trim`), and each insertion adds one to them (`RecencyMap.get?_trim_insert`).

A `BoundedMap` drops its oldest entries when it holds too many (`BoundedMap.size_le`), but never the
one that was inserted last (`BoundedMap.get?_insert_self`). New keys queue up behind the others
(`BoundedMap.keys_insert`).
-/

namespace EngineNode

/-- A map whose entries are ordered by their last insertion, the oldest first. -/
structure RecencyMap (κ α : Type) [DecidableEq κ] where
  entries : List (κ × α) := []
  nodup : (entries.map Prod.fst).Nodup := by simp

namespace RecencyMap

variable {κ α β : Type} [DecidableEq κ]

instance : Inhabited (RecencyMap κ α) := ⟨{}⟩

def size (m : RecencyMap κ α) : Nat := m.entries.length

def isEmpty (m : RecencyMap κ α) : Bool := m.entries.isEmpty

/-- The value of a key. -/
def get? (m : RecencyMap κ α) (k : κ) : Option α := m.entries.lookup k

def contains (m : RecencyMap κ α) (k : κ) : Bool := (m.get? k).isSome

/-- The values, those of the oldest keys first. -/
def values (m : RecencyMap κ α) : List α := m.entries.map Prod.snd

/-- The keys, the oldest first. -/
def keys (m : RecencyMap κ α) : List κ := m.entries.map Prod.fst

/-- Keeps some of the entries. -/
def filter (m : RecencyMap κ α) (p : κ × α → Bool) : RecencyMap κ α :=
  ⟨m.entries.filter p, m.nodup.sublist (List.filter_sublist.map _)⟩

/-- Puts a key behind all others, with a new value. -/
def insert (m : RecencyMap κ α) (k : κ) (a : α) : RecencyMap κ α :=
  ⟨(m.entries.filter fun e => e.1 ≠ k) ++ [(k, a)], by
    rw [List.map_append, List.nodup_append]
    refine ⟨m.nodup.sublist (List.filter_sublist.map _), by simp, ?_⟩
    intro x hx y hy
    simp only [List.map_cons, List.map_nil, List.mem_singleton] at hy
    subst hy
    obtain ⟨e, he, rfl⟩ := List.mem_map.1 hx
    simpa using (List.mem_filter.1 he).2⟩

/-- Drops the oldest entries until at most `capacity` are left. -/
def trim (m : RecencyMap κ α) (capacity : Nat) : RecencyMap κ α :=
  ⟨m.entries.drop (m.entries.length - capacity),
    m.nodup.sublist ((List.drop_sublist _ _).map _)⟩

/-- Changes the values and keeps the order. -/
def mapValues (m : RecencyMap κ α) (f : κ → α → β) : RecencyMap κ β :=
  ⟨m.entries.map fun e => (e.1, f e.1 e.2), by
    rw [List.map_map]
    exact m.nodup⟩

/-- Inserting changes the value of the key alone. -/
theorem get?_insert (m : RecencyMap κ α) (k k' : κ) (a : α) :
    (m.insert k a).get? k' = if k' = k then some a else m.get? k' := by
  simp only [get?, insert]
  induction m.entries with
  | nil =>
    by_cases h : k' = k
    · simp [h]
    · simp [List.lookup_cons, beq_eq_false_iff_ne.2 h, h]
  | cons e rest ih =>
    obtain ⟨key, value⟩ := e
    by_cases hk : key = k
    · by_cases h : k' = k
      · simp_all
      · simp_all [List.lookup_cons, beq_eq_false_iff_ne.2 h]
    · by_cases h : k' = key
      · simp_all
      · simp_all [List.lookup_cons, beq_eq_false_iff_ne.2 h]

theorem contains_insert {m : RecencyMap κ α} {k k' : κ} {a : α} :
    (m.insert k a).contains k' = true ↔ k' = k ∨ m.contains k' = true := by
  rw [contains, contains, get?_insert]
  split
  · rename_i same
    simp [same]
  · rename_i other
    simp [other]

/-- Looking a key up finds its only entry. -/
theorem get?_eq_some_iff {m : RecencyMap κ α} {k : κ} {a : α} :
    m.get? k = some a ↔ (k, a) ∈ m.entries := by
  obtain ⟨entries, nodup⟩ := m
  simp only [get?]
  induction entries with
  | nil => simp
  | cons e rest ih =>
    obtain ⟨key, value⟩ := e
    simp only [List.map_cons, List.nodup_cons] at nodup
    rw [List.lookup_cons, List.mem_cons, Prod.mk.injEq]
    by_cases h : k = key
    · subst h
      have other : (k, a) ∉ rest := fun member =>
        nodup.1 (List.mem_map.2 ⟨(k, a), member, rfl⟩)
      simp [other, eq_comm]
    · simp [beq_eq_false_iff_ne.2 h, h, ih nodup.2]

/-- A key keeps its value if its entry is kept. -/
theorem get?_filter (m : RecencyMap κ α) (p : κ × α → Bool) (k : κ) :
    (m.filter p).get? k = (m.get? k).filter fun a => p (k, a) := by
  refine Option.ext fun a => ?_
  rw [get?_eq_some_iff, filter, List.mem_filter, ← get?_eq_some_iff, Option.filter_eq_some_iff]

theorem get?_of_get?_filter {m : RecencyMap κ α} {p : κ × α → Bool} {k : κ} {a : α}
    (h : (m.filter p).get? k = some a) : m.get? k = some a ∧ p (k, a) = true := by
  rwa [get?_filter, Option.filter_eq_some_iff] at h

theorem get?_of_get?_trim {m : RecencyMap κ α} {capacity : Nat} {k : κ} {a : α}
    (h : (m.trim capacity).get? k = some a) : m.get? k = some a := by
  rw [get?_eq_some_iff] at h ⊢
  exact List.mem_of_mem_drop h

@[simp] theorem get?_mapValues (m : RecencyMap κ α) (f : κ → α → β) (k : κ) :
    (m.mapValues f).get? k = (m.get? k).map (f k) := by
  simp only [get?, mapValues]
  induction m.entries with
  | nil => rfl
  | cons e rest ih =>
    obtain ⟨key, value⟩ := e
    by_cases h : k = key
    · simp [h]
    · simpa [List.lookup_cons, beq_eq_false_iff_ne.2 h] using ih

@[simp] theorem keys_mapValues (m : RecencyMap κ α) (f : κ → α → β) :
    (m.mapValues f).keys = m.keys := by
  simp only [keys, mapValues, List.map_map]
  rfl

theorem mem_keys_iff {m : RecencyMap κ α} {k : κ} : k ∈ m.keys ↔ m.contains k = true := by
  rw [contains, Option.isSome_iff_exists, keys, List.mem_map]
  constructor
  · rintro ⟨⟨_, a⟩, member, rfl⟩
    exact ⟨a, get?_eq_some_iff.mpr member⟩
  · rintro ⟨a, found⟩
    exact ⟨(k, a), get?_eq_some_iff.mp found, rfl⟩

/-- The key that is inserted stands last. -/
theorem keys_insert_erase (m : RecencyMap κ α) (k : κ) (a : α) :
    (m.insert k a).keys = m.keys.erase k ++ [k] := by
  have others : (m.entries.filter fun e => e.1 ≠ k).map Prod.fst = m.keys.erase k := by
    rw [keys, m.nodup.erase_eq_filter, List.filter_map]
    refine congrArg (List.map Prod.fst) (List.filter_congr fun e _ => ?_)
    exact decide_not
  rw [← others]
  simp only [keys, insert, List.map_append, List.map_cons, List.map_nil]

/-- A key that is new stands behind the others. -/
theorem keys_insert {m : RecencyMap κ α} {k : κ} (new : m.contains k = false) (a : α) :
    (m.insert k a).keys = m.keys ++ [k] := by
  have absent : k ∉ m.keys := fun there => by cases new.symm.trans (mem_keys_iff.mp there)
  rw [keys_insert_erase, List.erase_of_not_mem absent]

theorem length_keys (m : RecencyMap κ α) : m.keys.length = m.size := List.length_map _

/-- A key that is new takes a place of its own. -/
theorem size_insert (m : RecencyMap κ α) (k : κ) (a : α) :
    (m.insert k a).size = if m.contains k then m.size else m.size + 1 := by
  rw [← length_keys, ← length_keys, keys_insert_erase, List.length_append, List.length_singleton,
    List.length_erase]
  by_cases member : k ∈ m.keys
  · have some := List.length_pos_of_mem member
    rw [if_pos member, if_pos (mem_keys_iff.mp member)]
    omega
  · rw [if_neg member, if_neg fun there => member (mem_keys_iff.mpr there)]

theorem size_insert_le (m : RecencyMap κ α) (k : κ) (a : α) :
    (m.insert k a).size ≤ m.size + 1 := by
  rw [size_insert]
  split <;> omega

theorem size_trim_le (m : RecencyMap κ α) (capacity : Nat) : (m.trim capacity).size ≤ capacity := by
  simp only [size, trim, List.length_drop]
  omega

/-- Nothing is dropped where there is room. -/
theorem trim_eq_self {m : RecencyMap κ α} {capacity : Nat} (room : m.size ≤ capacity) :
    m.trim capacity = m := by
  obtain ⟨entries, nodup⟩ := m
  have none : entries.length - capacity = 0 := Nat.sub_eq_zero_of_le room
  simp only [trim, none, List.drop_zero]

/-- The newest entries are among those that are left of more. -/
theorem trim_trim (m : RecencyMap κ α) {few capacity : Nat} (fewer : few ≤ capacity) :
    (m.trim capacity).trim few = m.trim few := by
  have dropped : m.entries.length - capacity +
      ((m.entries.drop (m.entries.length - capacity)).length - few) = m.entries.length - few := by
    rw [List.length_drop]
    omega
  simp only [trim, List.drop_drop, dropped]

theorem get?_trim_mono {m : RecencyMap κ α} {few capacity : Nat} {k : κ} {a : α}
    (fewer : few ≤ capacity) (h : (m.trim few).get? k = some a) :
    (m.trim capacity).get? k = some a := by
  rw [← m.trim_trim fewer] at h
  exact get?_of_get?_trim h

/-- An entry that is among the newest is still so, with one more of them, after an insertion. -/
theorem get?_trim_insert {m : RecencyMap κ α} {few : Nat} {k k' : κ} {a a' : α}
    (other : k' ≠ k) (h : (m.trim few).get? k' = some a') :
    ((m.insert k a).trim (few + 1)).get? k' = some a' := by
  rw [get?_eq_some_iff] at h ⊢
  have parts := List.take_append_drop (m.entries.length - few) m.entries
  have newest : (k', a') ∈ m.entries.drop (m.entries.length - few) := h
  have size : (m.entries.drop (m.entries.length - few)).length ≤ few := by
    rw [List.length_drop]
    omega
  generalize m.entries.take (m.entries.length - few) = older at parts
  generalize m.entries.drop (m.entries.length - few) = recent at parts newest size
  have kept : (k', a') ∈ recent.filter fun e => e.1 ≠ k :=
    List.mem_filter.mpr ⟨newest, decide_eq_true other⟩
  have fewer : (recent.filter fun e => e.1 ≠ k).length ≤ few :=
    Nat.le_trans (List.length_filter_le _ _) size
  simp only [trim, insert, ← parts, List.filter_append, List.append_assoc, List.length_append,
    List.length_singleton]
  rw [List.drop_append_of_le_length (by omega)]
  exact List.mem_append_right _ (List.mem_append_left _ kept)

/-- What was inserted last is among the newest. -/
theorem get?_trim_insert_self (m : RecencyMap κ α) (k : κ) (a : α) {capacity : Nat}
    (room : 0 < capacity) : ((m.insert k a).trim capacity).get? k = some a := by
  have last : (m.insert k a).entries = (m.entries.filter fun e => e.1 ≠ k) ++ [(k, a)] := rfl
  refine get?_eq_some_iff.2 ?_
  simp only [trim, last]
  rw [List.drop_append_of_le_length (by simp; omega)]
  exact List.mem_append_right _ List.mem_cons_self

end RecencyMap

/-- A map that holds no more entries than its capacity. -/
structure BoundedMap (κ α : Type) [DecidableEq κ] (capacity : Nat) where
  map : RecencyMap κ α := {}
  size_le : map.size ≤ capacity := by simp [RecencyMap.size]

namespace BoundedMap

variable {κ α β : Type} [DecidableEq κ] {capacity : Nat}

instance : Inhabited (BoundedMap κ α capacity) := ⟨{}⟩

def size (m : BoundedMap κ α capacity) : Nat := m.map.size

def isEmpty (m : BoundedMap κ α capacity) : Bool := m.map.isEmpty

def get? (m : BoundedMap κ α capacity) (k : κ) : Option α := m.map.get? k

def contains (m : BoundedMap κ α capacity) (k : κ) : Bool := m.map.contains k

def values (m : BoundedMap κ α capacity) : List α := m.map.values

/-- The keys, the oldest first. -/
def keys (m : BoundedMap κ α capacity) : List κ := m.map.keys

/-- Puts a key behind all others and drops the oldest ones that are too many. -/
def insert (m : BoundedMap κ α capacity) (k : κ) (a : α) : BoundedMap κ α capacity :=
  ⟨(m.map.insert k a).trim capacity, RecencyMap.size_trim_le _ _⟩

/-- Changes the values and keeps the order. -/
def mapValues (m : BoundedMap κ α capacity) (f : κ → α → β) : BoundedMap κ β capacity :=
  ⟨m.map.mapValues f, by
    simpa [RecencyMap.size, RecencyMap.mapValues] using m.size_le⟩

/-- Changes the value of a key that is there. -/
def set (m : BoundedMap κ α capacity) (k : κ) (a : α) : BoundedMap κ α capacity :=
  m.mapValues fun key value => if key = k then a else value

/-- What is in a map after an insertion was there before or is new. -/
theorem get?_of_get?_insert {m : BoundedMap κ α capacity} {k k' : κ} {a b : α}
    (h : (m.insert k a).get? k' = some b) : k' = k ∧ b = a ∨ m.get? k' = some b := by
  have untrimmed : (m.map.insert k a).get? k' = some b := RecencyMap.get?_of_get?_trim h
  rw [RecencyMap.get?_insert] at untrimmed
  split at untrimmed
  · rename_i same
    exact .inl ⟨same, (Option.some.inj untrimmed).symm⟩
  · exact .inr untrimmed

/-- What was inserted last is not dropped. -/
theorem get?_insert_self (m : BoundedMap κ α capacity) (k : κ) (a : α) (room : 0 < capacity) :
    (m.insert k a).get? k = some a :=
  m.map.get?_trim_insert_self k a room

@[simp] theorem get?_mapValues (m : BoundedMap κ α capacity) (f : κ → α → β) (k : κ) :
    (m.mapValues f).get? k = (m.get? k).map (f k) :=
  RecencyMap.get?_mapValues m.map f k

@[simp] theorem keys_mapValues (m : BoundedMap κ α capacity) (f : κ → α → β) :
    (m.mapValues f).keys = m.keys :=
  RecencyMap.keys_mapValues m.map f

@[simp] theorem keys_set (m : BoundedMap κ α capacity) (k : κ) (a : α) :
    (m.set k a).keys = m.keys := by
  rw [set, keys_mapValues]

theorem mem_keys_iff {m : BoundedMap κ α capacity} {k : κ} : k ∈ m.keys ↔ m.contains k = true :=
  RecencyMap.mem_keys_iff

/-- A key that is new stands behind the others, of which the newest are left. -/
theorem keys_insert {m : BoundedMap κ α capacity} {k : κ} (new : m.contains k = false) (a : α) :
    (m.insert k a).keys = (m.keys ++ [k]).drop (m.keys.length + 1 - capacity) := by
  have untrimmed : (m.map.insert k a).keys = m.keys ++ [k] := RecencyMap.keys_insert new a
  have length : (m.map.insert k a).entries.length = m.keys.length + 1 := by
    have same := congrArg List.length untrimmed
    simpa [RecencyMap.keys] using same
  rw [← untrimmed, ← length]
  exact List.map_drop

@[simp] theorem get?_set (m : BoundedMap κ α capacity) (k k' : κ) (a : α) :
    (m.set k a).get? k' = if k' = k then (m.get? k').map fun _ => a else m.get? k' := by
  rw [set, get?_mapValues]
  split <;> simp

end BoundedMap

end EngineNode
