import EngineNode.Forkchoice
import EngineNode.Proofs.Wire.Values

/-!
Records that are read back from the objects that are written for them.

Fields that are absent are written in different ways. Some are null, some are left out, and lists
and byte strings may be left out where they are empty. The decoder of each field has to take what
its encoder does then for the same. A record is read field by field from whatever is found under
their names, so its fields are read back one by one, provided that no two have one name.

* `RecordDecoder.ReadsFrom`: a record is read from what stands under some names, with one lemma for
  each kind of field and one, `ReadsFrom.seq`, for records of several.
* `RecordDecoder.ReadsFrom.decode_eq_ok`: such a record is read from the object with these fields.
-/

namespace EngineNode

/-- What stands under each of some names, if anything does. -/
abbrev Entries : Type := List (String × Option Json)

namespace Entries

variable {entries others : Entries}

/-- The fields of an object in which this stands under the names. -/
def fields (entries : Entries) : List (String × Json) :=
  entries.filterMap fun entry => entry.2.map (entry.1, ·)

theorem fields_append : fields (entries ++ others) = fields entries ++ fields others :=
  List.filterMap_append

theorem fields_some (name : String) (json : Json) : fields [(name, some json)] = [(name, json)] :=
  rfl

theorem fields_presentField {α : Type} (name : String) (encode : α → Json) (value : Option α) :
    fields [(name, value.map encode)] = presentField name encode value := by
  cases value <;> rfl

theorem fields_ite (name : String) (plain : Prop) [Decidable plain] (json : Json) :
    fields [(name, if plain then none else some json)] =
      if plain then [] else [(name, json)] := by
  split <;> rfl

theorem mem_fields_iff {name : String} {json : Json} :
    (name, json) ∈ entries.fields ↔ (name, some json) ∈ entries := by
  simp only [fields, List.mem_filterMap, Option.map_eq_some_iff, Prod.mk.injEq]
  constructor
  · rintro ⟨⟨_, _⟩, member, _, rfl, rfl, rfl⟩
    exact member
  · intro member
    exact ⟨_, member, json, rfl, rfl, rfl⟩

theorem lookup_fields_of_notMem {name : String} (missing : name ∉ entries.map Prod.fst) :
    entries.fields.lookup name = none := by
  rw [List.lookup_eq_none_iff]
  rintro ⟨other, json⟩ member
  rw [bne_iff_ne]
  rintro rfl
  exact missing (List.mem_map_of_mem (mem_fields_iff.mp member))

/-- Under each of its names an object has what stands there, if no other has the name. -/
theorem lookup_fields (nodup : (entries.map Prod.fst).Nodup) {entry : String × Option Json}
    (member : entry ∈ entries) : entries.fields.lookup entry.1 = entry.2 := by
  induction entries with
  | nil => cases member
  | cons first rest ih =>
      rw [List.map_cons, List.nodup_cons] at nodup
      obtain ⟨apart, nodup⟩ := nodup
      rw [← List.singleton_append, fields_append, List.lookup_append]
      rcases List.mem_cons.mp member with rfl | member
      · rw [lookup_fields_of_notMem apart, Option.or_none]
        obtain ⟨name, written⟩ := entry
        cases written with
        | none => rfl
        | some json => exact List.lookup_cons_self
      · have other : entry.1 ∉ [first].map Prod.fst := by
          intro same
          rw [List.map_singleton, List.mem_singleton] at same
          exact apart (same ▸ List.mem_map_of_mem member)
        rw [lookup_fields_of_notMem other, Option.none_or]
        exact ih nodup member

end Entries

namespace RecordDecoder

variable {α β : Type}

/-- A record is read from what stands under some names, wherever it is found. -/
structure ReadsFrom (record : RecordDecoder α) (entries : Entries) (value : α) : Prop where
  names : entries.map Prod.fst = record.rules.map FieldRule.name
  build : ∀ field : String → Option Json, (∀ entry ∈ entries, field entry.1 = entry.2) →
    record.build field = .ok value
  check : ∀ rule ∈ record.rules, ∃ entry ∈ entries, entry.1 = rule.name ∧
    ∀ json ∈ entry.2, rule.check json = .ok ()

namespace ReadsFrom

variable {decode : Decoder α} {encode : α → Json} {name : String} {value : α}

/-! ### Fields -/

/-- A field is read from what stands under its name, or else it is what it is without. -/
theorem field {presence : Presence} {fallback : Except DecodeError α} {written : Option Json}
    (found : ∀ json ∈ written, decode json = .ok value)
    (missing : written = none → fallback = .ok value) :
    ReadsFrom ⟨[⟨name, presence, fun json => (fun _ => ()) <$> decode json⟩], fun field =>
      match field name with
      | some json => decode json
      | none => fallback⟩ [(name, written)] value := by
  refine ⟨rfl, ?_, ?_⟩
  · intro field stands
    have stands : field name = written := stands _ List.mem_cons_self
    simp only [stands]
    cases written with
    | none => exact missing rfl
    | some json => exact found json rfl
  · intro rule member
    obtain rfl := List.mem_singleton.mp member
    refine ⟨_, List.mem_cons_self, rfl, fun json stands => ?_⟩
    simp only [found json stands]
    rfl

/-- A field that is always written. -/
theorem required (back : ReadsBack decode encode) (name : String) (value : α) :
    ReadsFrom (.required name decode) [(name, some (encode value))] value :=
  field (by rintro _ ⟨⟩; exact back.read value) nofun

/-- A field that is null where it is absent. -/
theorem optional (back : ReadsBack decode encode) (name : String) (value : Option α) :
    ReadsFrom (.optional name decode) [(name, some (Json.ofOption encode value))] value :=
  field (by rintro _ ⟨⟩; exact back.ofOption value) nofun

/-- A field that may be null and is always written. -/
theorem nullable (back : ReadsBack decode encode) (name : String) (value : Option α) :
    ReadsFrom (absentField name decode) [(name, some (Json.ofOption encode value))] value :=
  field (by rintro _ ⟨⟩; exact back.ofOption value) nofun

/-- A field that is left out where it is absent. -/
theorem present (back : ReadsBack decode encode) (name : String) (value : Option α) :
    ReadsFrom (absentField name decode) [(name, value.map encode)] value := by
  refine field ?_ ?_
  · intro json written
    obtain ⟨a, rfl, rfl⟩ := Option.map_eq_some_iff.mp written
    exact back.nullable a
  · intro missing
    rw [Option.map_eq_none_iff.mp missing]

/-- A field that is always written, though it may be missing. -/
theorem defaulted (back : ReadsBack decode encode) (name : String) (fallback value : α) :
    ReadsFrom (.defaulted name decode fallback) [(name, some (encode value))] value :=
  field (by rintro _ ⟨⟩; exact back.read value) nofun

/-- A field that is left out where it is what it is without. -/
theorem omitted (back : ReadsBack decode encode) (name : String) {fallback : α} (value : α)
    {plain : Prop} [Decidable plain] (same : plain → value = fallback) :
    ReadsFrom (.defaulted name decode fallback)
      [(name, if plain then none else some (encode value))] value := by
  refine field ?_ ?_
  · intro json written
    split at written
    · cases written
    · cases written
      exact back.read value
  · intro missing
    split at missing
    · rename_i holds
      rw [same holds]
    · cases missing

/-! ### Records -/

theorem pure (value : α) : ReadsFrom (.pure value) [] value := ⟨rfl, fun _ _ => rfl, nofun⟩

/-- The fields of two records, one after the other. -/
theorem seq {f : RecordDecoder (α → β)} {x : RecordDecoder α} {entries others : Entries}
    {g : α → β} (first : f.ReadsFrom entries g) (second : x.ReadsFrom others value) :
    ReadsFrom (f <*> x) (entries ++ others) (g value) := by
  refine ⟨?_, ?_, ?_⟩
  · rw [List.map_append, first.names, second.names]
    exact List.map_append.symm
  · intro field stands
    rw [List.forall_mem_append] at stands
    change (do
      let g ← f.build field
      let a ← x.build field
      return g a) = _
    rw [first.build field stands.1, second.build field stands.2]
    rfl
  · intro rule member
    rcases List.mem_append.mp member with member | member
    · obtain ⟨entry, within, checked⟩ := first.check rule member
      exact ⟨entry, List.mem_append_left _ within, checked⟩
    · obtain ⟨entry, within, checked⟩ := second.check rule member
      exact ⟨entry, List.mem_append_right _ within, checked⟩

theorem map (g : α → β) {x : RecordDecoder α} {entries : Entries}
    (first : x.ReadsFrom entries value) : ReadsFrom (g <$> x) entries (g value) :=
  seq (pure g) first

theorem checkObject_eq_ok {rules : List FieldRule} {fields : List (String × Json)}
    (checked : ∀ entry ∈ fields, ∀ rule ∈ rules, rule.name = entry.1 →
      rule.check entry.2 = .ok ()) : checkObject rules fields = .ok () := by
  induction fields with
  | nil => rfl
  | cons entry rest ih =>
      rw [List.forall_mem_cons] at checked
      have behind := ih checked.2
      rw [checkObject]
      split
      · rename_i rule found
        have named : rule.name = entry.1 := by simpa using List.find?_some found
        rw [checked.1 rule (List.mem_of_find?_eq_some found) named, behind]
        rfl
      · rw [behind]
        rfl

/-- **A record is read from the object with its fields**, if no two have one name. -/
theorem decode_eq_ok {record : RecordDecoder α} {entries : Entries}
    (reads : record.ReadsFrom entries value) (nodup : (record.rules.map FieldRule.name).Nodup)
    (typeName : String) : record.decode typeName (.obj entries.fields) = .ok value := by
  rw [← reads.names] at nodup
  have lookup : ∀ entry ∈ entries, entries.fields.lookup entry.1 = entry.2 :=
    fun entry member => Entries.lookup_fields nodup member
  have checked : checkObject record.rules entries.fields = .ok () := by
    refine checkObject_eq_ok ?_
    rintro ⟨name, json⟩ member rule within named
    obtain ⟨entry, stands, same, passes⟩ := reads.check rule within
    refine passes json ?_
    rw [← lookup entry stands, same, named]
    exact lookup _ (Entries.mem_fields_iff.mp member)
  rw [RecordDecoder.decode, checked]
  exact reads.build _ lookup

end ReadsFrom

end RecordDecoder

end EngineNode
