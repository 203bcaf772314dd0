import EngineNode.Proofs.Json.Literals

/-!
Documents as they are written.

`Written` is the grammar of documents: a value with its blanks and its literals, of which it is
known that they are literals. It has a text, and for every place where that text may start a tree.
The parser accepts exactly these texts, and gives them their trees.

* `Written.text`, `Written.raw`: the text of a document, and its tree at a place.
* `value?_written`: what the parser accepts is written.
* `value?_text`: it finds a written value wherever it stands, in front of what may stand behind it.
* `parse?_eq_some_iff`: the documents are the written values with blanks around them.
-/

namespace EngineNode.Json.Raw

/-! ### The grammar -/

/-- The name of a field, with what stands between it and the value. -/
structure Label where
  name : StringText
  before : Blanks
  after : Blanks

mutual

/-- A value as it is written. -/
inductive Written where
  | null
  | bool (value : Bool)
  | number (literal : NumberText)
  | string (content : StringText)
  | emptyArray (blanks : Blanks)
  | array (blanks : Blanks) (items : Items)
  | emptyObject (blanks : Blanks)
  | object (blanks : Blanks) (fields : Fields)

/-- The items of an array up to its closing bracket. -/
inductive Items where
  | last (item : Written) (after : Blanks)
  | more (item : Written) (after before : Blanks) (rest : Items)

/-- The fields of an object up to its closing brace. -/
inductive Fields where
  | last (label : Label) (value : Written) (after : Blanks)
  | more (label : Label) (value : Written) (after before : Blanks) (rest : Fields)

end

def Label.text (label : Label) : List Char :=
  '"' :: (label.name.val ++ ['"']) ++ label.before.val ++ ':' :: label.after.val

mutual

def Written.text : Written → List Char
  | .null => "null".toList
  | .bool true => "true".toList
  | .bool false => "false".toList
  | .number literal => literal.val
  | .string content => '"' :: (content.val ++ ['"'])
  | .emptyArray blanks => '[' :: blanks.val ++ [']']
  | .array blanks items => '[' :: blanks.val ++ items.text
  | .emptyObject blanks => '\x7b' :: blanks.val ++ ['\x7d']
  | .object blanks fields => '\x7b' :: blanks.val ++ fields.text

def Items.text : Items → List Char
  | .last item after => item.text ++ after.val ++ [']']
  | .more item after before rest => item.text ++ after.val ++ ',' :: before.val ++ rest.text

def Fields.text : Fields → List Char
  | .last label value after => label.text ++ value.text ++ after.val ++ ['\x7d']
  | .more label value after before rest =>
    label.text ++ value.text ++ after.val ++ ',' :: before.val ++ rest.text

end

mutual

/-- The tree of a value that starts at a place. -/
def Written.raw (p : Position) : Written → Raw
  | .null => .null p
  | .bool value => .bool p value
  | .number literal => .number p literal.val
  | .string content => .string p content.val
  | .emptyArray _ => .array p []
  | .array blanks items => .array p (items.raws (p.over ('[' :: blanks.val)))
  | .emptyObject _ => .object p []
  | .object blanks fields => .object p (fields.raws (p.over ('\x7b' :: blanks.val)))

def Items.raws (p : Position) : Items → List Raw
  | .last item _ => [item.raw p]
  | .more item after before rest =>
    item.raw p :: rest.raws (p.over (item.text ++ after.val ++ ',' :: before.val))

def Fields.raws (p : Position) : Fields → List ((Position × List Char) × Raw)
  | .last label value _ => [((p, label.name.val), value.raw (p.over label.text))]
  | .more label value after before rest =>
    ((p, label.name.val), value.raw (p.over label.text)) ::
      rest.raws (p.over (label.text ++ value.text ++ after.val ++ ',' :: before.val))

end

/-! ### What is accepted is written -/

open Cursor

/-- What the three parsers accept, with some fuel. -/
structure Accepts (fuel : Nat) : Prop where
  value : ∀ cursor raw next, value? fuel cursor = some (raw, next) →
    ∃ w : Written, cursor.Passes w.text next ∧ raw = w.raw cursor.position
  items : ∀ cursor raws next, items? fuel cursor = some (raws, next) →
    ∃ items : Items, cursor.Passes items.text next ∧ raws = items.raws cursor.position
  fields : ∀ cursor raws next, fields? fuel cursor = some (raws, next) →
    ∃ fields : Fields, cursor.Passes fields.text next ∧ raws = fields.raws cursor.position

theorem Accepts.items_succ {fuel : Nat} (accepts : Accepts fuel) {cursor next : Cursor}
    {raws : List Raw} (found : items? (fuel + 1) cursor = some (raws, next)) :
    ∃ items : Items, cursor.Passes items.text next ∧ raws = items.raws cursor.position := by
  rw [items?] at found
  obtain ⟨⟨raw, behind⟩, first, found⟩ := Option.bind_eq_some_iff.mp found
  obtain ⟨item, passed, rfl⟩ := accepts.value _ _ _ first
  obtain ⟨after, blanks⟩ := passes_skipBlanks behind
  have passed := passed.trans blanks
  dsimp only at found
  split at found
  · rename_i comma
    obtain ⟨⟨raws, last⟩, others, made⟩ := Option.bind_eq_some_iff.mp found
    cases made
    obtain ⟨rest, passed', rfl⟩ := accepts.items _ _ _ others
    obtain ⟨before, blanks'⟩ := passes_skipBlanks behind.skipBlanks.skip
    have passed := (passed.trans (passes_skip comma)).trans blanks'
    refine ⟨.more item after before rest, ?_, ?_⟩
    · simpa [Items.text] using passed.trans passed'
    · rw [Items.raws, passed.position]
      simp
  · rename_i bracket
    cases found
    exact ⟨.last item after, passed.trans (passes_skip bracket), rfl⟩
  · cases found

theorem Accepts.fields_succ {fuel : Nat} (accepts : Accepts fuel) {cursor next : Cursor}
    {raws : List ((Position × List Char) × Raw)}
    (found : fields? (fuel + 1) cursor = some (raws, next)) :
    ∃ fields : Fields, cursor.Passes fields.text next ∧ raws = fields.raws cursor.position := by
  rw [fields?] at found
  split at found
  case h_2 => cases found
  rename_i quote
  obtain ⟨⟨content, behind⟩, named, found⟩ := Option.bind_eq_some_iff.mp found
  obtain ⟨name, rfl, passed⟩ := passes_string named
  have passed := (passes_skip quote).trans passed
  obtain ⟨before, blanks⟩ := passes_skipBlanks behind
  have passed := passed.trans blanks
  dsimp only at found
  split at found
  case h_2 => cases found
  rename_i colon
  obtain ⟨⟨raw, behind'⟩, valued, found⟩ := Option.bind_eq_some_iff.mp found
  obtain ⟨value, passed', rfl⟩ := accepts.value _ _ _ valued
  obtain ⟨between, blanks⟩ := passes_skipBlanks behind.skipBlanks.skip
  let label : Label := ⟨name, before, between⟩
  have labelled : cursor.Passes label.text behind.skipBlanks.skip.skipBlanks := by
    simpa [Label.text, label] using (passed.trans (passes_skip colon)).trans blanks
  obtain ⟨after, blanks⟩ := passes_skipBlanks behind'
  have passed := (labelled.trans passed').trans blanks
  dsimp only at found
  split at found
  · rename_i comma
    obtain ⟨⟨raws, last⟩, others, made⟩ := Option.bind_eq_some_iff.mp found
    cases made
    obtain ⟨rest, passed', rfl⟩ := accepts.fields _ _ _ others
    obtain ⟨next', blanks'⟩ := passes_skipBlanks behind'.skipBlanks.skip
    have passed := (passed.trans (passes_skip comma)).trans blanks'
    refine ⟨.more label value after next' rest, ?_, ?_⟩
    · simpa [Fields.text] using passed.trans passed'
    · rw [Fields.raws, ← labelled.position, passed.position]
      simp [label]
  · rename_i brace
    cases found
    refine ⟨.last label value after, ?_, ?_⟩
    · simpa [Fields.text] using passed.trans (passes_skip brace)
    · rw [Fields.raws, ← labelled.position]
  · cases found

theorem Accepts.value_succ {fuel : Nat} (accepts : Accepts fuel) {cursor next : Cursor}
    {raw : Raw} (found : value? (fuel + 1) cursor = some (raw, next)) :
    ∃ w : Written, cursor.Passes w.text next ∧ raw = w.raw cursor.position := by
  rw [value?] at found
  dsimp only at found
  split at found
  case h_1 => cases found
  case h_2 quote =>
    obtain ⟨⟨content, behind⟩, scanned, made⟩ := Option.map_eq_some_iff.mp found
    cases made
    obtain ⟨string, rfl, passed⟩ := passes_string scanned
    exact ⟨.string string, (passes_skip quote).trans passed, rfl⟩
  case h_3 bracket =>
    obtain ⟨blanks, passed⟩ := passes_skipBlanks cursor.skip
    have passed := (passes_skip bracket).trans passed
    split at found
    · rename_i closed
      cases found
      obtain ⟨rest, closed⟩ := List.head?_eq_some_iff.mp closed
      exact ⟨.emptyArray blanks, passed.trans (passes_skip closed), rfl⟩
    · obtain ⟨⟨raws, behind⟩, scanned, made⟩ := Option.map_eq_some_iff.mp found
      cases made
      obtain ⟨items, passed', rfl⟩ := accepts.items _ _ _ scanned
      refine ⟨.array blanks items, passed.trans passed', ?_⟩
      rw [Written.raw, passed.position]
      rfl
  case h_4 brace =>
    obtain ⟨blanks, passed⟩ := passes_skipBlanks cursor.skip
    have passed := (passes_skip brace).trans passed
    split at found
    · rename_i closed
      cases found
      obtain ⟨rest, closed⟩ := List.head?_eq_some_iff.mp closed
      exact ⟨.emptyObject blanks, passed.trans (passes_skip closed), rfl⟩
    · obtain ⟨⟨raws, behind⟩, scanned, made⟩ := Option.map_eq_some_iff.mp found
      cases made
      obtain ⟨fields, passed', rfl⟩ := accepts.fields _ _ _ scanned
      refine ⟨.object blanks fields, passed.trans passed', ?_⟩
      rw [Written.raw, passed.position]
      rfl
  case h_5 =>
    obtain ⟨behind, scanned, made⟩ := Option.map_eq_some_iff.mp found
    cases made
    exact ⟨.null, passes_word scanned, rfl⟩
  case h_6 =>
    obtain ⟨behind, scanned, made⟩ := Option.map_eq_some_iff.mp found
    cases made
    exact ⟨.bool true, passes_word scanned, rfl⟩
  case h_7 =>
    obtain ⟨behind, scanned, made⟩ := Option.map_eq_some_iff.mp found
    cases made
    exact ⟨.bool false, passes_word scanned, rfl⟩
  case h_8 =>
    obtain ⟨⟨literal, rest⟩, scanned, made⟩ := Option.map_eq_some_iff.mp found
    cases made
    obtain ⟨number, rfl, split⟩ := exists_numberText scanned
    exact ⟨.number number, ⟨split, (over_numberText number cursor.position).symm⟩, rfl⟩

theorem accepts (fuel : Nat) : Accepts fuel := by
  induction fuel with
  | zero => exact ⟨nofun, nofun, nofun⟩
  | succ fuel ih =>
      exact ⟨fun _ _ _ => ih.value_succ, fun _ _ _ => ih.items_succ, fun _ _ _ => ih.fields_succ⟩

/-! ### What is written is accepted -/

/-- A text starts with something that is no end. -/
def Begins (text : List Char) : Prop := ∃ c rest, text = c :: rest ∧ isEnd c = false

theorem Begins.append {text : List Char} (begins : Begins text) (rest : List Char) :
    Begins (text ++ rest) := by
  obtain ⟨c, more, rfl, open_⟩ := begins
  exact ⟨c, more ++ rest, rfl, open_⟩

theorem Begins.stops {text : List Char} (begins : Begins text) :
    ∀ c ∈ text.head?, isBlank c = false := by
  obtain ⟨c, rest, rfl, open_⟩ := begins
  intro c starts
  cases Option.some.inj starts
  simp only [isEnd, Bool.or_eq_false_iff] at open_
  exact open_.1.1.1

theorem Begins.head_ne {text : List Char} (begins : Begins text) {c : Char}
    (ends : isEnd c = true) : text.head? ≠ some c := by
  obtain ⟨c, rest, rfl, open_⟩ := begins
  rintro starts
  cases starts
  rw [open_] at ends
  cases ends

theorem NumberText.begins (number : NumberText) : Begins number.val := by
  obtain ⟨c, text, split, numeral⟩ := number.starts
  refine ⟨c, text, split, ?_⟩
  by_contra ends
  rw [Bool.not_eq_false] at ends
  have numeral' : isNumeral c = true := by
    rcases numeral with rfl | digit
    · rfl
    · exact isNumeral_of_isDigit digit
  rw [isNumeral_eq_false_of_isEnd ends] at numeral'
  cases numeral'

theorem Written.begins (w : Written) : Begins w.text := by
  cases w with
  | null => exact ⟨'n', _, rfl, rfl⟩
  | bool value =>
      cases value with
      | true => exact ⟨'t', _, rfl, rfl⟩
      | false => exact ⟨'f', _, rfl, rfl⟩
  | number literal => exact literal.begins
  | string content => exact ⟨'"', _, rfl, rfl⟩
  | emptyArray | array => exact ⟨'[', _, rfl, rfl⟩
  | emptyObject | object => exact ⟨'\x7b', _, rfl, rfl⟩

theorem Items.begins (items : Items) : Begins items.text := by
  cases items with
  | last item after => exact (item.begins.append _).append _
  | more item after before rest => exact ((item.begins.append _).append _).append _

theorem Fields.begins (fields : Fields) : Begins fields.text := by
  cases fields <;> exact ⟨'"', _, rfl, rfl⟩

theorem forall_head_cons {p : Char → Bool} {value : Bool} {c : Char} (first : p c = value)
    (rest : List Char) : ∀ d ∈ (c :: rest).head?, p d = value := by
  intro d starts
  cases Option.some.inj starts
  exact first

/-- Blanks in front of what may stand behind a value may stand there too. -/
theorem ends_append (blanks : Blanks) {rest : List Char}
    (ends : ∀ c ∈ rest.head?, isEnd c = true) :
    ∀ c ∈ (blanks.val ++ rest).head?, isEnd c = true := by
  obtain ⟨blanks, areBlank⟩ := blanks
  cases blanks with
  | nil => exact ends
  | cons blank blanks =>
      refine forall_head_cons ?_ (blanks ++ rest)
      simp only [isEnd, areBlank blank List.mem_cons_self, Bool.true_or]

/-- A value that starts like a number is one. -/
theorem value?_of_isNumeral {fuel : Nat} {cursor : Cursor} {c : Char} {text : List Char}
    (starts : cursor.rest = c :: text) (numeral : c = '-' ∨ c.isDigit = true) :
    value? (fuel + 1) cursor = (numberLiteral? cursor.rest).map fun (literal, rest) =>
      (.number cursor.position literal, ⟨rest, cursor.position.shift literal.length⟩) := by
  rw [value?]
  dsimp only
  split
  case h_8 => rfl
  all_goals
    rename_i other
    rw [starts] at other
    cases other
    try cases numeral with
      | inl minus => cases minus
      | inr digit => cases digit

/-- An array that is not empty is read by its items. -/
theorem value?_array {fuel : Nat} {inner rest : List Char} (blanks : Blanks) (p : Position)
    (begins : Begins inner) :
    value? (fuel + 1) ⟨'[' :: blanks.val ++ (inner ++ rest), p⟩ =
      (items? fuel ⟨inner ++ rest, p.over ('[' :: blanks.val)⟩).map fun (items, next) =>
        (.array p items, next) := by
  have begins := begins.append rest
  have skipped : skipBlanks ⟨blanks.val ++ (inner ++ rest), p.advance '['⟩ = _ :=
    skipBlanks_append blanks begins.stops
  rw [value?]
  simp only [List.cons_append, skip_cons, skipped, if_neg (begins.head_ne (c := ']') rfl)]
  rfl

/-- An object that is not empty is read by its fields. -/
theorem value?_object {fuel : Nat} {inner rest : List Char} (blanks : Blanks) (p : Position)
    (begins : Begins inner) :
    value? (fuel + 1) ⟨'\x7b' :: blanks.val ++ (inner ++ rest), p⟩ =
      (fields? fuel ⟨inner ++ rest, p.over ('\x7b' :: blanks.val)⟩).map fun (fields, next) =>
        (.object p fields, next) := by
  have begins := begins.append rest
  have skipped : skipBlanks ⟨blanks.val ++ (inner ++ rest), p.advance '\x7b'⟩ = _ :=
    skipBlanks_append blanks begins.stops
  rw [value?]
  simp only [List.cons_append, skip_cons, skipped, if_neg (begins.head_ne (c := '\x7d') rfl)]
  rfl

/-- Behind its label, a field goes on with its value. -/
theorem fields?_label {fuel : Nat} {text : List Char} (label : Label) (p : Position)
    (begins : Begins text) :
    fields? (fuel + 1) ⟨label.text ++ text, p⟩ = (do
      let (value, next) ← value? fuel ⟨text, p.over label.text⟩
      let next := next.skipBlanks
      match next.rest with
      | ',' :: _ =>
        let (fields, last) ← fields? fuel next.skip.skipBlanks
        return (((p, label.name.val), value) :: fields, last)
      | '\x7d' :: _ => return ([((p, label.name.val), value)], next.skip)
      | _ => none) := by
  have named := string?_append label.name (label.before.val ++ ':' :: (label.after.val ++ text))
    (p.advance '"')
  have skipped : skipBlanks ⟨label.before.val ++ ':' :: (label.after.val ++ text), _⟩ = _ :=
    skipBlanks_append (p := (p.advance '"').over (label.name.val ++ ['"'])) label.before
      (forall_head_cons rfl _)
  have skipped' : skipBlanks ⟨label.after.val ++ text, _⟩ = _ :=
    skipBlanks_append (p := (((p.advance '"').over (label.name.val ++ ['"'])).over
      label.before.val).advance ':') label.after begins.stops
  rw [fields?]
  simp only [Label.text, List.append_assoc, List.cons_append, List.nil_append, skip_cons, named,
    skipped, skipped', Option.bind_eq_bind, Option.bind_some]
  simp only [Position.over_append, Position.over_cons]
  rfl

mutual

/-- **A written value is found wherever it stands**, with fuel for its length. -/
theorem value?_text (w : Written) (fuel : Nat) {rest : List Char} (p : Position)
    (enough : w.text.length ≤ fuel) (ends : ∀ c ∈ rest.head?, isEnd c = true) :
    value? fuel ⟨w.text ++ rest, p⟩ = some (w.raw p, ⟨rest, p.over w.text⟩) := by
  obtain ⟨fuel, rfl⟩ : ∃ less, fuel = less + 1 := by
    obtain ⟨c, text, starts, -⟩ := w.begins
    rw [starts] at enough
    exact ⟨fuel - 1, by simp only [List.length_cons] at enough; omega⟩
  cases w with
  | null => exact congrArg (Option.map _) (word?_append "null".toList rest p)
  | bool value =>
      cases value with
      | true => exact congrArg (Option.map _) (word?_append "true".toList rest p)
      | false => exact congrArg (Option.map _) (word?_append "false".toList rest p)
  | number literal =>
      obtain ⟨c, text, starts, numeral⟩ := literal.starts
      rw [Written.text, value?_of_isNumeral (congrArg (· ++ rest) starts) numeral,
        numberLiteral?_append literal ends, over_numberText]
      rfl
  | string content =>
      have found := string?_append content rest (p.advance '"')
      rw [Written.text, value?]
      simp only [List.cons_append, List.append_assoc, List.nil_append, skip_cons, found]
      rfl
  | emptyArray blanks =>
      have skipped : skipBlanks ⟨blanks.val ++ ']' :: rest, p.advance '['⟩ = _ :=
        skipBlanks_append blanks (forall_head_cons rfl rest)
      rw [Written.text, value?]
      simp only [List.cons_append, List.append_assoc, List.nil_append, skip_cons, skipped,
        List.head?_cons, if_true, Position.over_cons, Position.over_append, Position.over_nil]
      rfl
  | array blanks items =>
      simp only [Written.text, List.length_cons, List.length_append] at enough
      rw [Written.text, List.append_assoc, value?_array blanks p items.begins,
        items?_text items _ rest _ (by omega), Position.over_append]
      rfl
  | emptyObject blanks =>
      have skipped : skipBlanks ⟨blanks.val ++ '\x7d' :: rest, p.advance '\x7b'⟩ = _ :=
        skipBlanks_append blanks (forall_head_cons rfl rest)
      rw [Written.text, value?]
      simp only [List.cons_append, List.append_assoc, List.nil_append, skip_cons, skipped,
        List.head?_cons, if_true, Position.over_cons, Position.over_append, Position.over_nil]
      rfl
  | object blanks fields =>
      simp only [Written.text, List.length_cons, List.length_append] at enough
      rw [Written.text, List.append_assoc, value?_object blanks p fields.begins,
        fields?_text fields _ rest _ (by omega), Position.over_append]
      rfl

theorem items?_text (items : Items) (fuel : Nat) (rest : List Char) (p : Position)
    (enough : items.text.length ≤ fuel) :
    items? fuel ⟨items.text ++ rest, p⟩ = some (items.raws p, ⟨rest, p.over items.text⟩) := by
  cases items with
  | last item after =>
      simp only [Items.text, List.length_cons, List.length_append, List.length_nil] at enough
      obtain ⟨fuel, rfl⟩ : ∃ less, fuel = less + 1 := ⟨fuel - 1, by omega⟩
      have first := value?_text item fuel p (by omega)
        (ends_append after (forall_head_cons (c := ']') rfl rest))
      have skipped : skipBlanks ⟨after.val ++ ']' :: rest, p.over item.text⟩ = _ :=
        skipBlanks_append after (forall_head_cons rfl rest)
      simp only [Items.text, List.append_assoc, List.cons_append, List.nil_append]
      rw [items?, first]
      simp only [Option.bind_eq_bind, Option.bind_some, skipped]
      simp [Items.raws, skip_cons]
  | more item after before more =>
      simp only [Items.text, List.length_cons, List.length_append] at enough
      obtain ⟨fuel, rfl⟩ : ∃ less, fuel = less + 1 := ⟨fuel - 1, by omega⟩
      have first := value?_text item fuel p (by omega)
        (ends_append after (forall_head_cons (c := ',') rfl (before.val ++ (more.text ++ rest))))
      have skipped : skipBlanks ⟨after.val ++ ',' :: (before.val ++ (more.text ++ rest)),
          p.over item.text⟩ = _ :=
        skipBlanks_append after (forall_head_cons rfl _)
      have others := items?_text more fuel rest
        (p.over (item.text ++ after.val ++ ',' :: before.val)) (by omega)
      have skipped' : skipBlanks ⟨before.val ++ (more.text ++ rest), _⟩ = _ :=
        skipBlanks_append (p := ((p.over item.text).over after.val).advance ',') before
          (more.begins.append rest).stops
      simp only [Position.over_append, Position.over_cons] at others
      simp only [Items.text, List.append_assoc, List.cons_append]
      rw [items?, first]
      simp only [Option.bind_eq_bind, Option.bind_some, skipped, skip_cons, skipped', others]
      simp [Items.raws]

theorem fields?_text (fields : Fields) (fuel : Nat) (rest : List Char) (p : Position)
    (enough : fields.text.length ≤ fuel) :
    fields? fuel ⟨fields.text ++ rest, p⟩ = some (fields.raws p, ⟨rest, p.over fields.text⟩) := by
  cases fields with
  | last label value after =>
      simp only [Fields.text, List.length_cons, List.length_append, List.length_nil] at enough
      obtain ⟨fuel, rfl⟩ : ∃ less, fuel = less + 1 := ⟨fuel - 1, by omega⟩
      have valued := value?_text value fuel (p.over label.text) (by omega)
        (ends_append after (forall_head_cons (c := '\x7d') rfl rest))
      have skipped : skipBlanks ⟨after.val ++ '\x7d' :: rest, _⟩ = _ :=
        skipBlanks_append (p := (p.over label.text).over value.text) after
          (forall_head_cons rfl rest)
      simp only [Fields.text, List.append_assoc, List.cons_append, List.nil_append]
      rw [fields?_label label p (value.begins.append _), valued]
      simp only [Option.bind_eq_bind, Option.bind_some, skipped]
      simp [Fields.raws, skip_cons]
  | more label value after before more =>
      simp only [Fields.text, List.length_cons, List.length_append] at enough
      obtain ⟨fuel, rfl⟩ : ∃ less, fuel = less + 1 := ⟨fuel - 1, by omega⟩
      have valued := value?_text value fuel (p.over label.text) (by omega)
        (ends_append after (forall_head_cons (c := ',') rfl (before.val ++ (more.text ++ rest))))
      have skipped : skipBlanks ⟨after.val ++ ',' :: (before.val ++ (more.text ++ rest)), _⟩ = _ :=
        skipBlanks_append (p := (p.over label.text).over value.text) after (forall_head_cons rfl _)
      have others := fields?_text more fuel rest
        (p.over (label.text ++ value.text ++ after.val ++ ',' :: before.val)) (by omega)
      have skipped' : skipBlanks ⟨before.val ++ (more.text ++ rest), _⟩ = _ :=
        skipBlanks_append
          (p := (((p.over label.text).over value.text).over after.val).advance ',') before
          (more.begins.append rest).stops
      simp only [Position.over_append, Position.over_cons] at others
      simp only [Fields.text, List.append_assoc, List.cons_append]
      rw [fields?_label label p (value.begins.append _), valued]
      simp only [Option.bind_eq_bind, Option.bind_some, skipped, skip_cons, skipped', others]
      simp [Fields.raws]

end

/-! ### Documents -/

/-- **The documents are the written values with blanks around them.** -/
theorem parse?_eq_some_iff {text : List Char} {raw : Raw} :
    parse? text = some raw ↔
      ∃ (before after : Blanks) (w : Written), text = before.val ++ (w.text ++ after.val) ∧
        raw = w.raw (Position.zero.over before.val) := by
  unfold parse?
  constructor
  · intro parsed
    obtain ⟨⟨found, next⟩, valued, parsed⟩ := Option.bind_eq_some_iff.mp parsed
    obtain ⟨w, passed, rfl⟩ := (accepts _).value _ _ _ valued
    obtain ⟨before, blanks⟩ := passes_skipBlanks ⟨text, .zero⟩
    obtain ⟨after, blanks'⟩ := passes_skipBlanks next
    dsimp only at parsed
    split at parsed
    · rename_i ended
      cases parsed
      refine ⟨before, after, w, ?_, by rw [blanks.position]⟩
      have whole := ((blanks.trans passed).trans blanks').rest
      rw [List.isEmpty_iff.mp ended] at whole
      simpa using whole
    · cases parsed
  · rintro ⟨before, after, w, rfl, rfl⟩
    have skipped : skipBlanks ⟨before.val ++ (w.text ++ after.val), .zero⟩ = _ :=
      skipBlanks_append before (w.begins.append after.val).stops
    have ends : ∀ c ∈ (after.val ++ []).head?, isEnd c = true := ends_append after nofun
    have skipped' : skipBlanks ⟨after.val ++ [], _⟩ = _ :=
      skipBlanks_append (p := (Position.zero.over before.val).over w.text) after nofun
    rw [List.append_nil] at ends skipped'
    rw [skipped, value?_text w _ _ (by simp only [List.length_append]; omega) ends]
    simp [skipped']

end EngineNode.Json.Raw
