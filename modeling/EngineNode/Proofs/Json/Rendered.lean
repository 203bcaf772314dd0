import EngineNode.Json.Printer
import EngineNode.Json.Value
import EngineNode.Proofs.Json.Written
import Mathlib.Tactic.SplitIfs

/-!
Documents that are read back.

A document that is written and then read is the same document, if it has no numbers, is not nested
too deep, and has no name twice in an object.

* `unescape_escaped`: the text of a string is read back.
* `written`: a document as it is written.
* `toJson_written`: the value of its tree.
* `text_written`: its text is the one of `render`.
* `parse?_render`: so the rendered text is read as the document.
-/

namespace EngineNode.Json

open Raw (Written Items Fields Label StringText noBlanks stringContent? isHexDigit)

/-! ### Strings -/

/-- How a character stands in a string. -/
inductive Escape (c : Char) : List Char → Prop where
  | short (mark : Char) (known : mark ∈ ['"', '\\', '/', 'b', 'f', 'n', 'r', 't'])
      (means : escapedChar mark = c) : Escape c ['\\', mark]
  | control (small : c.toNat < 32) : Escape c (controlEscape c)
  | plain (notQuote : c ≠ '"') (notBackslash : c ≠ '\\') (large : ¬ c.toNat < 32) : Escape c [c]

theorem escape_escapeChar (c : Char) : Escape c (escapeChar c) := by
  unfold escapeChar
  split_ifs with quote backslash back tab line form carriage small
  · exact .short '"' (by decide) quote.symm
  · exact .short '\\' (by decide) backslash.symm
  · exact .short 'b' (by decide) back.symm
  · exact .short 't' (by decide) tab.symm
  · exact .short 'n' (by decide) line.symm
  · exact .short 'f' (by decide) form.symm
  · exact .short 'r' (by decide) carriage.symm
  · exact .control small
  · exact .plain quote backslash small

theorem hexValue_control : ∀ k < 32,
    hexValue ['0', '0', Nat.digitChar (k / 16), Nat.digitChar (k % 16)] = k := by
  decide

theorem isHexDigit_control : ∀ k < 32,
    isHexDigit (Nat.digitChar (k / 16)) && isHexDigit (Nat.digitChar (k % 16)) := by
  decide

theorem unescape_escape {c : Char} {escaped : List Char} (escape : Escape c escaped) (offset : Nat)
    (rest : List Char) :
    ∃ behind, unescape offset (escaped ++ rest) = (c :: ·) <$> unescape behind rest := by
  cases escape with
  | short mark known means =>
      refine ⟨offset + 2, ?_⟩
      rw [List.cons_append, List.cons_append, unescape, means]
      · rfl
      · rintro _ _ _ _ _ rfl -
        exact absurd known (by decide)
  | control small =>
      refine ⟨offset + 6, ?_⟩
      have value := hexValue_control c.toNat small
      simp only [controlEscape, List.cons_append, List.nil_append]
      rw [unescape.eq_def]
      simp only [value]
      rw [if_neg (by omega), if_pos (by omega), Char.ofNat_toNat]
  | plain notQuote notBackslash large =>
      refine ⟨offset + c.utf8Size, ?_⟩
      rw [List.cons_append, unescape]
      · rfl
      · exact fun _ _ _ _ _ same => absurd same notBackslash
      · exact fun _ _ same => absurd same notBackslash

/-- **The text of a string is read back.** -/
theorem unescape_escaped (text : List Char) (offset : Nat) :
    unescape offset (text.flatMap escapeChar) = .ok text := by
  induction text generalizing offset with
  | nil => rfl
  | cons c text ih =>
      obtain ⟨behind, read⟩ :=
        unescape_escape (escape_escapeChar c) offset (text.flatMap escapeChar)
      rw [List.flatMap_cons, read, ih behind]
      rfl

theorem stringContent?_escape {c : Char} {escaped : List Char} (escape : Escape c escaped)
    (rest : List Char) :
    stringContent? (escaped ++ rest) =
      (stringContent? rest).map fun (content, rest) => (escaped ++ content, rest) := by
  cases escape with
  | short mark known means =>
      rw [List.cons_append, List.cons_append, stringContent?, if_pos known]
      · rfl
      · rintro _ _ _ _ _ rfl -
        exact absurd known (by decide)
  | control small =>
      have hex := isHexDigit_control c.toNat small
      simp only [controlEscape, List.cons_append, List.nil_append, stringContent?]
      rw [if_pos]
      simpa [isHexDigit] using hex
  | plain notQuote notBackslash large =>
      rw [List.cons_append, stringContent?, if_neg (by simp [notBackslash, large])]
      · rfl
      · exact notQuote
      · exact fun _ _ _ _ _ same => absurd same notBackslash
      · exact fun _ _ same => absurd same notBackslash

/-- What is written for a string is the content of one. -/
theorem stringContent?_escaped (text : List Char) :
    stringContent? (text.flatMap escapeChar ++ ['"']) = some (text.flatMap escapeChar, []) := by
  induction text with
  | nil => rfl
  | cons c text ih =>
      rw [List.flatMap_cons, List.append_assoc, stringContent?_escape (escape_escapeChar c), ih]
      rfl

/-! ### Documents -/

/-- A text as the content of a string. -/
def stringText (text : String) : StringText :=
  ⟨text.toList.flatMap escapeChar, stringContent?_escaped text.toList⟩

/-- The name of a field. -/
def label (name : String) : Label := ⟨stringText name, noBlanks, noBlanks⟩

mutual

/-- A document as it is written. Nothing is said of numbers. -/
def written : Json → Written
  | .null | .number _ => .null
  | .bool value => .bool value
  | .str text => .string (stringText text)
  | .arr [] => .emptyArray noBlanks
  | .arr (item :: rest) => .array noBlanks (writtenItems item.written rest)
  | .obj [] => .emptyObject noBlanks
  | .obj ((name, value) :: rest) =>
    .object noBlanks (writtenFields (label name) value.written rest)

/-- The items of an array behind the first. -/
def writtenItems (first : Written) : List Json → Items
  | [] => .last first noBlanks
  | item :: rest => .more first noBlanks noBlanks (writtenItems item.written rest)

/-- The fields of an object behind the first. -/
def writtenFields (name : Label) (first : Written) : List (String × Json) → Fields
  | [] => .last name first noBlanks
  | (next, value) :: rest =>
    .more name first noBlanks noBlanks (writtenFields (label next) value.written rest)

end

mutual

/-- A document without numbers, that is not nested too deep, and in which no object has a name
twice. -/
def Textual (depth : Nat) : Json → Prop
  | .null | .bool _ | .str _ => True
  | .number _ => False
  | .arr items => 1 < depth ∧ TextualItems (depth - 1) items
  | .obj fields => 1 < depth ∧ (fields.map Prod.fst).Nodup ∧ TextualFields (depth - 1) fields

def TextualItems (depth : Nat) : List Json → Prop
  | [] => True
  | item :: rest => item.Textual depth ∧ TextualItems depth rest

def TextualFields (depth : Nat) : List (String × Json) → Prop
  | [] => True
  | (_, value) :: rest => value.Textual depth ∧ TextualFields depth rest

end

theorem readString_stringText (p : Position) (text : String) :
    readString p (stringText text).val = .ok text := by
  rw [readString, stringText, unescape_escaped]
  exact congrArg Except.ok String.ofList_toList

theorem setField_of_notMem {name : String} {before : List (String × Json)}
    (fresh : name ∉ before.map Prod.fst) (value : Json) :
    setField name value before = before ++ [(name, value)] := by
  induction before with
  | nil => rfl
  | cons field before ih =>
      simp only [List.map_cons, List.mem_cons, not_or] at fresh
      rw [setField, if_neg (Ne.symm fresh.1), ih fresh.2, List.cons_append]

mutual

/-- **A document without numbers is read back.** -/
theorem toJson_written (json : Json) (depth : Nat) (p : Position) (textual : json.Textual depth) :
    (json.written.raw p).toJson depth = .ok json := by
  match json with
  | .null | .bool _ => rfl
  | .number _ => exact absurd textual not_false
  | .str text =>
      simp only [written, Written.raw, Raw.toJson, readString_stringText]
      rfl
  | .arr [] =>
      obtain ⟨shallow, -⟩ := textual
      simp only [written, Written.raw, Raw.toJson, if_neg (Nat.not_le.mpr shallow)]
      rfl
  | .arr (item :: rest) =>
      obtain ⟨shallow, first, others⟩ := textual
      have read := fun p => toJson_written item (depth - 1) p first
      simp only [written, Written.raw, Raw.toJson, if_neg (Nat.not_le.mpr shallow)]
      rw [itemsToJson_written rest _ read others]
      rfl
  | .obj [] =>
      obtain ⟨shallow, -⟩ := textual
      simp only [written, Written.raw, Raw.toJson, if_neg (Nat.not_le.mpr shallow)]
      rfl
  | .obj ((name, value) :: rest) =>
      obtain ⟨shallow, distinct, first, others⟩ := textual
      have read := fun p => toJson_written value (depth - 1) p first
      simp only [written, Written.raw, Raw.toJson, if_neg (Nat.not_le.mpr shallow)]
      rw [fieldsToJson_written rest [] _ name read others distinct]
      rfl

theorem itemsToJson_written (rest : List Json) {depth : Nat} {item : Json} {w : Written}
    (p : Position) (read : ∀ p, (w.raw p).toJson depth = .ok item)
    (textual : TextualItems depth rest) :
    itemsToJson depth ((writtenItems w rest).raws p) = .ok (item :: rest) := by
  match rest with
  | [] =>
      simp only [writtenItems, Items.raws, itemsToJson, read]
      rfl
  | next :: rest =>
      have readNext := fun p => toJson_written next depth p textual.1
      simp only [writtenItems, Items.raws, itemsToJson, read,
        itemsToJson_written rest _ readNext textual.2]
      rfl

theorem fieldsToJson_written (rest before : List (String × Json)) {depth : Nat} {value : Json}
    {w : Written} (p : Position) (name : String) (read : ∀ p, (w.raw p).toJson depth = .ok value)
    (textual : TextualFields depth rest)
    (distinct : ((before ++ (name, value) :: rest).map Prod.fst).Nodup) :
    fieldsToJson depth before ((writtenFields (label name) w rest).raws p) =
      .ok (before ++ (name, value) :: rest) := by
  have named (p : Position) : readString p (label name).name.val = .ok name :=
    readString_stringText p name
  have fresh : name ∉ before.map Prod.fst := by
    rw [List.map_append] at distinct
    exact fun member => (List.nodup_append.mp distinct).2.2 name member name List.mem_cons_self rfl
  match rest with
  | [] =>
      simp only [writtenFields, Fields.raws, fieldsToJson, named, read]
      exact congrArg Except.ok (setField_of_notMem fresh value)
  | (next, other) :: rest =>
      have readNext := fun p => toJson_written other depth p textual.1
      have split : before ++ (name, value) :: (next, other) :: rest =
          (before ++ [(name, value)]) ++ (next, other) :: rest := by simp
      rw [split] at distinct ⊢
      simp only [writtenFields, Fields.raws, fieldsToJson, named, read, bind, Except.bind,
        setField_of_notMem fresh]
      exact fieldsToJson_written rest (before ++ [(name, value)]) _ next readNext textual.2 distinct

end

/-! ### Texts -/

theorem text_label (name : String) :
    (label name).text = (renderString name ++ ":").toList := by
  simp [label, Label.text, renderString, stringText]

mutual

/-- **The text of a document** is the one that is rendered. -/
theorem text_written (json : Json) {depth : Nat} (textual : json.Textual depth) :
    json.written.text = json.render.toList := by
  match json with
  | .null | .bool true | .bool false => rfl
  | .number _ => exact absurd textual not_false
  | .str text => simp [written, Written.text, render, renderString, stringText]
  | .arr [] => simp [written, Written.text, render, renderItems]
  | .arr (item :: rest) =>
      obtain ⟨-, first, others⟩ := textual
      have items := text_writtenItems rest (text_written item first) others
      simp [written, Written.text, render, renderItems, items]
  | .obj [] => simp [written, Written.text, render, renderFields]
  | .obj ((name, value) :: rest) =>
      obtain ⟨-, -, first, others⟩ := textual
      have fields := text_writtenFields rest name (text_written value first) others
      simp [written, Written.text, render, renderFields, fields]

theorem text_writtenItems (rest : List Json) {depth : Nat} {item : String} {w : Written}
    (text : w.text = item.toList) (textual : TextualItems depth rest) :
    (writtenItems w rest).text =
      (String.intercalate "," (item :: renderItems rest)).toList ++ [']'] := by
  match rest with
  | [] => simp [writtenItems, Items.text, renderItems, text]
  | next :: rest =>
      have others := text_writtenItems rest (text_written next textual.1) textual.2
      rw [renderItems, String.intercalate_cons_cons]
      simp [writtenItems, Items.text, text, others]

theorem text_writtenFields (rest : List (String × Json)) {depth : Nat} {value : String}
    {w : Written} (name : String) (text : w.text = value.toList)
    (textual : TextualFields depth rest) :
    (writtenFields (label name) w rest).text =
      (String.intercalate "," ((renderString name ++ ":" ++ value) :: renderFields rest)).toList ++
        ['\x7d'] := by
  match rest with
  | [] => simp [writtenFields, Fields.text, renderFields, text, text_label]
  | (next, other) :: rest =>
      have others := text_writtenFields rest next (text_written other textual.1) textual.2
      rw [renderFields, String.intercalate_cons_cons]
      simp [writtenFields, Fields.text, text, text_label, others]

end

theorem renderItems_eq (items : List Json) : renderItems items = items.map render := by
  induction items with
  | nil => rfl
  | cons item rest ih => rw [renderItems, ih, List.map_cons]

theorem toList_render_arr (items : List Json) :
    (Json.arr items).render.toList =
      '[' :: ([','].intercalate (items.map fun item => item.render.toList) ++ [']']) := by
  simp [render, renderItems_eq, String.toList_intercalate, Function.comp_def]

theorem parse?_rendered {json : Json} {depth : Nat} (textual : json.Textual depth) :
    Raw.parse? json.render.toList = some (json.written.raw .zero) :=
  Raw.parse?_eq_some_iff.mpr ⟨noBlanks, noBlanks, json.written,
    by simp [text_written json textual], rfl⟩

/-- **What is rendered is read back**, for documents without numbers. -/
theorem parse?_render {json : Json} (textual : json.Textual maxDepth) :
    parse? json.render = some json := by
  rw [parse?, parse?_rendered textual]
  simp [toJson_written json maxDepth .zero textual, Except.toOption]

end EngineNode.Json
