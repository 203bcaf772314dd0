import EngineNode.Json.Value
import EngineNode.Proofs.Json.Written

/-!
Reading a value where it stands.

The place of a value in a text decides where its errors are, and nothing else: counted from the
start of the value, they are where they would be if the value stood alone.

* `Position.Rebased`: a place in a text, and the same place counted from an earlier one.
* `toJson_raw`: the value of a document at two places.
-/

namespace EngineNode.Json

/-! ### Places -/

namespace Position

/-- `q'` is the place `q` counted from `base`, which is not behind it. -/
structure Rebased (base q q' : Position) : Prop where
  line : q.line + 1 = base.line + q'.line
  notBefore : base.line ≤ q.line
  sameLine : q.line = base.line → q.column = base.column + q'.column
  laterLine : q.line ≠ base.line → q.column = q'.column

theorem Rebased.start (base : Position) : Rebased base base zero :=
  ⟨rfl, le_refl _, fun _ => rfl, fun other => absurd rfl other⟩

variable {base q q' : Position}

theorem Rebased.advance (rebased : Rebased base q q') (c : Char) :
    Rebased base (q.advance c) (q'.advance c) := by
  obtain ⟨line, notBefore, sameLine, laterLine⟩ := rebased
  unfold Position.advance
  split
  · exact ⟨by simp only; omega, by simp only; omega, fun same => by simp only at same; omega,
      fun _ => rfl⟩
  · exact ⟨line, notBefore, fun same => by simp only [sameLine same]; omega,
      fun later => by simp only [laterLine later]⟩

theorem Rebased.over (rebased : Rebased base q q') (text : List Char) :
    Rebased base (q.over text) (q'.over text) := by
  induction text generalizing q q' with
  | nil => exact rebased
  | cons c text ih => exact ih (rebased.advance c)

theorem Rebased.relativeTo_shift (rebased : Rebased base q q') (bytes : Nat) :
    (q.shift bytes).relativeTo base = q'.shift bytes := by
  obtain ⟨line, notBefore, sameLine, laterLine⟩ := rebased
  unfold Position.relativeTo Position.shift
  rw [Position.mk.injEq]
  refine ⟨by simp only; omega, ?_⟩
  by_cases same : q.line = base.line
  · simp only [same, if_true, sameLine same]
    omega
  · simp only [same, if_false, laterLine same]

/-- A place that is counted from another one already is counted from the start of a text. -/
theorem relativeTo_zero (q base : Position) :
    (q.relativeTo base).relativeTo zero = q.relativeTo base := by
  unfold relativeTo zero
  simp

end Position

/-! ### Values -/

open Position (Rebased)
open Raw (Written Items Fields)

/-- An error with its place counted from `base`. -/
def ReadError.relativeTo (base : Position) (error : ReadError) : ReadError :=
  (error.1, error.2.relativeTo base)

/-- What is read somewhere, with the places of errors counted from `base`. -/
def rebase {α : Type} (base : Position) (outcome : Except ReadError α) : Except ReadError α :=
  outcome.mapError (ReadError.relativeTo base)

theorem rebase_bind {α β : Type} (base : Position) (x : Except ReadError α)
    (f : α → Except ReadError β) :
    rebase base (x >>= f) = rebase base x >>= fun a => rebase base (f a) := by
  cases x <;> rfl

theorem rebase_map {α β : Type} (base : Position) (f : α → β) (x : Except ReadError α) :
    rebase base (f <$> x) = f <$> rebase base x := by
  cases x <;> rfl

theorem toOption_rebase {α : Type} (base : Position) (x : Except ReadError α) :
    (rebase base x).toOption = x.toOption := by
  cases x <;> rfl

variable {base q q' : Position}

/-- An error behind some bytes of one line. -/
theorem rebase_error {α : Type} (rebased : Rebased base q q') (error : ValueError) (bytes : Nat) :
    rebase base (.error (error, q.shift bytes) : Except ReadError α) =
      .error (error, q'.shift bytes) := by
  rw [← rebased.relativeTo_shift bytes]
  rfl

theorem readNumber_rebased (rebased : Rebased base q q') (literal : List Char) :
    rebase base (readNumber q literal) = readNumber q' literal := by
  unfold readNumber
  cases numberOfLiteral literal with
  | ok n => rfl
  | error error => exact rebase_error rebased error.1 error.2

theorem readString_rebased (rebased : Rebased base q q') (content : List Char) :
    rebase base (readString q content) = readString q' content := by
  unfold readString
  cases unescape 1 content with
  | ok text => rfl
  | error error => exact rebase_error rebased error.1 error.2

mutual

/-- **A value does not hang on where it stands**, nor do its errors, counted from its start. -/
theorem toJson_raw (w : Written) {base q q' : Position} (rebased : Rebased base q q')
    (depth : Nat) : rebase base ((w.raw q).toJson depth) = (w.raw q').toJson depth := by
  cases w with
  | null | bool => rfl
  | number literal =>
      simp only [Written.raw, Raw.toJson, rebase_map, readNumber_rebased rebased]
  | string content =>
      simp only [Written.raw, Raw.toJson, rebase_map, readString_rebased rebased]
  | emptyArray blanks | emptyObject blanks =>
      simp only [Written.raw, Raw.toJson]
      split
      · exact rebase_error rebased .tooDeep 1
      · rfl
  | array blanks items =>
      simp only [Written.raw, Raw.toJson]
      split
      · exact rebase_error rebased .tooDeep 1
      · rw [rebase_map, itemsToJson_raws items (rebased.over ('[' :: blanks.val))]
  | object blanks fields =>
      simp only [Written.raw, Raw.toJson]
      split
      · exact rebase_error rebased .tooDeep 1
      · rw [rebase_map, fieldsToJson_raws fields (rebased.over ('\x7b' :: blanks.val))]

theorem itemsToJson_raws (items : Items) {base q q' : Position} (rebased : Rebased base q q')
    (depth : Nat) : rebase base (itemsToJson depth (items.raws q)) =
      itemsToJson depth (items.raws q') := by
  cases items with
  | last item after =>
      simp only [Items.raws, itemsToJson, rebase_bind, toJson_raw item rebased]
      rfl
  | more item after before rest =>
      have others := itemsToJson_raws rest
        (rebased.over (item.text ++ after.val ++ ',' :: before.val)) depth
      simp only [Items.raws, itemsToJson, rebase_bind, toJson_raw item rebased, others]
      rfl

theorem fieldsToJson_raws (fields : Fields) {base q q' : Position} (rebased : Rebased base q q')
    (depth : Nat) (before : List (String × Json)) :
    rebase base (fieldsToJson depth before (fields.raws q)) =
      fieldsToJson depth before (fields.raws q') := by
  cases fields with
  | last label value after =>
      simp only [Fields.raws, fieldsToJson, rebase_bind, readString_rebased rebased,
        toJson_raw value (rebased.over label.text)]
      rfl
  | more label value after next rest =>
      have others := fun before => fieldsToJson_raws rest
        (rebased.over (label.text ++ value.text ++ after.val ++ ',' :: next.val)) depth before
      simp only [Fields.raws, fieldsToJson, rebase_bind, readString_rebased rebased,
        toJson_raw value (rebased.over label.text), others]

end

end EngineNode.Json
