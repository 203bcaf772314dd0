import EngineNode.JsonRpc.Exchange
import EngineNode.Proofs.Json.Place
import Mathlib.Data.List.Forall2

/-!
Answering a call where it stands.

Of a call are read the values of some fields and the parameters. Neither hangs on where the call
stands, and so its answer does not.

* `Alike`: trees of which the same is read.
* `alike_raw`: so are the trees of a value at two places.
* `answerCall_raw`: the answer to a call at two places.
-/

namespace EngineNode.JsonRpc

open Json (Raw Position)
open Json.Raw (Written Items Fields Label)

/-! ### Values -/

/-- Trees of which the same is read. -/
structure Alike (raw raw' : Raw) : Prop where
  text : textOf? raw = textOf? raw'
  value : valueOf? raw = valueOf? raw'
  params : Params.ofRaw raw = Params.ofRaw raw'

theorem Alike.symm {raw raw' : Raw} (alike : Alike raw raw') : Alike raw' raw :=
  ⟨alike.text.symm, alike.value.symm, alike.params.symm⟩

theorem Alike.trans {raw raw' raw'' : Raw} (alike : Alike raw raw') (alike' : Alike raw' raw'') :
    Alike raw raw'' :=
  ⟨alike.text.trans alike'.text, alike.value.trans alike'.value, alike.params.trans alike'.params⟩

theorem start_raw (w : Written) (p : Position) : (w.raw p).start = p := by
  cases w <;> rfl

/-- An error about parameters counts its place from their start. -/
theorem unreadable_relativeTo (w : Written) (p : Position) (error : Json.ReadError) :
    Params.unreadable (w.raw .zero) (error.relativeTo p) = Params.unreadable (w.raw p) error := by
  unfold Params.unreadable
  rw [start_raw, start_raw]
  exact congrArg (ParamsError.unreadable error.1) (Position.relativeTo_zero error.2 p)

theorem ofRaw_raw_of_array {w : Written} (array : ∀ p, ∃ items, w.raw p = .array p items)
    (p : Position) : Params.ofRaw (w.raw p) = Params.ofRaw (w.raw .zero) := by
  have same := Json.toJson_raw w (.start p) Json.maxDepth
  have errors := unreadable_relativeTo w p
  obtain ⟨items, here⟩ := array p
  obtain ⟨items', alone⟩ := array .zero
  rw [here, alone] at same errors ⊢
  simp only [Params.ofRaw, ← same]
  cases Raw.toJson Json.maxDepth (.array p items) with
  | ok json => cases json <;> rfl
  | error error => exact congrArg Except.error (errors error).symm

theorem ofRaw_raw (w : Written) (p : Position) :
    Params.ofRaw (w.raw p) = Params.ofRaw (w.raw .zero) := by
  have rebased := Position.Rebased.start p
  have errors := unreadable_relativeTo w p
  cases w with
  | null | bool | emptyObject | object => rfl
  | number literal =>
      have same := Json.readNumber_rebased rebased literal.val
      simp only [Written.raw, Params.ofRaw, ← same] at errors ⊢
      cases Json.readNumber p literal.val with
      | ok n => rfl
      | error error => exact congrArg Except.error (errors error).symm
  | string content =>
      have same := Json.readString_rebased rebased content.val
      simp only [Written.raw, Params.ofRaw, ← same] at errors ⊢
      cases Json.readString p content.val with
      | ok n => rfl
      | error error => exact congrArg Except.error (errors error).symm
  | emptyArray | array => exact ofRaw_raw_of_array (fun p => ⟨_, rfl⟩) p

/-- What is read of a value does not hang on where it stands. -/
theorem alike_raw (w : Written) (p p' : Position) : Alike (w.raw p) (w.raw p') := by
  suffices atStart : ∀ p, Alike (w.raw p) (w.raw .zero) from (atStart p).trans (atStart p').symm
  intro p
  have rebased := Position.Rebased.start p
  constructor
  case text =>
    cases w with
    | string content =>
        simp only [Written.raw, textOf?]
        rw [← Json.readString_rebased rebased, Json.toOption_rebase]
    | _ => rfl
  case value =>
    unfold valueOf?
    rw [← Json.toJson_raw w rebased, Json.toOption_rebase]
  case params => exact ofRaw_raw w p

/-! ### Fields -/

/-- Related outcomes stay related where both go on alike. -/
theorem rel_bind {α α' β β' : Type} {R : α → α' → Prop} {S : β → β' → Prop}
    {x : Option α} {x' : Option α'} {f : α → Option β} {f' : α' → Option β'}
    (first : Option.Rel R x x')
    (step : ∀ a a', R a a' → Option.Rel S (f a) (f' a')) :
    Option.Rel S (x >>= f) (x' >>= f') := by
  cases first with
  | none => exact .none
  | some found => exact step _ _ found

theorem bind_eq_of_rel {α α' β : Type} {R : α → α' → Prop} {x : Option α} {x' : Option α'}
    {f : α → Option β} {f' : α' → Option β} (first : Option.Rel R x x')
    (step : ∀ a a', R a a' → f a = f' a') : x >>= f = x' >>= f' := by
  cases first with
  | none => rfl
  | some found => exact step _ _ found

/-- Equal outcomes stay related where both go on alike. -/
theorem rel_bind_eq {α β β' : Type} {S : β → β' → Prop} {x x' : Option α}
    {f : α → Option β} {f' : α → Option β'} (first : x = x')
    (step : ∀ a, Option.Rel S (f a) (f' a)) : Option.Rel S (x >>= f) (x' >>= f') := by
  subst first
  cases x with
  | none => exact .none
  | some a => exact step a

/-- The fields of objects of which the same is read. -/
structure AlikeField (field field' : (Position × List Char) × Raw) : Prop where
  name : (Json.readString field.1.1 field.1.2).toOption =
    (Json.readString field'.1.1 field'.1.2).toOption
  value : Alike field.2 field'.2

/-- Named values of which the same is read. -/
structure AlikeNamed (named named' : String × Raw) : Prop where
  name : named.1 = named'.1
  value : Alike named.2 named'.2

theorem forall₂_items (items : Items) (p p' : Position) :
    List.Forall₂ Alike (items.raws p) (items.raws p') := by
  cases items with
  | last item after => exact .cons (alike_raw item p p') .nil
  | more item after before rest => exact .cons (alike_raw item p p') (forall₂_items rest _ _)

theorem alikeField (label : Label) (value : Written) (p p' : Position) :
    AlikeField ((p, label.name.val), value.raw (p.over label.text))
      ((p', label.name.val), value.raw (p'.over label.text)) where
  name := by
    have home (p : Position) := Json.toOption_rebase p (Json.readString p label.name.val)
    rw [← home p, ← home p', Json.readString_rebased (.start p),
      Json.readString_rebased (.start p')]
  value := alike_raw value _ _

theorem forall₂_fields (fields : Fields) (p p' : Position) :
    List.Forall₂ AlikeField (fields.raws p) (fields.raws p') := by
  cases fields with
  | last label value after => exact .cons (alikeField label value p p') .nil
  | more label value after before rest =>
      exact .cons (alikeField label value p p') (forall₂_fields rest _ _)

theorem filter_alike {named named' : List (String × Raw)} (alike : named.Forall₂ AlikeNamed named')
    (name : String) :
    (named.filter (·.1 = name)).length = (named'.filter (·.1 = name)).length := by
  induction alike with
  | nil => rfl
  | @cons field field' named named' first rest ih =>
      simp only [List.filter_cons, first.name]
      split
      · simp only [List.length_cons, ih]
      · exact ih

theorem lookup_alike {named named' : List (String × Raw)} (alike : named.Forall₂ AlikeNamed named')
    (name : String) : Option.Rel Alike (named.lookup name) (named'.lookup name) := by
  induction alike with
  | nil => exact .none
  | @cons field field' named named' first rest ih =>
      obtain ⟨key, value⟩ := field
      obtain ⟨key', value'⟩ := field'
      cases first.name
      simp only [List.lookup_cons]
      split
      · exact .some first.value
      · exact ih

/-- The fields of an object have the same names and values. -/
theorem fieldsOf?_alike {fields fields' : List ((Position × List Char) × Raw)}
    (alike : fields.Forall₂ AlikeField fields') (unique : List String) :
    Option.Rel (List.Forall₂ AlikeNamed) (fieldsOf? unique fields) (fieldsOf? unique fields') := by
  unfold fieldsOf?
  refine rel_bind (R := List.Forall₂ AlikeNamed) ?_ fun named named' others => ?_
  · induction alike with
    | nil => exact .some .nil
    | cons first rest ih =>
        rw [List.mapM_cons, List.mapM_cons]
        refine rel_bind (R := AlikeNamed) ?_ fun _ _ read => rel_bind ih fun _ _ others =>
          .some (.cons read others)
        exact rel_bind_eq first.name fun name => .some ⟨rfl, first.value⟩
  · simp only [filter_alike others]
    split
    · exact .some others
    · exact .none

/-! ### Requests -/

/-- Requests that are answered alike. -/
structure AlikeRequest (request request' : Request) : Prop where
  id : request.id = request'.id
  method : request.method = request'.method
  params : Params.ofOption request.params = Params.ofOption request'.params

theorem ofParts?_alike {version version' id id' method method' : Raw} {params params' : Option Raw}
    (versions : Alike version version') (ids : Alike id id') (methods : Alike method method')
    (given : Option.Rel Alike params params') :
    Option.Rel AlikeRequest (Request.ofParts? version id method params)
      (Request.ofParts? version' id' method' params') := by
  unfold Request.ofParts?
  rw [versions.text, ids.value, methods.text]
  refine rel_bind_eq rfl fun _ => rel_bind_eq rfl fun id => rel_bind_eq rfl fun method =>
    .some ⟨rfl, rfl, ?_⟩
  cases given with
  | none => rfl
  | @some raw raw' alike =>
      -- Null parameters are dropped, and read as the empty list that none are.
      have same := alike.params
      cases raw <;> cases raw' <;> exact same

theorem ofRaw?_array {raws raws' : List Raw} (alike : raws.Forall₂ Alike raws') (p p' : Position) :
    Option.Rel AlikeRequest (Request.ofRaw? (.array p raws))
      (Request.ofRaw? (.array p' raws')) := by
  -- Only a list of four is a request.
  rcases alike with _ | ⟨versions, _ | ⟨ids, _ | ⟨methods, _ | ⟨params, _ | _⟩⟩⟩⟩
  case cons.cons.cons.cons.nil => exact ofParts?_alike versions ids methods (.some params)
  all_goals exact .none

theorem ofRaw?_object {fields fields' : List ((Position × List Char) × Raw)}
    (alike : fields.Forall₂ AlikeField fields') (p p' : Position) :
    Option.Rel AlikeRequest (Request.ofRaw? (.object p fields))
      (Request.ofRaw? (.object p' fields')) := by
  refine rel_bind (fieldsOf?_alike alike _) fun named named' alike => ?_
  refine rel_bind (lookup_alike alike _) fun version version' versions => ?_
  refine rel_bind (lookup_alike alike _) fun id id' ids => ?_
  refine rel_bind (lookup_alike alike _) fun method method' methods => ?_
  exact ofParts?_alike versions ids methods (lookup_alike alike _)

/-- Whether a value is a request, and which one, does not hang on where it stands. -/
theorem ofRaw?_raw (w : Written) (p p' : Position) :
    Option.Rel AlikeRequest (Request.ofRaw? (w.raw p)) (Request.ofRaw? (w.raw p')) := by
  cases w with
  | null | bool | number | string => exact .none
  | emptyArray | emptyObject => exact .none
  | array blanks items => exact ofRaw?_array (forall₂_items items _ _) p p'
  | object blanks fields => exact ofRaw?_object (forall₂_fields fields _ _) p p'

theorem idOfInvalid_array {raws raws' : List Raw} (alike : raws.Forall₂ Alike raws')
    (p p' : Position) :
    Request.idOfInvalid (.array p raws) = Request.idOfInvalid (.array p' raws') := by
  rcases alike with _ | ⟨ids, _ | _⟩
  case cons.nil => simp only [Request.idOfInvalid, ids.value]
  all_goals rfl

theorem idOfInvalid_object {fields fields' : List ((Position × List Char) × Raw)}
    (alike : fields.Forall₂ AlikeField fields') (p p' : Position) :
    Request.idOfInvalid (.object p fields) = Request.idOfInvalid (.object p' fields') := by
  refine congrArg (Option.getD · CallId.null) ?_
  refine bind_eq_of_rel (fieldsOf?_alike alike _) fun named named' alike => ?_
  refine bind_eq_of_rel (lookup_alike alike _) fun id id' ids => ?_
  rw [ids.value]

/-- The identifier that a value has without being a request does not hang on it either. -/
theorem idOfInvalid_raw (w : Written) (p p' : Position) :
    Request.idOfInvalid (w.raw p) = Request.idOfInvalid (w.raw p') := by
  cases w with
  | null | bool | number | string => rfl
  | emptyArray | emptyObject => rfl
  | array blanks items => exact idOfInvalid_array (forall₂_items items _ _) p p'
  | object blanks fields => exact idOfInvalid_object (forall₂_fields fields _ _) p p'

/-! ### Answers -/

theorem answerRequest_alike {request request' : Request} (alike : AlikeRequest request request') :
    answerRequest request = answerRequest request' := by
  unfold answerRequest
  rw [alike.id, alike.method, alike.params]

/-- **The answer to a call does not hang on where it stands.** -/
theorem answerCall_raw (w : Written) (p p' : Position) :
    answerCall (w.raw p) = answerCall (w.raw p') := by
  have requests := ofRaw?_raw w p p'
  unfold answerCall
  rw [idOfInvalid_raw w p p']
  generalize Request.ofRaw? (w.raw p) = request at requests ⊢
  generalize Request.ofRaw? (w.raw p') = request' at requests ⊢
  cases requests with
  | none => rfl
  | some alike => exact answerRequest_alike alike

end EngineNode.JsonRpc
