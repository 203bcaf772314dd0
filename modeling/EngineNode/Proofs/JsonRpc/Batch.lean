import EngineNode.Proofs.JsonRpc.Place
import EngineNode.Proofs.JsonRpc.Posting
import EngineNode.Proofs.Wire.Digits

/-!
Posting a list of values.

A body that is a list of values is answered as the values are that are posted one after another:
every value finds the state that those before it have left, and the replies stand in their order. A
value that breaks the server down by itself does so in a list, and then nobody gets a reply.

* `Raw.Lists`: a text is a list of values, none of which is a list itself.
* `Raw.exists_lists`, `Raw.Lists.parse?`: these are the texts whose tree is such a list.
* `Posts`: values that are posted one after another.
* `post_batch`: a list against its values.
-/

namespace EngineNode

namespace Json.Raw

/-! ### Lists of values -/

/-- A tree is no list. -/
def IsSingle (raw : Raw) : Prop := ∀ start items, raw ≠ .array start items

/-- A text is a list of values, none of which is a list itself. -/
structure Lists (text : List Char) (values : List (List Char)) : Prop where
  written : ∃ before after : Blanks,
    text = before.val ++ (('[' :: ([','].intercalate values ++ [']'])) ++ after.val)
  nonempty : values ≠ []
  single : ∀ value ∈ values, ∃ raw, parse? value = some raw ∧ raw.IsSingle

/-- What stands between the commas, with the blanks around it. -/
def Items.values (before : Blanks) : Items → List (List Char)
  | .last item after => [before.val ++ (item.text ++ after.val)]
  | .more item after next rest => (before.val ++ (item.text ++ after.val)) :: rest.values next

theorem Items.values_ne_nil (before : Blanks) (items : Items) : items.values before ≠ [] := by
  cases items <;> exact List.cons_ne_nil _ _

/-- The items of an array are its values with commas between them. -/
theorem Items.text_eq (before : Blanks) (items : Items) :
    before.val ++ items.text = [','].intercalate (items.values before) ++ [']'] := by
  match items with
  | .last item after =>
      simp only [Items.text, Items.values, List.append_assoc, List.intercalate_singleton]
  | .more item after next rest =>
      have others := Items.text_eq next rest
      rw [Items.values, List.intercalate_cons_of_ne_nil (rest.values_ne_nil next)]
      simp only [Items.text, List.append_assoc, List.cons_append, List.nil_append, others]

/-- Documents are the items of an array. -/
theorem exists_items {values : List (List Char)} (nonempty : values ≠ [])
    (documents : ∀ value ∈ values, ∃ raw, parse? value = some raw) :
    ∃ (before : Blanks) (items : Items), values = items.values before := by
  induction values with
  | nil => exact absurd rfl nonempty
  | cons value rest ih =>
      obtain ⟨raw, parsed⟩ := documents value List.mem_cons_self
      obtain ⟨before, after, item, rfl, -⟩ := parse?_eq_some_iff.mp parsed
      cases rest with
      | nil => exact ⟨before, .last item after, rfl⟩
      | cons next rest =>
          obtain ⟨between, items, others⟩ := ih (List.cons_ne_nil _ _)
            fun value member => documents value (List.mem_cons_of_mem _ member)
          exact ⟨before, .more item after between items, by rw [Items.values, others]⟩

/-- A tree stands somewhere, and its text is a document of its own. -/
def Stands (raw : Raw) (value : List Char) : Prop :=
  ∃ (w : Written) (p p' : Position), raw = w.raw p ∧ parse? value = some (w.raw p')

theorem stands (before after : Blanks) (w : Written) (p : Position) :
    Stands (w.raw p) (before.val ++ (w.text ++ after.val)) :=
  ⟨w, p, _, rfl, parse?_eq_some_iff.mpr ⟨before, after, w, rfl, rfl⟩⟩

theorem forall₂_stands (items : Items) (before : Blanks) (p : Position) :
    (items.raws p).Forall₂ Stands (items.values before) := by
  match items with
  | .last item after => exact .cons (stands before after item p) .nil
  | .more item after next rest =>
      exact .cons (stands before after item p) (forall₂_stands rest next _)

theorem isSingle_raw_iff (w : Written) (p p' : Position) :
    (w.raw p).IsSingle ↔ (w.raw p').IsSingle := by
  cases w <;> simp [IsSingle, Written.raw]

theorem single_iff {raws : List Raw} {values : List (List Char)}
    (standing : raws.Forall₂ Stands values) :
    (∀ raw ∈ raws, raw.IsSingle) ↔
      ∀ value ∈ values, ∃ raw, Raw.parse? value = some raw ∧ raw.IsSingle := by
  induction standing with
  | nil => exact ⟨fun _ => nofun, fun _ => nofun⟩
  | @cons raw value raws values first rest ih =>
      rw [List.forall_mem_cons, List.forall_mem_cons, ih]
      refine and_congr_left fun _ => ?_
      obtain ⟨w, p, p', rfl, parsed⟩ := first
      rw [isSingle_raw_iff w p p', parsed]
      simp

/-- **The tree of a list of values** has them as its items. -/
theorem Lists.parse? {text : List Char} {values : List (List Char)} (lists : Lists text values) :
    ∃ start raws, Raw.parse? text = some (.array start raws) ∧ raws.Forall₂ Stands values := by
  obtain ⟨⟨before, after, rfl⟩, nonempty, single⟩ := lists
  obtain ⟨blanks, items, rfl⟩ := exists_items nonempty fun value member =>
    (single value member).imp fun _ found => found.1
  refine ⟨_, _, parse?_eq_some_iff.mpr ⟨before, after, .array blanks items, ?_, rfl⟩,
    forall₂_stands items blanks _⟩
  rw [← Items.text_eq]
  rfl

/-- **A text whose tree is a list of values is one.** -/
theorem exists_lists {text : List Char} {start : Position} {raws : List Raw}
    (parsed : Raw.parse? text = some (.array start raws)) (nonempty : raws ≠ [])
    (single : ∀ raw ∈ raws, raw.IsSingle) : ∃ values, Lists text values := by
  obtain ⟨before, after, w, rfl, made⟩ := parse?_eq_some_iff.mp parsed
  cases w with
  | emptyArray blanks =>
      cases made
      exact absurd rfl nonempty
  | array blanks items =>
      cases made
      refine ⟨items.values blanks, ⟨before, after, ?_⟩, items.values_ne_nil blanks, ?_⟩
      · rw [← Items.text_eq]
        rfl
      · exact (single_iff (forall₂_stands items blanks _)).mp single
  | bool | null | number | string | emptyObject | object => cases made

end Json.Raw

namespace JsonRpc

open Json (Raw)
open Json.Raw (Lists Stands IsSingle noBlanks)
open Wire (utf8)

/-! ### Posting -/

theorem answerBody_of_decoded {body : Bytes} {text : String}
    (decoded : String.fromUTF8? ⟨body.toArray⟩ = some text) :
    answerBody body = answerText text := by
  rw [answerBody, decoded]

theorem fromUTF8?_utf8 (text : List Char) :
    String.fromUTF8? ⟨(utf8 text).toArray⟩ = some (String.ofList text) := by
  have bytes : (⟨(utf8 text).toArray⟩ : ByteArray) = (String.ofList text).toByteArray := by
    rw [utf8, String.toUTF8_eq_toByteArray, ByteArray.toList, Wire.byteArray_toList_loop]
    rfl
  rw [bytes]
  exact dif_pos (String.ofList text).isValidUTF8

/-- Posts a body: the response, and the moment after it. -/
def post (body : Bytes) (m : Moment) : Except Breakdown Response × Moment :=
  runFrom (answerBody body) m

/-- A value that is no list is answered as the call that it is. -/
theorem post_single {value : List Char} {raw : Raw} (parsed : Raw.parse? value = some raw)
    (single : raw.IsSingle) (m : Moment) :
    post (utf8 value) m =
      ((runFrom (answerCall raw) m).1.map .single, (runFrom (answerCall raw) m).2) := by
  rw [post, answerBody_of_decoded (fromUTF8?_utf8 value), answerText, String.toList_ofList, parsed]
  dsimp only
  cases raw with
  | array start items => exact absurd rfl (single start items)
  | _ => exact runFrom_map _ _ m

/-- A list is answered as the calls that it has. -/
theorem post_array {body : Bytes} {text : String}
    (decoded : String.fromUTF8? ⟨body.toArray⟩ = some text) {start : Json.Position}
    {raws : List Raw} (parsed : Raw.parse? text.toList = some (.array start raws))
    (nonempty : raws ≠ []) (m : Moment) :
    post body m =
      ((runFrom (answerCalls raws) m).1.map .batch, (runFrom (answerCalls raws) m).2) := by
  rw [post, answerBody_of_decoded decoded, answerText, parsed]
  cases raws with
  | nil => exact absurd rfl nonempty
  | cons raw raws => exact runFrom_map _ _ m

/-- Values are posted one after another, and each gets a reply. -/
inductive Posts : Moment → List (List Char) → List Reply → Moment → Prop where
  | nil (m : Moment) : Posts m [] [] m
  | cons {m next last : Moment} {value : List Char} {values : List (List Char)} {reply : Reply}
      {replies : List Reply} (posted : post (utf8 value) m = (.ok (.single reply), next))
      (rest : Posts next values replies last) : Posts m (value :: values) (reply :: replies) last

theorem Posts.length_eq {m last : Moment} {values : List (List Char)} {replies : List Reply}
    (posts : Posts m values replies last) : replies.length = values.length := by
  induction posts with
  | nil => rfl
  | cons posted rest ih => rw [List.length_cons, List.length_cons, ih]

/-- The first value has a reply. -/
theorem Posts.exists_first {m last : Moment} {value : List Char} {values : List (List Char)}
    {replies : List Reply} (posts : Posts m (value :: values) replies last) :
    ∃ reply next, post (utf8 value) m = (.ok (.single reply), next) := by
  cases posts with
  | cons posted rest => exact ⟨_, _, posted⟩

/-- The calls of a list are answered as their texts are that are posted one after another, up to
the first one that breaks down. -/
theorem answerCalls_posts {raws : List Raw} {values : List (List Char)}
    (standing : raws.Forall₂ Stands values)
    (single : ∀ value ∈ values, ∃ raw, Raw.parse? value = some raw ∧ raw.IsSingle) (m : Moment) :
    (∃ replies last, Posts m values replies last ∧
      runFrom (answerCalls raws) m = (.ok replies, last)) ∨
    ∃ earlier value later replies reached last, values = earlier ++ value :: later ∧
      Posts m earlier replies reached ∧ post (utf8 value) reached = (.error .overflow, last) ∧
      runFrom (answerCalls raws) m = (.error .overflow, last) := by
  induction standing generalizing m with
  | nil => exact .inl ⟨[], m, .nil m, rfl⟩
  | @cons raw value raws values first rest ih =>
      obtain ⟨⟨alone, parsed, isSingle⟩, single⟩ := List.forall_mem_cons.mp single
      have posted := post_single parsed isSingle m
      have same : answerCall raw = answerCall alone := by
        obtain ⟨w, p, p', rfl, parsed'⟩ := first
        cases parsed.symm.trans parsed'
        exact answerCall_raw w p p'
      rw [answerCalls, runFrom_bind, same]
      generalize runFrom (answerCall alone) m = ran at posted ⊢
      obtain ⟨outcome, next⟩ := ran
      cases outcome with
      | error breakdown =>
          cases breakdown
          exact .inr ⟨[], value, values, [], m, next, rfl, .nil m, posted, rfl⟩
      | ok reply =>
          dsimp only
          rw [runFrom_bind]
          rcases ih single next with ⟨replies, last, posts, answered⟩ |
            ⟨earlier, stopper, later, replies, reached, last, split, posts, stops, answered⟩
          · rw [answered]
            exact .inl ⟨reply :: replies, last, .cons posted posts, rfl⟩
          · rw [answered]
            exact .inr ⟨value :: earlier, stopper, later, reply :: replies, reached, last,
              by rw [split, List.cons_append], .cons posted posts, stops, rfl⟩

/-- What a value is replied by itself: it is under its identifier, and where the value is at fault
it is the fault. -/
theorem post_single_spec {value : List Char} {raw : Raw} (parsed : Raw.parse? value = some raw)
    (single : raw.IsSingle) (m : Moment) :
    (∀ reply next, post (utf8 value) m = (.ok (.single reply), next) → reply.id = callerId raw) ∧
    ∀ error, callOf raw = .error error → ∃ metrics logs, post (utf8 value) m =
      (.ok (.single ⟨callerId raw, .error error⟩), ⟨{ m.node with metrics }, logs⟩) := by
  rw [post_single parsed single m]
  constructor
  · intro reply next answered
    cases ran : runFrom (answerCall raw) m with
    | mk outcome last =>
        rw [ran] at answered
        cases outcome with
        | error breakdown => cases answered
        | ok reply =>
            cases answered
            exact answerCall_id ran
  · intro error faulty
    obtain ⟨metrics, logs, ran⟩ := answerCall_fault faulty m
    exact ⟨metrics, logs, by rw [ran]; rfl⟩

/-! ### Lists against their values -/

/-- **A list of values is answered as its values are, one after another.** The body is a text whose
tree is a list of one value or more, none of which is a list itself; the node and its log are
arbitrary. Such a text is a list of values, and of each of them it is known what a reply to it alone
looks like: it has the identifier of the value (null where there is none), and a value that is no
call of the engine is replied its fault, which changes the node in its counters at most. The list
has as many replies as values, in their order: each is the one that the value gets by itself in the
state that those before it have left. Only where a value breaks down by itself in that state the
list does so too. -/
theorem post_batch {body : Bytes} {text : String}
    (decoded : String.fromUTF8? ⟨body.toArray⟩ = some text) {start : Json.Position}
    {raws : List Raw} (parsed : Raw.parse? text.toList = some (.array start raws))
    (nonempty : raws ≠ []) (single : ∀ raw ∈ raws, raw.IsSingle) :
    (∃ values, Lists text.toList values) ∧
    ∀ values, Lists text.toList values →
      values.length = raws.length ∧
      (∀ value ∈ values, ∃ raw, Raw.parse? value = some raw ∧ ∀ m,
        (∀ reply next, post (utf8 value) m = (.ok (.single reply), next) →
          reply.id = callerId raw) ∧
        ∀ error, callOf raw = .error error → ∃ metrics logs, post (utf8 value) m =
          (.ok (.single ⟨callerId raw, .error error⟩), ⟨{ m.node with metrics }, logs⟩)) ∧
      ∀ m,
        (∃ replies last, Posts m values replies last ∧ replies.length = raws.length ∧
          post body m = (.ok (.batch replies), last)) ∨
        ∃ earlier value later replies reached last, values = earlier ++ value :: later ∧
          Posts m earlier replies reached ∧
          post (utf8 value) reached = (.error .overflow, last) ∧
          post body m = (.error .overflow, last) := by
  refine ⟨Raw.exists_lists parsed nonempty single, fun values lists => ?_⟩
  obtain ⟨start', raws', parsed', standing⟩ := lists.parse?
  cases parsed.symm.trans parsed'
  have counted : values.length = raws.length := standing.length_eq.symm
  refine ⟨counted, fun value member => ?_, fun m => ?_⟩
  · obtain ⟨raw, document, isSingle⟩ := lists.single value member
    exact ⟨raw, document, post_single_spec document isSingle⟩
  · rw [post_array decoded parsed nonempty m]
    rcases answerCalls_posts standing lists.single m with ⟨replies, last, posts, answered⟩ |
      ⟨earlier, value, later, replies, reached, last, split, posts, stops, answered⟩
    · refine .inl ⟨replies, last, posts, posts.length_eq.trans counted, ?_⟩
      rw [answered]
      rfl
    · refine .inr ⟨earlier, value, later, replies, reached, last, split, posts, stops, ?_⟩
      rw [answered]
      rfl

/-- Two values that are no calls, one of which has an identifier: both are replied their fault. -/
theorem post_batch_faults :
    let text := "[7, \x7b\"id\":5\x7d]"
    let values := ["7".toList, " \x7b\"id\":5\x7d".toList]
    String.fromUTF8? ⟨(utf8 text.toList).toArray⟩ = some text ∧ Lists text.toList values ∧
    ∀ m, ∃ replies last, Posts m values replies last ∧ replies.length = 2 ∧
      post (utf8 text.toList) m = (.ok (.batch replies), last) := by
  intro text values
  have decoded : String.fromUTF8? ⟨(utf8 text.toList).toArray⟩ = some text := by
    rw [fromUTF8?_utf8, String.ofList_toList]
  let seven : Raw.NumberText := ⟨['7'], rfl⟩
  let five : Raw.NumberText := ⟨['5'], rfl⟩
  let id : Raw.Label := ⟨⟨"id".toList, rfl⟩, noBlanks, noBlanks⟩
  have first : Raw.parse? "7".toList = some _ :=
    Raw.parse?_eq_some_iff.mpr ⟨noBlanks, noBlanks, .number seven, rfl, rfl⟩
  have second : Raw.parse? " \x7b\"id\":5\x7d".toList = some _ :=
    Raw.parse?_eq_some_iff.mpr ⟨⟨[' '], List.forall_mem_singleton.mpr rfl⟩, noBlanks,
      .object noBlanks (.last id (.number five) noBlanks), rfl, rfl⟩
  have lists : Lists text.toList values := by
    refine ⟨⟨noBlanks, noBlanks, by decide⟩, List.cons_ne_nil _ _, ?_⟩
    exact List.forall_mem_cons.mpr ⟨⟨_, first, fun _ _ same => Raw.noConfusion same⟩,
      List.forall_mem_singleton.mpr ⟨_, second, fun _ _ same => Raw.noConfusion same⟩⟩
  obtain ⟨start, raws, parsed, standing⟩ := lists.parse?
  have counted : raws.length = 2 := standing.length_eq
  obtain ⟨-, alone, answered⟩ := (post_batch decoded parsed
    (List.ne_nil_of_length_pos (counted ▸ Nat.zero_lt_two))
    ((Raw.single_iff standing).mpr lists.single)).2 values lists
  refine ⟨decoded, lists, fun m => ?_⟩
  rcases answered m with ⟨replies, last, posts, length, answered⟩ |
    ⟨earlier, value, later, replies, reached, last, split, -, stops, -⟩
  · exact ⟨replies, last, posts, length.trans counted, answered⟩
  · have member : value ∈ values := by
      rw [split]
      exact List.mem_append_right _ List.mem_cons_self
    obtain ⟨raw, parsed, spec⟩ := alone value member
    have faulty : callOf raw = .error .invalidRequest := by
      rcases List.mem_pair.mp member with rfl | rfl
      · cases first.symm.trans parsed
        rfl
      · cases second.symm.trans parsed
        rfl
    obtain ⟨metrics, logs, replied⟩ := (spec reached).2 _ faulty
    cases stops.symm.trans replied

end JsonRpc

end EngineNode
