import EngineNode.Proofs.Engine.Extremes
import EngineNode.Proofs.Json.Rendered
import EngineNode.Proofs.JsonRpc.Batch
import EngineNode.Proofs.Wire.RoundTrip

/-!
A list that nobody answers.

A request that is written as JSON makes the call that it was written for. So what stops a call of
the engine stops the request, alone or in a list, and the calls beside it have no reply either.

* `requestJson`, `callOf_requestJson`: a request as it is written, and its call.
* `list_unanswered`: a list of two requests, of which the first stops the node.
-/

namespace EngineNode.JsonRpc

open Json (Raw Position maxDepth)
open Json.Raw (Written Lists noBlanks)
open Wire (utf8)

/-! ### Requests as they are written -/

/-- A request for a method. -/
def requestJson (id name : String) (values : List Json) : Json :=
  .obj [("jsonrpc", .str "2.0"), ("id", .str id), ("method", .str name), ("params", .arr values)]

theorem textOf?_written (text : String) (p : Position) :
    textOf? ((Json.str text).written.raw p) = some text := by
  simp only [Json.written, Written.raw, textOf?, Json.readString_stringText]
  rfl

theorem valueOf?_written {json : Json} (textual : json.Textual maxDepth) (p : Position) :
    valueOf? (json.written.raw p) = some json := by
  rw [valueOf?, Json.toJson_written json maxDepth p textual]
  rfl

theorem ofRaw_written {values : List Json} (textual : (Json.arr values).Textual maxDepth)
    (p : Position) : Params.ofRaw ((Json.arr values).written.raw p) = .ok ⟨values⟩ := by
  have read := Json.toJson_written _ maxDepth p textual
  cases values with
  | nil => rfl
  | cons value rest =>
      simp only [Json.written, Written.raw] at read ⊢
      simp only [Params.ofRaw, read]

/-- The fields of a request, wherever they stand. -/
theorem raw_requestJson (id name : String) (values : List Json) (p : Position) :
    ∃ p₁ p₂ p₃ p₄ q₁ q₂ q₃ q₄, (requestJson id name values).written.raw p = .object p [
      ((p₁, (Json.label "jsonrpc").name.val), (Json.str "2.0").written.raw q₁),
      ((p₂, (Json.label "id").name.val), (Json.str id).written.raw q₂),
      ((p₃, (Json.label "method").name.val), (Json.str name).written.raw q₃),
      ((p₄, (Json.label "params").name.val), (Json.arr values).written.raw q₄)] :=
  ⟨_, _, _, _, _, _, _, _, rfl⟩

theorem isSingle_requestJson (id name : String) (values : List Json) (p : Position) :
    ((requestJson id name values).written.raw p).IsSingle := by
  obtain ⟨_, _, _, _, _, _, _, _, shape⟩ := raw_requestJson id name values p
  rw [shape]
  exact fun _ _ => nofun

theorem readName (p : Position) (name : String) :
    (Json.readString p (Json.label name).name.val).toOption = some name := by
  rw [Json.label, Json.readString_stringText]
  rfl

/-- A request that is written is read as what it says. -/
theorem ofRaw?_requestJson (id name : String) (values : List Json) (p : Position) :
    ∃ q, Request.ofRaw? ((requestJson id name values).written.raw p) =
      some ⟨.string id, name, some ((Json.arr values).written.raw q)⟩ := by
  obtain ⟨p₁, p₂, p₃, p₄, q₁, q₂, q₃, q₄, shape⟩ := raw_requestJson id name values p
  refine ⟨q₄, ?_⟩
  have fields : fieldsOf? ["jsonrpc", "id", "method", "params"] [
      ((p₁, (Json.label "jsonrpc").name.val), (Json.str "2.0").written.raw q₁),
      ((p₂, (Json.label "id").name.val), (Json.str id).written.raw q₂),
      ((p₃, (Json.label "method").name.val), (Json.str name).written.raw q₃),
      ((p₄, (Json.label "params").name.val), (Json.arr values).written.raw q₄)] = some [
      ("jsonrpc", (Json.str "2.0").written.raw q₁), ("id", (Json.str id).written.raw q₂),
      ("method", (Json.str name).written.raw q₃),
      ("params", (Json.arr values).written.raw q₄)] := by
    simp only [fieldsOf?, List.mapM_cons, List.mapM_nil, readName]
    rfl
  have parts : Request.ofParts? ((Json.str "2.0").written.raw q₁) ((Json.str id).written.raw q₂)
      ((Json.str name).written.raw q₃) (some ((Json.arr values).written.raw q₄)) =
        some ⟨.string id, name, some ((Json.arr values).written.raw q₄)⟩ := by
    have plain : (Json.str id).Textual maxDepth := trivial
    unfold Request.ofParts?
    rw [textOf?_written, textOf?_written, valueOf?_written plain]
    cases values <;> rfl
  rw [shape, Request.ofRaw?, fields]
  exact parts

/-- **A request that is written makes its call**, under its identifier. -/
theorem callOf_requestJson {name : String} {method : Method}
    (known : Method.ofName? name = some method) (id : String) {values : List Json}
    (textual : (Json.arr values).Textual maxDepth) (p : Position) :
    callerId ((requestJson id name values).written.raw p) = .string id ∧
      callOf ((requestJson id name values).written.raw p) =
        (Params.read ⟨values⟩ method).mapError .params := by
  obtain ⟨q, read⟩ := ofRaw?_requestJson id name values p
  have given : Params.ofOption (some ((Json.arr values).written.raw q)) = .ok ⟨values⟩ :=
    ofRaw_written textual q
  constructor
  · rw [callerId, read]
  · rw [callOf, read]
    dsimp only
    rw [Request.call_of_ok given, known]

/-- A parameter that is written is read back. -/
theorem required_written {α : Type} {decode : Decoder α} {encode : α → Json}
    (back : ReadsBack decode encode) {params : Params} {index : Nat} {value : α}
    (written : params.values[index]? = some (encode value)) :
    params.required index decode = .ok value := by
  have given : params.optional index decode = .ok (some value) := by
    unfold Params.optional
    rw [written]
    split
    · rename_i missing
      cases missing
    · rename_i null
      exact absurd (Option.some.inj null) (back.ne_null value)
    · rename_i json _ found
      cases found
      rw [back.read]
  rw [Params.required, given]
  rfl

/-! ### The list -/

namespace Unanswered

open LastNumber (block witness)

/-- The payload that stops the node, with what is sent beside it. -/
def request : PayloadRequest := { payload := .ofBlock {} block }

/-- What is sent to have it executed. -/
def values : List Json := [request.payload.toJson, Wire.encodeByteString witness.encode]

/-- The request that stops the node. -/
def stopping : Json := requestJson "1" "engine_executeStatelessPayloadV1" values

/-- A request that asks for nothing. -/
def idle : Json := requestJson "2" "engine_getPayloadBodiesByHashV1" [.arr []]

theorem textual_values {depth : Nat} (deep : 3 < depth) : (Json.arr values).Textual depth := by
  have payload : request.payload.toJson.Textual (depth - 1) := by
    exact ⟨by omega, by decide, trivial, trivial, trivial, trivial, trivial, trivial, trivial,
      trivial, trivial, trivial, trivial, trivial, trivial, ⟨by omega, trivial⟩, trivial⟩
  exact ⟨by omega, payload, trivial, trivial⟩

theorem read_values :
    Params.read ⟨values⟩ (.executeStatelessPayload .v1) =
      .ok (.executeStatelessPayload .v1 request witness.encode) := by
  have payload : Params.required ⟨values⟩ 0 Payload.ofJson = .ok request.payload :=
    required_written Payload.readsBack rfl
  have sent : Params.required ⟨values⟩ 1 Wire.decodeByteString = .ok witness.encode :=
    required_written Wire.readsBack_byteString rfl
  have counted : Params.checkCount ⟨values⟩ (1 + 1) = .ok () := rfl
  simp only [Params.read, payloadRequest, payload, ok_bind, pure_bind, counted, sent]
  rfl

theorem request_followsLast : request.FollowsLast {} witness.encode := by
  have travels : block.Travels {} {} :=
    { ommersHash := rfl
      difficulty := rfl
      nonce := rfl
      extraData := Nat.zero_le _
      baseFee := rfl
      transactionsRoot := rfl
      withdrawalsRoot := fun _ => rfl
      isthmus := nofun
      beaconRoot := rfl
      requestsHash := rfl
      blobHashes := rfl }
  exact ⟨block, witness.filled,
    Payload.toBlockUnchecked_eq_ok_iff.mpr (Payload.describes_ofBlock travels),
    Witness.decode_encode (Witness.length_contents_lt (by decide) (FixedBytes.length_toList _).le),
    LastNumber.block_followsLast⟩

/-- The request makes the call that stops the node. -/
theorem callOf_stopping (p : Position) :
    callOf (stopping.written.raw p) =
      .ok (.executeStatelessPayload .v1 request witness.encode) := by
  have known : Method.ofName? "engine_executeStatelessPayloadV1" =
      some (.executeStatelessPayload .v1) := by decide +kernel
  have textual : (Json.arr values).Textual maxDepth := textual_values (by decide)
  rw [stopping, (callOf_requestJson known "1" textual p).2, read_values]
  rfl

/-- The call stops every node with these rules. -/
theorem answer_stops {node : Node} (rules : node.config = {}) :
    (node.answer (.executeStatelessPayload .v1 request witness.encode)).1 = .error .overflow := by
  have accepted : NewPayloadVersion.check .v1 .executeStateless node.config request = .ok () := by
    rw [rules]
    rfl
  exact (Node.answer_of_followsLast accepted (rules.symm ▸ request_followsLast)).2

/-- The request stops every node with these rules that has logged nothing yet. -/
theorem answerCall_stopping (p : Position) {m : Moment} (rules : m.node.config = {})
    (silent : m.node.hasFeature .logEngineApiCalls = false) (fresh : m.logs = []) :
    (runFrom (answerCall (stopping.written.raw p)) m).1 = .error .overflow := by
  obtain ⟨metrics, logs, quiet, ends⟩ := answerCall_call (callOf_stopping p) m
  cases (quiet silent).trans fresh
  let call : EngineNode.Call := .executeStatelessPayload .v1 request witness.encode
  have stops : (Node.answer { m.node with metrics } call).1 = .error .overflow :=
    answer_stops rules
  obtain ⟨⟨⟨answer, node⟩, logged⟩, ran⟩ :
      ∃ outcome, call.program.run { m.node with metrics } [] = outcome := ⟨_, rfl⟩
  obtain ⟨metrics', logs', ended⟩ := ends answer node logged ran
  simp only [Node.answer, NodeM.exec, StateT.run, ran] at stops
  rw [ended, stops]
  rfl

theorem textual_stopping : stopping.Textual maxDepth :=
  ⟨by decide, by decide, trivial, trivial, trivial, textual_values (by decide), trivial⟩

theorem textual_idle : idle.Textual maxDepth :=
  ⟨by decide, by decide, trivial, trivial, trivial, ⟨by decide, ⟨by decide, trivial⟩, trivial⟩,
    trivial⟩

/-- The two requests as a text. -/
def list : Json := .arr [stopping, idle]

theorem lists : Lists list.render.toList [stopping.render.toList, idle.render.toList] where
  written := by
    refine ⟨noBlanks, noBlanks, ?_⟩
    rw [list, Json.toList_render_arr]
    simp only [Raw.val_noBlanks, List.nil_append, List.append_nil, List.map_cons, List.map_nil]
  nonempty := List.cons_ne_nil _ _
  single := List.forall_mem_cons.mpr
    ⟨⟨_, Json.parse?_rendered textual_stopping, isSingle_requestJson _ _ _ _⟩,
      List.forall_mem_singleton.mpr
        ⟨_, Json.parse?_rendered textual_idle, isSingle_requestJson _ _ _ _⟩⟩

/-- A new node that has logged nothing. -/
def start : Moment := ⟨.new {}, []⟩

theorem post_stopping : (post (utf8 stopping.render.toList) start).1 = .error .overflow := by
  have stops : (runFrom (answerCall (stopping.written.raw .zero)) start).1 = .error .overflow :=
    answerCall_stopping .zero rfl rfl rfl
  rw [post_single (Json.parse?_rendered textual_stopping) (isSingle_requestJson _ _ _ _), stops]
  rfl

/-- **A list that nobody answers.** Its first request stops a new node, and then the second one has
no reply either, although nothing is wrong with it. -/
theorem list_unanswered :
    Lists list.render.toList [stopping.render.toList, idle.render.toList] ∧
    (post (utf8 list.render.toList) start).1 = .error .overflow := by
  refine ⟨lists, ?_⟩
  obtain ⟨place, raws, parsed, standing⟩ := lists.parse?
  rw [← String.toList_ofList (l := list.render.toList)] at parsed
  have nonempty : raws ≠ [] :=
    List.ne_nil_of_length_pos (standing.length_eq ▸ Nat.zero_lt_two)
  rw [post_array (fromUTF8?_utf8 _) parsed nonempty start]
  rcases answerCalls_posts standing lists.single start with ⟨replies, last, posts, -⟩ |
    ⟨earlier, value, later, replies, reached, last, -, -, -, answered⟩
  · obtain ⟨reply, next, posted⟩ := posts.exists_first
    have stopped := post_stopping
    rw [posted] at stopped
    cases stopped
  · rw [answered]
    rfl

end Unanswered

end EngineNode.JsonRpc
