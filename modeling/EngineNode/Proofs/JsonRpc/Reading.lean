import EngineNode.JsonRpc.Call
import EngineNode.Proofs.Engine.Run

/-!
How a method reads its parameters.

Every method first reads its parameters and counts them, in an order of its own; only then does it
run. So a call over JSON is a call of the engine, or an error about parameters and nothing else.

* `Params.read`: the call of the engine that parameters stand for.
* `callMethod_eq`, `run_callMethod`: a method is that call, and its answer as JSON.
* `read_padded`, `read_tooMany`: nulls at the end do not matter, and too many parameters are always
  refused.
* `dispatch_counted`: what both mean for the replies and the node.
-/

namespace EngineNode

/-- The answer to a call, as it stands in a reply. -/
def Call.resultJson : (call : Call) → call.Answer → Json
  | .forkchoiceUpdated .., response => ForkchoiceResponse.toJson response
  | .newPayload .., status => PayloadStatus.toJson status
  | .executeStatelessPayload .., status => StatelessStatus.toJson status
  | .getPayload version _, envelope =>
    if version = .v1 then (Envelope.payload envelope).toJson else Envelope.toJson envelope
  | .getBlobs _, blobs => .ofList (Json.ofOption BlobAndProof.toJson) blobs
  | .bodiesByHash _, bodies | .bodiesByRange .., bodies => JsonRpc.bodiesJson bodies
  | .exchangeTransitionConfiguration _, configuration =>
    TransitionConfiguration.toJson configuration
  | .exchangeCapabilities _, names => .ofList Json.str names
  | .clientVersion _, versions => .ofList ClientVersion.toJson versions
  | .signalSuperchain _, version => ProtocolVersion.toJson version

/-- The number of parameters of a payload with what is sent beside it. -/
def NewPayloadVersion.paramCount : NewPayloadVersion → Nat
  | .v1 | .v2 => 1
  | .v3 => 3
  | .v4 => 4

/-- How many parameters a method takes at most. -/
def Method.maxParams : Method → Nat
  | .forkchoiceUpdated .. => 2
  | .newPayload version _ => version.paramCount
  | .executeStatelessPayload version => version.paramCount + 1
  | .bodiesByRange _ => 2
  | .exchangeTransitionConfiguration | .getPayload _ | .getBlobs | .bodiesByHash _
  | .clientVersion | .exchangeCapabilities | .signalSuperchain => 1

namespace JsonRpc

open CallM

/-- The call of the engine that the parameters of a method stand for. -/
def Params.read (params : Params) : Method → Except ParamsError EngineNode.Call
  | .forkchoiceUpdated version wantWitness => do
    params.checkCount 2
    let choice ← params.required 0 ForkchoiceState.ofJson
    let attributes ← params.optional 1 PayloadAttributes.ofJson
    return .forkchoiceUpdated version choice attributes wantWitness
  | .newPayload version wantWitness => do
    let (request, count) ← payloadRequest params version
    params.checkCount count
    return .newPayload version request wantWitness
  | .executeStatelessPayload version => do
    let (request, count) ← payloadRequest params version
    params.checkCount (count + 1)
    let witness ← params.required count Wire.decodeByteString
    return .executeStatelessPayload version request witness
  | .getPayload version => return .getPayload version (← params.single PayloadId.ofJson)
  | .getBlobs => return .getBlobs (← params.single decodeHashes)
  | .bodiesByHash _ => return .bodiesByHash (← params.single decodeHashes)
  | .bodiesByRange _ => do
    params.checkCount 2
    let start ← params.required 0 Wire.decodeUInt64
    let count ← params.required 1 Wire.decodeUInt64
    return .bodiesByRange start count
  | .exchangeTransitionConfiguration =>
    return .exchangeTransitionConfiguration (← params.single TransitionConfiguration.ofJson)
  | .exchangeCapabilities =>
    return .exchangeCapabilities (← params.single (Decoder.list Decoder.string))
  | .clientVersion => return .clientVersion (← params.single ClientVersion.ofJson)
  | .signalSuperchain => do
    params.checkCount 1
    return .signalSuperchain (← params.optional 0 SuperchainSignal.ofJson)

/-! ### A method is a call of the engine -/

theorem ofParams_bind {α β : Type} (x : Except ParamsError α) (f : α → Except ParamsError β) :
    ofParams (x >>= f) = ofParams x >>= fun a => ofParams (f a) := by
  cases x <;> rfl

theorem ofParams_pure {α : Type} (a : α) : ofParams (pure a) = pure a := rfl

/-- **A method reads its parameters and then runs.** -/
theorem callMethod_eq (params : Params) (method : Method) :
    callMethod params method = do
      let call ← ofParams (params.read method)
      return call.resultJson (← ofEngine call.program) := by
  cases method <;>
    simp only [callMethod, forkchoiceUpdated, newPayload, executeStatelessPayload, getPayload,
      getBlobs, bodiesByHash, bodiesByRange, exchangeTransitionConfiguration, exchangeCapabilities,
      clientVersion, signalSuperchain, Params.read, ofParams_bind, ofParams_pure, bind_assoc,
      pure_bind] <;>
    rfl

/-- What is replied to the answer of the engine. -/
def replyTo (call : EngineNode.Call) (answer : Except EngineError call.Answer) :
    Except CallError Json :=
  match answer with
  | .ok answer => .ok (call.resultJson answer)
  | .error error => .error (.engine error)

/-- Running a program of the engine and writing its answer. -/
theorem run_ofEngine (call : EngineNode.Call) (node : Node) (logs : List LogEntry) :
    (do return call.resultJson (← ofEngine call.program) : CallM Json).run node logs =
      let ((answer, node), logs) := call.program.run node logs
      ((replyTo call answer, node), logs) := by
  obtain ⟨⟨⟨answer, left⟩, after⟩, ended⟩ :
      ∃ outcome, call.program.run node logs = outcome := ⟨_, rfl⟩
  have ran : (ofEngine call.program).run node logs =
      ((answer.mapError CallError.engine, left), after) := by
    unfold ofEngine
    simp only [ExceptT.run, bind, StateT.bind] at ended ⊢
    rw [ended]
    cases answer <;> rfl
  rw [ended]
  simp only [ExceptT.run, bind, ExceptT.bind, ExceptT.mk, StateT.bind] at ran ⊢
  rw [ran]
  cases answer <;> rfl

/-- **What calling a method does**: an error about its parameters is all that happens, and else it
is the call of the engine that they stand for. -/
theorem run_callMethod (params : Params) (method : Method) (node : Node) (logs : List LogEntry) :
    (callMethod params method).run node logs =
      match params.read method with
      | .error error => ((.error (.params error), node), logs)
      | .ok call =>
        let ((answer, node), logs) := call.program.run node logs
        ((replyTo call answer, node), logs) := by
  rw [callMethod_eq]
  cases params.read method with
  | error error => rfl
  | ok call => exact run_ofEngine call node logs

/-! ### Nulls at the end -/

/-- The same parameters with nulls at the end. -/
def Params.padded (params : Params) (k : Nat) : Params :=
  ⟨params.values ++ List.replicate k .null⟩

section Padded

variable {α : Type} {params : Params} {k : Nat}

theorem optional_padded (index : Nat) (decode : Decoder α) :
    (params.padded k).optional index decode = params.optional index decode := by
  unfold Params.optional Params.padded
  rcases Nat.lt_or_ge index params.values.length with inside | behind
  · rw [List.getElem?_append_left inside]
  · rw [List.getElem?_append_right behind, List.getElem?_eq_none behind, List.getElem?_replicate]
    by_cases null : index - params.values.length < k
    · rw [if_pos null]
    · rw [if_neg null]

theorem required_padded (index : Nat) (decode : Decoder α) :
    (params.padded k).required index decode = params.required index decode := by
  unfold Params.required
  rw [optional_padded]

theorem payloadRequest_padded (version : NewPayloadVersion) :
    payloadRequest (params.padded k) version = payloadRequest params version := by
  simp only [payloadRequest, required_padded, optional_padded]

theorem checkCount_eq_ok {most : Nat} (few : params.values.length ≤ most) :
    params.checkCount most = .ok () :=
  if_neg (Nat.not_lt.mpr few)

theorem checkCount_eq_error {most : Nat} (many : most < params.values.length) :
    params.checkCount most = .error (.tooMany most) :=
  if_pos many

theorem checkCount_padded {most : Nat} (few : params.values.length + k ≤ most) :
    (params.padded k).checkCount most = params.checkCount most := by
  have padded : (params.padded k).values.length ≤ most := by
    rw [Params.padded, List.length_append, List.length_replicate]
    exact few
  rw [checkCount_eq_ok padded, checkCount_eq_ok (Nat.le_of_add_right_le few)]

theorem single_padded (few : params.values.length + k ≤ 1) (decode : Decoder α) :
    (params.padded k).single decode = params.single decode := by
  unfold Params.single
  rw [checkCount_padded few, required_padded]

/-- A payload with what is sent beside it takes as many parameters as its version has. -/
theorem count_of_payloadRequest {version : NewPayloadVersion} {request : PayloadRequest}
    {count : Nat} (read : payloadRequest params version = .ok (request, count)) :
    count = version.paramCount := by
  unfold payloadRequest at read
  obtain ⟨payload, -, read⟩ := bind_eq_ok_iff.mp read
  cases version with
  | v1 | v2 => cases read; rfl
  | v3 =>
      obtain ⟨hashes, -, read⟩ := bind_eq_ok_iff.mp read
      obtain ⟨root, -, read⟩ := bind_eq_ok_iff.mp read
      cases read
      rfl
  | v4 =>
      obtain ⟨hashes, -, read⟩ := bind_eq_ok_iff.mp read
      obtain ⟨root, -, read⟩ := bind_eq_ok_iff.mp read
      obtain ⟨requests, -, read⟩ := bind_eq_ok_iff.mp read
      cases read
      rfl

/-- Either it cannot be read, or it is read with that number. -/
theorem payloadRequest_cases (params : Params) (version : NewPayloadVersion) :
    (∃ error, payloadRequest params version = .error error) ∨
      ∃ request, payloadRequest params version = .ok (request, version.paramCount) := by
  cases read : payloadRequest params version with
  | error error => exact .inl ⟨error, rfl⟩
  | ok found =>
      obtain ⟨request, count⟩ := found
      cases count_of_payloadRequest read
      exact .inr ⟨request, rfl⟩

/-- **Nulls at the end do not matter** to what a method reads, as long as there are not too many
parameters. -/
theorem read_padded (method : Method) (few : params.values.length + k ≤ method.maxParams) :
    (params.padded k).read method = params.read method := by
  cases method with
  | newPayload version wantWitness =>
      have counted : (params.padded k).checkCount version.paramCount = _ := checkCount_padded few
      simp only [Params.read, payloadRequest_padded]
      rcases payloadRequest_cases params version with ⟨error, read⟩ | ⟨request, read⟩
      · rw [read]
        rfl
      · simp only [read, ok_bind, counted]
  | executeStatelessPayload version =>
      have counted : (params.padded k).checkCount (version.paramCount + 1) = _ :=
        checkCount_padded few
      simp only [Params.read, payloadRequest_padded, required_padded]
      rcases payloadRequest_cases params version with ⟨error, read⟩ | ⟨request, read⟩
      · rw [read]
        rfl
      · simp only [read, ok_bind, counted]
  | forkchoiceUpdated version wantWitness =>
      have counted : (params.padded k).checkCount 2 = _ := checkCount_padded few
      simp only [Params.read, counted, required_padded, optional_padded]
  | bodiesByRange version =>
      have counted : (params.padded k).checkCount 2 = _ := checkCount_padded few
      simp only [Params.read, counted, required_padded]
  | signalSuperchain =>
      have counted : (params.padded k).checkCount 1 = _ := checkCount_padded few
      simp only [Params.read, counted, optional_padded]
  | _ => simp only [Params.read, single_padded few]

/-- **Too many parameters are always refused**, whatever they are. -/
theorem read_tooMany (method : Method) (many : method.maxParams < params.values.length) :
    ∃ error, params.read method = .error error := by
  cases method with
  | newPayload version wantWitness =>
      have refused : params.checkCount version.paramCount = _ := checkCount_eq_error many
      simp only [Params.read]
      rcases payloadRequest_cases params version with ⟨error, read⟩ | ⟨request, read⟩
      · rw [read]
        exact ⟨error, rfl⟩
      · simp only [read, ok_bind, refused]
        exact ⟨_, rfl⟩
  | executeStatelessPayload version =>
      have refused : params.checkCount (version.paramCount + 1) = _ := checkCount_eq_error many
      simp only [Params.read]
      rcases payloadRequest_cases params version with ⟨error, read⟩ | ⟨request, read⟩
      · rw [read]
        exact ⟨error, rfl⟩
      · simp only [read, ok_bind, refused]
        exact ⟨_, rfl⟩
  | forkchoiceUpdated | bodiesByRange =>
      have refused : params.checkCount 2 = _ := checkCount_eq_error many
      simp only [Params.read, refused]
      exact ⟨_, rfl⟩
  | _ =>
      have refused : params.checkCount 1 = _ := checkCount_eq_error many
      simp only [Params.read, Params.single, refused]
      exact ⟨_, rfl⟩

end Padded

/-! ### Methods by their names -/

/-- **How many parameters a method takes.** In every state of the node, nulls behind the parameters
of a known method change neither the reply nor the node nor the log, as long as there are not more
than it takes. With more than that, whatever they are, the reply is an error about parameters, and
nothing happens. -/
theorem dispatch_counted (name : String) (method : Method)
    (known : Method.ofName? name = some method) (params : Params) (node : Node) :
    (∀ k, params.values.length + k ≤ method.maxParams →
      (dispatch name (params.padded k)).run.exec node = (dispatch name params).run.exec node) ∧
    (method.maxParams < params.values.length →
      ∃ error : CallError, error.code = -32602 ∧
        (dispatch name params).run.exec node = (.error error, node, [])) := by
  have called (params : Params) : dispatch name params = callMethod params method := by
    rw [dispatch, known]
  constructor
  · intro k few
    simp only [called, NodeM.exec, StateT.run, run_callMethod, read_padded method few]
  · intro many
    obtain ⟨error, refused⟩ := read_tooMany method many
    refine ⟨.params error, rfl, ?_⟩
    simp only [called, NodeM.exec, StateT.run, run_callMethod, refused]

/-- The third version of a stateless execution takes four parameters, the witness last. -/
theorem dispatch_counted_stateless :
    let name := "engine_executeStatelessPayloadV3"
    let params : Params := ⟨[.obj []]⟩
    let many : Params := ⟨List.replicate 5 .null⟩
    let node := Node.new {}
    Method.ofName? name = some (.executeStatelessPayload .v3) ∧
    (dispatch name (params.padded 3)).run.exec node = (dispatch name params).run.exec node ∧
    ∃ error : CallError, error.code = -32602 ∧
      (dispatch name many).run.exec node = (.error error, node, []) := by
  intro name params many node
  have known : Method.ofName? name = some (.executeStatelessPayload .v3) := by decide +kernel
  exact ⟨known, (dispatch_counted name _ known params node).1 3 (by decide),
    (dispatch_counted name _ known many node).2 (by decide)⟩

end JsonRpc

end EngineNode
