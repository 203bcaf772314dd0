import EngineNode.JsonRpc.Exchange
import EngineNode.Proofs.Engine.Ensures
import EngineNode.Proofs.JsonRpc.Reading

/-!
Posting one value.

A value that is posted is a call or it is none. Whatever becomes of it, the reply has the
identifier that the value gives; and where the value itself is at fault, the reply is that fault, in
every state, and the node does not change beyond its counters.

* `Moment`, `runFrom`: where a program of the server starts, and what it leaves.
* `callerId`, `callOf`: what a value says of its reply before anything runs.
* `answerCall_id`: every reply has the identifier of its value.
* `answerCall_fault`: what a value at fault does.
* `answerCall_call`: what a value that makes a call does.
-/

namespace EngineNode.JsonRpc

open Json (Raw)

/-! ### Runs of the server -/

/-- A node, and what it has logged. -/
structure Moment where
  node : Node
  logs : List LogEntry

section Runs

variable {α β : Type}

/-- What comes of a program, and the moment after it. -/
def runFrom (program : ServeM α) (m : Moment) : Except Breakdown α × Moment :=
  let ((outcome, node), logs) := program.run m.node m.logs
  (outcome, ⟨node, logs⟩)

theorem runFrom_bind (x : ServeM α) (f : α → ServeM β) (m : Moment) :
    runFrom (x >>= f) m =
      match runFrom x m with
      | (.ok a, m') => runFrom (f a) m'
      | (.error breakdown, m') => (.error breakdown, m') := by
  obtain ⟨⟨⟨outcome, node⟩, logs⟩, ended⟩ :
      ∃ outcome, x.run m.node m.logs = outcome := ⟨_, rfl⟩
  unfold runFrom
  rw [ended]
  simp only [ExceptT.run, bind, ExceptT.bind, ExceptT.mk, StateT.bind] at ended ⊢
  rw [ended]
  cases outcome <;> rfl

theorem runFrom_map (x : ServeM α) (f : α → β) (m : Moment) :
    runFrom (f <$> x) m = ((runFrom x m).1.map f, (runFrom x m).2) := by
  rw [← bind_pure_comp, runFrom_bind]
  obtain ⟨outcome, m'⟩ := runFrom x m
  cases outcome <;> rfl

/-- What a program of the node does in one of the server. -/
theorem runFrom_lift (program : NodeM α) (m : Moment) :
    runFrom (liftM program) m = (.ok (program m.node m.logs).1.1,
      ⟨(program m.node m.logs).1.2, (program m.node m.logs).2⟩) := rfl

end Runs

/-! ### Calls and faults -/

/-- The call that a request makes, or what is wrong with it. -/
def Request.call (request : Request) : Except CallError EngineNode.Call := do
  let params ← (Params.ofOption request.params).mapError .params
  match Method.ofName? request.method with
  | some method => (params.read method).mapError .params
  | none => throw (.unknownMethod request.method)

/-- The call that a value makes, or what is wrong with it. -/
def callOf (raw : Raw) : Except CallError EngineNode.Call :=
  match Request.ofRaw? raw with
  | some request => request.call
  | none => .error .invalidRequest

/-- The identifier that a value gives to its reply. -/
def callerId (raw : Raw) : CallId :=
  match Request.ofRaw? raw with
  | some request => request.id
  | none => Request.idOfInvalid raw

/-- Logging for a feature leaves the node alone, and the log too if the feature is off. -/
theorem logFeature_run (feature : Feature) (message : String) (node : Node) (logs : List LogEntry) :
    ∃ logs', NodeM.logFeature feature message node logs = (((), node), logs') ∧
      (node.hasFeature feature = false → logs' = logs) := by
  have ran : NodeM.logFeature feature message node logs =
      (if node.hasFeature feature then NodeM.logAll [feature.entry message] else pure ())
        node logs := rfl
  rw [ran]
  split
  · rename_i on
    exact ⟨_, rfl, fun off => absurd (on.symm.trans off) (by decide)⟩
  · exact ⟨_, rfl, fun _ => rfl⟩

theorem Request.call_of_ok {request : Request} {params : Params}
    (given : Params.ofOption request.params = .ok params) :
    request.call =
      match Method.ofName? request.method with
      | some method => (params.read method).mapError .params
      | none => .error (.unknownMethod request.method) := by
  unfold call
  rw [given]
  rfl

theorem Request.call_of_error {request : Request} {error : ParamsError}
    (refused : Params.ofOption request.params = .error error) :
    request.call = .error (.params error) := by
  unfold call
  rw [refused]
  rfl

/-- What is wrong with a request is no error of the engine. -/
theorem Request.call_ne_engine (request : Request) (error : EngineError) :
    request.call ≠ .error (.engine error) := by
  cases given : Params.ofOption request.params with
  | error error => simp [call_of_error given]
  | ok params =>
      rw [call_of_ok given]
      split
      · rename_i method _
        cases params.read method <;> simp [Except.mapError]
      · simp

/-- A request with a list of parameters runs its call, or fails without a trace. -/
theorem dispatch_run {request : Request} {params : Params}
    (given : Params.ofOption request.params = .ok params) (node : Node) (logs : List LogEntry) :
    (dispatch request.method params).run node logs =
      match request.call with
      | .error error => ((.error error, node), logs)
      | .ok call =>
        let ((answer, node), logs) := call.program.run node logs
        ((replyTo call answer, node), logs) := by
  rw [Request.call_of_ok given]
  unfold dispatch
  cases Method.ofName? request.method with
  | none => rfl
  | some method =>
      dsimp only
      rw [run_callMethod]
      cases params.read method <;> rfl

/-- A program between two counts. -/
theorem counted_run {α : Type} (before after : Metrics → Metrics) (program : NodeM α) (node : Node)
    (logs : List LogEntry) :
    (do
      NodeM.count before
      let outcome ← program
      NodeM.count after
      return outcome : NodeM α) node logs =
      let ((outcome, node), logs) := program (node.count before) logs
      ((outcome, node.count after), logs) := rfl

/-- A call that cannot be made is counted at most. -/
theorem countedDispatch_fault {request : Request} {params : Params} {error : CallError}
    (given : Params.ofOption request.params = .ok params) (faulty : request.call = .error error)
    (node : Node) (logs : List LogEntry) :
    ∃ metrics, countedDispatch request.method params node logs =
      ((.error error, { node with metrics }), logs) := by
  have fails (node : Node) : (dispatch request.method params).run node logs = _ :=
    dispatch_run given node logs
  simp only [faulty] at fails
  unfold countedDispatch
  split
  · rw [counted_run, fails]
    exact ⟨_, rfl⟩
  · exact ⟨node.metrics, fails node⟩

/-- A call that is made runs between two counts. -/
theorem countedDispatch_call {request : Request} {params : Params} {call : EngineNode.Call}
    (given : Params.ofOption request.params = .ok params) (made : request.call = .ok call)
    (node : Node) (logs : List LogEntry) :
    ∃ (before : Option Metrics) (after : Metrics → Metrics),
      countedDispatch request.method params node logs =
        let ((answer, node), logs) := call.program.run { node with metrics := before } logs
        ((replyTo call answer, node.count after), logs) := by
  have runs (node : Node) : (dispatch request.method params).run node logs = _ :=
    dispatch_run given node logs
  simp only [made] at runs
  have known : (Method.ofName? request.method).isSome = true := by
    rw [Request.call_of_ok given] at made
    cases named : Method.ofName? request.method with
    | none => simp [named] at made
    | some method => rfl
  unfold countedDispatch
  rw [if_pos known, counted_run, runs]
  exact ⟨_, _, rfl⟩

/-- What is made of the outcome of a request. -/
def Request.conclude (request : Request) : Except CallError Json → ServeM Reply
  | .ok result => do
    NodeM.logFeature .logEngineApiCalls (request.method ++ " returned " ++ result.render)
    return ⟨request.id, .ok result⟩
  | .error (.engine .overflow) => throw .overflow
  | .error error => do
    NodeM.logFeature .logEngineApiCalls (request.method ++ " failed: " ++ error.logText)
    return ⟨request.id, .error error⟩

theorem answerRequest_eq (request : Request) :
    answerRequest request =
      (match Params.ofOption request.params with
      | .error error => return ⟨request.id, .error (.params error)⟩
      | .ok params => do
        NodeM.logFeature .logEngineApiCalls (request.method ++ " called with " ++ params.logText)
        let outcome ← countedDispatch request.method params
        request.conclude outcome) := rfl

/-- A request ends in a breakdown, or with its outcome under its identifier. -/
theorem conclude_cases (request : Request) (outcome : Except CallError Json) (m : Moment) :
    (outcome = .error (.engine .overflow) ∧
      runFrom (request.conclude outcome) m = (.error .overflow, m)) ∨
    (outcome ≠ .error (.engine .overflow) ∧ ∃ logs,
      runFrom (request.conclude outcome) m = (.ok ⟨request.id, outcome⟩, ⟨m.node, logs⟩)) := by
  have logged (message : String) (reply : Reply) : ∃ logs, runFrom (do
      NodeM.logFeature .logEngineApiCalls message
      return reply) m = (.ok reply, ⟨m.node, logs⟩) := by
    obtain ⟨logs, ran, -⟩ := logFeature_run .logEngineApiCalls message m.node m.logs
    rw [runFrom_bind, runFrom_lift, ran]
    exact ⟨logs, rfl⟩
  unfold Request.conclude
  split
  · exact .inr ⟨nofun, logged _ _⟩
  · exact .inl ⟨rfl, rfl⟩
  · rename_i error other
    exact .inr ⟨fun same => other (Except.error.inj same), logged _ _⟩

theorem answerRequest_fault {request : Request} {error : CallError}
    (faulty : request.call = .error error) (m : Moment) :
    ∃ metrics logs, runFrom (answerRequest request) m =
      (.ok ⟨request.id, .error error⟩, ⟨{ m.node with metrics }, logs⟩) := by
  rw [answerRequest_eq]
  cases given : Params.ofOption request.params with
  | error fault =>
      rw [Request.call_of_error given] at faulty
      cases faulty
      exact ⟨_, _, rfl⟩
  | ok params =>
      obtain ⟨logs, called, -⟩ := logFeature_run .logEngineApiCalls
        (request.method ++ " called with " ++ params.logText) m.node m.logs
      obtain ⟨metrics, fails⟩ := countedDispatch_fault given faulty m.node logs
      dsimp only
      rw [runFrom_bind, runFrom_lift, called]
      dsimp only
      rw [runFrom_bind, runFrom_lift, fails]
      rcases conclude_cases request (.error error) ⟨{ m.node with metrics }, logs⟩ with
        ⟨overflow, -⟩ | ⟨-, logs, concluded⟩
      · cases overflow
        exact absurd faulty (request.call_ne_engine .overflow)
      · exact ⟨metrics, logs, concluded⟩

/-- **A value at fault** has its fault as reply, whatever the state, and only counters change. -/
theorem answerCall_fault {raw : Raw} {error : CallError} (faulty : callOf raw = .error error)
    (m : Moment) :
    ∃ metrics logs, runFrom (answerCall raw) m =
      (.ok ⟨callerId raw, .error error⟩, ⟨{ m.node with metrics }, logs⟩) := by
  unfold callOf at faulty
  unfold answerCall callerId
  cases made : Request.ofRaw? raw with
  | none =>
      rw [made] at faulty
      cases faulty
      exact ⟨_, _, rfl⟩
  | some request =>
      rw [made] at faulty
      exact answerRequest_fault faulty m

/-- How a call ends: with a breakdown, or with the answer of the engine as reply. -/
def ending (id : CallId) (call : EngineNode.Call) (answer : Except EngineError call.Answer) :
    Except Breakdown Reply :=
  match answer with
  | .error .overflow => .error .overflow
  | answer => .ok ⟨id, replyTo call answer⟩

theorem ending_of_overflow {id : CallId} {call : EngineNode.Call}
    {answer : Except EngineError call.Answer}
    (overflow : replyTo call answer = .error (.engine .overflow)) :
    ending id call answer = .error .overflow := by
  cases answer with
  | ok answer => cases overflow
  | error error =>
      cases overflow
      rfl

theorem ending_of_ne_overflow {id : CallId} {call : EngineNode.Call}
    {answer : Except EngineError call.Answer}
    (other : replyTo call answer ≠ .error (.engine .overflow)) :
    ending id call answer = .ok ⟨id, replyTo call answer⟩ := by
  unfold ending
  split
  · exact absurd rfl other
  · rfl

theorem answerRequest_call {request : Request} {call : EngineNode.Call}
    (made : request.call = .ok call) (m : Moment) :
    ∃ metrics logs, (m.node.hasFeature .logEngineApiCalls = false → logs = m.logs) ∧
      ∀ answer node logged,
        call.program.run { m.node with metrics } logs = ((answer, node), logged) →
        ∃ metrics' logs', runFrom (answerRequest request) m =
          (ending request.id call answer, ⟨{ node with metrics := metrics' }, logs'⟩) := by
  rw [answerRequest_eq]
  cases given : Params.ofOption request.params with
  | error fault =>
      rw [Request.call_of_error given] at made
      cases made
  | ok params =>
      obtain ⟨logs, called, quiet⟩ := logFeature_run .logEngineApiCalls
        (request.method ++ " called with " ++ params.logText) m.node m.logs
      obtain ⟨metrics, after, ran⟩ := countedDispatch_call given made m.node logs
      refine ⟨metrics, logs, quiet, fun answer node logged ended => ?_⟩
      dsimp only
      rw [runFrom_bind, runFrom_lift, called]
      dsimp only
      rw [runFrom_bind, runFrom_lift, ran, ended]
      dsimp only
      rcases conclude_cases request (replyTo call answer) ⟨node.count after, logged⟩ with
        ⟨overflow, stopped⟩ | ⟨other, logs, concluded⟩
      · rw [ending_of_overflow overflow]
        exact ⟨_, _, stopped⟩
      · rw [ending_of_ne_overflow other]
        exact ⟨_, _, concluded⟩

/-- **A value that makes a call** has the answer of the engine as reply, or breaks down with it.
Apart from counters the node is the one that the engine leaves. -/
theorem answerCall_call {raw : Raw} {call : EngineNode.Call} (made : callOf raw = .ok call)
    (m : Moment) :
    ∃ metrics logs, (m.node.hasFeature .logEngineApiCalls = false → logs = m.logs) ∧
      ∀ answer node logged,
        call.program.run { m.node with metrics } logs = ((answer, node), logged) →
        ∃ metrics' logs', runFrom (answerCall raw) m =
          (ending (callerId raw) call answer, ⟨{ node with metrics := metrics' }, logs'⟩) := by
  unfold callOf at made
  unfold answerCall callerId
  cases read : Request.ofRaw? raw with
  | none =>
      rw [read] at made
      cases made
  | some request =>
      rw [read] at made
      exact answerRequest_call made m

theorem answerRequest_id {request : Request} {m m' : Moment} {reply : Reply}
    (answered : runFrom (answerRequest request) m = (.ok reply, m')) : reply.id = request.id := by
  rw [answerRequest_eq] at answered
  cases given : Params.ofOption request.params with
  | error fault =>
      rw [given] at answered
      cases answered
      rfl
  | ok params =>
      rw [given] at answered
      dsimp only at answered
      rw [runFrom_bind, runFrom_lift] at answered
      dsimp only at answered
      rw [runFrom_bind, runFrom_lift] at answered
      dsimp only at answered
      generalize (⟨_, _⟩ : Moment) = before at answered
      generalize (countedDispatch request.method params _ _).1.1 = outcome at answered
      rcases conclude_cases request outcome before with ⟨-, stopped⟩ | ⟨-, logs, concluded⟩
      · rw [stopped] at answered
        cases answered
      · rw [concluded] at answered
        cases answered
        rfl

/-- **Every reply has the identifier of its value.** -/
theorem answerCall_id {raw : Raw} {m m' : Moment} {reply : Reply}
    (answered : runFrom (answerCall raw) m = (.ok reply, m')) : reply.id = callerId raw := by
  unfold answerCall at answered
  unfold callerId
  cases made : Request.ofRaw? raw with
  | none =>
      rw [made] at answered
      cases answered
      rfl
  | some request =>
      rw [made] at answered
      exact answerRequest_id answered

end EngineNode.JsonRpc
