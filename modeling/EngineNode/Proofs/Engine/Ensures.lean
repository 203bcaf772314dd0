import EngineNode.Engine.Queries

/-!
What programs do to a node.

`NodeM.Ensures` and `EngineM.Ensures` say of one run of a program, from a node and what was logged
before, that the result, the node it leaves and the log have a property. A run has one outcome, so
the property of a compound program is computed from its parts (the `ensures_*` lemmas), and a
program that is called is known by its own lemma (`Ensures.mono`).
-/

namespace EngineNode

variable {α β : Type}

/-- What holds of a result holds of every value that the result is known to be. -/
theorem of_eq_ok {ε : Type} {p : α → Prop} {a : α} (holds : p a) :
    ∀ b, (.ok a : Except ε α) = .ok b → p b := by
  intro b same
  cases same
  exact holds

/-- An error has no value of which anything would have to hold. -/
theorem of_error_eq_ok {ε : Type} {p : α → Prop} {e : ε} :
    ∀ b, (.error e : Except ε α) = .ok b → p b := by
  intro b same
  cases same

/-- The run of a program from a node has a property. -/
def NodeM.Ensures (program : NodeM α) (node : Node) (logs : List LogEntry)
    (post : α → Node → List LogEntry → Prop) : Prop :=
  post (program node logs).1.1 (program node logs).1.2 (program node logs).2

/-- The run of a program that may fail has a property. -/
def EngineM.Ensures (program : EngineM α) (node : Node) (logs : List LogEntry)
    (post : Except EngineError α → Node → List LogEntry → Prop) : Prop :=
  NodeM.Ensures program.run node logs post

/-- Neither the chain nor its rules differ between two nodes. -/
structure Node.SameChain (node node' : Node) : Prop where
  config : node'.config = node.config
  chain : node'.chain = node.chain

theorem Node.SameChain.trans {node node' node'' : Node} (first : node.SameChain node')
    (second : node'.SameChain node'') : node.SameChain node'' :=
  ⟨second.config.trans first.config, second.chain.trans first.chain⟩

namespace NodeM

variable {node : Node} {logs : List LogEntry} {post post' : α → Node → List LogEntry → Prop}

theorem Ensures.mono {program : NodeM α} (ensures : program.Ensures node logs post)
    (implies : ∀ a node' logs', post a node' logs' → post' a node' logs') :
    program.Ensures node logs post' :=
  implies _ _ _ ensures

@[simp] theorem ensures_bind {x : NodeM β} {f : β → NodeM α} :
    Ensures (x >>= f) node logs post ↔
      Ensures x node logs fun b node' logs' => Ensures (f b) node' logs' post := Iff.rfl

@[simp] theorem ensures_get {post : Node → Node → List LogEntry → Prop} :
    Ensures get node logs post ↔ post node node logs := Iff.rfl

@[simp] theorem ensures_modify {f : Node → Node} {post : PUnit → Node → List LogEntry → Prop} :
    Ensures (modify f) node logs post ↔ post () (f node) logs := Iff.rfl

@[simp] theorem ensures_logAll {entries : List LogEntry}
    {post : Unit → Node → List LogEntry → Prop} :
    Ensures (logAll entries) node logs post ↔ post () node (logs ++ entries) := Iff.rfl

@[simp] theorem ensures_logWithHead {level : LogLevel} {message : String}
    {post : Unit → Node → List LogEntry → Prop} :
    Ensures (logWithHead level message) node logs post ↔
      post () node (logs ++ [⟨level, node.report.mark message⟩]) := Iff.rfl

end NodeM

namespace EngineM

variable {node : Node} {logs : List LogEntry}
  {post post' : Except EngineError α → Node → List LogEntry → Prop}

theorem Ensures.mono {program : EngineM α} (ensures : program.Ensures node logs post)
    (implies : ∀ result node' logs', post result node' logs' → post' result node' logs') :
    program.Ensures node logs post' :=
  implies _ _ _ ensures

@[simp] theorem ensures_bind {x : EngineM β} {f : β → EngineM α} :
    Ensures (x >>= f) node logs post ↔
      Ensures x node logs fun result node' logs' =>
        match result with
        | .ok b => Ensures (f b) node' logs' post
        | .error e => post (.error e) node' logs' := by
  have parts :
      (fun result node' logs' => NodeM.Ensures (ExceptT.bindCont f result) node' logs' post) =
      fun result node' logs' =>
        match result with
        | .ok b => Ensures (f b) node' logs' post
        | .error e => post (.error e) node' logs' := by
    funext result node' logs'
    cases result <;> rfl
  exact Iff.of_eq (congrArg (Ensures x node logs) parts)

@[simp] theorem ensures_lift {program : NodeM α} :
    Ensures (liftM program) node logs post ↔
      program.Ensures node logs fun a => post (.ok a) := Iff.rfl

@[simp] theorem ensures_liftExcept {result : Except EngineError α} :
    Ensures (liftM result) node logs post ↔ post result node logs := Iff.rfl

@[simp] theorem ensures_get {post : Except EngineError Node → Node → List LogEntry → Prop} :
    Ensures get node logs post ↔ post (.ok node) node logs := Iff.rfl

@[simp] theorem ensures_modify {f : Node → Node}
    {post : Except EngineError PUnit → Node → List LogEntry → Prop} :
    Ensures (modify f) node logs post ↔ post (.ok ()) (f node) logs := Iff.rfl

end EngineM

end EngineNode
