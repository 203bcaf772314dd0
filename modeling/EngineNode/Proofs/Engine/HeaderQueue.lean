import EngineNode.Engine.HeaderQueue
import EngineNode.Proofs.Recency

/-!
Histories of a queue of headers.

Headers are put into a queue of any capacity and asked for, in any order. What a queue answers is
determined by the puts of its history: it holds the newest hashes, as many as it has room for, each
with the header that was put last under it.

* `HeaderQueue.run_eq_ofList`: a queue depends on the puts alone.
* `HeaderQueue.run_answers`: what is held and what is answered after any history.
-/

namespace EngineNode.HeaderQueue

/-- A call of a queue. -/
inductive Call where
  | put (hash : Hash) (header : Header)
  | get (hash : Hash)

/-- The entry that a call puts. -/
def Call.put? : Call → Option (Hash × Header)
  | put hash header => some (hash, header)
  | get _ => none

/-- The entries that are put in a history, in order. -/
def puts (calls : List Call) : List (Hash × Header) := calls.filterMap Call.put?

variable {capacity : Nat}

/-- The queue after a call. -/
def after (queue : HeaderQueue capacity) : Call → HeaderQueue capacity
  | .put hash header => queue.insert hash header
  | .get _ => queue

/-- The queue after a history, which starts with an empty one. -/
def run (capacity : Nat) (calls : List Call) : HeaderQueue capacity := calls.foldl after default

theorem run_concat (capacity : Nat) (calls : List Call) (call : Call) :
    run capacity (calls ++ [call]) = after (run capacity calls) call :=
  List.foldl_concat _ _ _ _

theorem puts_append (calls later : List Call) : puts (calls ++ later) = puts calls ++ puts later :=
  List.filterMap_append

/-- **A queue depends on what was put alone**, whatever it was asked in between. -/
theorem run_eq_ofList (capacity : Nat) (calls : List Call) :
    run capacity calls = .ofList (puts calls) := by
  induction calls using List.reverseRecOn with
  | nil => rfl
  | append_singleton calls call ih =>
      rw [run_concat, ih, puts_append]
      cases call with
      | put hash header => exact (BoundedMap.ofList_concat (puts calls) (hash, header)).symm
      | get hash => exact congrArg BoundedMap.ofList (List.append_nil (puts calls)).symm

/-- What is asked for in a history changes nothing. -/
theorem run_get (capacity : Nat) (calls later : List Call) (hash : Hash) :
    run capacity (calls ++ .get hash :: later) = run capacity (calls ++ later) := by
  rw [run_eq_ofList, run_eq_ofList, puts_append, puts_append]
  rfl

/-- **What a queue holds and answers after any history**: the newest of the hashes that were put, as
many as there is room for, in the order of their last puts; under each of them the header that was
put last. Asking changes no later answer. -/
theorem run_answers (capacity : Nat) (calls : List Call) :
    let queue := run capacity calls
    let newest := recentKeys capacity ((puts calls).map Prod.fst)
    queue.keys = newest ∧ queue.size ≤ capacity ∧
    (∀ hash header, queue.get? hash = some header ↔
      hash ∈ newest ∧ (puts calls).reverse.lookup hash = some header) ∧
    ∀ hash later, run capacity (calls ++ .get hash :: later) = run capacity (calls ++ later) := by
  refine ⟨?_, (run capacity calls).size_le, ?_, ?_⟩
  · rw [run_eq_ofList]
    exact BoundedMap.keys_ofList _
  · intro hash header
    rw [run_eq_ofList]
    exact BoundedMap.get?_ofList_eq_some_iff
  · exact fun hash later => run_get capacity calls later hash

end EngineNode.HeaderQueue
