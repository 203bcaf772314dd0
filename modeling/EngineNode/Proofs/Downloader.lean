import EngineNode.Downloader
import Mathlib.Data.List.Basic
import Mathlib.Data.List.Chain
import Mathlib.Data.List.Induction

/-!
The log of a downloader.

A downloader keeps the header that it fetches and a log of the requests that it took. Syncs are
refused while failures are injected, extensions unless they build on the target. Whatever it is
asked to do, the log and the target agree, and the log consists of syncs, each with linked
extensions behind it.

* `Call.Refused`, `perform_cases`: which calls are refused, and what the others do.
* `Logged`: the target and the log are those of the calls that were taken.
* `observe_logged`: both after every row of calls.
-/

namespace EngineNode.Downloader

/-- What a downloader is asked to do with a header. -/
inductive Task where
  | sync (finalized : Option Header)
  | extend

/-- A call of a downloader, which may inject failures at that time. -/
structure Call where
  injectFailures : Bool
  mode : SyncMode
  head : Header
  task : Task

/-- The entry of a call in the log. -/
def Call.request (call : Call) : SyncRequest :=
  match call.task with
  | .sync finalized => .sync call.mode call.head.hash (finalized.map Header.hash)
  | .extend => .extend call.mode call.head.hash

/-- The downloader after a call, or why the call is refused. -/
def perform (d : Downloader) (call : Call) : Except DownloadError Downloader :=
  match call.task with
  | .sync finalized => d.sync call.injectFailures call.mode call.head finalized
  | .extend => d.extend call.mode call.head

/-- A sync is refused while failures are injected; an extension, unless there is a target that is
its parent. -/
def Call.Refused (call : Call) (d : Downloader) : Prop :=
  match call.task with
  | .sync _ => call.injectFailures = true
  | .extend => ∀ target, d.target = some target → target.hash ≠ call.head.parentHash

/-- The downloader after a call that is taken. -/
def taken (d : Downloader) (call : Call) : Downloader where
  target := some call.head
  requests := d.requests ++ [call.request]

/-- **What a call does**: it is refused, or its header becomes the target and it is logged. -/
theorem perform_cases (d : Downloader) (call : Call) :
    (¬ call.Refused d ∧ d.perform call = .ok (d.taken call)) ∨
      (call.Refused d ∧ ∃ error, d.perform call = .error error) := by
  unfold perform Call.Refused taken Call.request
  cases call.task with
  | sync finalized =>
      cases injected : call.injectFailures with
      | true => exact .inr ⟨rfl, .rejected call.head.hash, rfl⟩
      | false => exact .inl ⟨Bool.false_ne_true, rfl⟩
  | extend =>
      cases target : d.target with
      | none => exact .inr ⟨nofun, .noSyncInProgress, by simp only [extend, target]⟩
      | some target' =>
          by_cases parent : target'.hash = call.head.parentHash
          · exact .inl ⟨fun refused => refused target' rfl parent, by
              simp only [extend, target, parent, if_true]⟩
          · refine .inr ⟨fun _ same => Option.some.inj same ▸ parent,
              .notAnExtension call.head.hash target'.hash, ?_⟩
            simp only [extend, target, parent, if_false]

theorem refused_iff {d : Downloader} {call : Call} :
    call.Refused d ↔ ∃ error, d.perform call = .error error := by
  rcases perform_cases d call with ⟨accepted, performed⟩ | ⟨refused, performed⟩
  · refine iff_of_false accepted ?_
    rintro ⟨error, failed⟩
    cases performed.symm.trans failed
  · exact iff_of_true refused performed

/-! ### Rows of calls -/

/-- The downloader after one more call, and the calls that it took so far. -/
def note (state : Downloader × List Call) (call : Call) : Downloader × List Call :=
  match state.1.perform call with
  | .ok d => (d, state.2 ++ [call])
  | .error _ => state

/-- A new downloader after a row of calls, and the calls that it took. -/
def observe (calls : List Call) : Downloader × List Call := calls.foldl note ({}, [])

theorem observe_concat (calls : List Call) (call : Call) :
    observe (calls ++ [call]) = note (observe calls) call :=
  List.foldl_concat _ _ _ _

theorem note_of_refused {state : Downloader × List Call} {call : Call}
    (refused : call.Refused state.1) : note state call = state := by
  obtain ⟨error, performed⟩ := refused_iff.mp refused
  rw [note, performed]

theorem note_of_not_refused {state : Downloader × List Call} {call : Call}
    (notRefused : ¬ call.Refused state.1) :
    note state call = (state.1.taken call, state.2 ++ [call]) := by
  obtain ⟨-, performed⟩ := (perform_cases state.1 call).resolve_right fun r => notRefused r.1
  rw [note, performed]

/-- A call that is refused might as well not have been made. -/
theorem observe_of_refused {calls : List Call} {call : Call}
    (refused : call.Refused (observe calls).1) (later : List Call) :
    observe (calls ++ call :: later) = observe (calls ++ later) := by
  have same : note (observe calls) call = observe calls := note_of_refused refused
  unfold observe at same ⊢
  rw [List.foldl_append, List.foldl_cons, same, List.foldl_append]

/-- The calls that are taken are among those that are made, in their order. -/
theorem observe_sublist (calls : List Call) : (observe calls).2.Sublist calls := by
  induction calls using List.reverseRecOn with
  | nil => exact .slnil
  | append_singleton calls call ih =>
      rw [observe_concat, note]
      split
      · exact ih.append (.refl _)
      · exact ih.trans (List.sublist_append_left calls [call])

/-- An extension builds on the header of the call before it. -/
def Call.Follows (previous call : Call) : Prop :=
  call.task = .extend → previous.head.hash = call.head.parentHash

/-- The target and the log of a downloader are those of the calls that it took. -/
structure Logged (d : Downloader) (accepted : List Call) : Prop where
  target : d.target = accepted.getLast?.map Call.head
  requests : d.requests = accepted.map Call.request
  /-- The log does not start with an extension. -/
  opened : ∀ first ∈ accepted.head?, first.task ≠ .extend
  /-- Every extension stands right behind a call for its parent. -/
  linked : accepted.IsChain Call.Follows

theorem logged_new : Logged {} [] where
  target := rfl
  requests := rfl
  opened := by simp
  linked := .nil

/-- An extension that is taken builds on the last call, which there is. -/
theorem Logged.builds {d : Downloader} {accepted : List Call} {call : Call}
    (logged : Logged d accepted) (notRefused : ¬ call.Refused d) (extending : call.task = .extend) :
    ∃ last, accepted.getLast? = some last ∧ last.head.hash = call.head.parentHash := by
  rw [Call.Refused, extending] at notRefused
  simp only [not_forall, not_not] at notRefused
  obtain ⟨target, found, parent⟩ := notRefused
  rw [logged.target] at found
  obtain ⟨last, isLast, rfl⟩ := Option.map_eq_some_iff.mp found
  exact ⟨last, isLast, parent⟩

/-- The target and the log agree after one more call. -/
theorem Logged.note {d : Downloader} {accepted : List Call} (logged : Logged d accepted)
    (call : Call) :
    Logged (Downloader.note (d, accepted) call).1 (Downloader.note (d, accepted) call).2 := by
  by_cases refused : call.Refused d
  · rw [note_of_refused refused]
    exact logged
  · rw [note_of_not_refused refused]
    constructor
    case target => simp [taken]
    case requests => rw [List.map_append, ← logged.requests]; rfl
    case opened =>
      intro first isFirst
      cases accepted with
      | nil =>
          cases Option.some.inj isFirst
          intro extending
          obtain ⟨last, isLast, -⟩ := logged.builds refused extending
          cases isLast
      | cons head rest => exact logged.opened first isFirst
    case linked =>
      refine List.isChain_append.mpr ⟨logged.linked, List.isChain_singleton call, ?_⟩
      intro last isLast first isFirst extending
      cases Option.some.inj isFirst
      obtain ⟨last', isLast', parent⟩ := logged.builds refused extending
      cases isLast.symm.trans isLast'
      exact parent

/-- **The log of a downloader**, whatever it is asked to do and whenever it injects failures. The
calls it takes are among those made. Its target is the header of the last one, and absent exactly
if there is none; its log has an entry for each, does not start with an extension, and every
extension stands right behind an entry for its parent. A call fails exactly if it is refused, and
then neither target nor log are other than without the call, now and later. -/
theorem observe_logged (calls : List Call) :
    let d := (observe calls).1
    let accepted := (observe calls).2
    accepted.Sublist calls ∧ Logged d accepted ∧ (d.target = none ↔ d.requests = []) ∧
    ∀ call, (call.Refused d ↔ ∃ error, d.perform call = .error error) ∧
      (call.Refused d → ∀ later, observe (calls ++ call :: later) = observe (calls ++ later)) := by
  have logged : Logged (observe calls).1 (observe calls).2 := by
    induction calls using List.reverseRecOn with
    | nil => exact logged_new
    | append_singleton calls call ih =>
        rw [observe_concat]
        exact ih.note call
  refine ⟨observe_sublist calls, logged, ?_, fun call => ⟨refused_iff, observe_of_refused⟩⟩
  rw [logged.target, logged.requests, Option.map_eq_none_iff, List.getLast?_eq_none_iff,
    List.map_eq_nil_iff]

/-! ### A sync that is extended -/

/-- A header to start with. -/
def lower : Header := { number := 1 }

/-- A header on top of it. -/
def upper : Header := { parentHash := lower.hash, number := 2 }

/-- An extension without a sync is refused, and so is a sync while failures are injected. -/
theorem observe_logged_extended :
    let sync : Call := ⟨false, .full, lower, .sync none⟩
    let extension : Call := ⟨true, .full, upper, .extend⟩
    let refused : Call := ⟨true, .full, upper, .sync none⟩
    let calls := [extension, sync, extension]
    observe calls = (⟨some upper, [.sync .full lower.hash none, .extend .full upper.hash]⟩,
      [sync, extension]) ∧
    Logged (observe calls).1 [sync, extension] ∧ refused.Refused (observe calls).1 ∧
    observe (calls ++ [refused]) = observe calls := by
  intro sync extension refused calls
  have seen : observe calls = (⟨some upper, [.sync .full lower.hash none,
      .extend .full upper.hash]⟩, [sync, extension]) := by
    have early : note ({}, []) extension = ({}, []) := note_of_refused nofun
    have started : note ({}, []) sync = (taken {} sync, [sync]) :=
      note_of_not_refused Bool.false_ne_true
    have builds : ¬ extension.Refused (taken {} sync) := fun refused => refused lower rfl rfl
    rw [observe, List.foldl_cons, early, List.foldl_cons, started, List.foldl_cons,
      note_of_not_refused builds, List.foldl_nil]
    rfl
  obtain ⟨-, logged, -, later⟩ := observe_logged calls
  have isRefused : refused.Refused (observe calls).1 := rfl
  have same := (later refused).2 isRefused []
  rw [List.append_nil] at same
  rw [show (observe calls).2 = [sync, extension] from congrArg Prod.snd seen] at logged
  exact ⟨seen, logged, isRefused, same⟩

end EngineNode.Downloader
