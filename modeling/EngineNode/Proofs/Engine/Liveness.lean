import EngineNode.Engine.Liveness
import Mathlib.Data.List.Basic
import Mathlib.Data.List.Induction

/-!
What a liveness monitor says over time.

A monitor looks at the activity again and again. All it remembers is when it warned last, unless a
call was seen since; yet it never warns while calls come, never twice within its interval unless
calls came in between, and never stays silent without a reason.

* `Looked`: what one look does, with a call seen, within the interval, or else.
* `Accounts`: how the memory of a monitor reflects its history.
* `observe_paced`: what a monitor has said at the end of every row of looks.
-/

namespace EngineNode.LivenessMonitor

/-- A look at the activity at some time. -/
structure Look where
  activity : Activity
  now : Nat
deriving DecidableEq

/-- A choice of the head or a payload came at most so long before the look that it counts. -/
def Look.SeesCall (look : Look) (timings : HeartbeatTimings) : Prop :=
  ∃ time, (look.activity.forkchoice = some time ∨ look.activity.newPayload = some time) ∧
    look.now ≤ time + timings.offline

/-- A look, and what the monitor said. -/
structure Record where
  look : Look
  warning : Option LivenessWarning
deriving DecidableEq

/-! ### One look -/

section Poll

variable {timings : HeartbeatTimings} {monitor : LivenessMonitor} {look : Look}

theorem isRecent_iff {time : Option Nat} {now limit : Nat} :
    Activity.isRecent time now limit = true ↔ ∃ t, time = some t ∧ now ≤ t + limit := by
  cases time with
  | none => simp [Activity.isRecent]
  | some t => simp only [Activity.isRecent, Option.any_some, decide_eq_true_eq,
      Nat.sub_le_iff_le_add, Nat.add_comm, Option.some.injEq, exists_eq_left']

theorem isOnline_iff_seesCall :
    look.activity.isOnline look.now timings.offline = true ↔ look.SeesCall timings := by
  simp only [Activity.isOnline, Bool.or_eq_true, isRecent_iff, Look.SeesCall, or_and_right,
    exists_or]

/-- What one look does: the warning, if there is one, and the monitor afterwards. -/
inductive Looked (timings : HeartbeatTimings) (monitor : LivenessMonitor) (look : Look) :
    Option LivenessWarning → LivenessMonitor → Prop where
  /-- A call makes the monitor forget that it warned. -/
  | called : look.SeesCall timings → Looked timings monitor look none {}
  /-- The last warning is not long ago. -/
  | limited {time : Nat} : ¬ look.SeesCall timings → monitor.warnedAt = some time →
      look.now ≤ time + timings.warn → Looked timings monitor look none monitor
  | warned : ¬ look.SeesCall timings →
      (∀ time, monitor.warnedAt = some time → time + timings.warn < look.now) →
      Looked timings monitor look (some look.activity.warning) { warnedAt := some look.now }

theorem poll_looked (timings : HeartbeatTimings) (monitor : LivenessMonitor) (look : Look) :
    let polled := monitor.poll look.activity look.now timings
    Looked timings monitor look polled.1 polled.2 := by
  unfold poll
  by_cases online : look.activity.isOnline look.now timings.offline = true
  · rw [if_pos online]
    exact .called (isOnline_iff_seesCall.mp online)
  · have silent : ¬ look.SeesCall timings := fun seen => online (isOnline_iff_seesCall.mpr seen)
    rw [if_neg online]
    by_cases recent : Activity.isRecent monitor.warnedAt look.now timings.warn = true
    · obtain ⟨time, warnedAt, within⟩ := isRecent_iff.mp recent
      rw [if_pos recent]
      exact .limited silent warnedAt within
    · rw [if_neg recent]
      refine .warned silent fun time warnedAt => Nat.not_le.mp fun within => recent ?_
      exact isRecent_iff.mpr ⟨time, warnedAt, within⟩

end Poll

/-! ### A row of looks -/

/-- The monitor after one more look, and what was said so far. -/
def note (timings : HeartbeatTimings) (state : LivenessMonitor × List Record) (look : Look) :
    LivenessMonitor × List Record :=
  let (warning, monitor) := state.1.poll look.activity look.now timings
  (monitor, state.2 ++ [⟨look, warning⟩])

/-- The monitor after a row of looks, and what it said at each of them. -/
def observe (timings : HeartbeatTimings) (looks : List Look) : LivenessMonitor × List Record :=
  looks.foldl (note timings) ({}, [])

theorem observe_concat (timings : HeartbeatTimings) (looks : List Look) (look : Look) :
    observe timings (looks ++ [look]) = note timings (observe timings looks) look :=
  List.foldl_concat _ _ _ _

/-- Every look is in the history, in order. -/
theorem map_look_observe (timings : HeartbeatTimings) (looks : List Look) :
    (observe timings looks).2.map Record.look = looks := by
  induction looks using List.reverseRecOn with
  | nil => rfl
  | append_singleton looks look ih =>
      rw [observe_concat, note, List.map_append, ih]
      rfl

/-- The warnings of a history are well paced. -/
structure Paced (timings : HeartbeatTimings) (history : List Record) : Prop where
  /-- A warning says what is missing, and is not given while a call counts. -/
  founded : ∀ record ∈ history, ∀ warning, record.warning = some warning →
    warning = record.look.activity.warning ∧ ¬ record.look.SeesCall timings
  /-- Between two warnings the interval passes, or a call is seen. -/
  spaced : ∀ earlier first between second later,
    history = earlier ++ first :: between ++ second :: later →
    first.warning.isSome → second.warning.isSome →
    first.look.now + timings.warn < second.look.now ∨
      ∃ record ∈ between, record.look.SeesCall timings
  /-- Silence without a call has a reason: a warning within the interval, and no call seen since. -/
  prompt : ∀ earlier record later, history = earlier ++ record :: later →
    ¬ record.look.SeesCall timings → record.warning = none →
    ∃ before last between, earlier = before ++ last :: between ∧ last.warning.isSome ∧
      last.look.now ≤ record.look.now ∧ record.look.now ≤ last.look.now + timings.warn ∧
      ∀ other ∈ between, ¬ other.look.SeesCall timings

/-- What a monitor remembers of a history. -/
structure Accounts (timings : HeartbeatTimings) (monitor : LivenessMonitor)
    (history : List Record) : Prop where
  /-- A time that is remembered is that of a warning, behind which nothing was seen or said. -/
  remembered : ∀ time, monitor.warnedAt = some time →
    ∃ before last between, history = before ++ last :: between ∧ last.warning.isSome ∧
      last.look.now = time ∧ ∀ other ∈ between, ¬ other.look.SeesCall timings
  /-- It is the time of the last warning. -/
  latest : ∀ time, monitor.warnedAt = some time →
    ∀ record ∈ history, record.warning.isSome → record.look.now ≤ time
  /-- Where none is remembered, a call was seen since every warning. -/
  forgotten : monitor.warnedAt = none →
    ∀ before last between, history = before ++ last :: between → last.warning.isSome →
      ∃ record ∈ between, record.look.SeesCall timings

/-- A record of a longer history is the last one, or one of those before. -/
theorem split_concat {α : Type} {rows before after : List α} {row last : α}
    (split : rows ++ [last] = before ++ row :: after) :
    (after = [] ∧ row = last ∧ before = rows) ∨
      ∃ rest, after = rest ++ [last] ∧ rows = before ++ row :: rest := by
  rcases List.eq_nil_or_concat' after with rfl | ⟨rest, other, rfl⟩
  · obtain ⟨same, ended⟩ := List.append_inj' split rfl
    exact .inl ⟨rfl, (List.singleton_inj.mp ended).symm, same.symm⟩
  · have rearranged : rows ++ [last] = (before ++ row :: rest) ++ [other] := by
      rw [split, List.append_assoc, List.cons_append]
    obtain ⟨same, ended⟩ := List.append_inj' rearranged rfl
    rw [List.singleton_inj.mp ended]
    exact .inr ⟨rest, rfl, same⟩

section Step

variable {timings : HeartbeatTimings} {monitor monitor' : LivenessMonitor}
  {history : List Record} {look : Look} {warning : Option LivenessWarning}

/-- The memory of a monitor reflects its history after one more look. -/
theorem Accounts.concat (accounts : Accounts timings monitor history)
    (ordered : ∀ record ∈ history, record.look.now ≤ look.now)
    (looked : Looked timings monitor look warning monitor') :
    Accounts timings monitor' (history ++ [⟨look, warning⟩]) := by
  cases looked with
  | called seen =>
      refine ⟨nofun, nofun, fun _ before last between split said => ?_⟩
      rcases split_concat split with ⟨-, rfl, -⟩ | ⟨rest, rfl, -⟩
      · cases said
      · exact ⟨_, List.mem_append_right _ (List.mem_singleton_self _), seen⟩
  | limited unseen warnedAt within =>
      refine ⟨fun time told => ?_, fun time told record member said => ?_, fun none => ?_⟩
      · obtain ⟨before, last, between, rfl, said, dated, quiet⟩ := accounts.remembered time told
        refine ⟨before, last, between ++ [⟨look, Option.none⟩], by simp, said, dated, ?_⟩
        intro other member
        rcases List.mem_append.mp member with member | member
        · exact quiet other member
        · rw [List.mem_singleton.mp member]
          exact unseen
      · rcases List.mem_append.mp member with member | member
        · exact accounts.latest time told record member said
        · rw [List.mem_singleton.mp member] at said
          cases said
      · cases warnedAt.symm.trans none
  | warned unseen =>
      refine ⟨fun time told => ?_, fun time told record member _ => ?_, nofun⟩
      · exact ⟨history, _, [], rfl, rfl, Option.some.inj told, nofun⟩
      · rw [← Option.some.inj told]
        rcases List.mem_append.mp member with member | member
        · exact ordered record member
        · cases List.mem_singleton.mp member
          exact Nat.le_refl _

/-- The warnings stay well paced with one more look. -/
theorem Paced.concat (paced : Paced timings history) (accounts : Accounts timings monitor history)
    (ordered : ∀ record ∈ history, record.look.now ≤ look.now)
    (looked : Looked timings monitor look warning monitor') :
    Paced timings (history ++ [⟨look, warning⟩]) := by
  constructor
  case founded =>
    intro record member said told
    rcases List.mem_append.mp member with member | member
    · exact paced.founded record member said told
    · cases List.mem_singleton.mp member
      cases looked with
      | called | limited => cases told
      | warned unseen => exact ⟨(Option.some.inj told).symm, unseen⟩
  case spaced =>
    intro earlier first between second later split firstSaid secondSaid
    rcases split_concat split with ⟨-, rfl, rfl⟩ | ⟨rest, rfl, same⟩
    · cases looked with
      | called | limited => cases secondSaid
      | warned _ late =>
          cases warnedAt : monitor.warnedAt with
          | none => exact .inr (accounts.forgotten warnedAt earlier first between rfl firstSaid)
          | some time =>
              have before := accounts.latest time warnedAt first
                (List.mem_append_right _ List.mem_cons_self) firstSaid
              exact .inl (Nat.lt_of_le_of_lt (Nat.add_le_add_right before _) (late time warnedAt))
    · exact paced.spaced earlier first between second rest same firstSaid secondSaid
  case prompt =>
    intro earlier record later split unseen silent
    rcases split_concat split with ⟨-, rfl, rfl⟩ | ⟨rest, rfl, same⟩
    · cases looked with
      | called seen => exact absurd seen unseen
      | warned => cases silent
      | limited _ warnedAt within =>
          obtain ⟨before, last, between, rfl, said, dated, quiet⟩ :=
            accounts.remembered _ warnedAt
          have earlier := ordered last (List.mem_append_right _ List.mem_cons_self)
          exact ⟨before, last, between, rfl, said, earlier, dated.symm ▸ within, quiet⟩
    · exact paced.prompt earlier record rest same unseen silent

end Step

/-- After looks in the order of time, the memory reflects the history and the warnings are well
paced. -/
theorem observe_invariant (timings : HeartbeatTimings) (looks : List Look)
    (ordered : looks.Pairwise fun first second => first.now ≤ second.now) :
    Accounts timings (observe timings looks).1 (observe timings looks).2 ∧
      Paced timings (observe timings looks).2 := by
  induction looks using List.reverseRecOn with
  | nil =>
      have unsplit (before : List Record) (record : Record) (after : List Record) :
          (observe timings []).2 ≠ before ++ record :: after := by simp [observe]
      exact ⟨⟨nofun, nofun, fun _ _ _ _ split => absurd split (unsplit _ _ _)⟩,
        ⟨nofun, fun _ _ _ _ _ split => absurd split (unsplit _ _ _),
          fun _ _ _ split => absurd split (unsplit _ _ _)⟩⟩
  | append_singleton looks look ih =>
      obtain ⟨before, -, last⟩ := List.pairwise_append.mp ordered
      obtain ⟨accounts, paced⟩ := ih before
      have earlier : ∀ record ∈ (observe timings looks).2, record.look.now ≤ look.now := by
        intro record member
        have among : record.look ∈ looks := by
          rw [← map_look_observe timings looks]
          exact List.mem_map_of_mem member
        exact last record.look among look (List.mem_singleton_self look)
      have looked := poll_looked timings (observe timings looks).1 look
      rw [observe_concat]
      exact ⟨accounts.concat earlier looked, paced.concat accounts earlier looked⟩

/-- **What a monitor says**, whatever its timings are and whatever it sees at looks in the order of
time. It answers every look. It does not warn while a call counts. Between two warnings the interval
passes or a call is seen. And where it stays silent without a call, it warned within the interval
and saw no call since. -/
theorem observe_paced (timings : HeartbeatTimings) (looks : List Look)
    (ordered : looks.Pairwise fun first second => first.now ≤ second.now) :
    let history := (observe timings looks).2
    history.map Record.look = looks ∧ Paced timings history :=
  ⟨map_look_observe timings looks, (observe_invariant timings looks ordered).2⟩

/-- A payload between two looks without calls lets the monitor warn again within the interval. -/
theorem observe_paced_reset :
    let looks : List Look := [⟨{}, 0⟩, ⟨{}, 5000⟩, ⟨{ newPayload := some 10000 }, 10000⟩,
      ⟨{ newPayload := some 10000 }, 140000⟩]
    let history := (observe {} looks).2
    looks.Pairwise (fun first second => first.now ≤ second.now) ∧
    history.map Record.warning = [some .noConsensusLayer, none, none, some .staleUpdates] ∧
    history.map Record.look = looks ∧ Paced {} history := by
  intro looks history
  have ordered : looks.Pairwise (fun first second => first.now ≤ second.now) := by decide
  exact ⟨ordered, by decide, observe_paced {} looks ordered⟩

end EngineNode.LivenessMonitor
