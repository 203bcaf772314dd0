import EngineNode.Proofs.Build.Preimage
import EngineNode.Proofs.Checked
import EngineNode.Requests
import Mathlib.Data.List.Perm.Subperm

/-!
Requests in order, and their hash.

Each request is compared with the one before it alone, and its first byte is read without asking
whether there is one. It is the check of the lengths, made for the request and before for the one
before it, that the byte is there, and it is the order of bytes that makes all pairs ascend. The
hash joins the hashes of requests without their lengths, and leaves out those that carry no data. Of
requests that were accepted nothing is left out, and all hashes are of one length.

* `Requests.Ascending`: what is accepted, as `Requests.validate_eq_ok_iff` says.
* `Requests.Ascending.length_le`: there is at most one request for each byte.
* `Requests.validateChecked_agrees`: no byte is read that is not there.
* `Requests.hash_inj`: the hash tells accepted requests apart.
* `Requests.validate_commits`: all of this.
-/

namespace EngineNode

namespace Requests

open Checked

variable {requests others : List Bytes}

/-- The first byte of a request, which is its type. -/
def kind (request : Bytes) : UInt8 := request.headD 0

/-- Every request has at least two bytes, and the type of each is smaller than those of all requests
after it. -/
structure Ascending (requests : List Bytes) : Prop where
  carry : ∀ request ∈ requests, 2 ≤ request.length
  ordered : requests.Pairwise fun earlier later => kind earlier < kind later

theorem ascending_cons_iff {request : Bytes} {rest : List Bytes} :
    Ascending (request :: rest) ↔
      2 ≤ request.length ∧ (∀ later ∈ rest, kind request < kind later) ∧ Ascending rest := by
  constructor
  · rintro ⟨carry, ordered⟩
    obtain ⟨first, others⟩ := List.forall_mem_cons.mp carry
    obtain ⟨before, ordered⟩ := List.pairwise_cons.mp ordered
    exact ⟨first, before, others, ordered⟩
  · rintro ⟨first, before, others, ordered⟩
    exact ⟨List.forall_mem_cons.mpr ⟨first, others⟩, List.pairwise_cons.mpr ⟨before, ordered⟩⟩

/-! ### What is accepted -/

/-- One request is checked, and then the others are. -/
theorem validateAfter_cons (previous : Option UInt8) (request : Bytes) (rest : List Bytes) :
    validateAfter previous (request :: rest) =
      validateAfter previous [request] >>= fun _ => validateAfter (some (kind request)) rest := by
  cases request with
  | nil => rfl
  | cons type data =>
      simp only [validateAfter]
      split
      · rfl
      · split <;> rfl

/-- A request is accepted if it carries data and its type is above the one before it. -/
theorem validateAfter_cons_eq_ok_iff {previous : Option UInt8} {request : Bytes}
    {rest : List Bytes} :
    validateAfter previous (request :: rest) = .ok () ↔
      2 ≤ request.length ∧ (∀ before ∈ previous, before < kind request) ∧
        validateAfter (some (kind request)) rest = .ok () := by
  cases request with
  | nil => exact ⟨nofun, nofun⟩
  | cons type data =>
      rw [validateAfter, ite_error_eq_ok_iff, ite_error_eq_ok_iff]
      cases data <;> cases previous <;> simp [kind]

/-- Neighbours that ascend make all requests ascend. -/
theorem validateAfter_eq_ok_iff {previous : Option UInt8} :
    validateAfter previous requests = .ok () ↔
      Ascending requests ∧ ∀ before ∈ previous, ∀ request ∈ requests, before < kind request := by
  induction requests generalizing previous with
  | nil =>
      refine ⟨fun _ => ⟨⟨nofun, .nil⟩, fun _ _ => nofun⟩, fun _ => rfl⟩
  | cons request rest ih =>
      rw [validateAfter_cons_eq_ok_iff, ih, ascending_cons_iff]
      constructor
      · rintro ⟨first, above, ascending, behind⟩
        have behind := behind _ rfl
        refine ⟨⟨first, behind, ascending⟩, fun before known => ?_⟩
        have above := above before known
        exact List.forall_mem_cons.mpr
          ⟨above, fun later member => UInt8.lt_trans above (behind later member)⟩
      · rintro ⟨⟨first, behind, ascending⟩, above⟩
        refine ⟨first, fun before known => above before known request List.mem_cons_self,
          ascending, ?_⟩
        rintro _ ⟨⟩
        exact behind

theorem validate_eq_ok_iff : validate requests = .ok () ↔ Ascending requests := by
  rw [validate, validateAfter_eq_ok_iff]
  exact and_iff_left nofun

namespace Ascending

theorem nodup (ascending : Ascending requests) : (requests.map kind).Nodup :=
  List.pairwise_map.mpr (ascending.ordered.imp fun less => UInt8.ne_of_lt less)

/-- **There is at most one request for each byte.** -/
theorem length_le (ascending : Ascending requests) : requests.length ≤ 256 := by
  have nodup := ascending.nodup.map (f := UInt8.toNat) fun _ _ => UInt8.toNat_inj.mp
  have sub : (requests.map kind).map UInt8.toNat ⊆ List.range 256 := by
    intro n member
    obtain ⟨b, -, rfl⟩ := List.mem_map.mp member
    exact List.mem_range.mpr b.toNat_lt
  simpa using (List.Nodup.subperm nodup sub).length_le

end Ascending

/-! ### No byte is missing -/

/-- Checks one request, and compares it with the one before it, by their first bytes. -/
def checkAt (requests : List Bytes) (index : Nat) (request : Bytes) :
    ExceptT RequestsError Option Unit := do
  if request.length < 2 then throw (.empty request)
  if 0 < index then
    let previous ← (requests[index - 1]? : Option Bytes)
    let own ← (request[0]? : Option UInt8)
    let before ← (previous[0]? : Option UInt8)
    if own ≤ before then throw (.invalidOrder request)

/-- Checks the requests that are left, of which the first is the one at an index. -/
def checkFrom (requests : List Bytes) (index : Nat) :
    List Bytes → ExceptT RequestsError Option Unit
  | [] => return ()
  | request :: rest => do
    checkAt requests index request
    checkFrom requests (index + 1) rest

/-- Accepts requests that carry data and whose types ascend, reading only bytes that are there. -/
def validateChecked (requests : List Bytes) : ExceptT RequestsError Option Unit :=
  checkFrom requests 0 requests

/-- One request is compared with the one before it, which was found to have a first byte. -/
theorem checkAt_agrees {done : List Bytes} (read : ∀ previous ∈ done.getLast?, previous ≠ [])
    (request : Bytes) (rest : List Bytes) :
    Agrees (checkAt (done ++ request :: rest) done.length request)
      (validateAfter (done.getLast?.map kind) [request]) := by
  match request with
  | [] => rfl
  | [type] => rfl
  | type :: second :: data =>
      rcases List.eq_nil_or_concat' done with rfl | ⟨init, previous, rfl⟩
      · rfl
      · obtain ⟨before, tail, rfl⟩ := List.exists_cons_of_ne_nil (read previous (by simp))
        have place : (init ++ [before :: tail] ++ (type :: second :: data) :: rest)[
            (init ++ [before :: tail]).length - 1]? = some (before :: tail) := by
          simp
        have long : ¬(type :: second :: data).length < 2 := by simp
        have later : 0 < (init ++ [before :: tail]).length := by simp
        have last : (init ++ [before :: tail]).getLast? = some (before :: tail) := by simp
        have compared : validateAfter (some before) [type :: second :: data] =
            if type ≤ before then .error (.invalidOrder (type :: second :: data)) else .ok () := by
          simp [validateAfter]
        rw [last, checkAt, if_neg long, Option.map_some, kind, List.headD_cons, compared]
        change Agrees (if _ then _ else _) _
        rw [if_pos later]
        refine Agrees.operation place (Agrees.operation rfl (Agrees.operation rfl ?_))
        split
        · exact .throw _
        · exact .pure _

/-- The requests before are those that were checked. -/
theorem checkFrom_agrees {done : List Bytes} (read : ∀ previous ∈ done.getLast?, previous ≠ [])
    (rest : List Bytes) :
    Agrees (checkFrom (done ++ rest) done.length rest)
      (validateAfter (done.getLast?.map kind) rest) := by
  induction rest generalizing done with
  | nil => rfl
  | cons request rest ih =>
      rw [validateAfter_cons]
      refine (checkAt_agrees read request rest).bind fun _ accepted => ?_
      have first := (validateAfter_cons_eq_ok_iff.mp accepted).1
      have last : (done ++ [request]).getLast? = some request := by simp
      have next : Agrees (checkFrom (done ++ [request] ++ rest) (done ++ [request]).length rest)
          (validateAfter (((done ++ [request]).getLast?).map kind) rest) := by
        refine ih ?_
        rw [last]
        rintro _ ⟨⟩
        exact List.ne_nil_of_length_pos (by omega)
      rwa [last, List.append_assoc, List.length_append] at next

theorem validateChecked_agrees (requests : List Bytes) :
    Agrees (validateChecked requests) (validate requests) := by
  have none : ∀ previous ∈ ([] : List Bytes).getLast?, previous ≠ [] := nofun
  exact checkFrom_agrees none requests

/-! ### What the hash says -/

/-- What is hashed last: the hashes of the requests that carry data, joined. -/
def preimage (requests : List Bytes) : Bytes :=
  (requests.filter (1 < ·.length)).flatMap fun request => (sha256 request).toList

/-- All that is hashed for some requests. -/
def inputs (requests : List Bytes) : List Bytes := preimage requests :: requests

/-- No two different inputs have the same hash. -/
def CollisionFree (inputs : List Bytes) : Prop :=
  ∀ input ∈ inputs, ∀ input' ∈ inputs, sha256 input = sha256 input' → input = input'

theorem collisionFree_of_nodup {inputs : List Bytes} (nodup : (inputs.map sha256).Nodup) :
    CollisionFree inputs :=
  fun _ member _ member' same => List.inj_on_of_nodup_map nodup member member' same

/-- Nothing is left out of accepted requests. -/
theorem Ascending.preimage_eq (ascending : Ascending requests) :
    preimage requests = requests.flatMap fun request => (sha256 request).toList := by
  rw [preimage, List.filter_eq_self.mpr]
  intro request member
  exact decide_eq_true (ascending.carry request member)

/-- **The hash tells accepted requests apart**, unless two inputs of theirs collide. -/
theorem hash_inj (ascending : Ascending requests) (ascending' : Ascending others)
    (free : CollisionFree (inputs requests ++ inputs others)) (same : hash requests = hash others) :
    requests = others := by
  have joined : preimage requests = preimage others :=
    free _ (List.mem_append_left _ List.mem_cons_self) _
      (List.mem_append_right _ List.mem_cons_self) same
  rw [ascending.preimage_eq, ascending'.preimage_eq] at joined
  have count : requests.length = others.length := by
    have total := congrArg List.length joined
    rw [FixedBytes.length_flatMap, FixedBytes.length_flatMap] at total
    omega
  rw [← List.append_nil (requests.flatMap _), ← List.append_nil (others.flatMap _)] at joined
  obtain ⟨hashes, -⟩ := FixedBytes.flatMap_inj count joined
  exact eq_of_map_eq (fun _ member _ member' => free _
    (List.mem_append_left _ (List.mem_cons_of_mem _ member)) _
    (List.mem_append_right _ (List.mem_cons_of_mem _ member'))) hashes

/-- **Accepted requests are in order, and their hash commits to them.** Requests are accepted
exactly if each has at least two bytes and their types ascend, from any one to any later one; so
there are at most 256, of different types. The check never looks for a byte that is not there. And
two rows of accepted requests with one hash are the same, as long as none of the inputs that are
hashed for them collide. -/
theorem validate_commits (requests : List Bytes) :
    (validate requests = .ok () ↔ Ascending requests) ∧
    (validate requests = .ok () → requests.length ≤ 256 ∧ (requests.map kind).Nodup) ∧
    Agrees (validateChecked requests) (validate requests) ∧
    ∀ others, validate requests = .ok () → validate others = .ok () →
      CollisionFree (inputs requests ++ inputs others) →
        hash requests = hash others → requests = others := by
  refine ⟨validate_eq_ok_iff, ?_, validateChecked_agrees requests, ?_⟩
  · intro accepted
    have ascending := validate_eq_ok_iff.mp accepted
    exact ⟨ascending.length_le, ascending.nodup⟩
  · intro others accepted accepted' free same
    exact hash_inj (validate_eq_ok_iff.mp accepted) (validate_eq_ok_iff.mp accepted') free same

/-- Two requests, and one that has the bytes of both. -/
theorem hash_ne_of_joined :
    validate [[0, 1], [2, 3]] = .ok () ∧ validate [[0, 1, 2, 3]] = .ok () ∧
      CollisionFree (inputs [[0, 1], [2, 3]] ++ inputs [[0, 1, 2, 3]]) ∧
      hash [[0, 1], [2, 3]] ≠ hash [[0, 1, 2, 3]] := by
  have free : CollisionFree (inputs [[0, 1], [2, 3]] ++ inputs [[0, 1, 2, 3]]) :=
    collisionFree_of_nodup (by decide +kernel)
  refine ⟨rfl, rfl, free, fun same => ?_⟩
  obtain ⟨-, -, -, apart⟩ := validate_commits [[0, 1], [2, 3]]
  cases apart [[0, 1, 2, 3]] rfl rfl free same

end Requests

end EngineNode
