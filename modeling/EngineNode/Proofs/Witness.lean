import EngineNode.Proofs.Header.Canonical
import EngineNode.Witness

/-!
Witnesses that are sent.

A list is read until its payload runs out, so its items are accepted as they are written only if
each of them is (`Rlp.decodeListOf_eq_ok`). A witness is three such lists in another one.

* `Witness.decode_encode`: a witness is read as it was written, but for zeros that were filled in
  for absent fields of its headers.
* `Witness.eq_encode_of_decode`: nothing but the encoding of a witness is accepted.
* `Witness.decode_exact`: which byte strings are witnesses, and that none of them begins another.
-/

namespace EngineNode

namespace Rlp

variable {α : Type} {encode : α → Bytes} {items : List α} {a : α}

section Accepted

variable {decoder : Decoder α} {holds : α → Prop} {bytes payload rest : Bytes}

/-- **Items are read until nothing is left**: if each is accepted as it is written only, so are all
of them one after another. -/
theorem decodeAll_eq_ok
    (accepts : ∀ bytes a rest, decoder.run bytes = .ok (a, rest) →
      bytes = encode a ++ rest ∧ holds a)
    (read : decodeAll decoder payload = .ok items) :
    payload = items.flatMap encode ∧ ∀ a ∈ items, holds a := by
  fun_induction decodeAll decoder payload generalizing items with
  | case1 payload empty =>
      cases read
      exact ⟨List.isEmpty_iff.mp empty, nofun⟩
  | case2 => cases read
  | case3 payload _ first behind taken _ ih =>
      obtain ⟨others, left, listed⟩ := bind_eq_ok_iff.mp read
      obtain rfl := Except.ok.inj listed
      obtain ⟨spelled, good⟩ := accepts payload first behind taken
      obtain ⟨same, all⟩ := ih left
      rw [spelled, same, List.flatMap_cons]
      exact ⟨rfl, List.forall_mem_cons.mpr ⟨good, all⟩⟩
  | case4 => cases read

/-- **Lists are accepted as they are written only**, if their items are. -/
theorem decodeListOf_eq_ok
    (accepts : ∀ bytes a rest, decoder.run bytes = .ok (a, rest) →
      bytes = encode a ++ rest ∧ holds a)
    (read : (decodeListOf decoder).run bytes = .ok (items, rest)) :
    bytes = encodeList (items.flatMap encode) ++ rest ∧ ∀ a ∈ items, holds a := by
  obtain ⟨payload, behind, spelled, read⟩ := acceptsOnly_listPayload.of_bind read
  cases all : decodeAll decoder payload with
  | error e =>
      rw [all] at read
      cases read
  | ok found =>
      rw [all] at read
      cases read
      obtain ⟨rfl, good⟩ := decodeAll_eq_ok accepts all
      exact ⟨spelled, good⟩

end Accepted

theorem length_le_length_flatMap (encode : α → Bytes) (member : a ∈ items) :
    (encode a).length ≤ (items.flatMap encode).length := by
  rw [List.flatMap_def]
  exact (List.sublist_flatten_of_mem (List.mem_map_of_mem member)).length_le

end Rlp

namespace Witness

variable {α β : Type}

/-- The three lists of a witness, encoded one after another. -/
def contents (w : Witness) : Bytes :=
  encodeListOf Header.encode w.headers ++ encodeListOf Rlp.encodeString w.codes ++
    encodeListOf Rlp.encodeString w.state

/-- The witness with its headers filled. -/
def filled (w : Witness) : Witness := { w with headers := w.headers.map Header.filled }

/-- A list that is not too long is read as it was written, if its items are. -/
theorem reads_encodeListOf {decoder : Rlp.Decoder β} {encode : α → Bytes} {value : α → β}
    {items : List α} (ne_nil : ∀ a, encode a ≠ [])
    (reads : ∀ a, (encode a).length < 256 ^ 8 → Rlp.Reads decoder (encode a) (value a))
    (short : (encodeListOf encode items).length < 256 ^ 8) :
    Rlp.Reads (Rlp.decodeListOf decoder) (encodeListOf encode items) (items.map value) := by
  have payload := Rlp.length_le_length_encodeList (items.flatMap encode)
  rw [encodeListOf] at short
  refine Rlp.reads_listOf ne_nil ?_ (by omega)
  intro a member
  have size := Rlp.length_le_length_flatMap encode member
  exact reads a (by omega)

theorem reads_strings {items : List Bytes}
    (short : (encodeListOf Rlp.encodeString items).length < 256 ^ 8) :
    Rlp.Reads (Rlp.decodeListOf Rlp.decodeString) (encodeListOf Rlp.encodeString items) items := by
  have reads : Rlp.Reads (Rlp.decodeListOf Rlp.decodeString) (encodeListOf Rlp.encodeString items)
      (items.map id) := by
    refine reads_encodeListOf Rlp.encodeString_ne_nil ?_ short
    intro bytes size
    exact Rlp.reads_string ((Rlp.length_le_length_encodeString bytes).trans_lt size)
  rwa [List.map_id] at reads

/-- A witness is read off the front of whatever its encoding begins, up to zeros in its headers. -/
theorem reads {w : Witness} (short : w.contents.length < 256 ^ 8) :
    Rlp.Reads (Rlp.decodeFields decodeContents .unexpectedLength) w.encode w.filled := by
  have sizes := short
  rw [contents, List.length_append, List.length_append] at sizes
  have headers : Rlp.Reads (Rlp.decodeListOf Header.decode) (encodeListOf Header.encode w.headers)
      (w.headers.map Header.filled) :=
    reads_encodeListOf (fun _ => Rlp.encodeList_ne_nil _) (fun _ => Header.reads) (by omega)
  have codes : Rlp.Reads _ _ w.codes := reads_strings (by omega)
  have state : Rlp.Reads _ _ w.state := reads_strings (by omega)
  have read : decodeContents.run w.contents = .ok (w.filled, []) := by
    rw [decodeContents, contents, List.append_assoc, headers.run_bind, codes.run_bind,
      StateT.run_bind, state.run_self]
    rfl
  exact Rlp.reads_fields read short

/-- Bytes behind a witness are noticed. -/
theorem decode_encode_append {w : Witness} (short : w.contents.length < 256 ^ 8) (rest : Bytes) :
    decode (w.encode ++ rest) =
      if rest.isEmpty then .ok w.filled else .error .trailingWitnessBytes := by
  rw [decode, reads short rest]
  cases rest <;> rfl

/-- **A witness is read as it was written**, up to zeros in its headers. -/
theorem decode_encode {w : Witness} (short : w.contents.length < 256 ^ 8) :
    decode w.encode = .ok w.filled := by
  have read := decode_encode_append short []
  rwa [List.append_nil] at read

/-- A witness of one header and one short node of the state is not too long to be read. -/
theorem length_contents_lt {h : Header} {node : Bytes} (short : h.extraData.length < 2 ^ 63)
    (small : node.length ≤ 32) :
    ({ headers := [h], state := [node] } : Witness).contents.length < 256 ^ 8 := by
  have header := Header.length_encode_lt short
  have state := Rlp.length_encodeString_le node (by omega)
  have headers : (Rlp.encodeList h.encode).length ≤ h.encode.length + 9 :=
    Rlp.length_encodeList_le (by omega)
  have codes : (Rlp.encodeList []).length ≤ 0 + 9 := Rlp.length_encodeList_le (by norm_num)
  have nodes : (Rlp.encodeList (Rlp.encodeString node)).length ≤
      (Rlp.encodeString node).length + 9 :=
    Rlp.length_encodeList_le (by omega)
  simp only [contents, encodeListOf, List.flatMap_cons, List.flatMap_nil, List.append_nil,
    List.length_append]
  omega

/-! ### Witnesses that are accepted -/

/-- No header of the witness lacks a field in front of a present one. -/
def Gapless (w : Witness) : Prop := ∀ h ∈ w.headers, h.Gapless

theorem filled_of_gapless {w : Witness} (gapless : w.Gapless) : w.filled = w := by
  have same : w.headers.map Header.filled = w.headers.map id :=
    List.map_congr_left fun h member => Header.filled_of_gapless (gapless h member)
  rw [filled, same, List.map_id]

theorem acceptsOnly_strings : Rlp.AcceptsOnly (Rlp.decodeListOf Rlp.decodeString)
    (encodeListOf Rlp.encodeString) := by
  intro bytes items rest read
  have accepts (bytes a rest) (read : Rlp.decodeString.run bytes = .ok (a, rest)) :
      bytes = Rlp.encodeString a ++ rest ∧ True :=
    ⟨Rlp.acceptsOnly_string bytes a rest read, trivial⟩
  exact (Rlp.decodeListOf_eq_ok accepts read).1

theorem decodeContents_eq_ok {payload rest : Bytes} {w : Witness}
    (read : decodeContents.run payload = .ok (w, rest)) :
    payload = w.contents ++ rest ∧ w.Gapless := by
  obtain ⟨headers, _, headersRead, read⟩ := Rlp.run_bind_eq_ok read
  obtain ⟨codes, _, codesRead, read⟩ := acceptsOnly_strings.of_bind read
  obtain ⟨state, _, stateRead, read⟩ := acceptsOnly_strings.of_bind read
  cases read
  have accepts (bytes h rest) (read : Header.decode.run bytes = .ok (h, rest)) :=
    Header.eq_encode_of_decode read
  obtain ⟨spelled, gapless⟩ := Rlp.decodeListOf_eq_ok accepts headersRead
  refine ⟨?_, gapless⟩
  rw [spelled, codesRead, stateRead]
  simp only [contents, encodeListOf, List.append_assoc]

/-- **Nothing but the encoding of a witness is accepted.** -/
theorem eq_encode_of_decode {bytes : Bytes} {w : Witness} (read : decode bytes = .ok w) :
    bytes = w.encode ∧ w.Gapless := by
  obtain ⟨⟨found, rest⟩, taken, read⟩ := bind_eq_ok_iff.mp read
  cases rest with
  | cons b rest => cases read
  | nil =>
      cases read
      obtain ⟨payload, spelled, taken⟩ := Rlp.decodeFields_eq_ok taken
      obtain ⟨rfl, gapless⟩ := decodeContents_eq_ok taken
      rw [List.append_nil, List.append_nil] at spelled
      exact ⟨spelled, gapless⟩

theorem length_contents_le (w : Witness) : w.contents.length ≤ w.encode.length :=
  Rlp.length_le_length_encodeList w.contents

/-- **Which byte strings are witnesses.** A byte string is read as a witness exactly if it is the
encoding of that witness and no header of it lacks an optional field in front of a present one. What
is read so neither begins another witness nor begins with one: with more bytes behind it it is
refused, and so is whatever is left of it when the last bytes are missing. The byte string need only
be short enough for its length to be written down. -/
theorem decode_exact (bytes : Bytes) (addressable : bytes.length < 2 ^ 64) :
    (∀ w, decode bytes = .ok w ↔ bytes = w.encode ∧ ∀ h ∈ w.headers, h.Gapless) ∧
      ∀ w, decode bytes = .ok w →
        (∀ more, more ≠ [] → decode (bytes ++ more) = .error .trailingWitnessBytes) ∧
        ∀ front back, bytes = front ++ back → back ≠ [] → ∃ e, decode front = .error e := by
  have extended {front more : Bytes} {w : Witness} (short : front.length < 2 ^ 64)
      (read : decode front = .ok w) (there : more ≠ []) :
      decode (front ++ more) = .error .trailingWitnessBytes := by
    obtain ⟨rfl, -⟩ := eq_encode_of_decode read
    have size := w.length_contents_le
    rw [decode_encode_append (by omega), if_neg (by simpa using there)]
  refine ⟨?_, ?_⟩
  · intro w
    constructor
    · exact eq_encode_of_decode
    · rintro ⟨rfl, gapless⟩
      have size := w.length_contents_le
      rw [decode_encode (by omega), filled_of_gapless gapless]
  · intro w read
    refine ⟨fun more there => extended addressable read there, ?_⟩
    rintro front back rfl there
    cases shorter : decode front with
    | error e => exact ⟨e, rfl⟩
    | ok found =>
        -- The whole would be refused for the bytes behind the witness that is its front.
        rw [List.length_append] at addressable
        cases read.symm.trans (extended (by omega) shorter there)

/-- A witness with a header that has a withdrawals root, and a base fee in front of it. Without the
base fee the header is encoded in the same way, but is not what is read. -/
theorem decode_exact_withdrawalsRoot :
    let h : Header := { withdrawalsRoot := some (.zero 32) }
    let w : Witness := {
      headers := [{ h with baseFeePerGas := some 0 }, {}], codes := [[0x60, 0x00], []],
      state := [[0xc0]] }
    w.encode.length < 2 ^ 64 ∧ decode w.encode = .ok w ∧
      decode w.encode ≠ .ok { w with headers := [h, {}] } ∧
      decode (w.encode ++ [0]) = .error .trailingWitnessBytes ∧
      ∃ e, decode w.encode.dropLast = .error e := by
  intro h w
  have short : w.encode.length < 2 ^ 64 := by decide +kernel
  obtain ⟨exact, apart⟩ := decode_exact w.encode short
  have gapless : ∀ h ∈ w.headers, h.Gapless := by
    simp [w, h, Header.Gapless, Rlp.Gapless, Header.optionalFields]
  have read : decode w.encode = .ok w := (exact w).mpr ⟨rfl, gapless⟩
  refine ⟨short, read, ?_, (apart w read).1 [0] (List.cons_ne_nil 0 []), ?_⟩
  · intro other
    have base := (List.pairwise_cons.mp (((exact _).mp other).2 h List.mem_cons_self)).1 _
      List.mem_cons_self rfl
    cases base
  · have last : w.encode ≠ [] := Rlp.encodeList_ne_nil _
    exact (apart w read).2 _ [w.encode.getLast last] (List.dropLast_append_getLast last).symm
      (List.cons_ne_nil _ [])

end Witness

end EngineNode
