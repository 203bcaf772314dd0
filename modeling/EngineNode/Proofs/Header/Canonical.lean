import EngineNode.Proofs.Build.Preimage
import EngineNode.Proofs.Header.Decoding
import Mathlib.Data.List.Induction

/-!
Encodings that are accepted.

A decoder is canonical if it takes nothing but encodings off the front of a byte string
(`Rlp.AcceptsOnly`). Canonical decoders compose, so that nothing has to be said of the bytes beyond
strings, numbers and lists.

* `Rlp.decodePrefixOnly_eq_ok`: an announcement is accepted in its shortest form only.
* `Rlp.decodeOptional_eq_ok`: optional fields are read to the end of the list, so none is absent
  before a present one.
* `Header.decode_canonical`: which byte strings are headers and withdrawals, and what is read off
  them.
-/

namespace EngineNode

namespace Bytes

/-- Bytes that do not begin with zero are the fewest that spell their number. -/
theorem ofNat_toNat {bytes : Bytes} (leading : bytes.head? ≠ some 0) :
    ofNat (toNat bytes) = bytes := by
  induction bytes using List.reverseRecOn with
  | nil => exact ofNat_zero
  | append_singleton init b ih =>
      rw [toNat_append_singleton]
      have last : UInt8.ofNat (256 * toNat init + b.toNat) = b := by
        apply UInt8.toNat_inj.mp
        rw [UInt8.toNat_ofNat']
        have := b.toNat_lt
        omega
      have front : (256 * toNat init + b.toNat) / 256 = toNat init := by
        have := b.toNat_lt
        omega
      have positive : 0 < 256 * toNat init + b.toNat := by
        cases init with
        | nil =>
            have nonzero : b ≠ 0 := by simpa using leading
            have := UInt8.toNat_inj.ne.mpr nonzero
            simp at this
            omega
        | cons first rest =>
            have spelled : ofNat (toNat (first :: rest)) = first :: rest := ih leading
            have nonzero : toNat (first :: rest) ≠ 0 := by
              intro zero
              rw [zero, ofNat_zero] at spelled
              cases spelled
            omega
      rw [ofNat_of_pos positive, front, last]
      cases init with
      | nil => exact congrArg (· ++ [b]) ofNat_zero
      | cons first rest => rw [ih leading]

end Bytes

namespace Rlp

variable {α β : Type}

/-- What a decoder takes off the front of a byte string is the encoding of the value that it
reads. -/
def AcceptsOnly (decoder : Decoder α) (encode : α → Bytes) : Prop :=
  ∀ bytes value rest, decoder.run bytes = .ok (value, rest) → bytes = encode value ++ rest

/-- What is read first is handed on. -/
theorem run_bind_eq_ok {decoder : Decoder α} {next : α → Decoder β} {bytes rest : Bytes} {value : β}
    (read : (decoder >>= next).run bytes = .ok (value, rest)) :
    ∃ first behind, decoder.run bytes = .ok (first, behind) ∧
      (next first).run behind = .ok (value, rest) := by
  rw [StateT.run_bind] at read
  obtain ⟨⟨first, behind⟩, taken, others⟩ := bind_eq_ok_iff.mp read
  exact ⟨first, behind, taken, others⟩

/-- What is read after an encoding. -/
theorem AcceptsOnly.of_bind {decoder : Decoder α} {encode : α → Bytes} {next : α → Decoder β}
    {bytes rest : Bytes} {value : β} (accepts : AcceptsOnly decoder encode)
    (read : (decoder >>= next).run bytes = .ok (value, rest)) :
    ∃ first behind, bytes = encode first ++ behind ∧
      (next first).run behind = .ok (value, rest) := by
  obtain ⟨first, behind, taken, others⟩ := run_bind_eq_ok read
  exact ⟨first, behind, accepts _ _ _ taken, others⟩

theorem AcceptsOnly.map {decoder : Decoder α} {encode : α → Bytes} {encode' : β → Bytes}
    {f : α → β} (accepts : AcceptsOnly decoder encode)
    (same : ∀ bytes value rest, decoder.run bytes = .ok (value, rest) →
      encode' (f value) = encode value) : AcceptsOnly (f <$> decoder) encode' := by
  intro bytes value rest read
  rw [StateT.run_map] at read
  cases taken : decoder.run bytes with
  | error e =>
      rw [taken] at read
      cases read
  | ok result =>
      rw [taken] at read
      cases read
      rw [same bytes result.1 result.2 taken]
      exact accepts _ _ _ taken

/-! ### Announcements -/

theorem decodeLongLength_eq_ok {isList : Bool} {count : Nat} {bytes rest : Bytes}
    {announced : Prefix} (read : decodeLongLength isList count bytes = .ok (announced, rest)) :
    announced.isList = isList ∧ 56 ≤ announced.length ∧
      bytes = Bytes.ofNat announced.length ++ rest ∧
      (Bytes.ofNat announced.length).length = count := by
  unfold decodeLongLength at read
  split at read
  · cases read
  · rename_i there
    split at read
    · cases read
    · rename_i leading
      dsimp only at read
      split at read
      · cases read
      · rename_i long
        cases read
        have notEmpty : count ≠ 0 := by
          rintro rfl
          exact long (by simp [Bytes.toNat])
        have first : (bytes.take count).head? ≠ some 0 := by
          rwa [List.head?_take, if_neg notEmpty]
        refine ⟨rfl, Nat.le_of_not_lt long, ?_, ?_⟩
        · rw [Bytes.ofNat_toNat first, List.take_append_drop]
        · rw [Bytes.ofNat_toNat first, List.length_take]
          omega

/-- A length that takes several bytes is spelled as it is written, if its first byte tells how many
there are. -/
theorem encodeLength_of_decodeLongLength (base : Nat) {isList : Bool} {first : UInt8}
    {bytes rest : Bytes} {announced : Prefix} (above : base + 55 ≤ first.toNat)
    (read : decodeLongLength isList (first.toNat - (base + 55)) bytes = .ok (announced, rest)) :
    announced.isList = isList ∧ announced.length ≠ 1 ∧
      first :: bytes = encodeLength base announced.length ++ rest := by
  obtain ⟨kind, long, spelled, digits⟩ := decodeLongLength_eq_ok read
  have head : UInt8.ofNat (base + 55 + (Bytes.ofNat announced.length).length) = first := by
    rw [digits, Nat.add_sub_cancel' above, UInt8.ofNat_toNat]
  refine ⟨kind, by omega, ?_⟩
  rw [encodeLength, if_neg (by omega)]
  dsimp only
  rw [head, List.cons_append, ← spelled]

/-- A short length is spelled as it is written. -/
theorem encodeLength_of_short {base : Nat} {first : UInt8} (above : base ≤ first.toNat)
    (short : first.toNat < base + 56) : encodeLength base (first.toNat - base) = [first] := by
  rw [encodeLength, if_pos (by omega), Nat.add_sub_cancel' above, UInt8.ofNat_toNat]

/-- **An announcement is accepted in its shortest form only**: a low byte stands for itself, and
what is announced as one byte is not a low one. -/
theorem decodePrefixOnly_eq_ok {bytes rest : Bytes} {announced : Prefix}
    (read : decodePrefixOnly bytes = .ok (announced, rest)) :
    (∃ b tail, b < 0x80 ∧ announced = ⟨false, 1⟩ ∧ bytes = b :: tail ∧ rest = bytes) ∨
      bytes = encodeLength (if announced.isList then 0xc0 else 0x80) announced.length ++ rest ∧
        (announced = ⟨false, 1⟩ → ∃ b tail, rest = b :: tail ∧ ¬b < 0x80) := by
  cases bytes with
  | nil => cases read
  | cons b tail =>
      simp only [decodePrefixOnly, UInt8.lt_iff_toNat_lt] at read ⊢
      have bound := b.toNat_lt
      split at read
      · rename_i low
        cases read
        exact .inl ⟨b, tail, low, rfl, rfl, rfl⟩
      · rename_i high
        right
        have high : 0x80 ≤ b.toNat := by simpa using high
        split at read
        · rename_i string
          have string : b.toNat < 0xb8 := by simpa using string
          split at read
          · rename_i one
            cases tail with
            | nil => cases read
            | cons next tail =>
                dsimp only at read
                split at read
                · cases read
                · rename_i large
                  cases read
                  exact ⟨by rw [one]; rfl, fun _ => ⟨next, tail, rfl, large⟩⟩
          · rename_i notOne
            cases read
            have length := encodeLength_of_short high (by omega)
            refine ⟨?_, ?_⟩
            · simp only [Bool.false_eq_true, if_false]
              rw [length]
              rfl
            · intro one
              obtain ⟨-, one⟩ := Prefix.mk.inj one
              have byte : b.toNat = (0x81 : UInt8).toNat := by
                rw [show (0x81 : UInt8).toNat = 0x81 from rfl]
                omega
              exact absurd (UInt8.toNat_inj.mp byte) notOne
        · rename_i notString
          have notString : 0xb8 ≤ b.toNat := by simpa using notString
          split at read
          · obtain ⟨kind, many, spelled⟩ :=
              encodeLength_of_decodeLongLength 0x80 (by omega) read
            rw [kind]
            refine ⟨spelled, ?_⟩
            rintro rfl
            exact absurd rfl many
          · rename_i list
            have list : 0xc0 ≤ b.toNat := by simpa using list
            split at read
            · rename_i short
              have short : b.toNat < 0xf8 := by simpa using short
              cases read
              have length := encodeLength_of_short list (by omega)
              refine ⟨?_, fun one => ?_⟩
              · simp only [if_true]
                rw [length]
                rfl
              · cases one
            · rename_i long
              have long : 0xf8 ≤ b.toNat := by simpa using long
              obtain ⟨kind, many, spelled⟩ :=
                encodeLength_of_decodeLongLength 0xc0 (by omega) read
              rw [kind]
              refine ⟨spelled, ?_⟩
              rintro rfl
              cases kind

/-- What is announced is there in full. -/
theorem decodePrefix_eq_ok {bytes rest : Bytes} {announced : Prefix}
    (read : decodePrefix.run bytes = .ok (announced, rest)) :
    decodePrefixOnly bytes = .ok (announced, rest) ∧ announced.length ≤ rest.length := by
  change (decodePrefixOnly bytes >>= _) = _ at read
  obtain ⟨⟨found, behind⟩, only, read⟩ := bind_eq_ok_iff.mp read
  dsimp only at read
  split at read
  · cases read
  · rename_i there
    cases read
    exact ⟨only, Nat.le_of_not_lt there⟩

/-! ### Strings, numbers and lists -/

/-- **Strings are accepted as they are written only.** -/
theorem acceptsOnly_string : AcceptsOnly decodeString encodeString := by
  intro bytes value rest read
  obtain ⟨announced, behind, found, read⟩ := run_bind_eq_ok read
  obtain ⟨only, there⟩ := decodePrefix_eq_ok found
  dsimp only at read
  split at read
  · cases read
  · rename_i string
    have string : announced.isList = false := by simpa using string
    cases read
    rcases decodePrefixOnly_eq_ok only with ⟨b, tail, low, rfl, rfl, rfl⟩ | ⟨spelled, large⟩
    · simp [encodeString, low]
    · have size : (behind.take announced.length).length = announced.length := by
        rw [List.length_take, Nat.min_eq_left there]
      rcases encodeString_eq (behind.take announced.length) with ⟨b, one, low, -⟩ | written
      · have length : announced = ⟨false, 1⟩ := by
          rw [one] at size
          cases announced
          exact congrArg₂ Prefix.mk string size.symm
        obtain ⟨first, tail, rfl, high⟩ := large length
        rw [length] at one
        cases one
        exact absurd low high
      · rw [written, size, List.append_assoc, List.take_append_drop, spelled, string]
        rfl

theorem acceptsOnly_listPayload : AcceptsOnly decodeListPayload encodeList := by
  intro bytes payload rest read
  obtain ⟨announced, behind, found, read⟩ := run_bind_eq_ok read
  obtain ⟨only, there⟩ := decodePrefix_eq_ok found
  dsimp only at read
  split at read
  · rename_i list
    cases read
    rcases decodePrefixOnly_eq_ok only with ⟨b, tail, low, rfl, rfl, rfl⟩ | ⟨spelled, -⟩
    · cases list
    · rw [encodeList, List.length_take, Nat.min_eq_left there, List.append_assoc,
        List.take_append_drop, spelled, list]
      rfl
  · cases read

/-- **Numbers are accepted in their shortest form only**, and if they fit the width. -/
theorem decodeNat_eq_ok {width n : Nat} {bytes rest : Bytes}
    (read : (decodeNat width).run bytes = .ok (n, rest)) :
    n < 256 ^ width ∧ bytes = encodeNat n ++ rest := by
  obtain ⟨digits, behind, spelled, read⟩ := acceptsOnly_string.of_bind read
  dsimp only at read
  split at read
  · cases read
  · rename_i narrow
    split at read
    · cases read
    · rename_i leading
      cases read
      refine ⟨(Bytes.toNat_lt digits).trans_le (Nat.pow_le_pow_right (by decide) ?_), ?_⟩
      · omega
      · rw [encodeNat, Bytes.ofNat_toNat leading, spelled]

theorem acceptsOnly_nat (width : Nat) : AcceptsOnly (decodeNat width) encodeNat :=
  fun _ _ _ read => (decodeNat_eq_ok read).2

theorem acceptsOnly_number : AcceptsOnly decodeUInt64 fun number => encodeNat number.toNat := by
  refine (acceptsOnly_nat 8).map fun _ _ _ read => ?_
  have fits := (decodeNat_eq_ok read).1.trans_eq (show 256 ^ 8 = 2 ^ 64 by norm_num)
  rw [UInt64.toNat_ofNat', Nat.mod_eq_of_lt fits]

theorem acceptsOnly_word : AcceptsOnly decodeU256 fun word => encodeNat word.toNat := by
  refine (acceptsOnly_nat 32).map fun _ _ _ read => ?_
  have fits := (decodeNat_eq_ok read).1.trans_eq (show 256 ^ 32 = 2 ^ 256 by norm_num)
  rw [BitVec.toNat_ofNat, Nat.mod_eq_of_lt fits]

theorem acceptsOnly_fixed (n : Nat) : AcceptsOnly (decodeFixed n) encodeFixed := by
  intro bytes value rest read
  obtain ⟨contents, behind, spelled, read⟩ := acceptsOnly_string.of_bind read
  split at read
  · rename_i fixed same
    cases read
    rw [encodeFixed, FixedBytes.toList_of_ofBytes? same, spelled]
  · cases read

/-- The contents of a list are used up. -/
theorem decodeFields_eq_ok {decoder : Decoder α} {onRest : Error} {bytes rest : Bytes} {value : α}
    (read : (decodeFields decoder onRest).run bytes = .ok (value, rest)) :
    ∃ payload, bytes = encodeList payload ++ rest ∧ decoder.run payload = .ok (value, []) := by
  obtain ⟨payload, behind, spelled, read⟩ := acceptsOnly_listPayload.of_bind read
  refine ⟨payload, ?_⟩
  cases contents : decoder.run payload with
  | error e =>
      rw [contents] at read
      cases read
  | ok result =>
      obtain ⟨found, left⟩ := result
      rw [contents] at read
      cases left with
      | nil =>
          cases read
          exact ⟨spelled, rfl⟩
      | cons b left => cases read

/-! ### Optional fields -/

/-- Every present field is preceded by present ones. -/
def Gapless (fields : List (Option Bytes × Bytes)) : Prop :=
  fields.Pairwise fun earlier later => later.1.isSome → earlier.1.isSome

/-- Bytes hold optional fields to their end, without a gap between the present ones. -/
structure HoldsOptional (bytes : Bytes) (fields : List (Option Bytes × Bytes)) : Prop where
  encoded : bytes = encodeOptionalFields fields
  absent : bytes = [] → anyPresent fields = false
  gapless : Gapless fields

theorem HoldsOptional.nil : HoldsOptional [] [] := ⟨rfl, fun _ => rfl, List.Pairwise.nil⟩

/-- **An optional field is read where anything is left**, so it is present if a later one is. -/
theorem HoldsOptional.cons {decoder : Decoder α} {encode : α → Bytes} {bytes rest : Bytes}
    {field : Option α} {fields : List (Option Bytes × Bytes)}
    (accepts : AcceptsOnly decoder encode) (zero : α)
    (read : (decodeOptional decoder).run bytes = .ok (field, rest))
    (later : HoldsOptional rest fields) :
    HoldsOptional bytes ((field.map encode, encode zero) :: fields) := by
  change (if _ then _ else _) = _ at read
  split at read
  · rename_i empty
    obtain rfl := List.isEmpty_iff.mp empty
    cases read
    have absent := later.absent rfl
    have none : anyPresent ((Option.none, encode zero) :: fields) = false := by
      simpa [anyPresent] using absent
    refine ⟨(encodeOptionalFields_of_not_present none).symm, fun _ => none, ?_⟩
    refine List.pairwise_cons.mpr ⟨?_, later.gapless⟩
    intro other member present
    rw [anyPresent, List.any_eq_false] at absent
    exact absurd present (absent other member)
  · rename_i notEmpty
    cases field with
    | none =>
        rw [StateT.run_map] at read
        cases taken : decoder.run bytes with
        | error e =>
            rw [taken] at read
            cases read
        | ok result =>
            rw [taken] at read
            cases read
    | some value =>
        have some : AcceptsOnly (some <$> decoder) fun field => field.elim [] encode :=
          accepts.map fun _ _ _ _ => rfl
        refine ⟨?_, ?_, ?_⟩
        · rw [encodeOptionalFields_of_present rfl, some _ _ _ read, later.encoded]
          rfl
        · rintro rfl
          exact absurd rfl notEmpty
        · exact List.pairwise_cons.mpr ⟨fun _ _ _ => rfl, later.gapless⟩

end Rlp

/-! ### Headers and withdrawals -/

namespace Header

open Rlp

/-- Every present optional field is preceded by present ones. -/
def Gapless (h : Header) : Prop := Rlp.Gapless h.optionalFields

/-- A field that is present if the later one is has nothing to be filled. -/
theorem fillBefore_eq_self {α β : Type} {later : Option β} {zero : α} {field : Option α}
    (kept : later.isSome → field.isSome) : fillBefore later zero field = field := by
  cases field with
  | some value => rfl
  | none =>
      cases later with
      | none => rfl
      | some b => cases kept rfl

/-- **Headers without gaps are filled already.** -/
theorem filled_of_gapless {h : Header} (gapless : h.Gapless) : h.filled = h := by
  obtain ⟨fee, gapless⟩ := List.pairwise_cons.mp gapless
  obtain ⟨withdrawals, gapless⟩ := List.pairwise_cons.mp gapless
  obtain ⟨blob, gapless⟩ := List.pairwise_cons.mp gapless
  obtain ⟨excess, gapless⟩ := List.pairwise_cons.mp gapless
  obtain ⟨beacon, -⟩ := List.pairwise_cons.mp gapless
  have fee := fee _ List.mem_cons_self
  have withdrawals := withdrawals _ List.mem_cons_self
  have blob := blob _ List.mem_cons_self
  have excess := excess _ List.mem_cons_self
  have beacon := beacon _ List.mem_cons_self
  simp only [Option.isSome_map] at fee withdrawals blob excess beacon
  unfold filled
  simp only [fillBefore_eq_self beacon, fillBefore_eq_self excess, fillBefore_eq_self blob,
    fillBefore_eq_self withdrawals, fillBefore_eq_self fee]

/-- The contents of a header are accepted as they are written only. -/
theorem decodeContents_eq_ok {payload : Bytes} {h : Header}
    (read : decodeContents.run payload = .ok (h, [])) :
    payload = h.encodeRequired ++ encodeOptionalFields h.optionalFields ∧ h.Gapless := by
  obtain ⟨parentHash, _, parent, read⟩ := (acceptsOnly_fixed 32).of_bind read
  obtain ⟨ommersHash, _, ommers, read⟩ := (acceptsOnly_fixed 32).of_bind read
  obtain ⟨feeRecipient, _, recipient, read⟩ := (acceptsOnly_fixed 20).of_bind read
  obtain ⟨stateRoot, _, state, read⟩ := (acceptsOnly_fixed 32).of_bind read
  obtain ⟨transactionsRoot, _, transactions, read⟩ := (acceptsOnly_fixed 32).of_bind read
  obtain ⟨receiptsRoot, _, receipts, read⟩ := (acceptsOnly_fixed 32).of_bind read
  obtain ⟨logsBloom, _, bloom, read⟩ := (acceptsOnly_fixed 256).of_bind read
  obtain ⟨difficulty, _, hard, read⟩ := acceptsOnly_word.of_bind read
  obtain ⟨number, _, height, read⟩ := acceptsOnly_number.of_bind read
  obtain ⟨gasLimit, _, limit, read⟩ := acceptsOnly_number.of_bind read
  obtain ⟨gasUsed, _, used, read⟩ := acceptsOnly_number.of_bind read
  obtain ⟨timestamp, _, time, read⟩ := acceptsOnly_number.of_bind read
  obtain ⟨extraData, _, extra, read⟩ := acceptsOnly_string.of_bind read
  obtain ⟨mixHash, _, mix, read⟩ := (acceptsOnly_fixed 32).of_bind read
  obtain ⟨nonce, optional, last, read⟩ := (acceptsOnly_fixed 8).of_bind read
  obtain ⟨baseFee, _, feeRead, read⟩ := run_bind_eq_ok read
  obtain ⟨withdrawalsRoot, _, withdrawalsRead, read⟩ := run_bind_eq_ok read
  obtain ⟨blobGas, _, blobRead, read⟩ := run_bind_eq_ok read
  obtain ⟨excessBlobGas, _, excessRead, read⟩ := run_bind_eq_ok read
  obtain ⟨beaconRoot, _, beaconRead, read⟩ := run_bind_eq_ok read
  obtain ⟨requestsHash, _, requestsRead, read⟩ := run_bind_eq_ok read
  cases read
  have holds := HoldsOptional.nil
    |>.cons (acceptsOnly_fixed 32) (.zero 32) requestsRead
    |>.cons (acceptsOnly_fixed 32) (.zero 32) beaconRead
    |>.cons acceptsOnly_number 0 excessRead
    |>.cons acceptsOnly_number 0 blobRead
    |>.cons (acceptsOnly_fixed 32) (.zero 32) withdrawalsRead
    |>.cons acceptsOnly_word 0 feeRead
  refine ⟨?_, holds.gapless⟩
  rw [parent, ommers, recipient, state, transactions, receipts, bloom, hard, height, limit, used,
    time, extra, mix, last, holds.encoded]
  simp only [encodeRequired, List.append_assoc]
  rfl

theorem eq_encode_of_decode {bytes rest : Bytes} {h : Header}
    (read : decode.run bytes = .ok (h, rest)) : bytes = h.encode ++ rest ∧ h.Gapless := by
  obtain ⟨payload, spelled, contents⟩ := decodeFields_eq_ok read
  obtain ⟨rfl, gapless⟩ := decodeContents_eq_ok contents
  exact ⟨spelled, gapless⟩

end Header

namespace Withdrawal

open Rlp

theorem decodeContents_eq_ok {payload rest : Bytes} {w : Withdrawal}
    (read : decodeContents.run payload = .ok (w, rest)) : payload = w.encodeFields ++ rest := by
  obtain ⟨index, _, first, read⟩ := acceptsOnly_number.of_bind read
  obtain ⟨validatorIndex, _, second, read⟩ := acceptsOnly_number.of_bind read
  obtain ⟨address, _, third, read⟩ := (acceptsOnly_fixed 20).of_bind read
  obtain ⟨amount, _, fourth, read⟩ := acceptsOnly_number.of_bind read
  cases read
  rw [first, second, third, fourth]
  simp only [encodeFields, List.append_assoc]

theorem run_decodeContents (w : Withdrawal) :
    decodeContents.run w.encodeFields = .ok (w, []) := by
  unfold decodeContents encodeFields
  rw [List.append_assoc, List.append_assoc, (reads_number w.index).run_bind,
    (reads_number w.validatorIndex).run_bind, (reads_fixed (by norm_num) w.address).run_bind,
    ← List.append_nil (encodeNat w.amount.toNat), (reads_number w.amount).run_bind]
  rfl

/-- **Withdrawals are accepted as they are written only.** -/
theorem acceptsOnly : AcceptsOnly decode encode := by
  intro bytes w rest read
  obtain ⟨payload, spelled, contents⟩ := decodeFields_eq_ok read
  rw [spelled, decodeContents_eq_ok contents, List.append_nil]
  rfl

/-- Every withdrawal is read as it was written. -/
theorem reads (w : Withdrawal) : Reads decode w.encode w :=
  reads_fields (run_decodeContents w) w.length_encodeFields_lt

end Withdrawal

/-- **What is read off a byte string, and off which.** A header is read where its own encoding
begins the byte string and none of its optional fields is absent before a present one; the encoding
of any header is read as that header with zeros in those places, which has the same hash. A
withdrawal is read where its encoding begins the byte string. The byte string need only be short
enough for its length to be written down. -/
theorem Header.decode_canonical (bytes : Bytes) (addressable : bytes.length < 2 ^ 64) :
    (∀ (h : Header) rest,
      Header.decode.run bytes = .ok (h, rest) ↔ bytes = h.encode ++ rest ∧ h.Gapless) ∧
      (∀ (h : Header) rest, bytes = h.encode ++ rest →
        Header.decode.run bytes = .ok (h.filled, rest) ∧ h.filled.hash = h.hash) ∧
      ∀ (w : Withdrawal) rest,
        Withdrawal.decode.run bytes = .ok (w, rest) ↔ bytes = w.encode ++ rest := by
  have filled (h : Header) (rest : Bytes) (spelled : bytes = h.encode ++ rest) :
      Header.decode.run bytes = .ok (h.filled, rest) := by
    have short : h.encode.length < 256 ^ 8 := by
      rw [spelled, List.length_append] at addressable
      omega
    rw [spelled]
    exact Header.reads short rest
  refine ⟨?_, ?_, ?_⟩
  · intro h rest
    constructor
    · exact Header.eq_encode_of_decode
    · rintro ⟨spelled, gapless⟩
      have read := filled h rest spelled
      rwa [filled_of_gapless gapless] at read
  · intro h rest spelled
    exact ⟨filled h rest spelled, h.hash_filled⟩
  · intro w rest
    constructor
    · exact Withdrawal.acceptsOnly bytes w rest
    · rintro rfl
      exact w.reads rest

/-- A withdrawals root without a base fee, in front of another byte: the base fee that is read is
zero, so that the header itself is not what is read. -/
theorem Header.decode_withdrawalsRoot_alone :
    let h : Header := { withdrawalsRoot := some (.zero 32) }
    (h.encode ++ [1]).length < 2 ^ 64 ∧
      Header.decode.run (h.encode ++ [1]) = .ok ({ h with baseFeePerGas := some 0 }, [1]) ∧
      Header.decode.run (h.encode ++ [1]) ≠ .ok (h, [1]) ∧
      ({ h with baseFeePerGas := some 0 } : Header).hash = h.hash := by
  intro h
  have short : (h.encode ++ [1]).length < 2 ^ 64 := by
    have size := Header.length_encode_lt (h := h) (by decide)
    rw [List.length_append]
    exact (Nat.add_lt_add_right size 1).trans (by decide)
  obtain ⟨canonical, lossless, -⟩ := Header.decode_canonical (h.encode ++ [1]) short
  refine ⟨short, (lossless h [1] rfl).1, ?_, (lossless h [1] rfl).2⟩
  intro read
  obtain ⟨-, gapless⟩ := (canonical h [1]).mp read
  have base := (List.pairwise_cons.mp gapless).1 _ List.mem_cons_self rfl
  cases base

end EngineNode
