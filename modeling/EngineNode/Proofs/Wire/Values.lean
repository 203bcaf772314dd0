import EngineNode.Payload.Basic
import EngineNode.Proofs.Wire.Canonical

/-!
Values that are read back from what is written for them.

Every encoding has a decoder that undoes it. Words are the ones with a reader of their own: it takes
digits in pairs from the end, so a number with an odd count of digits is read as if a zero stood in
front.

* `ReadsBack`: a decoder undoes an encoder, which never writes null. Lists and optional values of
  such a kind are read back too.
* `Wire.readsBack_uint64`, `Wire.readsBack_byteString`: quantities and byte strings, which are among
  the texts that are accepted.
* `Wire.readsBack_fixed`, `Wire.readsBack_u256`: words.
-/

namespace EngineNode

/-- A decoder undoes an encoder. Nothing is written as null, so null is left to stand for
nothing. -/
structure ReadsBack {α : Type} (decode : Decoder α) (encode : α → Json) : Prop where
  read : ∀ a, decode (encode a) = .ok a
  ne_null : ∀ a, encode a ≠ .null

namespace ReadsBack

variable {α : Type} {decode : Decoder α} {encode : α → Json}

theorem bool : ReadsBack Decoder.bool Json.bool := ⟨fun _ => rfl, fun _ => nofun⟩

theorem string : ReadsBack Decoder.string Json.str := ⟨fun _ => rfl, fun _ => nofun⟩

/-- Lists of values are read back. -/
theorem list (back : ReadsBack decode encode) :
    ReadsBack (Decoder.list decode) (Json.ofList encode) := by
  refine ⟨fun values => ?_, fun _ => nofun⟩
  change (values.map encode).mapM decode = .ok values
  induction values with
  | nil => rfl
  | cons a rest ih =>
      rw [List.map_cons, List.mapM_cons, back.read, ih]
      rfl

/-- A value that is not absent is read where one may be. -/
theorem nullable (back : ReadsBack decode encode) (a : α) :
    Decoder.nullable decode (encode a) = .ok (some a) := by
  unfold Decoder.nullable
  split
  · rename_i null
    exact absurd null (back.ne_null a)
  · rw [back.read]
    rfl

/-- Optional values are read back from null, where there is none. -/
theorem ofOption (back : ReadsBack decode encode) (value : Option α) :
    Decoder.nullable decode (Json.ofOption encode value) = .ok value := by
  cases value with
  | none => rfl
  | some a => exact back.nullable a

end ReadsBack

namespace Wire

open Hex

/-! ### Quantities and byte strings -/

theorem readsBack_uint64 : ReadsBack decodeUInt64 encodeUInt64 := by
  refine ⟨fun n => ?_, fun _ => nofun⟩
  have read : decodeQuantity 64 (encodeUInt64 n) = .ok n.toNat := by
    refine decodeQuantity_eq_ok_iff.mpr ⟨n.toNat_lt, natDigits n.toNat, ?_, ?_⟩
    · exact String.toList_ofList
    · exact .inl (map_lower_natDigits n.toNat)
  rw [decodeUInt64, read]
  exact congrArg Except.ok (UInt64.ofNat_toNat)

theorem readsBack_byteString : ReadsBack decodeByteString encodeByteString := by
  refine ⟨fun bytes => ?_, fun _ => nofun⟩
  refine decodeByteString_eq_ok_iff.mpr ⟨Hex.encode bytes, String.toList_ofList, ?_⟩
  exact .inl (map_lower_encode bytes)

theorem readsBack_byteStrings : ReadsBack decodeByteStrings encodeByteStrings :=
  readsBack_byteString.list

/-! ### Words -/

theorem isWordBlank_digitByte {c : Char} (digit : (digitValue? c).isSome) :
    isWordBlank (digitByte c) = false := by
  have value := byteDigitValue?_digitByte (low_of_isSome digit)
  cases blank : isWordBlank (digitByte c) with
  | false => rfl
  | true =>
      simp only [isWordBlank, Bool.or_eq_true, decide_eq_true_eq] at blank
      rcases blank with ((blank | blank) | blank) | blank <;>
      · rw [blank] at value
        rw [← value] at digit
        cases digit

/-- The first digit of a byte waits for the second. -/
theorem readWordDigits_first {c : Char} {d : Nat} (digit : digitValue? c = some d) (index : Nat)
    (rest : Bytes) : readWordDigits index none (digitByte c :: rest) =
      readWordDigits (index + 1) (some d) rest := by
  have value := byteDigitValue?_digitByte (low_of_isSome (Option.isSome_of_eq_some digit))
  simp [readWordDigits, isWordBlank_digitByte (Option.isSome_of_eq_some digit), value, digit]

/-- The second digit of a byte completes it. -/
theorem readWordDigits_second {c : Char} {d : Nat} (digit : digitValue? c = some d) (index h : Nat)
    (rest : Bytes) : readWordDigits index (some h) (digitByte c :: rest) =
      (UInt8.ofNat (16 * h + d) :: ·) <$> readWordDigits (index + 1) none rest := by
  have value := byteDigitValue?_digitByte (low_of_isSome (Option.isSome_of_eq_some digit))
  simp [readWordDigits, isWordBlank_digitByte (Option.isSome_of_eq_some digit), value, digit]

/-- Digits in pairs are read as their bytes. -/
theorem readWordDigits_encode (index : Nat) (bytes : Bytes) :
    readWordDigits index none ((Hex.encode bytes).map digitByte) = .ok bytes := by
  induction bytes generalizing index with
  | nil => rfl
  | cons b rest ih =>
      have small := b.toNat_lt
      rw [Hex.encode, List.map_cons, List.map_cons,
        readWordDigits_first (digitValue?_digitChar (b.toNat / 16) (by omega)),
        readWordDigits_second (digitValue?_digitChar (b.toNat % 16) (by omega)), ih,
        Nat.div_add_mod, UInt8.ofNat_toNat]
      rfl

/-- All digits of a word together are read as the number that they spell, behind bytes that spell
`start` and a digit that waits. -/
theorem readWordDigits_value (start : Nat) (half : Option Nat) (index : Nat) {digits : List Char}
    {n : Nat} (small : ∀ h ∈ half, h < 16) (even : (digits.length + half.toList.length) % 2 = 0)
    (value : digitsAfter? (half.elim start (16 * start + ·)) digits = some n) :
    ∃ bytes, readWordDigits index half (digits.map digitByte) = .ok bytes ∧
      bytes.foldl (fun n b => 256 * n + b.toNat) start = n := by
  induction digits generalizing start half index with
  | nil =>
      cases half with
      | none => exact ⟨[], rfl, Option.some.inj value⟩
      | some h => cases even
  | cons c rest ih =>
      rw [digitsAfter?_cons] at value
      obtain ⟨d, digit, value⟩ := Option.bind_eq_some_iff.mp value
      have low := (digitValue?_eq_some_iff.mp digit).1
      cases half with
      | none =>
          rw [List.map_cons, readWordDigits_first digit]
          refine ih start (some d) (index + 1) ?_ ?_ value
          · rintro _ ⟨⟩
            exact low
          · simpa using even
      | some h =>
          have high := small h rfl
          rw [List.map_cons, readWordDigits_second digit]
          have byte : (UInt8.ofNat (16 * h + d)).toNat = 16 * h + d := by
            rw [UInt8.toNat_ofNat']
            omega
          have joined : 16 * (16 * start + h) + d = 256 * start + (16 * h + d) := by omega
          have even' : rest.length % 2 = 0 := by
            simp only [List.length_cons, Option.toList_some, List.length_nil] at even
            omega
          simp only [Option.elim_some, joined] at value
          obtain ⟨bytes, read, total⟩ := ih _ none (index + 1) nofun even' value
          refine ⟨.ofNat (16 * h + d) :: bytes, ?_, ?_⟩
          · simp only [read]
            rfl
          · rw [List.foldl_cons, byte, total]

theorem ofBytesPadded_toList {n : Nat} (bytes : FixedBytes n) :
    FixedBytes.ofBytesPadded n bytes.toList = bytes := by
  have length := bytes.length_toList
  ext1
  change bytes.toList.take n ++ List.replicate (n - bytes.toList.length) 0 = bytes.toList
  rw [List.take_of_length_le (Nat.le_of_eq length), length, Nat.sub_self,
    List.replicate_zero, List.append_nil]

theorem stripMark_marked (digits : List Char) :
    stripMark ('0' :: 'x' :: digits) = (true, utf8 digits) := rfl

theorem utf8_encode (bytes : Bytes) :
    utf8 (Hex.encode bytes) = (Hex.encode bytes).map digitByte :=
  utf8_of_digits (isSome_of_map_lower (map_lower_encode bytes))

theorem readsBack_fixed (n : Nat) : ReadsBack (decodeFixed n) encodeFixed := by
  refine ⟨fun bytes => ?_, fun _ => nofun⟩
  have length : ((Hex.encode bytes.toList).map digitByte).length = 2 * n := by
    rw [List.length_map, length_encode, bytes.length_toList]
  have even : ¬2 * n % 2 = 1 := by omega
  rw [encodeFixed, decodeFixed, Hex.text, String.toList_ofList, stripMark_marked, utf8_encode]
  simp only [length, ne_eq, not_true_eq_false, if_false, readWord, if_true, if_neg even,
    readWordDigits_encode, liftHex]
  exact congrArg Except.ok (ofBytesPadded_toList bytes)

/-- A number below a power of sixteen has no more digits than that. -/
theorem length_natDigits_le {n width : Nat} (small : n < 16 ^ (width + 1)) :
    (natDigits n).length ≤ width + 1 := by
  induction width generalizing n with
  | zero =>
      rw [natDigits_of_lt (by omega)]
      exact Nat.le_refl 1
  | succ width ih =>
      rcases Nat.lt_or_ge n 16 with low | high
      · rw [natDigits_of_lt low, List.length_singleton]
        omega
      · have front : n / 16 < 16 ^ (width + 1) := by
          rw [Nat.pow_succ] at small
          omega
        rw [natDigits_of_le high, List.length_append, List.length_singleton]
        exact Nat.succ_le_succ (ih front)

theorem isSome_of_mem_natDigits {n : Nat} : ∀ c ∈ natDigits n, (digitValue? c).isSome := by
  induction n using natDigits_induction with
  | single n small =>
      rw [natDigits_of_lt small, List.forall_mem_singleton]
      exact Option.isSome_of_eq_some (digitValue?_digitChar n small)
  | behind n large ih =>
      rw [natDigits_of_le large, List.forall_mem_append, List.forall_mem_singleton]
      exact ⟨ih, Option.isSome_of_eq_some (digitValue?_digitChar _ (Nat.mod_lt _ (by decide)))⟩

/-- The digits of a number are read as a word that spells it, however many they are. -/
theorem readWord_natDigits (n : Nat) :
    ∃ bytes, readWord true ((natDigits n).map digitByte) = .ok bytes ∧ Bytes.toNat bytes = n := by
  have value := digitsAfter?_natDigits n
  by_cases odd : (natDigits n).length % 2 = 1
  · rw [readWord, List.length_map, if_pos odd]
    refine readWordDigits_value 0 (some 0) _ ?_ ?_ value
    · rintro _ ⟨⟩
      decide
    · rw [Option.toList_some, List.length_singleton]
      omega
  · rw [readWord, List.length_map, if_neg odd]
    refine readWordDigits_value 0 none _ nofun ?_ value
    rw [Option.toList_none, List.length_nil]
    omega

theorem readsBack_u256 : ReadsBack decodeU256 encodeU256 := by
  refine ⟨fun n => ?_, fun _ => nofun⟩
  obtain ⟨bytes, read, total⟩ := readWord_natDigits n.toNat
  have short : (natDigits n.toNat).length ≤ 63 + 1 := length_natDigits_le n.isLt
  have nonempty := List.length_pos_iff.mpr (natDigits_ne_nil n.toNat)
  have within : ¬(((natDigits n.toNat).map digitByte).length = 0 ∨
      64 < ((natDigits n.toNat).map digitByte).length) := by
    rw [List.length_map]
    omega
  rw [encodeU256, encodeQuantity, decodeU256, Hex.natText, String.toList_ofList, stripMark_marked,
    utf8_of_digits isSome_of_mem_natDigits]
  simp only [if_neg within, read, liftHex]
  refine congrArg Except.ok ?_
  rw [total, BitVec.ofNat_toNat, BitVec.setWidth_eq]

end Wire

end EngineNode
