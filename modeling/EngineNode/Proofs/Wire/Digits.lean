import EngineNode.Wire.Hex
import Mathlib.Data.List.Basic
import Mathlib.Data.List.Induction

/-!
Hexadecimal digits in texts and in their bytes.

Digits are read in either case and written in lower case, so a text that is read as something is
what would be written for it once its own digits are in lower case. Numbers have one spelling apart
from zeros in front, byte strings have one spelling at all. Byte strings and words are read from the
UTF-8 bytes of a text, where a digit is its own byte and every other character has a byte that is no
digit.

* `Hex.digitValue?_eq_some_iff`: a digit and its value.
* `Hex.digitsAfter?_eq_some_iff`: the spellings of a number.
* `Hex.decodePairs?_eq_some_iff`: the spelling of a byte string.
* `Wire.readPairs_eq_ok_iff`: the same for the bytes of a text.
-/

namespace EngineNode

namespace Hex

/-! ### One digit -/

/-- A digit in lower case. Characters that are no digits stay. -/
def lower (c : Char) : Char :=
  if 65 ≤ c.toNat ∧ c.toNat ≤ 70 then Char.ofNat (c.toNat + 32) else c

theorem toNat_ofNat_of_lt {n : Nat} (low : n < 0xd800) : (Char.ofNat n).toNat = n := by
  rw [Char.ofNat, dif_pos (.inl low)]
  rfl

theorem toNat_lower_of_upper {c : Char} (upper : 65 ≤ c.toNat ∧ c.toNat ≤ 70) :
    (lower c).toNat = c.toNat + 32 := by
  rw [lower, if_pos upper, toNat_ofNat_of_lt (by omega)]

theorem digitValue?_lower (c : Char) : digitValue? (lower c) = digitValue? c := by
  by_cases upper : 65 ≤ c.toNat ∧ c.toNat ≤ 70
  · simp only [digitValue?, toNat_lower_of_upper upper]
    split_ifs <;> first | omega | rfl
  · rw [lower, if_neg upper]

/-- **A digit in lower case is the one that is written for its value.** -/
theorem digitValue?_eq_some_iff {c : Char} {d : Nat} :
    digitValue? c = some d ↔ d < 16 ∧ lower c = digitChar d := by
  constructor
  · intro value
    simp only [digitValue?] at value
    split_ifs at value with decimal small upper
    · cases value
      have place : 48 + (c.toNat - 48) = c.toNat := by omega
      refine ⟨by omega, ?_⟩
      rw [lower, if_neg (by omega), digitChar, if_pos (by omega), place, Char.ofNat_toNat]
    · cases value
      have place : 87 + (c.toNat - 87) = c.toNat := by omega
      refine ⟨by omega, ?_⟩
      rw [lower, if_neg (by omega), digitChar, if_neg (by omega), place, Char.ofNat_toNat]
    · cases value
      have place : 87 + (c.toNat - 55) = c.toNat + 32 := by omega
      refine ⟨by omega, ?_⟩
      rw [lower, if_pos upper, digitChar, if_neg (by omega), place]
  · rintro ⟨small, same⟩
    rw [← digitValue?_lower, same, digitValue?_digitChar d small]

theorem lower_digitChar {d : Nat} (small : d < 16) : lower (digitChar d) = digitChar d :=
  (digitValue?_eq_some_iff.mp (digitValue?_digitChar d small)).2

/-- Characters apart from letters that may be digits are in lower case only as themselves. -/
theorem lower_eq_iff {c mark : Char} (other : mark.toNat < 65 ∨ 102 < mark.toNat) :
    lower c = mark ↔ c = mark := by
  by_cases upper : 65 ≤ c.toNat ∧ c.toNat ≤ 70
  · have moved := toNat_lower_of_upper upper
    constructor
    · rintro rfl
      omega
    · rintro rfl
      omega
  · rw [lower, if_neg upper]

/-- A text that in lower case begins with such a character begins with it. -/
theorem map_lower_eq_cons_iff {text rest : List Char} {mark : Char}
    (other : mark.toNat < 65 ∨ 102 < mark.toNat) :
    text.map lower = mark :: rest ↔ ∃ tail, text = mark :: tail ∧ tail.map lower = rest := by
  simp only [List.map_eq_cons_iff, lower_eq_iff other]
  constructor
  · rintro ⟨_, tail, rfl, rfl, same⟩
    exact ⟨tail, rfl, same⟩
  · rintro ⟨tail, rfl, same⟩
    exact ⟨_, tail, rfl, rfl, same⟩

theorem digitChar_eq_zero_iff {d : Nat} (small : d < 16) : digitChar d = '0' ↔ d = 0 := by
  constructor
  · intro zero
    have value := digitValue?_digitChar d small
    rw [zero] at value
    cases value
    rfl
  · rintro rfl
    rfl

/-! ### Numbers -/

theorem natDigitsAux_eq_append (n : Nat) (tail : List Char) :
    natDigitsAux n tail = natDigits n ++ tail := by
  induction n using Nat.strongRecOn generalizing tail with
  | ind n ih =>
      unfold natDigits
      rw [natDigitsAux]
      conv => rhs; rw [natDigitsAux]
      split
      · rfl
      · have smaller : n / 16 < n := by omega
        rw [ih _ smaller, ih _ smaller [_], List.append_assoc]
        rfl

theorem natDigits_of_lt {n : Nat} (small : n < 16) : natDigits n = [digitChar n] := by
  rw [natDigits, natDigitsAux, if_pos small]

theorem natDigits_of_le {n : Nat} (large : 16 ≤ n) :
    natDigits n = natDigits (n / 16) ++ [digitChar (n % 16)] := by
  rw [natDigits, natDigitsAux, if_neg (Nat.not_lt.mpr large), natDigitsAux_eq_append]

/-- Numbers have a single digit, or one behind those of a smaller number. -/
@[elab_as_elim] theorem natDigits_induction {motive : Nat → Prop}
    (single : ∀ n < 16, motive n) (behind : ∀ n, 16 ≤ n → motive (n / 16) → motive n) (n : Nat) :
    motive n := by
  induction n using Nat.strongRecOn with
  | ind n ih =>
      rcases Nat.lt_or_ge n 16 with small | large
      · exact single n small
      · exact behind n large (ih _ (by omega))

theorem natDigits_ne_nil (n : Nat) : natDigits n ≠ [] := by
  rcases Nat.lt_or_ge n 16 with small | large
  · simp [natDigits_of_lt small]
  · simp [natDigits_of_le large]

/-- Only the number zero begins with a zero. -/
theorem natDigits_eq_zero_cons {n : Nat} {rest : List Char} (zero : natDigits n = '0' :: rest) :
    n = 0 ∧ rest = [] := by
  induction n using natDigits_induction generalizing rest with
  | single n small =>
      rw [natDigits_of_lt small] at zero
      obtain ⟨first, rfl⟩ := List.cons.inj zero
      exact ⟨(digitChar_eq_zero_iff small).mp first, rfl⟩
  | behind n large ih =>
      obtain ⟨first, more, shape⟩ := List.exists_cons_of_ne_nil (natDigits_ne_nil (n / 16))
      rw [natDigits_of_le large, shape] at zero
      obtain ⟨rfl, -⟩ := List.cons.inj zero
      have := (ih shape).1
      omega

theorem map_lower_natDigits (n : Nat) : (natDigits n).map lower = natDigits n := by
  induction n using natDigits_induction with
  | single n small => rw [natDigits_of_lt small, List.map_singleton, lower_digitChar small]
  | behind n large ih =>
      rw [natDigits_of_le large, List.map_append, ih, List.map_singleton,
        lower_digitChar (Nat.mod_lt _ (by decide))]

/-- The number that digits spell behind others that spell `start`. -/
def digitsAfter? (start : Nat) (digits : List Char) : Option Nat :=
  digits.foldlM (fun n c => (16 * n + ·) <$> digitValue? c) start

@[simp] theorem digitsAfter?_nil (start : Nat) : digitsAfter? start [] = some start := rfl

theorem digitsAfter?_cons (start : Nat) (c : Char) (rest : List Char) :
    digitsAfter? start (c :: rest) =
      (digitValue? c).bind fun d => digitsAfter? (16 * start + d) rest := by
  rw [digitsAfter?, List.foldlM_cons]
  cases digitValue? c <;> rfl

theorem digitsAfter?_concat (start : Nat) (init : List Char) (c : Char) :
    digitsAfter? start (init ++ [c]) =
      (digitsAfter? start init).bind fun n => (16 * n + ·) <$> digitValue? c := by
  rw [digitsAfter?, List.foldlM_append]
  simp only [List.foldlM_cons, List.foldlM_nil, bind_pure]
  rfl

/-- Numbers grow with their digits. -/
theorem le_of_digitsAfter? {start n : Nat} {digits : List Char}
    (value : digitsAfter? start digits = some n) : start ≤ n := by
  induction digits generalizing start with
  | nil =>
      cases value
      exact Nat.le_refl n
  | cons c rest ih =>
      rw [digitsAfter?_cons] at value
      obtain ⟨d, -, value⟩ := Option.bind_eq_some_iff.mp value
      have := ih value
      omega

theorem digitsAfter?_natDigits (n : Nat) : digitsAfter? 0 (natDigits n) = some n := by
  induction n using natDigits_induction with
  | single n small =>
      rw [natDigits_of_lt small, digitsAfter?_cons, digitValue?_digitChar n small]
      simp
  | behind n large ih =>
      have last := digitValue?_digitChar (n % 16) (Nat.mod_lt _ (by decide))
      rw [natDigits_of_le large, digitsAfter?_concat, ih, last]
      simp only [Option.bind_some, Option.map_eq_map, Option.map_some, Nat.div_add_mod]

theorem digitsAfter?_zeros (zeros : Nat) (digits : List Char) :
    digitsAfter? 0 (List.replicate zeros '0' ++ digits) = digitsAfter? 0 digits := by
  induction zeros with
  | zero => rfl
  | succ zeros ih =>
      rw [List.replicate_succ, List.cons_append, digitsAfter?_cons]
      exact ih

theorem digitsAfter?_map_lower (start : Nat) (digits : List Char) :
    digitsAfter? start (digits.map lower) = digitsAfter? start digits := by
  induction digits generalizing start with
  | nil => rfl
  | cons c rest ih => simp only [List.map_cons, digitsAfter?_cons, digitValue?_lower, ih]

/-- One more digit. -/
theorem natDigits_mul_add {n d : Nat} (positive : n ≠ 0) (small : d < 16) :
    natDigits (16 * n + d) = natDigits n ++ [digitChar d] := by
  have front : (16 * n + d) / 16 = n := by omega
  have last : (16 * n + d) % 16 = d := by omega
  rw [natDigits_of_le (by omega), front, last]

/-- **The spellings of a number** are its digits with zeros in front. -/
theorem digitsAfter?_eq_some_iff {digits : List Char} {n : Nat} (nonempty : digits ≠ []) :
    digitsAfter? 0 digits = some n ↔
      ∃ zeros, digits.map lower = List.replicate zeros '0' ++ natDigits n := by
  constructor
  · intro value
    -- From the last digit on, since the digits of a number are split at their end.
    induction digits using List.reverseRecOn generalizing n with
    | nil => exact absurd rfl nonempty
    | append_singleton init c ih =>
        rw [digitsAfter?_concat] at value
        obtain ⟨m, front, value⟩ := Option.bind_eq_some_iff.mp value
        obtain ⟨d, digit, rfl⟩ := Option.map_eq_some_iff.mp value
        obtain ⟨small, last⟩ := digitValue?_eq_some_iff.mp digit
        rw [List.map_append, List.map_singleton, last]
        rcases eq_or_ne init [] with rfl | more
        · cases front
          refine ⟨0, ?_⟩
          rw [natDigits_of_lt (by omega), Nat.mul_zero, Nat.zero_add]
          rfl
        · obtain ⟨zeros, shape⟩ := ih more front
          rw [shape]
          rcases eq_or_ne m 0 with rfl | positive
          · refine ⟨zeros + 1, ?_⟩
            rw [natDigits_of_lt (n := 0) (by decide), Nat.mul_zero, Nat.zero_add,
              natDigits_of_lt small, List.replicate_succ']
            rfl
          · refine ⟨zeros, ?_⟩
            rw [natDigits_mul_add positive small, List.append_assoc]
  · rintro ⟨zeros, shape⟩
    rw [← digitsAfter?_map_lower, shape, digitsAfter?_zeros, digitsAfter?_natDigits]

/-! ### Byte strings -/

theorem length_encode (bytes : Bytes) : (encode bytes).length = 2 * bytes.length := by
  induction bytes with
  | nil => rfl
  | cons b rest ih =>
      simp only [encode, List.length_cons, ih]
      omega

/-- **The spelling of a byte string.** -/
theorem decodePairs?_eq_some_iff {chars : List Char} {bytes : Bytes} :
    decodePairs? chars = some bytes ↔ chars.map lower = encode bytes := by
  fun_induction decodePairs? chars generalizing bytes with
  | case1 => cases bytes <;> simp [encode]
  | case2 => cases bytes <;> simp [encode]
  | case3 hi lo rest ih =>
      simp only [Option.bind_eq_bind, Option.bind_eq_some_iff, Option.pure_def, Option.some.injEq,
        digitValue?_eq_some_iff, List.map_cons]
      constructor
      · rintro ⟨h, ⟨smallHigh, high⟩, l, ⟨smallLow, low⟩, tail, read, rfl⟩
        have value : (UInt8.ofNat (16 * h + l)).toNat = 16 * h + l := by
          rw [UInt8.toNat_ofNat']
          omega
        have front : (16 * h + l) / 16 = h := by omega
        have back : (16 * h + l) % 16 = l := by omega
        rw [encode, value, front, back, high, low, ih.mp read]
      · intro same
        cases bytes with
        | nil => cases same
        | cons b tail =>
            simp only [encode, List.cons.injEq] at same
            obtain ⟨high, low, same⟩ := same
            have small := b.toNat_lt
            refine ⟨_, ⟨by omega, high⟩, _, ⟨by omega, low⟩, tail, ih.mpr same, ?_⟩
            rw [Nat.div_add_mod, UInt8.ofNat_toNat]

/-- Digits in pairs always spell something. -/
theorem exists_decodePairs? {chars : List Char} (digits : ∀ c ∈ chars, (digitValue? c).isSome)
    (even : chars.length % 2 = 0) : ∃ bytes, decodePairs? chars = some bytes := by
  fun_induction decodePairs? chars with
  | case1 => exact ⟨[], rfl⟩
  | case2 => cases even
  | case3 hi lo rest ih =>
      rw [List.forall_mem_cons, List.forall_mem_cons] at digits
      obtain ⟨high, low, digits⟩ := digits
      obtain ⟨h, high⟩ := Option.isSome_iff_exists.mp high
      obtain ⟨l, low⟩ := Option.isSome_iff_exists.mp low
      have even' : rest.length % 2 = 0 := by
        rw [List.length_cons, List.length_cons] at even
        omega
      obtain ⟨tail, read⟩ := ih digits even'
      exact ⟨.ofNat (16 * h + l) :: tail, by rw [high, low, read]; rfl⟩

theorem map_lower_encode (bytes : Bytes) : (encode bytes).map lower = encode bytes :=
  decodePairs?_eq_some_iff.mp (decodePairs_encode bytes)

/-- Every character of a spelling is a digit. -/
theorem isSome_of_map_lower {chars : List Char} {bytes : Bytes}
    (same : chars.map lower = encode bytes) : ∀ c ∈ chars, (digitValue? c).isSome := by
  induction bytes generalizing chars with
  | nil =>
      rw [List.map_eq_nil_iff.mp same]
      nofun
  | cons b rest ih =>
      simp only [encode, List.map_eq_cons_iff] at same
      obtain ⟨hi, _, rfl, high, lo, tail, rfl, low, same⟩ := same
      have small := b.toNat_lt
      have highValue := digitValue?_eq_some_iff.mpr ⟨by omega, high⟩
      have lowValue := digitValue?_eq_some_iff.mpr ⟨by omega, low⟩
      intro c member
      rcases List.mem_cons.mp member with rfl | member
      · rw [highValue]
        rfl
      · rcases List.mem_cons.mp member with rfl | member
        · rw [lowValue]
          rfl
        · exact ih same c member

end Hex

namespace Wire

open Hex

/-! ### The bytes of a text -/

theorem byteArray_toList_loop (bytes : ByteArray) (index : Nat) (read : List UInt8) :
    ByteArray.toList.loop bytes index read = read.reverse ++ bytes.data.toList.drop index := by
  fun_induction ByteArray.toList.loop bytes index read with
  | case1 index read within ih =>
      have within' : index < bytes.data.toList.length := by simpa using within
      rw [ih, List.drop_eq_getElem_cons within']
      simp [ByteArray.get!, within]
  | case2 index read beyond =>
      rw [List.drop_eq_nil_of_le (by simpa using beyond), List.append_nil]

theorem utf8_eq (chars : List Char) : utf8 chars = chars.flatMap String.utf8EncodeChar := by
  rw [utf8, String.toUTF8_eq_toByteArray, String.toByteArray_ofList, ByteArray.toList,
    byteArray_toList_loop, List.utf8Encode, List.toList_data_toByteArray]
  rfl

/-- The byte of a digit. -/
def digitByte (c : Char) : UInt8 := UInt8.ofNat c.toNat

theorem byteDigitValue?_digitByte {c : Char} (low : c.toNat < 128) :
    byteDigitValue? (digitByte c) = digitValue? c := by
  have value : (digitByte c).toNat = c.toNat := by
    rw [digitByte, UInt8.toNat_ofNat']
    omega
  rw [byteDigitValue?, value, Char.ofNat_toNat]

theorem low_of_isSome {c : Char} (digit : (digitValue? c).isSome) : c.toNat < 128 := by
  simp only [digitValue?] at digit
  split_ifs at digit <;> first | omega | cases digit

theorem utf8EncodeChar_of_low {c : Char} (low : c.toNat < 128) :
    String.utf8EncodeChar c = [digitByte c] := by
  have low' : c.val.toNat ≤ 127 := Nat.le_of_lt_succ low
  simp only [String.utf8EncodeChar, if_pos low', digitByte, Char.toNat]

/-- Characters beyond the first 128 begin with a byte that is beyond them too. -/
theorem exists_byte_of_high {c : Char} (high : ¬c.toNat < 128) :
    ∃ byte ∈ String.utf8EncodeChar c, byteDigitValue? byte = none := by
  have beyond (n : Nat) (first : 192 ≤ n) (last : n < 256) : byteDigitValue? (.ofNat n) = none := by
    have value : (UInt8.ofNat n).toNat = n := by
      rw [UInt8.toNat_ofNat']
      omega
    rw [byteDigitValue?, value]
    simp only [digitValue?, toNat_ofNat_of_lt (n := n) (by omega)]
    split_ifs <;> first | omega | rfl
  have high' : ¬c.val.toNat ≤ 127 := fun low => high (Nat.lt_succ_of_le low)
  simp only [String.utf8EncodeChar, if_neg high']
  split_ifs
  · exact ⟨_, List.mem_cons_self, beyond _ (by omega) (by omega)⟩
  · exact ⟨_, List.mem_cons_self, beyond _ (by omega) (by omega)⟩
  · exact ⟨_, List.mem_cons_self, beyond _ (by omega) (by omega)⟩

/-- The bytes of a text are digits if its characters are. -/
theorem isSome_utf8_iff {chars : List Char} :
    (∀ byte ∈ utf8 chars, (byteDigitValue? byte).isSome) ↔
      ∀ c ∈ chars, (digitValue? c).isSome := by
  simp only [utf8_eq, List.mem_flatMap, forall_exists_index, and_imp]
  constructor
  · intro digits c member
    by_cases low : c.toNat < 128
    · rw [← byteDigitValue?_digitByte low]
      refine digits _ c member ?_
      rw [utf8EncodeChar_of_low low]
      exact List.mem_singleton_self _
    · obtain ⟨byte, within, none⟩ := exists_byte_of_high low
      have digit := digits byte c member within
      rw [none] at digit
      cases digit
  · intro digits byte c member within
    have low := low_of_isSome (digits c member)
    rw [utf8EncodeChar_of_low low, List.mem_singleton] at within
    rw [within, byteDigitValue?_digitByte low]
    exact digits c member

theorem utf8_of_digits {chars : List Char} (digits : ∀ c ∈ chars, (digitValue? c).isSome) :
    utf8 chars = chars.map digitByte := by
  rw [utf8_eq, List.map_eq_flatMap]
  refine List.flatMap_congr fun c member => ?_
  exact utf8EncodeChar_of_low (low_of_isSome (digits c member))

/-! ### Digits of byte strings -/

theorem firstInvalid?_eq_none_iff (index : Nat) {bytes : Bytes} :
    firstInvalid? index bytes = none ↔ ∀ byte ∈ bytes, (byteDigitValue? byte).isSome := by
  induction bytes generalizing index with
  | nil => exact ⟨fun _ => nofun, fun _ => rfl⟩
  | cons b rest ih =>
      rw [firstInvalid?, List.forall_mem_cons]
      split
      · rename_i digit
        rw [ih, and_iff_right digit]
      · rename_i other
        exact ⟨nofun, fun digits => absurd digits.1 other⟩

/-- Pairs of bytes are read as the pairs of their characters are. -/
theorem readDigitPairs_of_decodePairs? {chars : List Char} {bytes : Bytes}
    (read : decodePairs? chars = some bytes) : readDigitPairs (chars.map digitByte) = bytes := by
  fun_induction decodePairs? chars generalizing bytes with
  | case1 =>
      cases read
      rfl
  | case2 => cases read
  | case3 hi lo rest ih =>
      simp only [Option.bind_eq_bind, Option.bind_eq_some_iff, Option.pure_def,
        Option.some.injEq] at read
      obtain ⟨h, high, l, low, tail, read, rfl⟩ := read
      have highByte : byteDigitValue? (digitByte hi) = some h := by
        rw [byteDigitValue?_digitByte (low_of_isSome (by rw [high]; rfl)), high]
      have lowByte : byteDigitValue? (digitByte lo) = some l := by
        rw [byteDigitValue?_digitByte (low_of_isSome (by rw [low]; rfl)), low]
      rw [List.map_cons, List.map_cons, readDigitPairs, highByte, lowByte, ih read]
      rfl

/-- The bytes that are spelt behind all marks. -/
def readPairs (digits : Bytes) : Except HexError Bytes := do
  if digits.length % 2 = 1 then throw .oddLength
  match firstInvalid? 0 digits with
  | some (byte, index) => throw (.invalidByteDigit byte index)
  | none => return readDigitPairs digits

/-- **What is read from the bytes of a text is what the text spells.** -/
theorem readPairs_eq_ok_iff {chars : List Char} {bytes : Bytes} :
    readPairs (utf8 chars) = .ok bytes ↔ chars.map lower = encode bytes := by
  constructor
  · intro read
    simp only [readPairs] at read
    split_ifs at read with even
    · cases read
    · split at read
      · cases read
      · rename_i valid
        have digits := isSome_utf8_iff.mp ((firstInvalid?_eq_none_iff 0).mp valid)
        rw [utf8_of_digits digits, List.length_map] at even
        rw [utf8_of_digits digits] at read
        obtain ⟨decoded, pairs⟩ := exists_decodePairs? digits (by omega)
        rw [readDigitPairs_of_decodePairs? pairs] at read
        cases read
        exact decodePairs?_eq_some_iff.mp pairs
  · intro same
    have digits := isSome_of_map_lower same
    have valid := (firstInvalid?_eq_none_iff 0).mpr (isSome_utf8_iff.mpr digits)
    have even : ¬chars.length % 2 = 1 := by
      have length := congrArg List.length same
      rw [List.length_map, length_encode] at length
      omega
    rw [utf8_of_digits digits] at valid ⊢
    rw [readPairs, List.length_map, if_neg even, valid,
      readDigitPairs_of_decodePairs? (decodePairs?_eq_some_iff.mpr same)]
    rfl

end Wire

end EngineNode
