import EngineNode.Proofs.Wire.Digits
import Mathlib.Algebra.Group.Nat.Defs

/-!
Which texts are accepted as quantities and as byte strings.

The mark, missing digits and leading zeros are looked for before digits are read. But the reader of
numbers takes a plus sign, and behind one zeros are no longer looked for; and the reader of bytes
takes a second mark. Apart from these every value has one text, up to the case of its digits, which
is the one that is written for it.

* `Wire.readQuantity_eq_ok_iff`, `Wire.readByteString_eq_ok_iff`: all texts that are accepted.
* `Wire.accepted_texts`: the same for JSON values, against what is written.
* `Wire.sign_and_mark_accepted`: a text of each kind that is never written.
-/

namespace EngineNode.Wire

open Hex

variable {text digits : List Char} {limit n : Nat} {bytes : Bytes}

/-- What is behind the mark of a text decides how it is spelt. -/
theorem map_lower_marked_iff {rest : List Char} :
    text.map lower = '0' :: 'x' :: rest ↔
      ∃ tail, text = '0' :: 'x' :: tail ∧ tail.map lower = rest := by
  rw [map_lower_eq_cons_iff (.inl (by decide))]
  constructor
  · rintro ⟨behind, rfl, same⟩
    obtain ⟨tail, rfl, spelt⟩ := (map_lower_eq_cons_iff (.inr (by decide))).mp same
    exact ⟨tail, rfl, spelt⟩
  · rintro ⟨tail, rfl, same⟩
    exact ⟨_, rfl, (map_lower_eq_cons_iff (.inr (by decide))).mpr ⟨tail, rfl, same⟩⟩

theorem afterMark_eq_ok_iff : afterMark text = .ok digits ↔ text = '0' :: 'x' :: digits := by
  unfold afterMark
  split
  · simp
  · rename_i unmarked
    exact ⟨nofun, fun marked => absurd marked (unmarked digits)⟩

/-! ### Quantities -/

/-- Digits below a limit are read as the number that they spell. -/
theorem readDigits_eq_ok_iff {start : Nat} (small : start < limit) :
    readDigits limit start digits = .ok n ↔ digitsAfter? start digits = some n ∧ n < limit := by
  induction digits generalizing start with
  | nil =>
      rw [readDigits, digitsAfter?_nil, Except.ok.injEq, Option.some.injEq]
      constructor
      · rintro rfl
        exact ⟨rfl, small⟩
      · exact And.left
  | cons c rest ih =>
      rw [readDigits, digitsAfter?_cons]
      cases digitValue? c with
      | none => exact ⟨nofun, nofun⟩
      | some d =>
          dsimp only [Option.bind_some]
          split
          · rename_i large
            refine ⟨nofun, fun ⟨value, fits⟩ => ?_⟩
            have := le_of_digitsAfter? value
            omega
          · rename_i fits
            exact ih (Nat.not_le.mp fits)

theorem readDigits_zero_eq_ok_iff (positive : 0 < limit) (nonempty : digits ≠ []) :
    readDigits limit 0 digits = .ok n ↔ n < limit ∧
      ∃ zeros, digits.map lower = List.replicate zeros '0' ++ natDigits n := by
  rw [readDigits_eq_ok_iff positive, digitsAfter?_eq_some_iff nonempty, and_comm]

/-- What the digits of a quantity are: those of the number, or a plus sign and any zeros in front of
them. -/
def QuantityDigits (n : Nat) (digits : List Char) : Prop :=
  digits.map lower = natDigits n ∨
    ∃ zeros, digits.map lower = '+' :: (List.replicate zeros '0' ++ natDigits n)

theorem natDigits_ne_plus_cons {rest : List Char} : natDigits n ≠ '+' :: rest := by
  intro plus
  have value := digitsAfter?_natDigits n
  rw [plus] at value
  cases value

theorem not_quantityDigits_nil : ¬QuantityDigits n [] := by
  rintro (same | ⟨zeros, same⟩)
  · exact natDigits_ne_nil n same.symm
  · cases same

/-- Only zero is spelt with a zero in front, which is then all. -/
theorem quantityDigits_zero_iff : QuantityDigits n ('0' :: digits) ↔ n = 0 ∧ digits = [] := by
  constructor
  · rintro (same | ⟨zeros, same⟩)
    · obtain ⟨zero, none⟩ := natDigits_eq_zero_cons same.symm
      exact ⟨zero, List.map_eq_nil_iff.mp none⟩
    · cases same
  · rintro ⟨rfl, rfl⟩
    exact .inl (natDigits_of_lt (n := 0) (by decide)).symm

/-- Behind a plus sign zeros are free. -/
theorem quantityDigits_plus_iff : QuantityDigits n ('+' :: digits) ↔
    ∃ zeros, digits.map lower = List.replicate zeros '0' ++ natDigits n := by
  have fixed : lower '+' = '+' := by decide
  simp only [QuantityDigits, List.map_cons, fixed, List.cons.injEq, true_and]
  exact or_iff_right fun plus => natDigits_ne_plus_cons plus.symm

/-- Digits with neither in front spell the number without zeros. -/
theorem quantityDigits_iff_of_plain (zero : ∀ rest, digits ≠ '0' :: rest)
    (plus : ∀ rest, digits ≠ '+' :: rest) : QuantityDigits n digits ↔
      ∃ zeros, digits.map lower = List.replicate zeros '0' ++ natDigits n := by
  constructor
  · rintro (same | ⟨zeros, same⟩)
    · exact ⟨0, same⟩
    · obtain ⟨tail, rfl, -⟩ := (map_lower_eq_cons_iff (.inl (by decide))).mp same
      exact absurd rfl (plus tail)
  · rintro ⟨zeros, same⟩
    cases zeros with
    | zero => exact .inl same
    | succ zeros =>
        obtain ⟨tail, rfl, -⟩ := (map_lower_eq_cons_iff (.inl (by decide))).mp same
        exact absurd rfl (zero tail)

/-- **All texts that are accepted as quantities.** -/
theorem readQuantity_eq_ok_iff (positive : 0 < limit) : readQuantity limit text = .ok n ↔
    n < limit ∧ ∃ digits, text = '0' :: 'x' :: digits ∧ QuantityDigits n digits := by
  cases marked : afterMark text with
  | error error =>
      rw [readQuantity, marked]
      refine ⟨nofun, ?_⟩
      rintro ⟨-, digits, rfl, -⟩
      cases marked
  | ok digits =>
      obtain rfl := afterMark_eq_ok_iff.mp marked
      simp only [List.cons.injEq, true_and, exists_eq_left']
      rw [readQuantity, marked]
      dsimp only [bind, Except.bind]
      split
      · exact ⟨nofun, fun accepted => absurd accepted.2 not_quantityDigits_nil⟩
      · rw [quantityDigits_zero_iff]
        constructor
        · rintro ⟨⟩
          exact ⟨positive, rfl, rfl⟩
        · rintro ⟨-, rfl, -⟩
          rfl
      · rename_i more
        rw [quantityDigits_zero_iff]
        exact ⟨nofun, fun ⟨_, _, rest⟩ => absurd rest more⟩
      · rw [quantityDigits_plus_iff]
        refine ⟨nofun, ?_⟩
        rintro ⟨-, zeros, same⟩
        exact absurd (List.append_eq_nil_iff.mp same.symm).2 (natDigits_ne_nil n)
      · rename_i more
        rw [quantityDigits_plus_iff]
        exact readDigits_zero_eq_ok_iff positive more
      · rename_i nonempty _ zero _ plus
        rw [quantityDigits_iff_of_plain zero plus]
        exact readDigits_zero_eq_ok_iff positive nonempty

/-! ### Byte strings -/

/-- What is behind the first mark of a byte string: its digits, or these behind a second mark. -/
def ByteDigits (bytes : Bytes) (digits : List Char) : Prop :=
  digits.map lower = encode bytes ∨ digits.map lower = '0' :: 'x' :: encode bytes

theorem encode_ne_marked {rest : List Char} : encode bytes ≠ '0' :: 'x' :: rest := by
  intro marked
  have read := decodePairs_encode bytes
  rw [marked, decodePairs?] at read
  cases read

/-- A second mark is passed over. -/
theorem readByteString_marked (digits : List Char) :
    readByteString ('0' :: 'x' :: '0' :: 'x' :: digits) = readPairs (utf8 digits) := rfl

theorem readByteString_plain (plain : ∀ rest, digits ≠ '0' :: 'x' :: rest) :
    readByteString ('0' :: 'x' :: digits) = readPairs (utf8 digits) := by
  rw [readByteString, afterMark]
  dsimp only [bind, Except.bind]
  split
  · rename_i rest
    exact absurd rfl (plain rest)
  · rfl

/-- **All texts that are accepted as byte strings.** -/
theorem readByteString_eq_ok_iff : readByteString text = .ok bytes ↔
    ∃ digits, text = '0' :: 'x' :: digits ∧ ByteDigits bytes digits := by
  cases marked : afterMark text with
  | error error =>
      rw [readByteString, marked]
      refine ⟨nofun, ?_⟩
      rintro ⟨digits, rfl, -⟩
      cases marked
  | ok digits =>
      obtain rfl := afterMark_eq_ok_iff.mp marked
      simp only [List.cons.injEq, true_and, exists_eq_left', ByteDigits, map_lower_marked_iff]
      by_cases twice : ∃ rest, digits = '0' :: 'x' :: rest
      · obtain ⟨rest, rfl⟩ := twice
        rw [readByteString_marked, readPairs_eq_ok_iff]
        simp only [List.cons.injEq, true_and, exists_eq_left']
        refine (or_iff_right fun same => ?_).symm
        exact encode_ne_marked same.symm
      · rw [not_exists] at twice
        rw [readByteString_plain twice, readPairs_eq_ok_iff]
        refine (or_iff_left ?_).symm
        rintro ⟨rest, same, -⟩
        exact twice rest same

/-! ### Values of JSON -/

/-- A text spells what is written, up to the case of digits. -/
def Spells (text : String) (json : Json) : Prop :=
  ∃ written, json = .str written ∧ text.toList.map lower = written.toList.map lower

/-- The text of a number with a plus sign and some zeros behind the mark. -/
def signedText (zeros n : Nat) : String :=
  String.ofList ('0' :: 'x' :: '+' :: (List.replicate zeros '0' ++ natDigits n))

/-- The text of a byte string with a second mark. -/
def markedText (bytes : Bytes) : String := String.ofList ('0' :: 'x' :: (Hex.text bytes).toList)

theorem spells_marked_iff {text : String} {digits : List Char}
    (fixed : digits.map lower = digits) :
    Spells text (.str (String.ofList ('0' :: 'x' :: digits))) ↔
      ∃ tail, text.toList = '0' :: 'x' :: tail ∧ tail.map lower = digits := by
  have own : ('0' :: 'x' :: digits).map lower = '0' :: 'x' :: digits :=
    map_lower_marked_iff.mpr ⟨digits, rfl, fixed⟩
  rw [← map_lower_marked_iff]
  constructor
  · rintro ⟨_, ⟨⟩, same⟩
    rwa [String.toList_ofList, own] at same
  · intro same
    exact ⟨_, rfl, by rw [String.toList_ofList, own, same]⟩

theorem spells_quantity_iff {text : String} : Spells text (encodeQuantity n) ↔
    ∃ digits, text.toList = '0' :: 'x' :: digits ∧ digits.map lower = natDigits n :=
  spells_marked_iff (map_lower_natDigits n)

theorem spells_signed_iff {text : String} {zeros : Nat} :
    Spells text (.str (signedText zeros n)) ↔ ∃ digits, text.toList = '0' :: 'x' :: digits ∧
      digits.map lower = '+' :: (List.replicate zeros '0' ++ natDigits n) := by
  have plus : lower '+' = '+' := by decide
  have zero : lower '0' = '0' := by decide
  refine spells_marked_iff ?_
  rw [List.map_cons, List.map_append, List.map_replicate, plus, zero, map_lower_natDigits]

theorem spells_byteString_iff {text : String} : Spells text (encodeByteString bytes) ↔
    ∃ digits, text.toList = '0' :: 'x' :: digits ∧ digits.map lower = encode bytes :=
  spells_marked_iff (map_lower_encode bytes)

theorem spells_markedText_iff {text : String} : Spells text (.str (markedText bytes)) ↔
    ∃ digits, text.toList = '0' :: 'x' :: digits ∧
      digits.map lower = '0' :: 'x' :: encode bytes := by
  rw [markedText, Hex.text, String.toList_ofList]
  exact spells_marked_iff (map_lower_marked_iff.mpr ⟨_, rfl, map_lower_encode bytes⟩)

theorem liftHex_eq_ok_iff {α : Type} {read : Except HexError α} {value : α} :
    liftHex read = .ok value ↔ read = .ok value := by
  cases read <;> simp [liftHex]

theorem decodeQuantity_eq_ok_iff {bits : Nat} {text : String} :
    decodeQuantity bits (.str text) = .ok n ↔ n < 2 ^ bits ∧
      ∃ digits, text.toList = '0' :: 'x' :: digits ∧ QuantityDigits n digits := by
  rw [decodeQuantity, liftHex_eq_ok_iff]
  exact readQuantity_eq_ok_iff (Nat.two_pow_pos bits)

theorem decodeByteString_eq_ok_iff {text : String} :
    decodeByteString (.str text) = .ok bytes ↔
      ∃ digits, text.toList = '0' :: 'x' :: digits ∧ ByteDigits bytes digits := by
  rw [decodeByteString, liftHex_eq_ok_iff, readByteString_eq_ok_iff]

/-- No text with a plus sign is written. -/
theorem not_spells_of_signed {text : String} {zeros : Nat}
    (signed : Spells text (.str (signedText zeros n))) : ¬Spells text (encodeQuantity n) := by
  rw [spells_signed_iff] at signed
  rw [spells_quantity_iff]
  rintro ⟨digits, shape, plain⟩
  obtain ⟨others, shape', signed⟩ := signed
  rw [shape] at shape'
  cases shape'
  exact natDigits_ne_plus_cons (plain.symm.trans signed)

/-- No text with a second mark is written. -/
theorem not_spells_of_marked {text : String}
    (marked : Spells text (.str (markedText bytes))) : ¬Spells text (encodeByteString bytes) := by
  rw [spells_markedText_iff] at marked
  rw [spells_byteString_iff]
  rintro ⟨digits, shape, plain⟩
  obtain ⟨others, shape', marked⟩ := marked
  rw [shape] at shape'
  cases shape'
  exact encode_ne_marked (plain.symm.trans marked)

/-- **Quantities and byte strings have one text each, and those with a plus sign or a second mark.**
A text is accepted as a quantity of so many bits exactly if the number has that size and one of two
things holds: the text spells what is written for the number, or what becomes of it when a plus sign
and any zeros are put behind the mark. A text is accepted as a byte string exactly if it spells what
is written for the bytes, or that with another mark in front; never both. -/
theorem accepted_texts (bits n : Nat) (bytes : Bytes) (text : String) :
    (decodeQuantity bits (.str text) = .ok n ↔ n < 2 ^ bits ∧
      Xor (Spells text (encodeQuantity n)) (∃ zeros, Spells text (.str (signedText zeros n)))) ∧
    (decodeByteString (.str text) = .ok bytes ↔
      Xor (Spells text (encodeByteString bytes)) (Spells text (.str (markedText bytes)))) := by
  constructor
  · have apart : ¬(Spells text (encodeQuantity n) ∧
        ∃ zeros, Spells text (.str (signedText zeros n))) :=
      fun ⟨plain, _, signed⟩ => not_spells_of_signed signed plain
    rw [xor_iff_or_and_not_and, and_iff_left apart, decodeQuantity_eq_ok_iff]
    simp only [spells_quantity_iff, spells_signed_iff, QuantityDigits, and_or_left, exists_or]
    rw [exists_comm]
    simp only [exists_and_left]
  · have apart : ¬(Spells text (encodeByteString bytes) ∧
        Spells text (.str (markedText bytes))) :=
      fun ⟨plain, marked⟩ => not_spells_of_marked marked plain
    rw [xor_iff_or_and_not_and, and_iff_left apart, decodeByteString_eq_ok_iff,
      spells_byteString_iff, spells_markedText_iff]
    simp only [ByteDigits, and_or_left, exists_or]

/-- **A sign, zeros behind it and a second mark are accepted**, though they are not written. -/
theorem sign_and_mark_accepted :
    decodeQuantity 64 (.str "0x+01") = .ok 1 ∧ ¬Spells "0x+01" (encodeQuantity 1) ∧
      decodeByteString (.str "0x0x12") = .ok [0x12] ∧
        ¬Spells "0x0x12" (encodeByteString [0x12]) := by
  have signed : Spells "0x+01" (.str (signedText 1 1)) := by
    refine spells_signed_iff.mpr ⟨['+', '0', '1'], rfl, ?_⟩
    rw [natDigits_of_lt (by decide)]
    rfl
  have marked : Spells "0x0x12" (.str (markedText [0x12])) :=
    spells_markedText_iff.mpr ⟨_, rfl, rfl⟩
  refine ⟨rfl, not_spells_of_signed signed, ?_, not_spells_of_marked marked⟩
  exact decodeByteString_eq_ok_iff.mpr ⟨_, rfl, .inr rfl⟩

end EngineNode.Wire
