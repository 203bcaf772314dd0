import EngineNode.Header
import Mathlib.Data.List.Nodup
import Mathlib.Tactic.NormNum

/-!
What the encoding of a header determines.

* `Rlp.encodeString_append_inj`: encoded byte strings of fewer than `256 ^ 8` bytes can be told
  apart at the front of any byte string, so fields that stand one after another can be read off one
  by one.
* `Rlp.encodeList_injective`: lists of any length are encoded injectively. Their prefix is not
  self-delimiting once lengths leave eight bytes, but a longer payload has a longer encoding.
* `Header.number_eq_of_encode_eq`, `Header.parentHash_eq_of_encode_eq`: headers that are encoded
  identically have one number and one parent, whatever their optional fields are.
-/

namespace EngineNode

namespace Bytes

/-- The last digit of a number other than zero stands behind the others. -/
theorem ofNat_of_pos {n : Nat} (hn : 0 < n) : ofNat n = ofNat (n / 256) ++ [UInt8.ofNat n] := by
  rw [ofNat, ofNatAux, if_neg (by omega), ofNatAux_eq_append]

@[simp] theorem ofNat_zero : ofNat 0 = [] := by
  rw [ofNat, ofNatAux, if_pos rfl]

theorem length_ofNat_mono {m n : Nat} (h : m ≤ n) : (ofNat m).length ≤ (ofNat n).length := by
  induction n using Nat.strongRecOn generalizing m with
  | ind n ih =>
    by_cases hm : m = 0
    · simp [hm]
    · have shorter := ih (n / 256) (by omega) (Nat.div_le_div_right (c := 256) h)
      rw [ofNat_of_pos (n := m) (by omega), ofNat_of_pos (n := n) (by omega)]
      simpa using shorter

theorem length_ofNat_le {n width : Nat} (h : n < 256 ^ width) : (ofNat n).length ≤ width := by
  induction width generalizing n with
  | zero =>
    obtain rfl : n = 0 := by simpa using h
    simp
  | succ width ih =>
    by_cases hn : n = 0
    · simp [hn]
    · have shorter := ih (n := n / 256) (Nat.div_lt_of_lt_mul (by rwa [Nat.pow_succ'] at h))
      rw [ofNat_of_pos (by omega)]
      simpa using shorter

theorem length_ofNat_pos {n : Nat} (h : 0 < n) : 0 < (ofNat n).length := by
  rw [ofNat_of_pos h]
  simp

theorem ofNat_injective {m n : Nat} (h : ofNat m = ofNat n) : m = n := by
  rw [← toNat_ofNat m, h, toNat_ofNat]

end Bytes

namespace Rlp

/-! ### Lengths -/

theorem length_encodeLength_mono (base : Nat) {m n : Nat} (h : m ≤ n) :
    (encodeLength base m).length ≤ (encodeLength base n).length := by
  have digits := Bytes.length_ofNat_mono h
  unfold encodeLength
  split <;> split <;> simp <;> omega

/-- The first byte of a length tells how it is written. -/
theorem head_encodeLength {base n : Nat} (hb : base ≤ 0xc0) (hn : n < 256 ^ 8) :
    ∃ first rest, encodeLength base n = first :: rest ∧
      first.toNat = base + if n < 56 then n else 55 + (Bytes.ofNat n).length := by
  have short := Bytes.length_ofNat_le hn
  unfold encodeLength
  split
  · refine ⟨_, _, rfl, ?_⟩
    rw [UInt8.toNat_ofNat']
    omega
  · refine ⟨_, _, rfl, ?_⟩
    rw [UInt8.toNat_ofNat']
    omega

/-- Lengths of up to eight bytes delimit themselves. -/
theorem encodeLength_append_inj {base m n : Nat} {x y : Bytes} (hb : base ≤ 0xc0)
    (hm : m < 256 ^ 8) (hn : n < 256 ^ 8)
    (h : encodeLength base m ++ x = encodeLength base n ++ y) : m = n ∧ x = y := by
  obtain ⟨first, rest, hrest, hfirst⟩ := head_encodeLength hb hm
  obtain ⟨first', rest', hrest', hfirst'⟩ := head_encodeLength hb hn
  have heads : first = first' := by
    rw [hrest, hrest'] at h
    exact (List.cons.inj h).1
  rw [← heads, hfirst] at hfirst'
  have hpos := fun k (hk : 56 ≤ k) => Bytes.length_ofNat_pos (n := k) (by omega)
  by_cases hsmall : m < 56
  · by_cases hsmall' : n < 56
    · obtain rfl : m = n := by simpa [hsmall, hsmall'] using hfirst'
      exact ⟨rfl, List.append_cancel_left h⟩
    · have := hpos n (by omega)
      simp only [hsmall, hsmall', if_true, if_false] at hfirst'
      omega
  · by_cases hsmall' : n < 56
    · have := hpos m (by omega)
      simp only [hsmall, hsmall', if_true, if_false] at hfirst'
      omega
    · simp only [hsmall, hsmall', if_false] at hfirst'
      simp only [encodeLength, hsmall, hsmall', if_false, List.cons_append] at h
      obtain ⟨digits, tails⟩ := List.append_inj (List.cons.inj h).2 (by omega)
      exact ⟨Bytes.ofNat_injective digits, tails⟩

/-- A longer payload stands behind a length that is no shorter, so that lengths of any size tell
payloads apart as long as nothing follows these. -/
theorem encodeLength_append_self_inj {base : Nat} {a b : Bytes}
    (h : encodeLength base a.length ++ a = encodeLength base b.length ++ b) : a = b := by
  have total := congrArg List.length h
  simp only [List.length_append] at total
  have lengths : a.length = b.length := by
    rcases Nat.lt_trichotomy a.length b.length with hlt | heq | hlt
    · have := length_encodeLength_mono base hlt.le
      omega
    · exact heq
    · have := length_encodeLength_mono base hlt.le
      omega
  rw [lengths] at h
  exact List.append_cancel_left h

/-! ### Byte strings -/

/-- A string is its own encoding if it is a single low byte; otherwise its length goes first. -/
theorem encodeString_eq (bytes : Bytes) :
    (∃ b, bytes = [b] ∧ b < 0x80 ∧ encodeString bytes = [b]) ∨
      encodeString bytes = encodeLength 0x80 bytes.length ++ bytes := by
  match bytes with
  | [] => exact .inr rfl
  | [b] =>
    by_cases hb : b < 0x80
    · exact .inl ⟨b, rfl, hb, by simp [encodeString, hb]⟩
    · exact .inr (by simp [encodeString, hb, encodeLength])
  | _ :: _ :: _ => exact .inr rfl

/-- A single low byte is not the beginning of a length. -/
theorem ne_encodeLength_of_low {b : UInt8} {n : Nat} {x y : Bytes} (hb : b < 0x80)
    (hn : n < 256 ^ 8) : b :: x ≠ encodeLength 0x80 n ++ y := by
  intro h
  obtain ⟨first, rest, hrest, hfirst⟩ := head_encodeLength (show 0x80 ≤ 0xc0 by omega) hn
  rw [hrest] at h
  obtain rfl : b = first := (List.cons.inj h).1
  have : b.toNat < 0x80 := UInt8.lt_iff_toNat_lt.mp hb
  omega

/-- Encoded strings delimit themselves. -/
theorem encodeString_append_inj {a b x y : Bytes} (ha : a.length < 256 ^ 8)
    (hb : b.length < 256 ^ 8) (h : encodeString a ++ x = encodeString b ++ y) :
    a = b ∧ x = y := by
  rcases encodeString_eq a with ⟨c, rfl, hc, ea⟩ | ea <;>
    rcases encodeString_eq b with ⟨d, rfl, hd, eb⟩ | eb
  · rw [ea, eb] at h
    obtain ⟨rfl, rfl⟩ := List.cons.inj h
    exact ⟨rfl, rfl⟩
  · rw [ea, eb, List.append_assoc] at h
    exact absurd h (ne_encodeLength_of_low hc hb)
  · rw [ea, eb, List.append_assoc] at h
    exact absurd h.symm (ne_encodeLength_of_low hd ha)
  · rw [ea, eb, List.append_assoc, List.append_assoc] at h
    obtain ⟨lengths, rest⟩ := encodeLength_append_inj (by omega) ha hb h
    exact List.append_inj rest lengths

theorem encodeFixed_append_inj {n : Nat} {a b : FixedBytes n} {x y : Bytes} (hn : n < 256 ^ 8)
    (h : encodeFixed a ++ x = encodeFixed b ++ y) : a = b ∧ x = y := by
  obtain ⟨bytes, rest⟩ := encodeString_append_inj (by rwa [a.length_toList])
    (by rwa [b.length_toList]) h
  exact ⟨FixedBytes.ext bytes, rest⟩

theorem encodeNat_append_inj {m n : Nat} {x y : Bytes} (hm : m < 256 ^ 32) (hn : n < 256 ^ 32)
    (h : encodeNat m ++ x = encodeNat n ++ y) : m = n ∧ x = y := by
  have hm' := Bytes.length_ofNat_le hm
  have hn' := Bytes.length_ofNat_le hn
  obtain ⟨bytes, rest⟩ := encodeString_append_inj (by omega) (by omega) h
  exact ⟨Bytes.ofNat_injective bytes, rest⟩

/-! ### Lists -/

/-- The contents of a list can be read off its encoding, however long they are. -/
theorem encodeList_injective {a b : Bytes} (h : encodeList a = encodeList b) : a = b :=
  encodeLength_append_self_inj h

end Rlp

/-! ### Headers -/

namespace Header

/-- Identical encodings agree on the parent and the number. The fields before the number are read
off one by one; what follows it plays no part. -/
theorem link_eq_of_encode_eq {h h' : Header} (same : h.encode = h'.encode) :
    h.parentHash = h'.parentHash ∧ h.number = h'.number := by
  have fields := Rlp.encodeList_injective same
  simp only [encodeRequired, List.append_assoc] at fields
  obtain ⟨parents, fields⟩ := Rlp.encodeFixed_append_inj (by norm_num) fields
  obtain ⟨-, fields⟩ := Rlp.encodeFixed_append_inj (by norm_num) fields
  obtain ⟨-, fields⟩ := Rlp.encodeFixed_append_inj (by norm_num) fields
  obtain ⟨-, fields⟩ := Rlp.encodeFixed_append_inj (by norm_num) fields
  obtain ⟨-, fields⟩ := Rlp.encodeFixed_append_inj (by norm_num) fields
  obtain ⟨-, fields⟩ := Rlp.encodeFixed_append_inj (by norm_num) fields
  obtain ⟨-, fields⟩ := Rlp.encodeFixed_append_inj (by norm_num) fields
  obtain ⟨-, fields⟩ := Rlp.encodeNat_append_inj (BitVec.isLt _) (BitVec.isLt _) fields
  obtain ⟨numbers, -⟩ := Rlp.encodeNat_append_inj
    (h.number.toNat_lt.trans (by norm_num)) (h'.number.toNat_lt.trans (by norm_num)) fields
  exact ⟨parents, UInt64.toNat_inj.mp numbers⟩

theorem parentHash_eq_of_encode_eq {h h' : Header} (same : h.encode = h'.encode) :
    h.parentHash = h'.parentHash :=
  (link_eq_of_encode_eq same).1

theorem number_eq_of_encode_eq {h h' : Header} (same : h.encode = h'.encode) :
    h.number = h'.number :=
  (link_eq_of_encode_eq same).2

/-- No two different encodings of some headers have the same hash. -/
def CollisionFree (headers : List Header) : Prop :=
  ∀ h ∈ headers, ∀ h' ∈ headers, h.hash = h'.hash → h.encode = h'.encode

theorem CollisionFree.subset {headers headers' : List Header} (free : CollisionFree headers)
    (sub : headers' ⊆ headers) : CollisionFree headers' :=
  fun h member h' member' => free h (sub member) h' (sub member')

theorem collisionFree_of_nodup {headers : List Header} (nodup : (headers.map hash).Nodup) :
    CollisionFree headers :=
  fun _ member _ member' same =>
    congrArg encode (List.inj_on_of_nodup_map nodup member member' same)

end Header

end EngineNode
