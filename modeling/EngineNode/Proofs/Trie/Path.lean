import EngineNode.Proofs.Header.Encoding

/-!
Paths as bytes.

Keys are split into nibbles and the paths of nodes are packed into bytes again. Neither loses
anything.

* `Trie.isPrefix_of_nibbles`: a key whose nibbles begin another key's is the beginning of that key.
* `Trie.hexPrefix_eq`: a path is packed behind a mark that makes its length even and tells leaves
  from extensions.
* `Trie.hexPrefix_inj`: the packed path tells the path and the kind of its node.
-/

namespace EngineNode

namespace Rlp

/-- Strings of any length are encoded injectively. -/
theorem encodeString_injective {a b : Bytes} (same : encodeString a = encodeString b) : a = b := by
  have long (n : Nat) : 1 ≤ (encodeLength 0x80 n).length := by
    unfold encodeLength
    split <;> simp
  have apart {c : UInt8} {bytes : Bytes} (low : c < 0x80) :
      [c] ≠ encodeLength 0x80 bytes.length ++ bytes := by
    intro single
    have size := congrArg List.length single
    have := long bytes.length
    rw [List.length_singleton, List.length_append] at size
    obtain rfl : bytes = [] := List.eq_nil_of_length_eq_zero (by omega)
    cases single
    exact absurd low (by decide)
  rcases encodeString_eq a with ⟨c, rfl, low, ea⟩ | ea <;>
    rcases encodeString_eq b with ⟨d, rfl, low', eb⟩ | eb
  · rw [ea, eb] at same
    exact same
  · rw [ea, eb] at same
    exact absurd same (apart low)
  · rw [ea, eb] at same
    exact absurd same.symm (apart low')
  · rw [ea, eb] at same
    exact encodeLength_append_self_inj same

end Rlp

namespace Trie

/-! ### Nibbles -/

theorem nibbles_cons (b : UInt8) (bytes : Bytes) :
    nibbles (b :: bytes) = Fin.ofNat 16 (b.toNat / 16) :: Fin.ofNat 16 b.toNat :: nibbles bytes :=
  rfl

theorem length_nibbles (bytes : Bytes) : (nibbles bytes).length = 2 * bytes.length := by
  induction bytes with
  | nil => rfl
  | cons b bytes ih =>
      rw [nibbles_cons, List.length_cons, List.length_cons, List.length_cons, ih]
      omega

/-- The two halves of a byte make the byte. -/
theorem packPairs_nibbles_append (bytes : Bytes) (path : List Nibble) :
    packPairs (nibbles bytes ++ path) = bytes ++ packPairs path := by
  induction bytes with
  | nil => rfl
  | cons b bytes ih =>
      have halves : UInt8.ofNat (16 * (Fin.ofNat 16 (b.toNat / 16)).val +
          (Fin.ofNat 16 b.toNat).val) = b := by
        apply UInt8.toNat_inj.mp
        have := b.toNat_lt
        rw [UInt8.toNat_ofNat', Fin.val_ofNat, Fin.val_ofNat]
        omega
      rw [nibbles_cons, List.cons_append, List.cons_append, packPairs, halves, ih,
        List.cons_append]

/-- A key whose nibbles begin another key's is the beginning of that key. -/
theorem isPrefix_of_nibbles {a b : Bytes} (begins : nibbles a <+: nibbles b) : a <+: b := by
  obtain ⟨rest, same⟩ := begins
  have packed := congrArg packPairs same
  rw [packPairs_nibbles_append, ← List.append_nil (nibbles b), packPairs_nibbles_append] at packed
  exact ⟨packPairs rest, packed.trans (List.append_nil b)⟩

theorem nibbles_injective {a b : Bytes} (same : nibbles a = nibbles b) : a = b := by
  have packed := congrArg (fun path => packPairs (path ++ [])) same
  simp only [packPairs_nibbles_append] at packed
  exact List.append_cancel_right packed

/-! ### Packed paths -/

/-- Two digits a byte. -/
def packDigits : List Nat → Bytes
  | hi :: lo :: rest => UInt8.ofNat (16 * hi + lo) :: packDigits rest
  | _ => []

theorem packPairs_eq (path : List Nibble) : packPairs path = packDigits (path.map Fin.val) := by
  match path with
  | [] => rfl
  | [_] => rfl
  | hi :: lo :: rest => exact congrArg (_ :: ·) (packPairs_eq rest)

theorem length_packDigits (digits : List Nat) :
    (packDigits digits).length = digits.length / 2 := by
  match digits with
  | [] => rfl
  | [_] => simp [packDigits]
  | hi :: lo :: rest =>
      rw [packDigits, List.length_cons, length_packDigits rest, List.length_cons, List.length_cons]
      omega

/-- An even number of digits is packed without loss. -/
theorem packDigits_inj {digits digits' : List Nat} (even : digits.length % 2 = 0)
    (even' : digits'.length % 2 = 0) (small : ∀ d ∈ digits, d < 16) (small' : ∀ d ∈ digits', d < 16)
    (same : packDigits digits = packDigits digits') : digits = digits' := by
  match digits, digits', even, even' with
  | [], [], _, _ => rfl
  | [], _ :: _ :: _, _, _ => cases same
  | _ :: _ :: _, [], _, _ => cases same
  | hi :: lo :: rest, hi' :: lo' :: rest', even, even' =>
      obtain ⟨first, others⟩ := List.cons.inj same
      simp only [List.forall_mem_cons] at small small'
      simp only [List.length_cons] at even even'
      have byte := congrArg UInt8.toNat first
      rw [UInt8.toNat_ofNat', UInt8.toNat_ofNat'] at byte
      have his : hi = hi' := by omega
      have los : lo = lo' := by omega
      have rests := packDigits_inj (by omega) (by omega) small.2.2 small'.2.2 others
      rw [his, los, rests]

/-- What stands in front of a path: whether it ends in a leaf and whether its length is odd. -/
def pathMark (length : Nat) (isLeaf : Bool) : List Nat :=
  if length % 2 = 0 then [if isLeaf then 2 else 0, 0] else [(if isLeaf then 2 else 0) + 1]

theorem pathMark_of_even {length : Nat} (even : length % 2 = 0) (isLeaf : Bool) :
    pathMark length isLeaf = [if isLeaf then 2 else 0, 0] := if_pos even

theorem pathMark_of_odd {length : Nat} (odd : length % 2 = 1) (isLeaf : Bool) :
    pathMark length isLeaf = [(if isLeaf then 2 else 0) + 1] := if_neg (by omega)

/-- A path behind its mark. -/
def pathDigits (path : List Nibble) (isLeaf : Bool) : List Nat :=
  pathMark path.length isLeaf ++ path.map Fin.val

/-- **A path is packed behind its mark.** -/
theorem hexPrefix_eq (path : List Nibble) (isLeaf : Bool) :
    hexPrefix path isLeaf = packDigits (pathDigits path isLeaf) := by
  cases path with
  | nil => cases isLeaf <;> rfl
  | cons first rest =>
      rcases Nat.mod_two_eq_zero_or_one (first :: rest).length with even | odd
      · rw [pathDigits, pathMark_of_even even, hexPrefix, if_neg (by omega), packPairs_eq]
        rfl
      · rw [pathDigits, pathMark_of_odd odd, hexPrefix, if_pos odd, packPairs_eq]
        rfl

/-- The mark makes the number of digits even. -/
theorem length_pathDigits (path : List Nibble) (isLeaf : Bool) :
    (pathDigits path isLeaf).length = 2 * (path.length / 2 + 1) := by
  rw [pathDigits, List.length_append, List.length_map]
  rcases Nat.mod_two_eq_zero_or_one path.length with even | odd
  · rw [pathMark_of_even even, List.length_cons, List.length_singleton]
    omega
  · rw [pathMark_of_odd odd, List.length_singleton]
    omega

theorem pathDigits_lt (path : List Nibble) (isLeaf : Bool) :
    ∀ d ∈ pathDigits path isLeaf, d < 16 := by
  intro d member
  rcases List.mem_append.mp member with mark | inPath
  · rcases Nat.mod_two_eq_zero_or_one path.length with even | odd
    · rw [pathMark_of_even even] at mark
      cases isLeaf <;> simp at mark <;> omega
    · rw [pathMark_of_odd odd] at mark
      cases isLeaf <;> simp at mark <;> omega
  · obtain ⟨nibble, -, rfl⟩ := List.mem_map.mp inPath
    exact nibble.isLt

theorem pathDigits_inj {path path' : List Nibble} {isLeaf isLeaf' : Bool}
    (same : pathDigits path isLeaf = pathDigits path' isLeaf') :
    path = path' ∧ isLeaf = isLeaf' := by
  have paths (same : path.map Fin.val = path'.map Fin.val) : path = path' :=
    List.map_injective_iff.mpr (fun _ _ => Fin.ext) same
  rw [pathDigits, pathDigits] at same
  rcases Nat.mod_two_eq_zero_or_one path.length with even | odd <;>
    rcases Nat.mod_two_eq_zero_or_one path'.length with even' | odd'
  · rw [pathMark_of_even even, pathMark_of_even even'] at same
    obtain ⟨marks, digits⟩ := List.append_inj same rfl
    exact ⟨paths digits, by cases isLeaf <;> cases isLeaf' <;> simp_all⟩
  · rw [pathMark_of_even even, pathMark_of_odd odd'] at same
    cases isLeaf <;> cases isLeaf' <;> simp at same
  · rw [pathMark_of_odd odd, pathMark_of_even even'] at same
    cases isLeaf <;> cases isLeaf' <;> simp at same
  · rw [pathMark_of_odd odd, pathMark_of_odd odd'] at same
    obtain ⟨marks, digits⟩ := List.append_inj same rfl
    exact ⟨paths digits, by cases isLeaf <;> cases isLeaf' <;> simp_all⟩

theorem length_hexPrefix (path : List Nibble) (isLeaf : Bool) :
    (hexPrefix path isLeaf).length = path.length / 2 + 1 := by
  rw [hexPrefix_eq, length_packDigits, length_pathDigits]
  omega

/-- **A packed path tells the path and whether it ends in a leaf.** -/
theorem hexPrefix_inj {path path' : List Nibble} {isLeaf isLeaf' : Bool}
    (same : hexPrefix path isLeaf = hexPrefix path' isLeaf') :
    path = path' ∧ isLeaf = isLeaf' := by
  rw [hexPrefix_eq, hexPrefix_eq] at same
  refine pathDigits_inj (packDigits_inj ?_ ?_ (pathDigits_lt path isLeaf)
    (pathDigits_lt path' isLeaf') same)
  · rw [length_pathDigits, Nat.mul_mod_right]
  · rw [length_pathDigits, Nat.mul_mod_right]

end Trie

end EngineNode
