/-!
# Byte strings

Byte strings are lists of bytes. This module holds big-endian numbers, byte strings of a
fixed length (hashes, addresses, blooms) and the 256-bit words of the execution layer.

* `FixedBytes n` is a byte string of exactly `n` bytes.
* `Bytes.ofNat` writes a number with the fewest bytes and `Bytes.toNat` reads it back
  (`Bytes.toNat_ofNat`).
-/

namespace EngineNode

/-- A byte string. -/
abbrev Bytes := List UInt8

/-- A 256-bit word. -/
abbrev U256 := BitVec 256

/-- The number of words. -/
def U256.size : Nat := Nat.pow 2 256

namespace Bytes

/-- The big-endian number that a byte string spells. -/
def toNat (bytes : Bytes) : Nat :=
  bytes.foldl (fun n b => 256 * n + b.toNat) 0

/-- The digits of `n` in base 256, most significant first, in front of `tail`. -/
def ofNatAux (n : Nat) (tail : Bytes) : Bytes :=
  if n = 0 then tail else ofNatAux (n / 256) (UInt8.ofNat n :: tail)
termination_by n

/-- The fewest bytes that spell `n`; none at all for zero. -/
def ofNat (n : Nat) : Bytes := ofNatAux n []

/-- The remainder of `n` modulo `256 ^ width`, written with exactly `width` bytes. -/
def ofNatPadded : (width n : Nat) → Bytes
  | 0, _ => []
  | width + 1, n => ofNatPadded width (n / 256) ++ [UInt8.ofNat n]

@[simp] theorem length_ofNatPadded (width n : Nat) : (ofNatPadded width n).length = width := by
  induction width generalizing n with
  | zero => rfl
  | succ width ih => simp [ofNatPadded, ih]

theorem toNat_append_singleton (bytes : Bytes) (b : UInt8) :
    toNat (bytes ++ [b]) = 256 * toNat bytes + b.toNat := by
  simp [toNat]

theorem ofNatAux_eq_append (n : Nat) (tail : Bytes) : ofNatAux n tail = ofNat n ++ tail := by
  induction n using Nat.strongRecOn generalizing tail with
  | ind n ih =>
    unfold ofNat
    rw [ofNatAux]
    conv => rhs; rw [ofNatAux]
    split
    · rfl
    · rename_i h
      have smaller : n / 256 < n := Nat.div_lt_self (Nat.pos_of_ne_zero h) (by decide)
      rw [ih _ smaller, ih _ smaller [_]]
      simp

/-- Reading undoes writing. -/
theorem toNat_ofNat (n : Nat) : toNat (ofNat n) = n := by
  induction n using Nat.strongRecOn with
  | ind n ih =>
    unfold ofNat
    rw [ofNatAux]
    split
    · rename_i h; simp [toNat, h]
    · rename_i h
      have smaller : n / 256 < n := Nat.div_lt_self (Nat.pos_of_ne_zero h) (by decide)
      rw [ofNatAux_eq_append, toNat_append_singleton, ih _ smaller]
      simp
      omega

/-- Shortens or zero-extends at the end to exactly `n` bytes. -/
def padRight (n : Nat) (bytes : Bytes) : Bytes :=
  bytes.take n ++ List.replicate (n - bytes.length) 0

@[simp] theorem length_padRight (n : Nat) (bytes : Bytes) : (padRight n bytes).length = n := by
  simp [padRight]
  omega

end Bytes

/-- A byte string of exactly `n` bytes. -/
structure FixedBytes (n : Nat) where
  toList : Bytes
  length_toList : toList.length = n
deriving DecidableEq

namespace FixedBytes

@[ext] theorem ext {n : Nat} {a b : FixedBytes n} (h : a.toList = b.toList) : a = b := by
  cases a; cases b; simp_all

/-- The bytes as a string of fixed length, when there are exactly `n` of them. -/
def ofBytes? (n : Nat) (bytes : Bytes) : Option (FixedBytes n) :=
  if h : bytes.length = n then some ⟨bytes, h⟩ else none

/-- The first `n` bytes, with zeros in place of those that are missing. -/
def ofBytesPadded (n : Nat) (bytes : Bytes) : FixedBytes n :=
  ⟨Bytes.padRight n bytes, Bytes.length_padRight n bytes⟩

/-- The low `n` bytes of a number, most significant first. -/
def ofNat (n value : Nat) : FixedBytes n :=
  ⟨Bytes.ofNatPadded n value, Bytes.length_ofNatPadded n value⟩

/-- All bytes zero. -/
def zero (n : Nat) : FixedBytes n := ⟨List.replicate n 0, List.length_replicate⟩

instance (n : Nat) : Inhabited (FixedBytes n) := ⟨zero n⟩

/-- The big-endian number that the bytes spell. -/
def toNat {n : Nat} (bytes : FixedBytes n) : Nat := Bytes.toNat bytes.toList

/-- Whether every byte is zero. -/
def isZero {n : Nat} (bytes : FixedBytes n) : Bool := bytes.toList.all (· == 0)

@[simp] theorem ofBytes?_toList {n : Nat} (bytes : FixedBytes n) :
    ofBytes? n bytes.toList = some bytes := by
  simp [ofBytes?, bytes.length_toList]

theorem toList_of_ofBytes? {n : Nat} {bytes : Bytes} {fixed : FixedBytes n}
    (h : ofBytes? n bytes = some fixed) : fixed.toList = bytes := by
  unfold ofBytes? at h
  split at h
  · cases h; rfl
  · cases h

end FixedBytes

/-- A 32-byte hash. -/
abbrev Hash := FixedBytes 32

/-- A 20-byte account address. -/
abbrev Address := FixedBytes 20

/-- A 2048-bit bloom filter. -/
abbrev Bloom := FixedBytes 256

end EngineNode
