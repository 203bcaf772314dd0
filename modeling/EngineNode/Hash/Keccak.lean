import EngineNode.Bytes

/-!
# Keccak-256

The sponge over the permutation Keccak-f[1600] with a rate of 136 bytes and the padding byte
`0x01`. The state is five planes of five 64-bit lanes.
-/

namespace EngineNode.Keccak

/-- Five lanes with the same `y` coordinate. -/
structure Plane where
  x0 : UInt64
  x1 : UInt64
  x2 : UInt64
  x3 : UInt64
  x4 : UInt64

/-- The state of the permutation, one plane for each `y` coordinate. -/
structure State where
  y0 : Plane
  y1 : Plane
  y2 : Plane
  y3 : Plane
  y4 : Plane

/-- Rotates a lane towards its high bits. -/
def rotate (lane : UInt64) (amount : UInt64) : UInt64 :=
  if amount = 0 then lane else (lane <<< amount) ||| (lane >>> (64 - amount))

def Plane.xor (p q : Plane) : Plane :=
  ⟨p.x0 ^^^ q.x0, p.x1 ^^^ q.x1, p.x2 ^^^ q.x2, p.x3 ^^^ q.x3, p.x4 ^^^ q.x4⟩

/-- Rotates each lane of a plane by its own amount. -/
def Plane.rotate (p : Plane) (a0 a1 a2 a3 a4 : UInt64) : Plane :=
  ⟨Keccak.rotate p.x0 a0, Keccak.rotate p.x1 a1, Keccak.rotate p.x2 a2, Keccak.rotate p.x3 a3,
    Keccak.rotate p.x4 a4⟩

/-- Mixes the column parities into every lane. -/
def theta (s : State) : State :=
  let c := ((((s.y0.xor s.y1).xor s.y2).xor s.y3).xor s.y4)
  let d : Plane :=
    ⟨c.x4 ^^^ rotate c.x1 1, c.x0 ^^^ rotate c.x2 1, c.x1 ^^^ rotate c.x3 1,
      c.x2 ^^^ rotate c.x4 1, c.x3 ^^^ rotate c.x0 1⟩
  ⟨s.y0.xor d, s.y1.xor d, s.y2.xor d, s.y3.xor d, s.y4.xor d⟩

/-- Rotates every lane by the offset of its position. -/
def rho (s : State) : State :=
  ⟨s.y0.rotate 0 1 62 28 27, s.y1.rotate 36 44 6 55 20, s.y2.rotate 3 10 43 25 39,
    s.y3.rotate 41 45 15 21 8, s.y4.rotate 18 2 61 56 14⟩

/-- Moves the lanes: the lane at `(x + 3y, x)` goes to `(x, y)`. -/
def pi (s : State) : State :=
  ⟨⟨s.y0.x0, s.y1.x1, s.y2.x2, s.y3.x3, s.y4.x4⟩,
    ⟨s.y0.x3, s.y1.x4, s.y2.x0, s.y3.x1, s.y4.x2⟩,
    ⟨s.y0.x1, s.y1.x2, s.y2.x3, s.y3.x4, s.y4.x0⟩,
    ⟨s.y0.x4, s.y1.x0, s.y2.x1, s.y3.x2, s.y4.x3⟩,
    ⟨s.y0.x2, s.y1.x3, s.y2.x4, s.y3.x0, s.y4.x1⟩⟩

/-- The only step that is not linear. -/
def Plane.chi (p : Plane) : Plane :=
  ⟨p.x0 ^^^ (~~~p.x1 &&& p.x2), p.x1 ^^^ (~~~p.x2 &&& p.x3), p.x2 ^^^ (~~~p.x3 &&& p.x4),
    p.x3 ^^^ (~~~p.x4 &&& p.x0), p.x4 ^^^ (~~~p.x0 &&& p.x1)⟩

def chi (s : State) : State :=
  ⟨s.y0.chi, s.y1.chi, s.y2.chi, s.y3.chi, s.y4.chi⟩

/-- Breaks the symmetry of the rounds. -/
def iota (constant : UInt64) (s : State) : State :=
  { s with y0 := { s.y0 with x0 := s.y0.x0 ^^^ constant } }

def round (s : State) (constant : UInt64) : State :=
  iota constant (chi (pi (rho (theta s))))

def roundConstants : List UInt64 :=
  [0x0000000000000001, 0x0000000000008082, 0x800000000000808a, 0x8000000080008000,
   0x000000000000808b, 0x0000000080000001, 0x8000000080008081, 0x8000000000008009,
   0x000000000000008a, 0x0000000000000088, 0x0000000080008009, 0x000000008000000a,
   0x000000008000808b, 0x800000000000008b, 0x8000000000008089, 0x8000000000008003,
   0x8000000000008002, 0x8000000000000080, 0x000000000000800a, 0x800000008000000a,
   0x8000000080008081, 0x8000000000008080, 0x0000000080000001, 0x8000000080008008]

/-- The permutation of 24 rounds. -/
def permute (s : State) : State := roundConstants.foldl round s

/-- The number of bytes absorbed by one permutation. -/
def rate : Nat := 136

/-- Fills the message up to a multiple of the rate: a byte with the lowest bit, zeros, and the
highest bit in the last byte. -/
def pad (message : Bytes) : Bytes :=
  match rate - message.length % rate with
  | 1 => message ++ [0x81]
  | n => message ++ 0x01 :: (List.replicate (n - 2) 0 ++ [0x80])

/-- Eight bytes a lane, the first byte lowest. -/
def lanes : Bytes → List UInt64
  | b0 :: b1 :: b2 :: b3 :: b4 :: b5 :: b6 :: b7 :: rest =>
    (b0.toUInt64 ||| b1.toUInt64 <<< 8 ||| b2.toUInt64 <<< 16 ||| b3.toUInt64 <<< 24 |||
      b4.toUInt64 <<< 32 ||| b5.toUInt64 <<< 40 ||| b6.toUInt64 <<< 48 ||| b7.toUInt64 <<< 56)
      :: lanes rest
  | _ => []

/-- Takes in seventeen lanes at a time. -/
def absorb (s : State) : List UInt64 → State
  | l0 :: l1 :: l2 :: l3 :: l4 :: l5 :: l6 :: l7 :: l8 :: l9 :: l10 :: l11 :: l12 :: l13 :: l14 ::
      l15 :: l16 :: rest =>
    absorb (permute
      { s with
        y0 := s.y0.xor ⟨l0, l1, l2, l3, l4⟩
        y1 := s.y1.xor ⟨l5, l6, l7, l8, l9⟩
        y2 := s.y2.xor ⟨l10, l11, l12, l13, l14⟩
        y3 := s.y3.xor ⟨l15, l16, 0, 0, 0⟩ }) rest
  | _ => s

/-- The bytes of a lane, the lowest first. -/
def laneBytes (lane : UInt64) : Bytes :=
  [lane.toUInt8, (lane >>> 8).toUInt8, (lane >>> 16).toUInt8, (lane >>> 24).toUInt8,
    (lane >>> 32).toUInt8, (lane >>> 40).toUInt8, (lane >>> 48).toUInt8, (lane >>> 56).toUInt8]

def zeroPlane : Plane := ⟨0, 0, 0, 0, 0⟩

def zeroState : State := ⟨zeroPlane, zeroPlane, zeroPlane, zeroPlane, zeroPlane⟩

/-- The first 32 bytes of the state. -/
def squeeze (s : State) : Hash :=
  ⟨laneBytes s.y0.x0 ++ laneBytes s.y0.x1 ++ laneBytes s.y0.x2 ++ laneBytes s.y0.x3, rfl⟩

end EngineNode.Keccak

namespace EngineNode

/-- The Keccak-256 hash of a byte string. -/
def keccak256 (message : Bytes) : Hash :=
  Keccak.squeeze (Keccak.absorb Keccak.zeroState (Keccak.lanes (Keccak.pad message)))

end EngineNode
