import EngineNode.Json.Basic

/-!
# Floating point numbers as text

`shortest` finds the fewest decimal digits that read back as the same number, and among those the
nearest ones. `render` writes them: positional notation while the point falls within sixteen
digits or less than five zeros, otherwise one digit before the point and an exponent.
-/

namespace EngineNode.Json.Float64

/-- The magnitude `mantissa * 2 ^ exponent` of a finite number. -/
def decompose (bits : UInt64) : Nat × Int :=
  let fraction : Nat := bits.toNat % Nat.pow 2 52
  let biased : Nat := bits.toNat / Nat.pow 2 52 % Nat.pow 2 11
  if biased = 0 then (fraction, -1074) else (fraction + Nat.pow 2 52, (biased : Int) - 1075)

/-- Twice the lower end, twice the value and twice the upper end of the numbers that round to
`mantissa * 2 ^ exponent`, over a common denominator. -/
structure Interval where
  low : Nat
  value : Nat
  high : Nat
  denominator : Nat
  /-- Whether the ends round to the number too. -/
  closed : Bool

def interval (mantissa : Nat) (exponent : Int) : Interval :=
  -- Below a power of two the numbers lie twice as dense.
  let lowStep := if mantissa = Nat.pow 2 52 ∧ exponent > -1074 then 1 else 2
  let scale := if exponent ≥ 0 then Nat.pow 2 exponent.toNat else 1
  let denominator := if exponent ≥ 0 then 4 else 4 * Nat.pow 2 (-exponent).toNat
  ⟨(4 * mantissa - lowStep) * scale, 4 * mantissa * scale, (4 * mantissa + 2) * scale, denominator,
    mantissa % 2 = 0⟩

/-- Whether `digits * 10 ^ power` reads back as the number. -/
def Interval.contains (i : Interval) (digits : Nat) (power : Int) : Bool :=
  let (lhs, scale) :=
    if power ≥ 0 then (digits * Nat.pow 10 power.toNat * i.denominator, 1)
    else (digits * i.denominator, Nat.pow 10 (-power).toNat)
  if i.closed then i.low * scale ≤ lhs && lhs ≤ i.high * scale
  else i.low * scale < lhs && lhs < i.high * scale

/-- The two neighbours of the value among the multiples of `10 ^ power`, and whether the lower one
is nearer; a tie goes to the even one. -/
def Interval.neighbours (i : Interval) (power : Int) : Nat × Bool :=
  let (numerator, denominator) :=
    if power ≥ 0 then (i.value, i.denominator * Nat.pow 10 power.toNat)
    else (i.value * Nat.pow 10 (-power).toNat, i.denominator)
  let below := numerator / denominator
  let twice := 2 * (numerator % denominator)
  (below, twice < denominator || (twice = denominator && below % 2 = 0))

/-- Looks for digits on ever finer grids. -/
def search (i : Interval) : (fuel : Nat) → (power : Int) → Nat × Int
  | 0, power => ((i.neighbours power).1, power)
  | fuel + 1, power =>
    let (below, lowerNearer) := i.neighbours power
    let lower := below != 0 && i.contains below power
    let upper := i.contains (below + 1) power
    if lower && (lowerNearer || !upper) then (below, power)
    else if upper then (below + 1, power)
    else search i fuel (power - 1)

/-- The number of decimal digits. -/
def digitCount (n : Nat) : Nat := (Nat.toDigits 10 n).length

/-- The fewest digits that read back as a finite number other than zero, with a power of ten. -/
def shortest (bits : UInt64) : Nat × Int :=
  let (mantissa, exponent) := decompose bits
  let i := interval mantissa exponent
  let top : Int :=
    if i.value ≥ i.denominator then (digitCount (i.value / i.denominator) : Int)
    else -(digitCount (i.denominator / i.value) : Int) + 2
  search i 40 top

/-- The text of a number. -/
def render (bits : UInt64) : String :=
  let sign := if bits.toNat ≥ Nat.pow 2 63 then "-" else ""
  let magnitude := bits.toNat % Nat.pow 2 63
  if magnitude = 0 then sign ++ "0.0"
  else
    let (value, power) := shortest bits
    let digits := Nat.toDigits 10 value
    let trailing := (digits.reverse.takeWhile (· = '0')).length
    let digits := digits.take (digits.length - trailing)
    let count : Int := digits.length
    let point := count + power + trailing
    let body :=
      if count ≤ point ∧ point ≤ 16 then
        digits ++ List.replicate (point - count).toNat '0' ++ ['.', '0']
      else if 0 < point ∧ point ≤ 16 then
        digits.take point.toNat ++ '.' :: digits.drop point.toNat
      else if -5 < point ∧ point ≤ 0 then
        '0' :: '.' :: List.replicate (-point).toNat '0' ++ digits
      else
        let exponent := (toString (point - 1)).toList
        match digits with
        | [d] => d :: 'e' :: exponent
        | d :: rest => d :: '.' :: rest ++ 'e' :: exponent
        | [] => []
    sign ++ String.ofList body

end EngineNode.Json.Float64
