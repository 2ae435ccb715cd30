namespace Phrasebook

structure Decimal where
  digits : Nat
  exponent : Int

namespace Decimal

-- The positive fraction `significand * 2 ^ exponent` with its neighbours in view. The fraction
-- below a power of two lies half a step away, which `narrow` records.
structure Binary where
  significand : Nat
  exponent : Int
  narrow : Bool

namespace Binary

-- Quarters of a step: the number, its two bounds, and the common denominator.
structure Scale where
  low : Nat
  value : Nat
  high : Nat
  unit : Nat

def scale (b : Binary) : Scale :=
  let value := 4 * b.significand
  let step := Nat.pow 2 (b.exponent - 2).toNat
  { low := (value - if b.narrow then 1 else 2) * step
    value := value * step
    high := (value + 2) * step
    unit := Nat.pow 2 (2 - b.exponent).toNat }

-- The exponent of the leading decimal digit. No number of the format is below `10 ^ -400`.
def Scale.magnitude (s : Scale) : Int :=
  ((Nat.toDigits 10 (s.value * Nat.pow 10 400 / s.unit)).length : Int) - 401

-- The nearest multiple of `10 ^ exponent` that reads back as the number, if there is one. The
-- bounds themselves read back if `closed`; halfway between two multiples the even one is taken.
def Scale.onGrid? (s : Scale) (closed : Bool) (exponent : Int) : Option Decimal :=
  let widen := Nat.pow 10 (-exponent).toNat
  let unit := s.unit * Nat.pow 10 exponent.toNat
  let value := s.value * widen
  let below := value / unit
  let inside (n : Nat) : Bool :=
    let x := n * unit
    if closed then s.low * widen ≤ x && x ≤ s.high * widen
    else s.low * widen < x && x < s.high * widen
  let down := value - below * unit
  let up := (below + 1) * unit - value
  let nearest := if down < up || (down == up && below % 2 == 0) then below else below + 1
  let other := if nearest = below then below + 1 else below
  if inside nearest then some ⟨nearest, exponent⟩
  else if inside other then some ⟨other, exponent⟩
  else none

def shortest (b : Binary) : Decimal :=
  let s := b.scale
  let closed := b.significand % 2 == 0
  let grid (digits : Nat) : Int := s.magnitude + 1 - digits
  ((List.range 17).findSome? fun n => s.onGrid? closed (grid (n + 1))).getD
    ⟨s.value / s.unit, 0⟩

end Binary
end Decimal
end Phrasebook
