import Phrasebook.Decimal.Double
import Phrasebook.Decimal.Shortest

namespace Phrasebook.Decimal

-- Numbers whose leading digit has an exponent from `least` up to but not including `limit` are
-- written out in places, with at least one place after the point. The others carry a mark and a
-- signed exponent of at least `exponentWidth` digits.
structure Layout where
  least : Int
  limit : Int
  exponentWidth : Nat

namespace Layout

def zeros (n : Nat) : List Char :=
  List.replicate n '0'

def significant (d : Decimal) : List Char × Int :=
  let digits := Nat.toDigits 10 d.digits
  ((digits.reverse.dropWhile (· == '0')).reverse, digits.length + d.exponent - 1)

def marked (l : Layout) (digits : List Char) (leading : Int) : List Char :=
  let size := Nat.toDigits 10 leading.natAbs
  let fraction := if digits.length ≤ 1 then [] else '.' :: digits.drop 1
  digits.take 1 ++ fraction ++ ['e', if leading < 0 then '-' else '+'] ++
    zeros (l.exponentWidth - size.length) ++ size

def inPlaces (digits : List Char) (leading : Int) : List Char :=
  if leading < 0 then
    ['0', '.'] ++ zeros (-leading - 1).toNat ++ digits
  else
    let whole := leading.toNat + 1
    let fraction := digits.drop whole
    digits.take whole ++ zeros (whole - digits.length) ++
      '.' :: if fraction.isEmpty then ['0'] else fraction

def write (l : Layout) (d : Decimal) : List Char :=
  let (digits, leading) := significant d
  if l.least ≤ leading ∧ leading < l.limit then inPlaces digits leading
  else l.marked digits leading

def sign (negative : Bool) : String :=
  if negative then "-" else ""

def double (l : Layout) : Double → String
  | .nan => "nan"
  | .infinite negative => sign negative ++ "inf"
  | .finite negative 0 _ => sign negative ++ "0.0"
  | .finite negative significand exponent =>
    let narrow := significand == Nat.pow 2 52 && -1074 < exponent
    sign negative ++ String.ofList (l.write (Binary.shortest ⟨significand, exponent, narrow⟩))

def float (l : Layout) (x : Float) : String :=
  l.double (.ofFloat x)

end Layout
end Phrasebook.Decimal
