namespace Phrasebook.Decimal

-- A double is no number, infinite, or the number `± significand * 2 ^ exponent`.
inductive Double where
  | nan
  | infinite (negative : Bool)
  | finite (negative : Bool) (significand : Nat) (exponent : Int)
deriving DecidableEq

namespace Double

-- Below the sign stand eleven bits of the exponent and 52 bits of the fraction.
def ofFloat (x : Float) : Double :=
  let bits : Nat := x.toBits.toNat
  let negative := bits / Nat.pow 2 63 == 1
  let fraction : Nat := bits % Nat.pow 2 52
  let exponent : Nat := bits / Nat.pow 2 52 % Nat.pow 2 11
  if exponent = 2047 then if fraction = 0 then infinite negative else nan
  else if exponent = 0 then finite negative fraction (-1074)
  else finite negative (Nat.pow 2 52 + fraction) ((exponent : Int) - 1075)

def whole? : Double → Option Int
  | finite negative significand exponent =>
    let magnitude? : Option Nat :=
      if 0 ≤ exponent then some (significand * Nat.pow 2 exponent.toNat)
      else if significand % Nat.pow 2 exponent.natAbs = 0 then
        some (significand / Nat.pow 2 exponent.natAbs)
      else none
    magnitude?.map fun (n : Nat) => if negative then -n else n
  | _ => none

end Double
end Phrasebook.Decimal
