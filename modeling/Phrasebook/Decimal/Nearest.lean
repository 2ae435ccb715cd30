namespace Phrasebook.Decimal

-- The double nearest to `digits * 10 ^ exponent`, with a sign. From `10 ^ 310` on nothing but
-- infinity is near, and below `10 ^ -330` nothing but zero, so the power is never built for them.
def nearest (negative : Bool) (digits : Nat) (exponent : Int) : Float :=
  let magnitude : Int := (Nat.toDigits 10 digits).length + exponent
  let x :=
    if digits = 0 ∨ magnitude < -330 then 0.0
    else if 310 < magnitude then 1.0 / 0.0
    else Float.ofScientific digits (exponent < 0) exponent.natAbs
  if negative then -x else x

end Phrasebook.Decimal
