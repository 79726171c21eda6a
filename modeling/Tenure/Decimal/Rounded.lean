import Tenure.Decimal.Layout

/-!
# Rounded decimals

A double with a fixed number of places: the exact value is rounded to the nearest
decimal, and a tie goes to the even neighbour.
-/

namespace Tenure.Decimal

/-- The natural number nearest to `num / den`, the even one of two. -/
def roundDiv (num den : Nat) : Nat :=
  let q := num / den
  let r := num % den
  match compare (2 * r) den with
  | .lt => q
  | .gt => q + 1
  | .eq => if q % 2 = 0 then q else q + 1

/-- A positive binary number in units of `10 ^ -places`, rounded. -/
def Binary.scaled (b : Binary) (places : Nat) : Nat :=
  roundDiv (b.significand * Nat.pow 2 b.exponent.toNat * Nat.pow 10 places)
    (Nat.pow 2 (-b.exponent).toNat)

/-- Writes a double with one place after the point. -/
def writeTenths (x : Float) : String :=
  let p := Parts.ofBits x.toBits
  if p.field = 2047 then Layout.plain.write x
  else
    let n := p.magnitude.scaled 1
    (if p.negative then "-" else "") ++ toString (n / 10) ++ "." ++ toString (n % 10)

end Tenure.Decimal
