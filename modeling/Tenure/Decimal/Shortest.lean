/-!
# Shortest decimals

A binary floating-point number stands for every real that rounds to it. Of the
decimals in that interval the shortest is written: the one with the fewest
digits, of several the nearest to the number, and of two equally near the even
one. The digits are found by exact arithmetic on natural numbers, one grid after
the other.

A double is `significand * 2 ^ exponent`. Its interval reaches half a step to
both sides, or a quarter of a step below when the significand is the smallest of
its binade; the ends belong to the interval when the significand is even.
-/

namespace Tenure

/-- A decimal: `digits * 10 ^ exponent`. -/
structure Decimal where
  /-- the digits, as a whole number -/
  digits : Nat
  /-- the power of ten they are scaled by -/
  exponent : Int
  deriving DecidableEq, Repr

namespace Decimal

/-- A positive binary number. -/
structure Binary where
  /-- the significand -/
  significand : Nat
  /-- the power of two it is scaled by -/
  exponent : Int
  /-- the next number below is only half a step away -/
  narrow : Bool
  deriving DecidableEq, Repr

/-- The three fields of a double. An exponent field of 2047 marks the infinities,
which have no fraction, and what is not a number. -/
structure Parts where
  /-- the sign bit -/
  negative : Bool
  /-- the exponent field, 11 bits -/
  field : Nat
  /-- the fraction field, 52 bits -/
  fraction : Nat

/-- The fields of a 64-bit pattern. -/
def Parts.ofBits (bits : UInt64) : Parts where
  negative := bits.toNat / 0x8000000000000000 = 1
  field := bits.toNat / 0x10000000000000 % 0x800
  fraction := bits.toNat % 0x10000000000000

/-- The magnitude of a finite double. -/
def Parts.magnitude (p : Parts) : Binary :=
  if p.field = 0 then ⟨p.fraction, -1074, false⟩
  else ⟨0x10000000000000 + p.fraction, (p.field : Int) - 1075, p.fraction = 0 && 1 < p.field⟩

/-- The factors that bring the number and a grid of step `10 ^ k` to one scale:
the grid point `d` and the number of quarter steps `x` are in the proportion of
`d * grid` to `x * quarter`. -/
structure Scale where
  /-- the factor of a grid point -/
  grid : Nat
  /-- the factor of a quarter step -/
  quarter : Nat

/-- The scale for one binary exponent and one decimal grid. -/
def Scale.of (exponent k : Int) : Scale where
  grid := Nat.pow 2 (2 - exponent).toNat * Nat.pow 10 k.toNat
  quarter := Nat.pow 2 (exponent - 2).toNat * Nat.pow 10 (-k).toNat

/-- How many decimal digits a number has; zero has one. -/
def digitCount (n : Nat) : Nat := (Nat.toDigits 10 n).length

/-- How often `num` has to be multiplied by ten to reach `den`. -/
def shortfall : (fuel : Nat) → (num den : Nat) → Nat
  | 0, _, _ => 0
  | fuel + 1, num, den => if den ≤ num then 0 else shortfall fuel (num * 10) den + 1

/-- The power of ten of the leading digit of `num / den`. -/
def leading (num den : Nat) : Int :=
  if den ≤ num then (digitCount (num / den) : Int) - 1
  else -(shortfall 400 num den : Int)

namespace Binary

/-- The number in quarter steps. -/
def quarters (b : Binary) : Nat := 4 * b.significand

/-- The lower end of the interval, in quarter steps. -/
def low (b : Binary) : Nat := b.quarters - (if b.narrow then 1 else 2)

/-- The upper end of the interval, in quarter steps. -/
def high (b : Binary) : Nat := b.quarters + 2

/-- Whether the grid point `d` of a scale rounds to the number. -/
def rounds (b : Binary) (s : Scale) (d : Nat) : Bool :=
  let y := d * s.grid
  let lo := b.low * s.quarter
  let hi := b.high * s.quarter
  (lo < y && y < hi) || (b.significand % 2 = 0 && (y = lo || y = hi))

/-- The better of the two grid points next to the number, if one rounds to it. -/
def onGrid (b : Binary) (k : Int) : Option Decimal :=
  let s := Scale.of b.exponent k
  let x := b.quarters * s.quarter
  let below := x / s.grid
  let nearer :=
    match compare (2 * x) ((2 * below + 1) * s.grid) with
    | .lt => below
    | .gt => below + 1
    | .eq => if below % 2 = 0 then below else below + 1
  -- both round to the number only where the interval is wider than the grid
  match b.rounds s below, b.rounds s (below + 1) with
  | true, true => some ⟨nearer, k⟩
  | true, false => some ⟨below, k⟩
  | false, true => some ⟨below + 1, k⟩
  | false, false => none

/-- The power of ten of the leading digit. -/
def leading (b : Binary) : Int :=
  let s := Scale.of b.exponent 0
  Decimal.leading (b.quarters * s.quarter) s.grid

end Binary

/-- Moves factors of ten from the digits into the exponent. -/
def trim : (fuel : Nat) → Decimal → Decimal
  | 0, d => d
  | fuel + 1, d =>
    if d.digits ≠ 0 && d.digits % 10 = 0 then trim fuel ⟨d.digits / 10, d.exponent + 1⟩ else d

/-- The shortest decimal that rounds to a positive number: the first of the grids
of one, two, up to seventeen digits that has one. -/
def shortest (b : Binary) : Decimal :=
  let lead := b.leading
  let found := (List.range 17).findSome? fun (n : Nat) => b.onGrid (lead - (n : Int))
  (found.getD ⟨0, 0⟩).trim 20

end Decimal

end Tenure
