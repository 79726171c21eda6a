/-!
# Documents

The values of a document and how a number is read from its digits.

Whole numbers that fit a 64-bit word, signed if negative, stay whole; every other
number is a double. A double is read in two roundings: the significand takes the
digits as long as they fit a word, and is then scaled by one power of ten. A minus
zero is a double, since no whole number keeps its sign.
-/

namespace Tenure

/-- A number of a document. -/
inductive Number where
  /-- a whole number that is not negative -/
  | natural (n : UInt64)
  /-- a negative whole number, at least `-2 ^ 63` -/
  | negative (n : Int)
  /-- any other number -/
  | real (x : Float)

/-- A value of a document; members keep their order and may repeat a name. -/
inductive Json where
  /-- nothing -/
  | null
  /-- a truth value -/
  | bool (b : Bool)
  /-- a number -/
  | number (n : Number)
  /-- a text -/
  | string (s : String)
  /-- values in order -/
  | array (items : List Json)
  /-- named values in order -/
  | object (members : List (String × Json))

instance : Inhabited Json := ⟨.null⟩

namespace Number

/-- The number as a double. -/
def toFloat : Number → Float
  | natural n => n.toFloat
  | negative n => Float.ofInt n
  | real x => x

/-- Takes digits into a significand as long as it fits a word: the significand and
how many digits it took. -/
def absorb : (significand : Nat) → List Nat → Nat × Nat
  | n, [] => (n, 0)
  | n, d :: ds =>
    if 10 * n + d < UInt64.size then
      let r := absorb (10 * n + d) ds
      (r.1, r.2 + 1)
    else (n, 0)

/-- Scales a significand by a power of ten; none if the result is too large. What is
far too small is brought near in steps of `1e308`. -/
def scale : (fuel : Nat) → Float → Int → Option Float
  | 0, x, _ => some x
  | fuel + 1, x, e =>
    if e.natAbs ≤ 308 then
      let p := Float.ofScientific 1 false e.natAbs
      if 0 ≤ e then
        let y := x * p
        if y.isInf then none else some y
      else some (x / p)
    else if x == 0.0 then some x
    else if 0 ≤ e then none
    else scale fuel (x / 1e308) (e + 308)

/-- The parts of a written number. -/
structure Literal where
  /-- it begins with a minus sign -/
  minus : Bool
  /-- the digits before the point -/
  whole : List Nat
  /-- the digits after the point, if there is one -/
  fraction : Option (List Nat)
  /-- the power of ten, if there is one -/
  exponent : Option Int

/-- The value of a written number; none if it is out of range. -/
def ofLiteral (l : Literal) : Option Number :=
  let (w, taken) := absorb 0 l.whole
  let dropped := l.whole.length - taken
  if l.fraction.isNone && l.exponent.isNone && dropped = 0 then
    -- every digit fitted a word
    if !l.minus then some (.natural (UInt64.ofNat w))
    else if 0 < w && w ≤ 0x8000000000000000 then some (.negative (-(w : Int)))
    else some (.real (-(UInt64.ofNat w).toFloat))
  else
    -- digits that no longer fit count by their places only
    let (s, shift) := absorb w (l.fraction.getD [])
    let e : Int := dropped - shift + l.exponent.getD 0
    (scale 4 (UInt64.ofNat s).toFloat e).map fun x => .real (if l.minus then -x else x)

end Number

end Tenure
