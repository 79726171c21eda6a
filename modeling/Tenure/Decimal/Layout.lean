import Tenure.Decimal.Shortest

/-!
# Layouts of numbers

How the digits of a double are laid out: where the point goes, when a power of
ten is written, and what stands for the values without digits. `Layout.plain` is
the layout of messages, `Layout.exchange` the one of documents.
-/

namespace Tenure.Decimal

/-- The decisions of one way to write numbers. -/
structure Layout where
  /-- whether a number whose point comes after so many digits is written in full -/
  positional : Int → Bool
  /-- whether whole numbers written in full end in `.0` -/
  wholeMark : Bool
  /-- the text for what is not a number -/
  nan : String
  /-- the texts for the two infinities, positive first -/
  infinite : String × String

namespace Layout

/-- In messages every number is written in full. -/
def plain : Layout := ⟨fun _ => true, false, "NaN", ("inf", "-inf")⟩

/-- In documents numbers from `1e+16` up and below `0.00001` have a power of ten,
and what is not finite is null. -/
def exchange : Layout := ⟨fun p => -5 < p && p ≤ 16, true, "null", ("null", "null")⟩

/-- A power of ten with its sign. -/
def power (e : Int) : String := (if e < 0 then "e-" else "e+") ++ toString e.natAbs

/-- Lays out the digits of a positive decimal. -/
def digits (l : Layout) (d : Decimal) : String :=
  let ds := Nat.toDigits 10 d.digits
  let point : Int := ds.length + d.exponent
  if l.positional point then
    if point ≤ 0 then
      String.ofList ("0.".toList ++ List.replicate (-point).toNat '0' ++ ds)
    else if (ds.length : Int) ≤ point then
      String.ofList (ds ++ List.replicate (point - ds.length).toNat '0')
        ++ (if l.wholeMark then ".0" else "")
    else String.ofList (ds.take point.toNat ++ ['.'] ++ ds.drop point.toNat)
  else
    String.ofList (ds.take 1 ++ (if 1 < ds.length then '.' :: ds.drop 1 else []))
      ++ power (point - 1)

/-- Writes a double. -/
def write (l : Layout) (x : Float) : String :=
  let p := Parts.ofBits x.toBits
  if p.field = 2047 then
    if p.fraction ≠ 0 then l.nan else if p.negative then l.infinite.2 else l.infinite.1
  else
    let sign := if p.negative then "-" else ""
    let b := p.magnitude
    if b.significand = 0 then sign ++ "0" ++ (if l.wholeMark then ".0" else "")
    else sign ++ l.digits (shortest b)

end Layout

end Tenure.Decimal
