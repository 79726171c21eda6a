/-!
# Identifiers

Resources, groups and bookings are named by identifiers made of two parts: the
millisecond they were made in and a serial part that tells identifiers of one
millisecond apart. They are ordered by the first part, then by the second, so a
later identifier sorts after an earlier one.

The written form has 26 digits of a 32-letter alphabet, ten for the millisecond
and sixteen for the serial part. The alphabet is in ascending order of its
characters, so written forms compare as the identifiers do.
-/

namespace Tenure

/-- The name of a resource, a group or a booking. -/
structure Id where
  /-- the millisecond in which it was made -/
  stamp : Nat
  /-- what tells it apart from others of that millisecond -/
  serial : Nat
  deriving DecidableEq, Repr

namespace Id

/-! ## Order -/

/-- Whether `a` was made before `b`, or is `b`, or sorts before it within one
millisecond. -/
def le (a b : Id) : Bool :=
  a.stamp < b.stamp || (a.stamp == b.stamp && a.serial ≤ b.serial)

instance : LE Id := ⟨fun a b => a.le b = true⟩

instance (a b : Id) : Decidable (a ≤ b) := inferInstanceAs (Decidable (a.le b = true))

/-- The order, spelt out. -/
theorem le_iff {a b : Id} :
    a ≤ b ↔ a.stamp < b.stamp ∨ (a.stamp = b.stamp ∧ a.serial ≤ b.serial) := by
  show a.le b = true ↔ _
  simp [le]

/-- Every identifier is in order with itself. -/
theorem le_refl (a : Id) : a ≤ a := le_iff.2 (Or.inr ⟨rfl, Nat.le_refl _⟩)

/-- The order is transitive. -/
theorem le_trans {a b c : Id} (h₁ : a ≤ b) (h₂ : b ≤ c) : a ≤ c := by
  rw [le_iff] at *
  omega

/-- Any two identifiers are in order one way or the other. -/
theorem le_total (a b : Id) : a ≤ b ∨ b ≤ a := by
  rw [le_iff, le_iff]
  omega

/-- Only an identifier itself is in order with it both ways. -/
theorem le_antisymm {a b : Id} (h₁ : a ≤ b) (h₂ : b ≤ a) : a = b := by
  rw [le_iff] at *
  cases a; cases b
  simp only [mk.injEq] at *
  omega

/-! ## Written form -/

/-- The digits, in ascending order; the letters I, L, O and U are left out. -/
def alphabet : List Char := "0123456789ABCDEFGHJKMNPQRSTVWXYZ".toList

/-- The digit of a value below 32. -/
def digit (d : Nat) : Char := alphabet[d]?.getD '0'

/-- The last `width` digits of `n`, most significant first. -/
def digits : (width : Nat) → (n : Nat) → List Char
  | 0, _ => []
  | width + 1, n => digits width (n / 32) ++ [digit (n % 32)]

/-- The written form: ten digits for the millisecond, sixteen for the serial
part. -/
def text (i : Id) : String := String.ofList (digits 10 i.stamp ++ digits 16 i.serial)

/-- The number that a row of digits stands for. -/
def valueOf (cs : List Char) : Option Nat :=
  cs.foldl (fun acc c => acc.bind fun n => (alphabet.idxOf? c).map (32 * n + ·)) (some 0)

/-- Reads a written form; anything but 26 digits is none. -/
def ofText? (s : String) : Option Id :=
  let cs := s.toList
  if cs.length = 26 then
    match valueOf (cs.take 10), valueOf (cs.drop 10) with
    | some stamp, some serial => some ⟨stamp, serial⟩
    | _, _ => none
  else none

/-- The written form has the width asked for. -/
@[simp] theorem length_digits (width n : Nat) : (digits width n).length = width := by
  induction width generalizing n with
  | zero => rfl
  | succ w ih => simp [digits, ih]

end Id

end Tenure
