/-!
# Numerals

Whole numbers below a bound, as people type them: an optional plus sign and
decimal digits. A numeral is read from front to back and the first fault met is
the one reported, so a character that is no digit hides behind an overflow before
it.
-/

namespace Tenure.Text

/-- Why a text is no numeral. -/
inductive NumeralError where
  /-- there is nothing to read -/
  | empty
  /-- a character is no digit -/
  | invalidDigit
  /-- the value reaches the bound -/
  | tooLarge
  deriving DecidableEq, Repr

/-- The wording. -/
def NumeralError.message : NumeralError → String
  | empty => "cannot parse integer from empty string"
  | invalidDigit => "invalid digit found in string"
  | tooLarge => "number too large to fit in target type"

/-- The value of a decimal digit. -/
def digitValue? (c : Char) : Option Nat := if c.isDigit then some (c.toNat - 48) else none

/-- Reads digits after those that made `n`, staying below `bound`. -/
def readDigits (bound : Nat) : (n : Nat) → List Char → Except NumeralError Nat
  | n, [] => .ok n
  | n, c :: cs =>
    match digitValue? c with
    | none => .error .invalidDigit
    | some d => if 10 * n + d < bound then readDigits bound (10 * n + d) cs else .error .tooLarge

/-- Reads a numeral below `bound`. -/
def readNumeral (bound : Nat) (cs : List Char) : Except NumeralError Nat :=
  match cs with
  | [] => .error .empty
  | ['+'] => .error .invalidDigit
  | '+' :: ds => readDigits bound 0 ds
  | ds => readDigits bound 0 ds

end Tenure.Text
