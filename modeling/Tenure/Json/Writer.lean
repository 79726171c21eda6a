import Tenure.Decimal.Layout
import Tenure.Json.Value

/-!
# Writing documents

The compact form of a document: no blanks, members in their order, quotes,
backslashes and controls escaped, doubles with the fewest digits that read back.
-/

namespace Tenure.Json

/-- A hexadecimal digit. -/
def hexDigit (n : Nat) : Char := if n < 10 then Char.ofNat (48 + n) else Char.ofNat (87 + n)

/-- What is written for a character inside a string. -/
def escaped (c : Char) : List Char :=
  match c with
  | '"' => ['\\', '"']
  | '\\' => ['\\', '\\']
  | '\n' => ['\\', 'n']
  | '\r' => ['\\', 'r']
  | '\t' => ['\\', 't']
  | '\x08' => ['\\', 'b']
  | '\x0c' => ['\\', 'f']
  | _ =>
    if c.toNat < 0x20 then
      ['\\', 'u', '0', '0', hexDigit (c.toNat / 16), hexDigit (c.toNat % 16)]
    else [c]

/-- A string between its quotes. -/
def writeString (s : String) : String :=
  String.ofList ('"' :: (s.toList.flatMap escaped ++ ['"']))

/-- The written form of a number. -/
def writeNumber : Number → String
  | .natural n => toString n.toNat
  | .negative n => toString n
  | .real x => Decimal.Layout.exchange.write x

mutual

/-- The compact form. -/
def compact : Json → String
  | .null => "null"
  | .bool b => if b then "true" else "false"
  | .number n => writeNumber n
  | .string s => writeString s
  | .array [] => "[]"
  | .array (v :: vs) => "[" ++ compact v ++ compactItems vs
  | .object [] => "\x7b\x7d"
  | .object ((k, v) :: ms) => "\x7b" ++ writeString k ++ ":" ++ compact v ++ compactMembers ms

/-- The items after the first, and the closing bracket. -/
def compactItems : List Json → String
  | [] => "]"
  | v :: vs => "," ++ compact v ++ compactItems vs

/-- The members after the first, and the closing brace. -/
def compactMembers : List (String × Json) → String
  | [] => "\x7d"
  | (k, v) :: ms => "," ++ writeString k ++ ":" ++ compact v ++ compactMembers ms

end

end Tenure.Json
