import Tenure.Json.Value

/-!
# The tokens of a document

A document is cut into tokens from front to back. Where that cannot go on, the
last token is `fault`: a reader gets as far as the text makes sense, and a fault
further on does not hide what was wrong before it.
-/

namespace Tenure.Json

/-- A token of a document. -/
inductive Token where
  /-- an opening bracket -/
  | openArray
  /-- a closing bracket -/
  | closeArray
  /-- an opening brace -/
  | openObject
  /-- a closing brace -/
  | closeObject
  /-- what parts items and members -/
  | comma
  /-- what parts a name from its value -/
  | colon
  /-- the word for nothing -/
  | null
  /-- one of the two words for truth values -/
  | bool (b : Bool)
  /-- a number, already read -/
  | number (n : Number)
  /-- a string, already read -/
  | string (s : String)
  /-- from here on the text is no document -/
  | fault

/-- The blanks of a document. -/
def isSpace (c : Char) : Bool := c = ' ' || c = '\n' || c = '\t' || c = '\r'

/-- The value of a hexadecimal digit. -/
def hexValue? (c : Char) : Option Nat :=
  if '0' ≤ c ∧ c ≤ '9' then some (c.toNat - 48)
  else if 'a' ≤ c ∧ c ≤ 'f' then some (c.toNat - 87)
  else if 'A' ≤ c ∧ c ≤ 'F' then some (c.toNat - 55)
  else none

/-- Four hexadecimal digits and what follows them. -/
def hexUnit : List Char → Option (Nat × List Char)
  | a :: b :: c :: d :: rest =>
    match hexValue? a, hexValue? b, hexValue? c, hexValue? d with
    | some a, some b, some c, some d => some (((a * 16 + b) * 16 + c) * 16 + d, rest)
    | _, _, _, _ => none
  | _ => none

/-- The character of an escape by code, after its letter: one unit, or a pair of
surrogates. A surrogate alone is no character. -/
def escapedCode (cs : List Char) : Option (Char × List Char) :=
  match hexUnit cs with
  | none => none
  | some (n, rest) =>
    if 0xdc00 ≤ n ∧ n ≤ 0xdfff then none
    else if 0xd800 ≤ n ∧ n ≤ 0xdbff then
      match rest with
      | '\\' :: 'u' :: rest =>
        match hexUnit rest with
        | some (m, rest) =>
          if 0xdc00 ≤ m ∧ m ≤ 0xdfff then
            some (Char.ofNat (0x10000 + (n - 0xd800) * 0x400 + (m - 0xdc00)), rest)
          else none
        | none => none
      | _ => none
    else some (Char.ofNat n, rest)

/-- The character of an escape by letter. -/
def escapedLetter? : Char → Option Char
  | '"' => some '"'
  | '\\' => some '\\'
  | '/' => some '/'
  | 'b' => some '\x08'
  | 'f' => some '\x0c'
  | 'n' => some '\n'
  | 'r' => some '\r'
  | 't' => some '\t'
  | _ => none

/-- The rest of a string after its opening quote, and what follows it; `done` is
what was read of it, last character first. -/
def readString : (fuel : Nat) → (done : List Char) → List Char → Option (String × List Char)
  | 0, _, _ => none
  | _, _, [] => none
  | fuel + 1, done, c :: cs =>
    if c = '"' then some (String.ofList done.reverse, cs)
    else if c = '\\' then
      match cs with
      | [] => none
      | e :: cs =>
        if e = 'u' then
          match escapedCode cs with
          | some (x, rest) => readString fuel (x :: done) rest
          | none => none
        else
          match escapedLetter? e with
          | some x => readString fuel (x :: done) cs
          | none => none
    else if c.toNat < 0x20 then none
    else readString fuel (c :: done) cs

/-- The leading digits and what follows them. -/
def spanDigits (cs : List Char) : List Nat × List Char :=
  ((cs.takeWhile Char.isDigit).map fun c => c.toNat - 48, cs.dropWhile Char.isDigit)

/-- The digits after a point, if there is a point, and what follows. -/
def readFraction (cs : List Char) : Option (Option (List Nat) × List Char) :=
  match cs with
  | '.' :: cs =>
    match spanDigits cs with
    | ([], _) => none
    | (ds, rest) => some (some ds, rest)
  | _ => some (none, cs)

/-- The digits of a power of ten and what follows; at least one digit. -/
def readPower (minus : Bool) (cs : List Char) : Option (Option Int × List Char) :=
  match spanDigits cs with
  | ([], _) => none
  | (ds, rest) =>
    let n : Int := (ds.foldl (fun n d => 10 * n + d) 0 : Nat)
    some (some (if minus then -n else n), rest)

/-- The power of ten, if there is one, and what follows. -/
def readExponent (cs : List Char) : Option (Option Int × List Char) :=
  match cs with
  | c :: rest =>
    if c = 'e' ∨ c = 'E' then
      match rest with
      | '+' :: ds => readPower false ds
      | '-' :: ds => readPower true ds
      | ds => readPower false ds
    else some (none, cs)
  | [] => some (none, [])

/-- A number after its sign, and what follows it. A leading zero stands alone. -/
def readNumber (minus : Bool) (cs : List Char) : Option (Number × List Char) :=
  match spanDigits cs with
  | ([], _) => none
  | (0 :: _ :: _, _) => none
  | (whole, rest) =>
    match readFraction rest with
    | none => none
    | some (fraction, rest) =>
      match readExponent rest with
      | none => none
      | some (exponent, rest) =>
        (Number.ofLiteral ⟨minus, whole, fraction, exponent⟩).map fun n => (n, rest)

/-- The first token of a text that is not blank, and what follows it. -/
def readToken (fuel : Nat) (cs : List Char) : Option (Token × List Char) :=
  match cs with
  | '[' :: rest => some (.openArray, rest)
  | ']' :: rest => some (.closeArray, rest)
  | '\x7b' :: rest => some (.openObject, rest)
  | '\x7d' :: rest => some (.closeObject, rest)
  | ',' :: rest => some (.comma, rest)
  | ':' :: rest => some (.colon, rest)
  | 'n' :: 'u' :: 'l' :: 'l' :: rest => some (.null, rest)
  | 't' :: 'r' :: 'u' :: 'e' :: rest => some (.bool true, rest)
  | 'f' :: 'a' :: 'l' :: 's' :: 'e' :: rest => some (.bool false, rest)
  | '"' :: rest => (readString fuel [] rest).map fun r => (.string r.1, r.2)
  | '-' :: rest => (readNumber true rest).map fun r => (.number r.1, r.2)
  | _ => (readNumber false cs).map fun r => (.number r.1, r.2)

/-- The tokens of a text, with `fuel` at least its length. -/
def readTokens : (fuel : Nat) → List Char → List Token
  | 0, _ => []
  | fuel + 1, cs =>
    match cs.dropWhile isSpace with
    | [] => []
    | c :: rest =>
      match readToken (fuel + 1) (c :: rest) with
      | some (t, rest) => t :: readTokens fuel rest
      | none => [.fault]

/-- The tokens of a text. -/
def tokens (s : String) : List Token :=
  let cs := s.toList
  readTokens (cs.length + 1) cs

end Tenure.Json
