import Tenure.Json.Token

/-!
# Reading documents

A document is one value with nothing after it. Containers nest to a depth of 127.
-/

namespace Tenure.Json

/-- How deep containers may nest. -/
def maxDepth : Nat := 127

mutual

/-- The value at the front of the tokens, and what follows it; containers in it may
nest to a depth of `room`. -/
def readValue : (fuel room : Nat) → List Token → Option (Json × List Token)
  | 0, _, _ => none
  | fuel + 1, room, ts =>
    match ts with
    | .null :: rest => some (.null, rest)
    | .bool b :: rest => some (.bool b, rest)
    | .number n :: rest => some (.number n, rest)
    | .string s :: rest => some (.string s, rest)
    | .openArray :: .closeArray :: rest => if room = 0 then none else some (.array [], rest)
    | .openArray :: rest =>
      if room = 0 then none
      else (readItems fuel (room - 1) rest).map fun r => (.array r.1, r.2)
    | .openObject :: .closeObject :: rest => if room = 0 then none else some (.object [], rest)
    | .openObject :: rest =>
      if room = 0 then none
      else (readMembers fuel (room - 1) rest).map fun r => (.object r.1, r.2)
    | _ => none

/-- The items of an array up to its closing bracket, at least one. -/
def readItems : (fuel room : Nat) → List Token → Option (List Json × List Token)
  | 0, _, _ => none
  | fuel + 1, room, ts =>
    match readValue fuel room ts with
    | some (v, .closeArray :: rest) => some ([v], rest)
    | some (v, .comma :: rest) => (readItems fuel room rest).map fun r => (v :: r.1, r.2)
    | _ => none

/-- The members of an object up to its closing brace, at least one. -/
def readMembers : (fuel room : Nat) → List Token → Option (List (String × Json) × List Token)
  | 0, _, _ => none
  | fuel + 1, room, ts =>
    match ts with
    | .string k :: .colon :: rest =>
      match readValue fuel room rest with
      | some (v, .closeObject :: rest) => some ([(k, v)], rest)
      | some (v, .comma :: rest) => (readMembers fuel room rest).map fun r => ((k, v) :: r.1, r.2)
      | _ => none
    | _ => none

end

/-- The value a document consists of, if the text is one. -/
def ofText? (s : String) : Option Json :=
  let ts := tokens s
  match readValue (2 * ts.length + 1) maxDepth ts with
  | some (v, []) => some v
  | _ => none

end Tenure.Json
