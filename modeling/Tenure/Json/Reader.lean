import Tenure.Json.Document
import Tenure.Json.Library
import Tenure.Json.Writer
import Tenure.Text.Quoted

/-!
# Reading values of tagged types

A library that can be run (`Json.library`). In an object the members may stand in any order and others
may stand among them; an array of the variant's name and the fields is accepted as well.

A text is read from front to back, and of several faults the one met first is reported: the tag where
it stands, the fields once the whole object has been read, what follows the object last. A text that
is no document from some point on is only faulted if nothing before that point was wrong.
-/

namespace Tenure

open ReadFault (shown)

/-! ## What a value is called in a message -/

/-- A number. -/
def Number.described : Number → String
  | .natural n => "integer " ++ shown (toString n.toNat)
  | .negative n => "integer " ++ shown (toString n)
  | .real x => "floating point " ++ shown (Decimal.Layout.exchange.write x)

namespace Json

/-- Any value. -/
def described : Json → String
  | .null => "null"
  | .bool b => "boolean " ++ shown (if b then "true" else "false")
  | .number n => n.described
  | .string s => "string " ++ Text.quoted s
  | .array _ => "sequence"
  | .object _ => "map"

/-- The value that a token begins, if it begins one. -/
def Token.described? : Token → Option String
  | .null => some (described .null)
  | .bool b => some (described (.bool b))
  | .number n => some n.described
  | .string s => some (described (.string s))
  | .openArray => some (described (.array []))
  | .openObject => some (described (.object []))
  | _ => none

/-! ## Fields -/

/-- A whole number below a bound, whose type is called `type`. -/
def wordOf (bound : Nat) (type : String) : Json → Except ReadFault Nat
  | .number (.natural n) =>
    if n.toNat < bound then .ok n.toNat
    else .error (.invalidValue (Number.natural n).described type)
  | .number (.negative n) => .error (.invalidValue (Number.negative n).described type)
  | v => .error (.invalidType v.described type)

/-- The value of a type that a document is. -/
def Scalar.read : (type : Scalar) → Json → Except ReadFault type.Value
  | u32, v => (wordOf UInt32.size "u32" v).map UInt32.ofNat
  | u64, v => (wordOf UInt64.size "u64" v).map UInt64.ofNat
  | f64, .number n => .ok n.toFloat
  | f64, v => .error (.invalidType v.described "f64")

/-- What was found so far of each field. -/
@[reducible] def Cells : List Field → Type
  | [] => Unit
  | f :: fs => Option f.type.Value × Cells fs

namespace Cells

/-- Nothing was found yet. -/
def empty : (fs : List Field) → Cells fs
  | [] => ()
  | _ :: fs => (none, empty fs)

/-- Takes in a member, if it belongs to a field. -/
def put : {fs : List Field} → Cells fs → String × Json → Except ReadFault (Cells fs)
  | [], cells, _ => .ok cells
  | f :: _, (x, cells), m =>
    if m.1 = f.name then
      match x with
      | some _ => .error (.duplicateField f.name)
      | none => (f.type.read m.2).map fun x => (some x, cells)
    else (put cells m).map fun cells => (x, cells)

/-- What was found, if that is everything. -/
def row : {fs : List Field} → Cells fs → Except ReadFault (Row fs)
  | [], _ => .ok ()
  | f :: _, (none, _) => .error (.missingField f.name)
  | _ :: _, (some x, cells) => (row cells).map fun row => (x, row)

/-- Takes in one member after the other. -/
def fill {fs : List Field} : Cells fs → List (String × Json) → Except ReadFault (Row fs)
  | cells, [] => cells.row
  | cells, m :: ms =>
    match cells.put m with
    | .ok cells => fill cells ms
    | .error e => .error e

end Cells

/-- So many elements. -/
def elements (n : Nat) : String := toString n ++ if n = 1 then " element" else " elements"

/-- Reads fields from items in their order, of which `done` were read before; `shape` is what the
array stands for. -/
def rowOfItems (shape : String) :
    (fs : List Field) → (done : Nat) → List Json → Except ReadFault (Row fs)
  | [], _, [] => .ok ()
  | [], done, rest => .error (.invalidLength (done + rest.length) (elements done ++ " in sequence"))
  | _ :: _, done, [] => .error (.invalidLength done shape)
  | f :: fs, done, v :: vs =>
    match f.type.read v with
    | .ok x => (rowOfItems shape fs (done + 1) vs).map fun row => (x, row)
    | .error e => .error e

/-! ## Values -/

/-- The fields of a value, as members or in order. -/
inductive Contents where
  /-- members of an object, in any order -/
  | members (ms : List (String × Json))
  /-- items of an array, in the order of the fields -/
  | items (vs : List Json)

namespace Tagged

variable {α : Type}

/-- Reads a value of a variant in either form. -/
def build (type : Tagged α) (v : Variant α) : Contents → Except ReadFault α
  | .members ms => ((Cells.empty v.fields).fill ms).map v.make
  | .items vs =>
    let shape := "struct variant " ++ type.title ++ "::" ++ v.title ++ " with " ++
      elements v.fields.length
    (rowOfItems shape v.fields 0 vs).map v.make

/-- Reads the name of a variant at the front of the tokens. -/
def readTag (type : Tagged α) : List Token → Except ReadFault (Variant α × List Token)
  | .string s :: rest =>
    match type.variant? s with
    | some v => .ok (v, rest)
    | none => .error (.unknownVariant s (type.variants.map Variant.name))
  | t :: _ =>
    match t.described? with
    | some d => .error (.invalidType d "variant identifier")
    | none => .error .malformed
  | [] => .error .malformed

end Tagged

/-- A value inside the outermost container. -/
def readInner (ts : List Token) : Option (Json × List Token) :=
  readValue (2 * ts.length + 1) (maxDepth - 1) ts

/-- Reads the items of an array after its first, up to its end. -/
def readRest : (fuel : Nat) → List Token → Option (List Json × List Token)
  | 0, _ => none
  | _, .closeArray :: ts => some ([], ts)
  | fuel + 1, .comma :: ts =>
    match readInner ts with
    | some (v, ts) => (readRest fuel ts).map fun r => (v :: r.1, r.2)
    | none => none
  | _, _ => none

namespace Tagged

variable {α : Type}

/-- Reads the members of an object from a member's name on, up to its end; `found` and
`done` are what was read so far, the last member first. -/
def readObject (type : Tagged α) : (fuel : Nat) → (found : Option (Variant α)) →
    (done : List (String × Json)) → List Token →
    Except ReadFault (Variant α × Contents × List Token)
  | 0, _, _, _ => .error .malformed
  | fuel + 1, found, done, .string k :: ts =>
    let next : Except ReadFault (Option (Variant α) × List (String × Json) × List Token) :=
      if k = type.tag then
        match found, ts with
        | some _, _ => .error (.duplicateField type.tag)
        | none, .colon :: ts => (type.readTag ts).map fun r => (some r.1, done, r.2)
        | none, _ => .error .malformed
      else
        match ts with
        | .colon :: ts =>
          match readInner ts with
          | some (v, ts) => .ok (found, (k, v) :: done, ts)
          | none => .error .malformed
        | _ => .error .malformed
    match next with
    | .error e => .error e
    | .ok (found, done, .comma :: ts) => readObject type fuel found done ts
    | .ok (some v, done, .closeObject :: ts) => .ok (v, .members done.reverse, ts)
    | .ok (none, _, .closeObject :: _) => .error (.missingField type.tag)
    | .ok _ => .error .malformed
  | _, _, _, _ => .error .malformed

/-- Reads the array form after its opening bracket. -/
def readArray (type : Tagged α) (ts : List Token) :
    Except ReadFault (Variant α × Contents × List Token) :=
  match ts with
  | .closeArray :: _ => .error (.missingField type.tag)
  | _ =>
    match type.readTag ts with
    | .error e => .error e
    | .ok (v, ts) =>
      match readRest (ts.length + 1) ts with
      | some (vs, ts) => .ok (v, .items vs, ts)
      | none => .error .malformed

/-- The variant, its fields and what follows the value. -/
def readTokens (type : Tagged α) :
    List Token → Except ReadFault (Variant α × Contents × List Token)
  | .openObject :: .closeObject :: _ => .error (.missingField type.tag)
  | .openObject :: ts => type.readObject (ts.length + 1) none [] ts
  | .openArray :: ts => type.readArray ts
  | t :: _ =>
    match t.described? with
    | some d => .error (.invalidType d ("internally tagged enum " ++ type.title))
    | none => .error .malformed
  | [] => .error .malformed

/-- Reads a value. -/
def ofText (type : Tagged α) (s : String) : Except ReadFault α :=
  match type.readTokens (tokens s) with
  | .error e => .error e
  | .ok (v, contents, rest) =>
    match type.build v contents with
    | .error e => .error e
    | .ok x => if rest.isEmpty then .ok x else .error .malformed

end Tagged

/-- A library that reads from front to back and writes in the compact form. -/
def library : Library where
  document? := ofText?
  text := compact
  scalar := Scalar.read
  fields fs ms := (Cells.empty fs).fill ms
  read type s := type.ofText s
  write type x := compact (.object (type.members x))

end Json

end Tenure
