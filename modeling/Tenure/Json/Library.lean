import Tenure.Json.Value

/-!
# Libraries for documents

Values are written as documents and read from them by a library. It is told what a type looks like
and knows the rest: a type has variants, each with a name and some fields of its own
(`Json.Tagged`), and a value is written as an object in which one more member, the tag, names the
variant.

`Json.Library` is what such a library offers. What may be counted on is another matter
(`Json.Library.Lawful`).
-/

namespace Tenure

/-! ## Faults -/

/-- Why a value cannot be read from a text. -/
inductive ReadFault where
  /-- the text is no document -/
  | malformed
  /-- a field is not there -/
  | missingField (name : String)
  /-- a field is there twice -/
  | duplicateField (name : String)
  /-- a name is none of those known -/
  | unknownVariant (found : String) (known : List String)
  /-- a value is of the wrong kind -/
  | invalidType (found expected : String)
  /-- a value of the right kind is out of range -/
  | invalidValue (found expected : String)
  /-- an array has the wrong length -/
  | invalidLength (found : Nat) (expected : String)
  deriving DecidableEq, Repr

namespace ReadFault

/-- A word as it is shown in a message. -/
def shown (s : String) : String := "`" ++ s ++ "`"

/-- The words of a choice. -/
def choice : List String → String
  | [a, b] => shown a ++ " or " ++ shown b
  | [a] => shown a
  | all => "one of " ++ ", ".intercalate (all.map shown)

/-- The wording. -/
def message : ReadFault → String
  | malformed => "syntax"
  | missingField name => "missing field " ++ shown name
  | duplicateField name => "duplicate field " ++ shown name
  | unknownVariant found known =>
    "unknown variant " ++ shown found ++ ", expected " ++ choice known
  | invalidType found expected => "invalid type: " ++ found ++ ", expected " ++ expected
  | invalidValue found expected => "invalid value: " ++ found ++ ", expected " ++ expected
  | invalidLength found expected =>
    "invalid length " ++ toString found ++ ", expected " ++ expected

end ReadFault

namespace Json

/-! ## Types -/

/-- The type of a field. -/
inductive Scalar where
  /-- a whole number of 32 bits -/
  | u32
  /-- a whole number of 64 bits -/
  | u64
  /-- a double -/
  | f64

namespace Scalar

/-- Its values. -/
@[reducible] def Value : Scalar → Type
  | u32 => UInt32
  | u64 => UInt64
  | f64 => Float

/-- What stands for a value in a document. -/
def toJson : (type : Scalar) → type.Value → Json
  | u32, n => .number (.natural n.toUInt64)
  | u64, n => .number (.natural n)
  | f64, x => .number (.real x)

end Scalar

/-- A field: its name and its type. -/
structure Field where
  /-- its name -/
  name : String
  /-- the type of its values -/
  type : Scalar

/-- A value for each field. -/
@[reducible] def Row : List Field → Type
  | [] => Unit
  | f :: fs => f.type.Value × Row fs

/-- The members that stand for them in an object. -/
def Row.members : {fs : List Field} → Row fs → List (String × Json)
  | [], _ => []
  | f :: _, (x, row) => (f.name, f.type.toJson x) :: Row.members row

/-- One of the variants of a type. -/
structure Variant (α : Type) where
  /-- its name in documents -/
  name : String
  /-- its name in messages -/
  title : String
  /-- its fields -/
  fields : List Field
  /-- the value that has the fields -/
  make : Row fields → α
  /-- the fields of a value, if it is of this variant -/
  row? : α → Option (Row fields)

/-- A type whose values are written as objects with a tag. -/
structure Tagged (α : Type) where
  /-- its name in messages -/
  title : String
  /-- the name of the member that names the variant -/
  tag : String
  /-- its variants -/
  variants : List (Variant α)

namespace Tagged

variable {α : Type}

/-- The variant of a name. -/
def variant? (type : Tagged α) (name : String) : Option (Variant α) :=
  type.variants.find? fun v => v.name = name

/-- The members of an object with these fields: the tag, and then the fields. -/
def entries (type : Tagged α) (v : Variant α) (row : Row v.fields) : List (String × Json) :=
  (type.tag, .string v.name) :: row.members

/-- The members of the object that a value is written as. -/
def members (type : Tagged α) (x : α) : List (String × Json) :=
  (type.variants.findSome? fun v => (v.row? x).map (type.entries v)).getD []

end Tagged

/-! ## Libraries -/

/-- What is offered by a library. -/
structure Library where
  /-- the document that a text is, if it is one -/
  document? : String → Option Json
  /-- the text of a document -/
  text : Json → String
  /-- the value of a type that stands in a document -/
  scalar : (type : Scalar) → Json → Except ReadFault type.Value
  /-- reads fields from the members of an object -/
  fields : (fs : List Field) → List (String × Json) → Except ReadFault (Row fs)
  /-- reads a value from a text -/
  read : {α : Type} → Tagged α → String → Except ReadFault α
  /-- writes a value -/
  write : {α : Type} → Tagged α → α → String

end Json

end Tenure
