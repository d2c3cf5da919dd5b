import DocStore.KeyList
import DocStore.Text.Search

/-!
# Document schemas

The declared shape of a document: scalar fields, nested objects and arrays, each field required or
nullable.  Fields are held in key order.
-/

namespace DocStore

/-- A variant of an enumeration: the label that documents store, and a numeric code. -/
structure EnumVariant where
  label : String
  code : Int64
deriving DecidableEq, Repr

/-- The type of a leaf field or of a constant. -/
inductive ScalarType where
  | int16
  | int32
  | int64
  | float32
  | float64
  | decimal
  | bool
  | text
  | timestamp
  | guid
  | enumeration (name : String) (variants : List EnumVariant)
deriving DecidableEq, Repr

/-- The name of a scalar type, in schemas and in messages. -/
def ScalarType.name : ScalarType → String
  | .int16 => "int16"
  | .int32 => "int32"
  | .int64 => "int64"
  | .float32 => "float32"
  | .float64 => "float64"
  | .decimal => "decimal"
  | .bool => "bool"
  | .text => "string"
  | .timestamp => "timestamp"
  | .guid => "guid"
  | .enumeration .. => "enum"

/-- A type together with whether the field may be absent or null. -/
structure Declared (τ : Type) where
  type : τ
  nullable : Bool
deriving DecidableEq, Repr

/-- A type of fields that must be there. -/
def Declared.required {τ : Type} (type : τ) : Declared τ := ⟨type, false⟩

/-- A type of fields that may be absent or null. -/
def Declared.optional {τ : Type} (type : τ) : Declared τ := ⟨type, true⟩

/-- The type of a field. -/
inductive FieldType where
  | scalar (type : ScalarType)
  | object (fields : List (String × Declared FieldType))
  | array (element : FieldType)
deriving Repr

abbrev Field := Declared FieldType

/-- The fields of an object, in key order. -/
abbrev Fields := List (String × Field)

namespace FieldType

/-- The name of a field type in messages. -/
def name : FieldType → String
  | .scalar type => type.name
  | .object _ => "object"
  | .array _ => "array"

/-- The scalar type of a leaf; objects and arrays have none. -/
def scalar? : FieldType → Option ScalarType
  | .scalar type => some type
  | .object _ => none
  | .array _ => none

end FieldType

/-- The declared shape of a document type. -/
structure Schema where
  name : String
  description : Option String
  fields : Fields
deriving Repr

namespace Schema

def empty (name : String) : Schema := ⟨name, none, []⟩

/-- The schema with a top-level field declared, in place of any field of that name. -/
def declare (schema : Schema) (name : String) (field : Field) : Schema :=
  { schema with fields := KeyList.insert name field schema.fields }

end Schema

/-- The way from the root of a document to a field. -/
structure FieldPath where
  segments : List String
deriving DecidableEq, Repr

namespace FieldPath

def dotted (segments : List String) : String := ".".intercalate segments

def text (path : FieldPath) : String := dotted path.segments

/-- The path that a dotted text spells. -/
def ofText (s : String) : FieldPath :=
  ⟨(Text.splitAt '.' s.toList).map String.ofList⟩

def textTo (path : FieldPath) (depth : Nat) : String := dotted (path.segments.take depth)

def child (path : FieldPath) (segment : String) : FieldPath := ⟨path.segments ++ [segment]⟩

end FieldPath

end DocStore
