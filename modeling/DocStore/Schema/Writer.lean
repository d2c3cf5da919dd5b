import DocStore.Json.Writer
import DocStore.Schema.Basic

/-!
# Schemas as JSON

The JSON form of a schema.  The members of a field are its type's name, what the type needs besides,
and whether the field is nullable.
-/

namespace DocStore

def EnumVariant.toJson (variant : EnumVariant) : Json :=
  .object [("label", .string variant.label), ("code", .ofInt variant.code.toInt)]

def ScalarType.members (type : ScalarType) : List (String × Json) :=
  match type with
  | .enumeration name variants =>
    [("type", .string type.name), ("name", .string name),
      ("variants", .array (variants.map EnumVariant.toJson))]
  | _ => [("type", .string type.name)]

namespace FieldType

mutual

def members : FieldType → List (String × Json)
  | .scalar type => type.members
  | .object fields => [("type", .string "object"), ("fields", .object (fieldMembers fields))]
  | .array element => [("type", .string "array"), ("element_type", .object (members element))]

/-- The fields of an object, each under its name. -/
def fieldMembers : List (String × Declared FieldType) → List (String × Json)
  | [] => []
  | (name, field) :: rest => (name, fieldJson field) :: fieldMembers rest

def fieldJson : Declared FieldType → Json
  | ⟨type, nullable⟩ => .object (members type ++ [("nullable", .bool nullable)])

end

end FieldType

/-- The JSON form of a schema; an absent description is left out. -/
def Schema.toJson (schema : Schema) : Json :=
  .object (("name", .string schema.name) ::
    (match schema.description with
      | some description => [("description", .string description)]
      | none => []) ++
    [("fields", .object (FieldType.fieldMembers schema.fields))])

end DocStore
