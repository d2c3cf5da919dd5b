import DocStore.Json.Outline
import DocStore.Json.Record
import DocStore.Schema.Basic

/-!
# Reading schemas

Schemas read from JSON.  A type is told by its tag: the name of the type, or the place of that name
among all of them.  Records may also be given as the array of their fields in order, and the type of
an array's elements as the array of its tag and its own fields; a declared field is always an
object.

Every part of the JSON is read bottom-up, once, in each way it may be needed, and the part above
picks the reading it asks for.
-/

namespace DocStore

open Json (required? optional?)

/-- What the tag of a type says. -/
inductive TypeTag where
  | leaf (type : ScalarType)
  | enumeration
  | object
  | array
deriving DecidableEq, Repr

namespace TypeTag

/-- Every tag with its name, in order. -/
def all : List (String × TypeTag) := [
  ("int16", .leaf .int16), ("int32", .leaf .int32), ("int64", .leaf .int64),
  ("float32", .leaf .float32), ("float64", .leaf .float64), ("decimal", .leaf .decimal),
  ("bool", .leaf .bool), ("string", .leaf .text), ("timestamp", .leaf .timestamp),
  ("guid", .leaf .guid), ("enum", .enumeration), ("object", .object), ("array", .array)]

/-- A tag by its name or by its place. -/
def ofJson? : Json → Option TypeTag
  | .string name => all.lookup name
  | .number (.whole i) => if i < 0 then none else (all[i.toNat]?).map (·.2)
  | _ => none

end TypeTag

/-- A variant from its members or from the array of them. -/
def EnumVariant.ofJson? : Json → Option EnumVariant
  | .object members => do
    let label ← (required? "label" members).bind Json.string?
    let code ← (required? "code" members).bind Json.int64?
    return ⟨label, code⟩
  | .array [label, code] => do
    let label ← label.string?
    let code ← code.int64?
    return ⟨label, code⟩
  | _ => none

def EnumVariant.listOfJson? : Json → Option (List EnumVariant)
  | .array items => items.mapM EnumVariant.ofJson?
  | _ => none

/-- A part of a schema's JSON with everything it can be read as. -/
structure SchemaPart where
  json : Json
  type? : Option FieldType
  field? : Option Field
  fields? : Option Fields

namespace SchemaPart

/-- A type from its tag and the parts that the tag asks for. -/
def typeOf? (tag : TypeTag) (name variants fields element : Option SchemaPart) :
    Option FieldType :=
  match tag with
  | .leaf type => some (.scalar type)
  | .enumeration => do
    let name ← (← name).json.string?
    let variants ← EnumVariant.listOfJson? (← variants).json
    return .scalar (.enumeration name variants)
  | .object => do
    let fields ← (← fields).fields?
    return .object fields
  | .array => do
    let element ← (← element).type?
    return .array element

/-- A type from the members of an object. -/
def typeOfMembers? (members : List (String × SchemaPart)) : Option FieldType := do
  let tag ← TypeTag.ofJson? (← required? "type" members).json
  typeOf? tag (required? "name" members) (required? "variants" members)
    (required? "fields" members) (required? "element_type" members)

/-- A type from the array of its tag and its fields. -/
def typeOfItems? : List SchemaPart → Option FieldType
  | [] => none
  | tag :: rest => do
    let tag ← TypeTag.ofJson? tag.json
    match tag, rest with
    | .leaf _, [] => typeOf? tag none none none none
    | .enumeration, [name, variants] => typeOf? tag name variants none none
    | .object, [fields] => typeOf? tag none none fields none
    | .array, [element] => typeOf? tag none none none element
    | _, _ => none

/-- A declared field: whether it is nullable, and its type from the other members. -/
def fieldOfMembers? (members : List (String × SchemaPart)) : Option Field := do
  let nullable ← optional? "nullable" false (fun part => part.json.bool?) members
  let type ← typeOfMembers? (members.filter (·.1 != "nullable"))
  return ⟨type, nullable⟩

/-- Declared fields under their names; the last of each name counts, and all must be readable. -/
def fieldsOfMembers? (members : List (String × SchemaPart)) : Option Fields := do
  let fields ← members.mapM fun m => m.2.field?.map fun field => (m.1, field)
  return KeyList.ofList fields

mutual

def ofJson : Json → SchemaPart
  | .object members =>
    let parts := ofMembers members
    ⟨.object members, typeOfMembers? parts, fieldOfMembers? parts, fieldsOfMembers? parts⟩
  | .array items => ⟨.array items, typeOfItems? (ofItems items), none, none⟩
  | .null => ⟨.null, none, none, none⟩
  | .bool b => ⟨.bool b, none, none, none⟩
  | .number n => ⟨.number n, none, none, none⟩
  | .string s => ⟨.string s, none, none, none⟩

/-- The members of an object, each as a part. -/
def ofMembers : List (String × Json) → List (String × SchemaPart)
  | [] => []
  | (name, j) :: rest => (name, ofJson j) :: ofMembers rest

/-- The items of an array, each as a part. -/
def ofItems : List Json → List SchemaPart
  | [] => []
  | j :: rest => ofJson j :: ofItems rest

end

end SchemaPart

namespace Schema

/-- The fields of an object from its JSON. -/
def fieldsOfJson? (j : Json) : Option Fields := (SchemaPart.ofJson j).fields?

def ofJson? : Json → Option Schema
  | .object members => do
    let name ← (required? "name" members).bind Json.string?
    let description ← optional? "description" none Json.nullableString? members
    let fields ← (required? "fields" members).bind fieldsOfJson?
    return ⟨name, description, fields⟩
  | .array [name, description, fields] => do
    let name ← name.string?
    let description ← description.nullableString?
    let fields ← fieldsOfJson? fields
    return ⟨name, description, fields⟩
  | _ => none

/-- The fields of a schema's JSON form, in order. -/
def memberNames : List String := ["name", "description", "fields"]

def ofText? (s : String) : Option Schema := (Json.readRecord? memberNames s).bind ofJson?

end Schema

end DocStore
