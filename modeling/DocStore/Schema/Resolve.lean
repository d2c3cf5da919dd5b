import DocStore.Query.Error

/-!
# Resolving paths

The field that a path leads to: every segment but the last names an object field, and each is looked
up in the object reached so far.  A failure names the whole path and the place where the way stops.
-/

namespace DocStore.Schema

/-- The scope of the segment at `depth`: the schema itself, or the object reached so far. -/
def scopeName (schema : Schema) (path : FieldPath) (depth : Nat) : String :=
  if depth = 0 then schema.name else path.textTo depth

/-- The field that the remaining segments lead to from an object; `depth` segments lead there. -/
def resolveFrom (schema : Schema) (path : FieldPath) :
    Nat → Fields → List String → Except QueryError Field
  | _, _, [] => .error (.unsupported .emptyPath)
  | depth, fields, segment :: rest =>
    match KeyList.find? segment fields with
    | none =>
      .error (.unsupported (.undeclaredMember path (schema.scopeName path depth) segment))
    | some field =>
      if rest.isEmpty then .ok field
      else match field.type with
        | .object nested => resolveFrom schema path (depth + 1) nested rest
        | type => .error (.unsupported (.noMembers path (depth + 1) type))

/-- The field that a path leads to. -/
def resolve (schema : Schema) (path : FieldPath) : Except QueryError Field :=
  schema.resolveFrom path 0 schema.fields path.segments

end DocStore.Schema
