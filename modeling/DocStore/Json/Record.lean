import DocStore.Json.Basic

/-!
# Records in JSON

Reading records from JSON objects.  A record's own fields may occur once; members that are no field
of the record are passed over.
-/

namespace DocStore.Json

/-- The only value under a name: nothing if the name occurs twice, and nothing inside if it does not
occur. -/
def only? {α : Type} (name : String) (members : List (String × α)) : Option (Option α) :=
  match members.filter (·.1 == name) with
  | [] => some none
  | [m] => some (some m.2)
  | _ => none

/-- The value of a field that must be there. -/
def required? {α : Type} (name : String) (members : List (String × α)) : Option α :=
  (only? name members).bind id

/-- The value of a field that may be absent, read by `read?`. -/
def optional? {α β : Type} (name : String) (absent : β) (read? : α → Option β)
    (members : List (String × α)) : Option β :=
  match only? name members with
  | none => none
  | some none => some absent
  | some (some a) => read? a

def string? : Json → Option String
  | .string s => some s
  | _ => none

def bool? : Json → Option Bool
  | .bool b => some b
  | _ => none

/-- A whole number of 64 bits with a sign. -/
def int64? : Json → Option Int64
  | .number n => n.toInt64?
  | _ => none

def intIn? (range : IntRange) : Json → Option Int
  | .number (.whole i) => if range.holds i then some i else none
  | _ => none

/-- A string, or null for none. -/
def nullableString? : Json → Option (Option String)
  | .null => some none
  | .string s => some (some s)
  | _ => none

end DocStore.Json
