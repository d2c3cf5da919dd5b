import DocStore.Floating.Basic
import DocStore.KeyList
import DocStore.Numeric.Range

/-!
# JSON values

JSON documents.  A number is a whole number of at most 64 bits or a finite 64-bit floating-point
number, and the two kinds are told apart.  The members of an object are held as they were given;
`Json.canonical` puts them in key order and keeps the last of each key.
-/

namespace DocStore

/-- A JSON number. -/
inductive JsonNumber where
  | whole (value : Int)
  | float (value : Float64Value)
deriving DecidableEq, Repr

/-- A JSON value. -/
inductive Json where
  | null
  | bool (value : Bool)
  | number (value : JsonNumber)
  | string (value : String)
  | array (items : List Json)
  | object (members : List (String × Json))
deriving Repr, Inhabited

namespace JsonNumber

/-- The number as a signed 64-bit integer, if it is one. -/
def toInt64? : JsonNumber → Option Int64
  | .whole i => if IntRange.signed64.holds i then some (Int64.ofInt i) else none
  | .float _ => none

def toFloat : JsonNumber → Float64Value
  | .whole i => Floating.ofInt i
  | .float x => x

end JsonNumber

namespace Json

def ofInt (i : Int) : Json := .number (.whole i)

/-- A floating-point number; one that JSON cannot write becomes null. -/
def ofFloat (x : Float64Value) : Json := if x.isFinite then .number (.float x) else .null

/-- An object with the given members in key order. -/
def ofMembers (members : List (String × Json)) : Json := .object (KeyList.ofList members)

/-- The member of an object under a name. -/
def member? (name : String) : Json → Option Json
  | .object members => members.lookup name
  | _ => none

def descend? : List String → Json → Option Json
  | [], j => some j
  | name :: rest, j => (j.member? name).bind (descend? rest)

mutual

/-- The value with the members of every object in key order, the last of each key. -/
def canonical : Json → Json
  | .array items => .array (canonicalItems items)
  | .object members => .object (KeyList.ofList (canonicalMembers members))
  | .null => .null
  | .bool b => .bool b
  | .number n => .number n
  | .string s => .string s

/-- The canonical forms of the items of an array. -/
def canonicalItems : List Json → List Json
  | [] => []
  | j :: rest => canonical j :: canonicalItems rest

/-- The members of an object, each with its value in canonical form. -/
def canonicalMembers : List (String × Json) → List (String × Json)
  | [] => []
  | (name, j) :: rest => (name, canonical j) :: canonicalMembers rest

end

end Json

end DocStore
