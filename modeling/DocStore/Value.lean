import DocStore.Floating.Layout
import DocStore.Guid
import DocStore.Instant.Text
import DocStore.Json.Writer
import DocStore.Numeric.Decimal
import DocStore.Numeric.Exact
import DocStore.Schema.Basic
import DocStore.Text.Quoted

/-!
# Constants

The typed scalar values that queries compare with.

* `Value.compare?`: values of one type are ordered; others, null and not-a-number are not;
* `Value.numericText?`, `Value.exactNumber?`: the exact number that a numeric constant denotes;
* `Value.toJson`, `Value.text`: how a constant is shown.
-/

namespace DocStore

open DocStore.Text

/-- A typed scalar constant. -/
inductive Value where
  | null
  | bool (value : Bool)
  | int16 (value : Int16)
  | int32 (value : Int32)
  | int64 (value : Int64)
  | float32 (value : Float32Value)
  | float64 (value : Float64Value)
  | decimal (value : Decimal)
  | text (value : String)
  | timestamp (value : Instant)
  | guid (value : Guid)
deriving DecidableEq, Repr

namespace Value

/-- The scalar type of a constant; null has none. -/
def scalarType? : Value → Option ScalarType
  | .null => none
  | .bool _ => some .bool
  | .int16 _ => some .int16
  | .int32 _ => some .int32
  | .int64 _ => some .int64
  | .float32 _ => some .float32
  | .float64 _ => some .float64
  | .decimal _ => some .decimal
  | .text _ => some .text
  | .timestamp _ => some .timestamp
  | .guid _ => some .guid

/-- The name of a constant's type in messages. -/
def kind (v : Value) : String :=
  match v.scalarType? with
  | some type => type.name
  | none => "null"

def isNull : Value → Bool
  | .null => true
  | _ => false

/-- The integer that an integer constant of any width denotes. -/
def toInt64? : Value → Option Int64
  | .int16 i => some i.toInt64
  | .int32 i => some i.toInt64
  | .int64 i => some i
  | _ => none

/-- The plain decimal text of a finite number, for floating-point numbers in shortest digits. -/
def numericText? : Value → Option String
  | .int16 i => some (intText i.toInt)
  | .int32 i => some (intText i.toInt)
  | .int64 i => some (intText i.toInt)
  | .float32 x => if x.isFinite then some (x.text .plain) else none
  | .float64 x => if x.isFinite then some (x.text .plain) else none
  | .decimal d => some d.text
  | _ => none

/-- The exact number that a finite numeric constant denotes. -/
def exactNumber? (v : Value) : Option ExactNumber := v.numericText?.bind ExactNumber.read?

/-- The JSON form of a constant.  A 32-bit floating-point number is shown as the 64-bit one that it
equals. -/
def toJson : Value → Json
  | .null => .null
  | .bool b => .bool b
  | .int16 i => .ofInt i.toInt
  | .int32 i => .ofInt i.toInt
  | .int64 i => .ofInt i.toInt
  | .float32 x => .ofFloat x.convert
  | .float64 x => .ofFloat x
  | .decimal d => .string d.text
  | .text s => .string s
  | .timestamp i => .string i.text
  | .guid g => .string g.text

/-- A constant as it stands in messages: a text is quoted, anything else is in JSON. -/
def display : Value → String
  | .text s => quoted s
  | v => v.toJson.text

/-- The order of two values of one type; texts are ordered by code point. -/
def compare? : Value → Value → Option Ordering
  | .bool a, .bool b => some (compare a b)
  | .int16 a, .int16 b => some (compare a.toInt b.toInt)
  | .int32 a, .int32 b => some (compare a.toInt b.toInt)
  | .int64 a, .int64 b => some (compare a.toInt b.toInt)
  | .float32 a, .float32 b => a.compare? b
  | .float64 a, .float64 b => a.compare? b
  | .decimal a, .decimal b => some (a.order b)
  | .text a, .text b => some (compare a b)
  | .timestamp a, .timestamp b => some (a.order b)
  | .guid a, .guid b => some (compare a.value b.value)
  | _, _ => none

/-- An integer that fits in 32 bits in that width, any other in 64 bits. -/
def ofInt64 (i : Int64) : Value :=
  if IntRange.signed32.holds i.toInt then .int32 i.toInt32 else .int64 i

/-- The constant that a JSON scalar stands for; arrays and objects stand for none. -/
def ofJson? : Json → Option Value
  | .null => some .null
  | .bool b => some (.bool b)
  | .string s => some (.text s)
  | .number n =>
    match n.toInt64? with
    | some i => some (ofInt64 i)
    | none => some (.float64 n.toFloat)
  | .array _ => none
  | .object _ => none

end Value

end DocStore
