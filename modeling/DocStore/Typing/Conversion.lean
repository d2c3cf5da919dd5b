import DocStore.Floating.Reading
import DocStore.Typing.Comparand

/-!
# Conversions

Bringing constants and stored texts to a comparison type.

* `Value.coerce`: a constant to a database type, widening only;
* `Value.under`: a constant to a comparison type;
* `castText?`: a stored text to a database type;
* `labelOfText`, `codeOfText?`: the label and the code of a stored enumeration text.
-/

namespace DocStore

open DocStore.Text

/-- A 32-bit number as the 64-bit number with the same shortest digits; infinities and
not-a-number are kept. -/
def widenFloat? (x : Float32Value) : Option Float64Value :=
  if x.isFinite then Floating.read? (x.text .plain) else some x.convert

namespace Value

/-- The conversion of a constant to a database type that holds every value of the constant's type;
texts are read as instants and identifiers.  Under `numeric` a finite floating-point number keeps
its type. -/
def coerce? : Value → SqlType → Option Value
  | .int16 i, .smallint => some (.int16 i)
  | .int16 i, .integer => some (.int32 i.toInt32)
  | .int16 i, .bigint => some (.int64 i.toInt64)
  | .int16 i, .real => some (.float32 (Floating.ofInt i.toInt))
  | .int16 i, .doublePrecision => some (.float64 (Floating.ofInt i.toInt))
  | .int16 i, .numeric => some (.decimal (.ofInt64 i.toInt64))
  | .int32 i, .integer => some (.int32 i)
  | .int32 i, .bigint => some (.int64 i.toInt64)
  | .int32 i, .doublePrecision => some (.float64 (Floating.ofInt i.toInt))
  | .int32 i, .numeric => some (.decimal (.ofInt64 i.toInt64))
  | .int64 i, .bigint => some (.int64 i)
  | .int64 i, .numeric => some (.decimal (.ofInt64 i))
  | .float32 x, .real => some (.float32 x)
  | .float32 x, .doublePrecision => (widenFloat? x).map .float64
  | .float32 x, .numeric => if x.isFinite then some (.float32 x) else none
  | .float64 x, .doublePrecision => some (.float64 x)
  | .float64 x, .numeric => if x.isFinite then some (.float64 x) else none
  | .decimal d, .numeric => some (.decimal d)
  | .bool b, .boolean => some (.bool b)
  | .text s, .text => some (.text s)
  | .text s, .timestamptz => (Instant.read? s).map .timestamp
  | .text s, .uuid => (Guid.read? s).map .guid
  | .timestamp i, .timestamptz => some (.timestamp i)
  | .guid g, .uuid => some (.guid g)
  | _, _ => none

/-- A constant brought to a database type, or why it cannot be. -/
def coerce (value : Value) (target : SqlType) : Except QueryError Value :=
  match value.coerce? target with
  | some converted => .ok converted
  | none => .error (.unsupported (.unrepresentable value target))

/-- The first variant that a constant names: a text names a label, an integer a code. -/
def variant? (variants : List EnumVariant) : Value → Option EnumVariant
  | .text label => variants.find? (·.label == label)
  | value => value.toInt64?.bind fun code => variants.find? (·.code == code)

/-- The label of the variant that a constant names. -/
def enumLabel (variants : List EnumVariant) (value : Value) : Except QueryError String :=
  match value.variant? variants with
  | some variant => .ok variant.label
  | none => .error (.unsupported (.undeclaredVariant value))

/-- The code of the variant that a constant names. -/
def enumCode (variants : List EnumVariant) (value : Value) : Except QueryError Int64 :=
  match value.variant? variants with
  | some variant => .ok variant.code
  | none => .error (.unsupported (.undeclaredVariant value))

/-- A constant brought to a comparison type. -/
def under (comparand : Comparand) (value : Value) : Except QueryError Value :=
  match comparand with
  | .typed type => value.coerce type
  | .label variants => (value.enumLabel variants).map .text
  | .code variants => (value.enumCode variants).map .int64

/-- The constant that a JSON scalar stands for, or why there is none. -/
def ofJson (j : Json) : Except QueryError Value :=
  match ofJson? j with
  | some value => .ok value
  | none => .error (.unsupported (.compositeConstant j))

end Value

/-- A stored text as a value of a database type; a text that does not spell one is nothing. -/
def castText? (text : String) : SqlType → Option Value
  | .smallint =>
    (readIntIn? .signed16 text.toList).map fun i => .int16 (.ofInt i)
  | .integer =>
    (readIntIn? .signed32 text.toList).map fun i => .int32 (.ofInt i)
  | .bigint =>
    (readIntIn? .signed64 text.toList).map fun i => .int64 (.ofInt i)
  | .real => (Floating.read? text).map .float32
  | .doublePrecision => (Floating.read? text).map .float64
  | .numeric => (Decimal.read? text).map .decimal
  | .boolean =>
    if text = "true" then some (.bool true)
    else if text = "false" then some (.bool false)
    else none
  | .text => some (.text text)
  | .timestamptz => (Instant.read? text).map .timestamp
  | .uuid => (Guid.read? text).map .guid

/-- The code of a variant as text. -/
def EnumVariant.codeText (variant : EnumVariant) : String := intText variant.code.toInt

/-- The label of a stored text: a text that spells a code stands for that variant's label, and any
other for itself. -/
def labelOfText (variants : List EnumVariant) (text : String) : String :=
  match variants.find? (·.codeText == text) with
  | some variant => variant.label
  | none => text

/-- The code of a stored text, which is looked for among the labels first and then among the
codes. -/
def codeOfText? (variants : List EnumVariant) (text : String) : Option Int64 :=
  ((variants.find? (·.label == text)).or (variants.find? (·.codeText == text))).map (·.code)

end DocStore
