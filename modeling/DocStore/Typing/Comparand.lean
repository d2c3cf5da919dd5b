import DocStore.Query.Error

/-!
# Comparison types

What two scalar types are brought to before they are compared.

* `ScalarType.widen?`: the smallest database type that holds two kinds of numbers without loss;
* `Comparand.of`: the comparison type of two operands under an operator.
-/

namespace DocStore

/-- How the two sides of a comparison are brought together. -/
inductive Comparand where
  /-- Both sides as one database type. -/
  | typed (type : SqlType)
  /-- Both sides as labels of an enumeration. -/
  | label (variants : List EnumVariant)
  /-- Both sides as codes of an enumeration. -/
  | code (variants : List EnumVariant)
deriving DecidableEq, Repr

/-- The database type of constants under a comparison type. -/
def Comparand.sqlType : Comparand → SqlType
  | .typed type => type
  | .label _ => .text
  | .code _ => .bigint

namespace ScalarType

/-- The place of a numeric type in the widening table. -/
def numericRank? : ScalarType → Option Nat
  | .int16 => some 0
  | .int32 => some 1
  | .int64 => some 2
  | .float32 => some 3
  | .float64 => some 4
  | .decimal => some 5
  | _ => none

/-- Whether a type is one of numbers. -/
def isNumeric (type : ScalarType) : Bool := type.numericRank?.isSome

def variants? : ScalarType → Option (List EnumVariant)
  | .enumeration _ variants => some variants
  | _ => none

/-- Whether constants of the type can name a variant of an enumeration. -/
def namesVariants : ScalarType → Bool
  | .text => true
  | .int16 => true
  | .int32 => true
  | .int64 => true
  | _ => false

/-- For each two numeric types, in the order of their ranks, the smallest database type that holds
both without loss.  A 64-bit integer and a floating-point number meet only in `numeric`. -/
def wideningTable : List (List SqlType) := [
  [.smallint, .integer, .bigint, .real, .doublePrecision, .numeric],
  [.integer, .integer, .bigint, .doublePrecision, .doublePrecision, .numeric],
  [.bigint, .bigint, .bigint, .numeric, .numeric, .numeric],
  [.real, .doublePrecision, .numeric, .real, .doublePrecision, .numeric],
  [.doublePrecision, .doublePrecision, .numeric, .doublePrecision, .doublePrecision, .numeric],
  [.numeric, .numeric, .numeric, .numeric, .numeric, .numeric]]

/-- The smallest database type that holds two numeric types without loss. -/
def widen? (a b : ScalarType) : Option SqlType := do
  let row ← wideningTable[← a.numericRank?]?
  row[← b.numericRank?]?

end ScalarType

namespace Comparand

/-- Enumerations are equal by label and ordered by code. -/
def ofVariants (op : CompareOp) (variants : List EnumVariant) : Comparand :=
  if op.isEquality then .label variants else .code variants

/-- The comparison type of two scalars that are neither enumerations nor both numbers: texts, truth
values under equality, and instants and identifiers, also against texts that spell them. -/
def ofPlain? (op : CompareOp) : ScalarType → ScalarType → Option Comparand
  | .text, .text => some (.typed .text)
  | .bool, .bool => if op.isEquality then some (.typed .boolean) else none
  | .timestamp, .timestamp => some (.typed .timestamptz)
  | .timestamp, .text => some (.typed .timestamptz)
  | .text, .timestamp => some (.typed .timestamptz)
  | .guid, .guid => some (.typed .uuid)
  | .guid, .text => some (.typed .uuid)
  | .text, .guid => some (.typed .uuid)
  | _, _ => none

/-- The comparison type of two scalars; of two enumerations the left one decides. -/
def of? (op : CompareOp) (left right : ScalarType) : Option Comparand :=
  match left.variants?, right.variants? with
  | some variants, some _ => some (ofVariants op variants)
  | some variants, none => if right.namesVariants then some (ofVariants op variants) else none
  | none, some variants => if left.namesVariants then some (ofVariants op variants) else none
  | none, none =>
    match left.widen? right with
    | some type => some (.typed type)
    | none => ofPlain? op left right

/-- The comparison type of two scalars under an operator, or why there is none. -/
def of (op : CompareOp) (left right : ScalarType) : Except QueryError Comparand :=
  match of? op left right with
  | some comparand => .ok comparand
  | none => .error (.unsupported (.incomparable op left right))

end Comparand

end DocStore
