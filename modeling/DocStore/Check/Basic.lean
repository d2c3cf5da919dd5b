import DocStore.Typing.Conversion

/-!
# Checked predicates

A predicate whose paths are resolved, whose operands are typed, and whose constants have been
brought to the type they are compared in.  Both the database expression and the evaluation in memory
are read off a check, and neither can fail.
-/

namespace DocStore

/-- A typed operand. -/
inductive Term where
  /-- A leaf field. -/
  | field (path : FieldPath) (type : ScalarType)
  /-- Any field, to be tested for null only. -/
  | node (path : FieldPath)
  /-- An enumeration field by its label. -/
  | label (path : FieldPath) (variants : List EnumVariant)
  | lower (inner : Term)
  | upper (inner : Term)
  /-- A constant of the type it is compared in. -/
  | constant (value : Value)
deriving DecidableEq, Repr

/-- Where one text is looked for in another. -/
inductive Pattern where
  | atStart
  | atEnd
  | anywhere
  | anywhereIgnoreCase
deriving DecidableEq, Repr

/-- A checked predicate. -/
inductive Check where
  | compare (op : CompareOp) (comparand : Comparand) (left right : Term)
  | isNull (term : Term) (negated : Bool)
  | search (pattern : Pattern) (receiver argument : Term)
  | blank (term : Term)
  | member (path : FieldPath) (element : ScalarType) (comparand : Comparand) (value : Value)
  | hasValue (path : FieldPath)
  | flag (path : FieldPath)
  | literal (value : Bool)
  | all (operands : List Check)
  | any (operands : List Check)
  | not (operand : Check)
deriving Repr

/-- Whether membership is decided by reading every element as a scalar.  Decimals and instants have
several JSON spellings, so their arrays are read; others are compared as JSON values. -/
def ScalarType.isScanned : ScalarType → Bool
  | .decimal => true
  | .timestamp => true
  | _ => false

end DocStore
