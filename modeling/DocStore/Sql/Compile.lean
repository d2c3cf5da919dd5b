import DocStore.Check.Lowering
import DocStore.Sql.Binding

/-!
# Translating checks to SQL

A checked predicate as a boolean expression of the database.

* `Term.toSql`: an operand brought to a comparison type;
* `Check.toSql`: the condition, its constants bound from left to right;
* `Filter.compileFrom`: a filter checked and translated, its placeholders numbered from a given one.
-/

namespace DocStore

namespace Term

def toText : Term → Binding SqlExpr
  | .field path _ => pure (.leafText path)
  | .node path => pure (.leafText path)
  | .label path variants => pure (SqlExpr.labelOf variants (.leafText path))
  | .lower inner => do
    let e ← toText inner
    return .lower e
  | .upper inner => do
    let e ← toText inner
    return .upper e
  | .constant value => Binding.constant value .text

/-- The variants of an operand that is an enumeration field. -/
def ownVariants? : Term → Option (List EnumVariant)
  | .field _ (.enumeration _ variants) => some variants
  | _ => none

/-- An operand brought to a comparison type.  An enumeration field is projected by its own
variants. -/
def toSql (comparand : Comparand) (term : Term) : Binding SqlExpr :=
  match term, comparand with
  | .constant value, c => Binding.constant value c.sqlType
  | term, .typed type => do
    let e ← term.toText
    return SqlExpr.castTo type e
  | term, .label _ => do
    let e ← term.toText
    match term.ownVariants? with
    | some own => return SqlExpr.labelOf own e
    | none => return e
  | term, .code variants => do
    let e ← term.toText
    return SqlExpr.codeOf (term.ownVariants?.getD variants) e

/-- An operand in its own type, to be tested for null. -/
def toNatural : Term → Binding SqlExpr
  | .constant value =>
    Binding.constant value ((value.scalarType?.map ScalarType.sqlType).getD .text)
  | term => term.toText

end Term

namespace Check

mutual

/-- A checked predicate as a condition of the database. -/
def toSql : Check → Binding SqlExpr
  | .compare op comparand left right => do
    let l ← left.toSql comparand
    let r ← right.toSql comparand
    return .compare op l r (comparand == .typed .text && !op.isEquality)
  | .isNull term negated => do
    let e ← term.toNatural
    return .isNull e negated
  | .search pattern receiver argument => do
    let receiver ← receiver.toText
    let argument ← argument.toText
    return .like pattern receiver (SqlExpr.escaped argument)
  | .blank term => do
    let e ← term.toText
    return .blank e
  | .member path element comparand value => do
    let item ← Binding.constant value comparand.sqlType
    if element.isScanned then
      return .anyElement (.node path) (SqlExpr.castTo comparand.sqlType .element) item
    else return .containsElement (.node path) item
  | .hasValue path => pure (.isNull (.leafText path) true)
  | .flag path => pure (SqlExpr.castTo .boolean (.leafText path))
  | .literal b => Binding.constant (.bool b) .boolean
  | .all operands => do
    let es ← toSqlAll operands
    return .all es
  | .any operands => do
    let es ← toSqlAll operands
    return .any es
  | .not operand => do
    let e ← toSql operand
    return .not e

def toSqlAll : List Check → Binding (List SqlExpr)
  | [] => pure []
  | c :: rest => do
    let e ← toSql c
    let es ← toSqlAll rest
    return e :: es

end

end Check

/-- A filter as a condition of the database, with its parameters. -/
structure CompiledQuery where
  condition : SqlExpr
  /-- The parameters in placeholder order. -/
  parameters : List Parameter
deriving Repr

namespace CompiledQuery

def fragment (q : CompiledQuery) : String := q.condition.text

/-- The index after the last placeholder, or `first` if there is none. -/
def nextIndex (q : CompiledQuery) (first : Nat) : Nat :=
  match q.parameters.getLast? with
  | some p => Binding.indexAt (p.index + 1)
  | none => first

end CompiledQuery

/-- A checked predicate translated with placeholders numbered from `first`. -/
def Check.compileFrom (check : Check) (first : Nat) : CompiledQuery :=
  let result := check.toSql (Binding.firstPosition first)
  ⟨result.1, result.2⟩

/-- A filter checked against a schema and translated with placeholders numbered from `first`. -/
def Filter.compileFrom (filter : Filter) (schema : Schema) (first : Nat) :
    Except QueryError CompiledQuery :=
  (filter.check schema).map fun check => check.compileFrom first

end DocStore
