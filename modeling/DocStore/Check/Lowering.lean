import DocStore.Check.Basic
import DocStore.Schema.Resolve

/-!
# Checking predicates

A filter checked against a schema.  Everything that can be wrong with a predicate is found here.

* `Filter.check`: the checked predicate, or the first thing that is wrong with it;
* `Scope.operand`: an operand with its type; a null constant has none;
* `Scope.comparison`, `Scope.textual`, `Scope.membership`: the kinds of conditions.
-/

namespace DocStore

/-- What a predicate may refer to. -/
structure Scope where
  schema : Schema
  captures : Captures

/-- An operand that is not null, with its type. -/
structure TypedTerm where
  term : Term
  type : ScalarType
deriving DecidableEq, Repr

namespace Scope

def refuse {α : Type} (cause : Unsupported) : Except QueryError α := .error (.unsupported cause)

def constant (scope : Scope) : Constant → Except QueryError Value
  | .literal v => .ok v
  | .captured name =>
    match KeyList.find? name scope.captures with
    | some v => .ok v
    | none => .error (.unbound name)

/-- A constant with its type; null has none. -/
def typedConstant (value : Value) : Option TypedTerm :=
  value.scalarType?.map fun type => ⟨.constant value, type⟩

def leaf (scope : Scope) (path : FieldPath) : Except QueryError TypedTerm := do
  let field ← scope.schema.resolve path
  match field.type.scalar? with
  | some type => return ⟨.field path type, type⟩
  | none => refuse (.fieldIsNotScalar path field.type)

def label (scope : Scope) (path : FieldPath) : Except QueryError TypedTerm := do
  let field ← scope.schema.resolve path
  match field.type with
  | .scalar (.enumeration _ variants) => return ⟨.label path variants, .text⟩
  | type => refuse (.labelOfNonEnum path type)

/-- The name of an operand's kind in messages. -/
def kindOf : Option TypedTerm → String
  | some typed => typed.type.name
  | none => "null"

/-- A typed operand as an operand of the method named, which must be a text. -/
def asText (method : String) (typed : Option TypedTerm) : Except QueryError Term :=
  match typed with
  | some ⟨term, .text⟩ => .ok term
  | other => refuse (.notText method (kindOf other))

/-- An operand with its type; a null constant has none. -/
def operand (scope : Scope) : Operand → Except QueryError (Option TypedTerm)
  | .field path => (scope.leaf path).map some
  | .constant c => (scope.constant c).map typedConstant
  | .label path => (scope.label path).map some
  | .lower inner => do
    let typed ← operand scope inner
    let term ← asText "ToLower" typed
    return some ⟨.lower term, .text⟩
  | .upper inner => do
    let typed ← operand scope inner
    let term ← asText "ToUpper" typed
    return some ⟨.upper term, .text⟩

def textOperand (scope : Scope) (op : TextOp) (o : Operand) : Except QueryError Term := do
  let typed ← scope.operand o
  asText op.name typed

/-- An operand brought to a comparison type: constants are converted, and what is compared with an
enumeration is an enumeration itself or a text. -/
def fit (op : CompareOp) (comparand : Comparand) (typed : TypedTerm) : Except QueryError Term :=
  match typed.term, comparand with
  | .constant v, c => (v.under c).map .constant
  | term, .typed _ => .ok term
  | term, _ =>
    match typed.type with
    | .enumeration .. => .ok term
    | .text => .ok term
    | type => refuse (.enumOperand op type)

/-- An operand as it is tested for null: any field may be, whatever its type. -/
def nullTerm (o : Operand) (typed : TypedTerm) : Term :=
  match o with
  | .field path => .node path
  | _ => typed.term

def comparison (scope : Scope) (op : CompareOp) (left right : Operand) :
    Except QueryError Check := do
  let l ← scope.operand left
  let r ← scope.operand right
  match l, r with
  | none, none => refuse (.bothNull op)
  | none, some typed =>
    if op.isEquality then return .isNull (nullTerm right typed) (op == .ne)
    else refuse (.orderedNull op)
  | some typed, none =>
    if op.isEquality then return .isNull (nullTerm left typed) (op == .ne)
    else refuse (.orderedNull op)
  | some l, some r => do
    let comparand ← Comparand.of op l.type r.type
    let left ← fit op comparand l
    let right ← fit op comparand r
    return .compare op comparand left right

/-- Membership of a value in an array field. -/
def membership (scope : Scope) (path : FieldPath) (value : Value) : Except QueryError Check := do
  let field ← scope.schema.resolve path
  match field.type with
  | .array (.scalar element) =>
    match value.scalarType? with
    | none => refuse (.membershipOfNull path)
    | some type => do
      let comparand ← Comparand.of .eq element type
      let value ← value.under comparand
      return .member path element comparand value
  | .array _ => refuse (.membershipInComposites path)
  | type => refuse (.membershipInScalar path type)

/-- The pattern that a text operation looks for. -/
def patternOf : TextOp → Option Pattern
  | .startsWith => some .atStart
  | .endsWith => some .atEnd
  | .contains => some .anywhere
  | .containsIgnoreCase => some .anywhereIgnoreCase
  | .equals => none
  | .isNullOrWhiteSpace => none

/-- A text operation on operands that are texts. -/
def textCheck (scope : Scope) (op : TextOp) (receiver : Operand) (args : List Operand) :
    Except QueryError Check := do
  let receiver ← scope.textOperand op receiver
  match args with
  | [] => return .blank receiver
  | argument :: _ => do
    let argument ← scope.textOperand op argument
    match patternOf op with
    | some pattern => return .search pattern receiver argument
    | none => return .compare .eq (.typed .text) receiver argument

/-- The array that an operand names, for the operation that also tests membership. -/
def arrayField (scope : Scope) (op : TextOp) (receiver : Operand) :
    Except QueryError (Option FieldPath) :=
  match op, receiver with
  | .contains, .field path => do
    let field ← scope.schema.resolve path
    match field.type with
    | .array _ => return some path
    | _ => return none
  | _, _ => .ok none

/-- A text operation, which on an array field is a test of membership. -/
def textual (scope : Scope) (op : TextOp) (receiver : Operand) (args : List Operand) :
    Except QueryError Check := do
  if args.length ≠ op.arity then refuse (.textArity op args.length)
  else
    match ← scope.arrayField op receiver with
    | some path =>
      match args with
      | [.constant c] => do
        let value ← scope.constant c
        scope.membership path value
      | _ => refuse (.membershipOfOperand path)
    | none => scope.textCheck op receiver args

def logical (connective : Connective) (operands : List Check) : Except QueryError Check :=
  match connective, operands with
  | .and, operands => .ok (.all operands)
  | .or, operands => .ok (.any operands)
  | .not, [operand] => .ok (.not operand)
  | .not, operands => refuse (.notArity operands.length)

mutual

def check (scope : Scope) : Predicate → Except QueryError Check
  | .comparison op left right => scope.comparison op left right
  | .logical connective operands => do
    let operands ← checkAll scope operands
    logical connective operands
  | .textual op receiver args => scope.textual op receiver args
  | .member path value => do
    let value ← scope.constant value
    scope.membership path value
  | .hasValue path => do
    let field ← scope.schema.resolve path
    if field.nullable then return .hasValue path
    else refuse (.hasValueOfRequired path)
  | .flag path => do
    let field ← scope.schema.resolve path
    match field.type with
    | .scalar .bool => return .flag path
    | type => refuse (.fieldIsNotPredicate path type)
  | .constant c => do
    let value ← scope.constant c
    match value with
    | .bool b => return .literal b
    | other => refuse (.constantIsNotPredicate other)

/-- Predicates checked one after another; the first refusal counts. -/
def checkAll (scope : Scope) : List Predicate → Except QueryError (List Check)
  | [] => .ok []
  | p :: rest => do
    let c ← check scope p
    let cs ← checkAll scope rest
    return c :: cs

end

end Scope

def Filter.check (filter : Filter) (schema : Schema) : Except QueryError Check :=
  Scope.check ⟨schema, filter.captures⟩ filter.predicate

end DocStore
