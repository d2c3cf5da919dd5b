import DocStore.Query.Expr

/-!
# From expressions to predicates

What an expression means as a predicate, and as an operand.  The vocabulary of methods ends here:
a call that is not in it is refused.

* `Expr.toPredicate`, `Expr.toOperand`: the two readings of an expression;
* `Predicate.ofText`, `Filter.ofText`: predicates read from text.
-/

namespace DocStore

namespace Expr

def refuse {α : Type} (cause : Unsupported) : Except QueryError α := .error (.unsupported cause)

/-- The path of a field; the parameter alone is none. -/
def fieldPath (segments : List String) (offset : Nat) : Except QueryError FieldPath :=
  if segments.isEmpty then refuse (.bareParameter offset) else .ok ⟨segments⟩

/-- The text operation that a method called on a receiver stands for. -/
def textOp (method : String) (offset : Nat) : Except QueryError TextOp :=
  match method with
  | "StartsWith" => .ok .startsWith
  | "EndsWith" => .ok .endsWith
  | "Contains" => .ok .contains
  | "ContainsIgnoreCase" => .ok .containsIgnoreCase
  | "Equals" => .ok .equals
  | "ToLower" => refuse (.methodIsValue method)
  | "ToUpper" => refuse (.methodIsValue method)
  | "ToString" => refuse (.methodIsValue method)
  | _ => refuse (.unknownMethod method offset)

/-- The text operation that a static method stands for. -/
def staticTextOp (method : String) (offset : Nat) : Except QueryError TextOp :=
  match method with
  | "IsNullOrWhiteSpace" => .ok .isNullOrWhiteSpace
  | "Equals" => .ok .equals
  | _ => refuse (.unknownMethod ("string." ++ method) offset)

/-- An expression as one side of a comparison or of a text operation. -/
def toOperand : Expr → Except QueryError Operand
  | .path segments offset => (fieldPath segments offset).map .field
  | .literal v => .ok (.constant (.literal v))
  | .capture name => .ok (.constant (.captured name))
  | .call receiver method args offset =>
    if !args.isEmpty then refuse (.unknownMethod method offset)
    else match method with
      | "ToLower" => (toOperand receiver).map .lower
      | "ToUpper" => (toOperand receiver).map .upper
      | "ToString" =>
        match receiver with
        | .path segments start => (fieldPath segments start).map .label
        | _ => refuse .labelReceiver
      | _ => refuse (.unknownMethod method offset)
  | .staticCall method _ _ => refuse (.staticIsPredicate method)
  | .hasValue _ _ => refuse .hasValueIsPredicate
  | .compare _ _ _ => refuse .nestedPredicate
  | .and _ => refuse .nestedPredicate
  | .or _ => refuse .nestedPredicate
  | .not _ => refuse .nestedPredicate

/-- A static call as a text operation on its first argument. -/
def staticPredicate (op : TextOp) (method : String) (operands : List Operand) :
    Except QueryError Predicate :=
  match operands with
  | receiver :: args =>
    if args.length = op.arity then .ok (.textual op receiver args)
    else refuse (.staticArity method (op.arity + 1) operands.length)
  | [] => refuse (.staticArity method (op.arity + 1) 0)

mutual

def toPredicate : Expr → Except QueryError Predicate
  | .and operands => (toPredicates operands).map (.logical .and)
  | .or operands => (toPredicates operands).map (.logical .or)
  | .not operand => (toPredicate operand).map .neg
  | .compare op left right => do
    let left ← toOperand left
    let right ← toOperand right
    return .comparison op left right
  | .call receiver method args offset => do
    let op ← textOp method offset
    let receiver ← toOperand receiver
    let args ← args.mapM toOperand
    return .textual op receiver args
  | .staticCall method args offset => do
    let op ← staticTextOp method offset
    let operands ← args.mapM toOperand
    staticPredicate op method operands
  | .hasValue receiver offset =>
    match receiver with
    | .path (segment :: segments) _ => .ok (.hasValue ⟨segment :: segments⟩)
    | _ => refuse (.hasValueReceiver offset)
  | .path segments offset => (fieldPath segments offset).map .flag
  | .literal v => .ok (.constant (.literal v))
  | .capture name => .ok (.constant (.captured name))

/-- Expressions as predicates; the first refusal counts. -/
def toPredicates : List Expr → Except QueryError (List Predicate)
  | [] => .ok []
  | e :: rest => do
    let p ← toPredicate e
    let ps ← toPredicates rest
    return p :: ps

end

end Expr

def Predicate.ofText (s : String) : Except QueryError Predicate := do
  let e ← Expr.ofText s
  e.toPredicate

/-- The filter that a text spells, without captures. -/
def Filter.ofText (s : String) : Except QueryError Filter :=
  (Predicate.ofText s).map fun p => ⟨p, []⟩

end DocStore
