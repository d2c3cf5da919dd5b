import DocStore.Value

/-!
# Predicates

Boolean conditions on a document, as written by a caller or read from text, before anything is known
about the document's schema.

* `Predicate.captureNames`: the captured values that a predicate needs, in the order they occur;
* `Predicate.conj`, `Predicate.disj`: joining predicates, which extends a chain of one connective.
-/

namespace DocStore

/-- A literal, or a value supplied by name when the predicate is used. -/
inductive Constant where
  | literal (value : Value)
  | captured (name : String)
deriving DecidableEq, Repr

/-- One side of a comparison or of a text operation. -/
inductive Operand where
  | field (path : FieldPath)
  | constant (value : Constant)
  /-- An enumeration field by its label. -/
  | label (path : FieldPath)
  | lower (inner : Operand)
  | upper (inner : Operand)
deriving DecidableEq, Repr

/-- A comparison operator. -/
inductive CompareOp where
  | eq
  | ne
  | lt
  | le
  | gt
  | ge
deriving DecidableEq, Repr

namespace CompareOp

def token : CompareOp → String
  | .eq => "="
  | .ne => "<>"
  | .lt => "<"
  | .le => "<="
  | .gt => ">"
  | .ge => ">="

/-- Whether the operator asks for equality only. -/
def isEquality : CompareOp → Bool
  | .eq => true
  | .ne => true
  | _ => false

/-- Whether the operator holds of two values in the given order. -/
def holds : CompareOp → Ordering → Bool
  | .eq, order => order == .eq
  | .ne, order => order != .eq
  | .lt, order => order == .lt
  | .le, order => order != .gt
  | .gt, order => order == .gt
  | .ge, order => order != .lt

def all : List CompareOp := [.eq, .ne, .lt, .le, .gt, .ge]

end CompareOp

/-- A boolean connective. -/
inductive Connective where
  | and
  | or
  | not
deriving DecidableEq, Repr

/-- An operation on texts. -/
inductive TextOp where
  | startsWith
  | endsWith
  | contains
  | containsIgnoreCase
  | equals
  | isNullOrWhiteSpace
deriving DecidableEq, Repr

namespace TextOp

def name : TextOp → String
  | .startsWith => "StartsWith"
  | .endsWith => "EndsWith"
  | .contains => "Contains"
  | .containsIgnoreCase => "ContainsIgnoreCase"
  | .equals => "Equals"
  | .isNullOrWhiteSpace => "IsNullOrWhiteSpace"

/-- How many arguments the operation takes besides its receiver. -/
def arity : TextOp → Nat
  | .isNullOrWhiteSpace => 0
  | _ => 1

def all : List TextOp :=
  [.startsWith, .endsWith, .contains, .containsIgnoreCase, .equals, .isNullOrWhiteSpace]

end TextOp

/-- A boolean condition on a document. -/
inductive Predicate where
  | comparison (op : CompareOp) (left right : Operand)
  | logical (connective : Connective) (operands : List Predicate)
  | textual (op : TextOp) (receiver : Operand) (args : List Operand)
  /-- Membership of a constant in an array field. -/
  | member (path : FieldPath) (value : Constant)
  /-- Presence of a nullable field. -/
  | hasValue (path : FieldPath)
  /-- A boolean field. -/
  | flag (path : FieldPath)
  /-- A boolean constant. -/
  | constant (value : Constant)
deriving Repr

def Constant.captureNames : Constant → List String
  | .literal _ => []
  | .captured name => [name]

def Operand.captureNames : Operand → List String
  | .field _ => []
  | .constant c => c.captureNames
  | .label _ => []
  | .lower inner => inner.captureNames
  | .upper inner => inner.captureNames

namespace Predicate

mutual

/-- The captures that a predicate needs, in the order they occur, repeats kept. -/
def captureNames : Predicate → List String
  | .comparison _ left right => left.captureNames ++ right.captureNames
  | .logical _ operands => captureNamesOfAll operands
  | .textual _ receiver args => receiver.captureNames ++ args.flatMap Operand.captureNames
  | .member _ value => value.captureNames
  | .hasValue _ => []
  | .flag _ => []
  | .constant value => value.captureNames

def captureNamesOfAll : List Predicate → List String
  | [] => []
  | p :: rest => captureNames p ++ captureNamesOfAll rest

end

/-- Both predicates; a conjunction on the left is extended. -/
def conj : Predicate → Predicate → Predicate
  | .logical .and operands, q => .logical .and (operands ++ [q])
  | p, q => .logical .and [p, q]

/-- Either predicate; a disjunction on the left is extended. -/
def disj : Predicate → Predicate → Predicate
  | .logical .or operands, q => .logical .or (operands ++ [q])
  | p, q => .logical .or [p, q]

def neg (p : Predicate) : Predicate := .logical .not [p]

end Predicate

/-- The values supplied for captures, by name. -/
abbrev Captures := List (String × Value)

/-- A predicate with the values of its captures. -/
structure Filter where
  predicate : Predicate
  captures : Captures
deriving Repr

/-- The filter with a value supplied for a capture, in place of an earlier one. -/
def Filter.bind (filter : Filter) (name : String) (value : Value) : Filter :=
  { filter with captures := KeyList.insert name value filter.captures }

end DocStore
