import DocStore.Query.Predicate
import DocStore.Typing.SqlType

/-!
# Query errors

Why a predicate is refused: its text does not parse, it asks for something that is not offered, or
it needs a capture that was not supplied.  Every cause is a value of its own, and the wording is in
one place.
-/

namespace DocStore

open DocStore.Text

/-- The kind of a numeric literal that cannot be read. -/
inductive LiteralKind where
  | int64
  | float32
  | float64
  | decimal
  | integer
deriving DecidableEq, Repr

/-- What is wrong with the text of a predicate. -/
inductive SyntaxFault where
  | halfOperator
  | unexpectedCharacter (c : Char)
  | badLiteral (kind : LiteralKind) (digits : String)
  | unknownSuffix (c : Char)
  | unterminatedString
  | unknownEscape (c : Char)
  | trailingInput
  | unexpectedEnd
  | expectedExpression
  | strayMinus
  | literalOutOfRange
  | expectedIdentifier
  | expectedClosing
  | expectedStaticCall
  | expectedSeparator
deriving DecidableEq, Repr

/-- What a predicate asks for that is not offered. -/
inductive Unsupported where
  /-- A member read from something that is not a document field. -/
  | memberOfValue (name : String)
  /-- An identifier that is not the parameter of the lambda. -/
  | foreignIdentifier (name parameter : String)
  /-- A method that returns a value, where a predicate is needed. -/
  | methodIsValue (method : String)
  | unknownMethod (method : String) (offset : Nat)
  | staticArity (method : String) (expected actual : Nat)
  | hasValueReceiver (offset : Nat)
  | bareParameter (offset : Nat)
  | labelReceiver
  | staticIsPredicate (method : String)
  | hasValueIsPredicate
  | nestedPredicate
  | incomparable (op : CompareOp) (left right : ScalarType)
  | unrepresentable (value : Value) (target : SqlType)
  | undeclaredVariant (value : Value)
  | compositeConstant (value : Json)
  /-- A path that goes on through a field without members; `depth` segments lead to that field. -/
  | noMembers (path : FieldPath) (depth : Nat) (type : FieldType)
  /-- A segment that is not declared in the scope it is looked up in. -/
  | undeclaredMember (path : FieldPath) (scope segment : String)
  | emptyPath
  | hasValueOfRequired (path : FieldPath)
  | fieldIsNotPredicate (path : FieldPath) (type : FieldType)
  | constantIsNotPredicate (value : Value)
  | notArity (actual : Nat)
  | bothNull (op : CompareOp)
  | orderedNull (op : CompareOp)
  | enumOperand (op : CompareOp) (type : ScalarType)
  | textArity (op : TextOp) (actual : Nat)
  | membershipOfOperand (path : FieldPath)
  | membershipInScalar (path : FieldPath) (type : FieldType)
  | membershipInComposites (path : FieldPath)
  | membershipOfNull (path : FieldPath)
  | fieldIsNotScalar (path : FieldPath) (type : FieldType)
  | labelOfNonEnum (path : FieldPath) (type : FieldType)
  /-- An operand of a text operation, of the named kind, that is not a text. -/
  | notText (method kind : String)
deriving Repr

/-- Why a predicate is refused. -/
inductive QueryError where
  | unsupported (cause : Unsupported)
  | unbound (capture : String)
  | malformed (offset : Nat) (fault : SyntaxFault)
deriving Repr

/-- The name of a literal kind in messages. -/
def LiteralKind.name : LiteralKind → String
  | .int64 => "int64"
  | .float32 => "float32"
  | .float64 => "float64"
  | .decimal => "decimal"
  | .integer => "integer"

namespace SyntaxFault

def message : SyntaxFault → String
  | .halfOperator => "expected '==' or '=>'"
  | .unexpectedCharacter c => "unexpected character '" ++ String.singleton c ++ "'"
  | .badLiteral kind digits => "invalid " ++ kind.name ++ " literal '" ++ digits ++ "'"
  | .unknownSuffix c => "unknown numeric suffix '" ++ String.singleton c ++ "'"
  | .unterminatedString => "unterminated string literal"
  | .unknownEscape c => "unknown escape '\\" ++ String.singleton c ++ "'"
  | .trailingInput => "unexpected trailing input"
  | .unexpectedEnd => "unexpected end of input"
  | .expectedExpression => "expected an expression"
  | .strayMinus => "'-' must precede a numeric literal"
  | .literalOutOfRange => "numeric literal out of range"
  | .expectedIdentifier => "expected an identifier"
  | .expectedClosing => "expected ')'"
  | .expectedStaticCall => "expected '(' after static method"
  | .expectedSeparator => "expected ',' or ')'"

end SyntaxFault

namespace Unsupported

def methodNamed (method : String) : String := "method '" ++ method ++ "'"

def memberNamed (name : String) : String := "member '" ++ name ++ "'"

def comparisonBy (op : CompareOp) : String := "comparison '" ++ op.token ++ "'"

/-- How many arguments were expected and given. -/
def arityReason (expected actual : Nat) : String :=
  "expects " ++ natText expected ++ " argument(s), got " ++ natText actual

def construct : Unsupported → String
  | .memberOfValue name => memberNamed name
  | .foreignIdentifier name _ => "identifier '" ++ name ++ "'"
  | .methodIsValue method => methodNamed method
  | .unknownMethod method _ => methodNamed method
  | .staticArity method .. => "string." ++ method
  | .hasValueReceiver _ => "HasValue"
  | .bareParameter _ => "lambda parameter"
  | .labelReceiver => methodNamed "ToString"
  | .staticIsPredicate method => "string." ++ method
  | .hasValueIsPredicate => "HasValue"
  | .nestedPredicate => "nested boolean operand"
  | .incomparable op .. => comparisonBy op
  | .unrepresentable value _ => "constant " ++ value.display
  | .undeclaredVariant value => "enum constant " ++ value.display
  | .compositeConstant _ => "composite constant"
  | .noMembers path .. => memberNamed path.text
  | .undeclaredMember path .. => memberNamed path.text
  | .emptyPath => "empty field path"
  | .hasValueOfRequired path => path.text ++ ".HasValue"
  | .fieldIsNotPredicate path _ => memberNamed path.text
  | .constantIsNotPredicate value => "constant " ++ value.display
  | .notArity _ => "NOT"
  | .bothNull op => comparisonBy op
  | .orderedNull op => comparisonBy op
  | .enumOperand op _ => comparisonBy op
  | .textArity op _ => op.name
  | .membershipOfOperand path => path.text ++ ".Contains"
  | .membershipInScalar path _ => path.text ++ ".Contains"
  | .membershipInComposites path => path.text ++ ".Contains"
  | .membershipOfNull path => path.text ++ ".Contains"
  | .fieldIsNotScalar path _ => memberNamed path.text
  | .labelOfNonEnum path _ => path.text ++ ".ToString"
  | .notText method _ => method

def reason : Unsupported → String
  | .memberOfValue _ => "members can only be read from document fields"
  | .foreignIdentifier _ parameter =>
    "only the lambda parameter '" ++ parameter ++ "' and @captures may be referenced"
  | .methodIsValue _ => "returns a value, not a predicate"
  | .unknownMethod _ offset =>
    "not in the predicate vocabulary (offset " ++ natText offset ++ ")"
  | .staticArity _ expected actual => arityReason expected actual
  | .hasValueReceiver offset =>
    "HasValue at offset " ++ natText offset ++ " must follow a document field"
  | .bareParameter offset =>
    "the parameter at offset " ++ natText offset ++ " must be followed by a member"
  | .labelReceiver => "ToString is only supported on enum fields"
  | .staticIsPredicate _ => "returns a predicate, not a value"
  | .hasValueIsPredicate => "returns a predicate, not a value"
  | .nestedPredicate => "comparisons take fields and constants, not predicates"
  | .incomparable _ left right => "cannot compare " ++ left.name ++ " with " ++ right.name
  | .unrepresentable _ target => "cannot be represented as " ++ target.name
  | .undeclaredVariant _ => "not a declared label or code"
  | .compositeConstant value => "only scalar constants can be bound, got " ++ value.text
  | .noMembers path depth type =>
    "'" ++ path.textTo depth ++ "' is a " ++ type.name ++ " and has no members"
  | .undeclaredMember _ scope segment =>
    "'" ++ scope ++ "' does not declare '" ++ segment ++ "'"
  | .emptyPath => "a field path needs at least one segment"
  | .hasValueOfRequired _ => "HasValue requires a nullable field"
  | .fieldIsNotPredicate _ type => "a " ++ type.name ++ " field is not a predicate"
  | .constantIsNotPredicate _ => "only a bool constant is a predicate"
  | .notArity actual => "NOT takes exactly one operand, got " ++ natText actual
  | .bothNull _ => "both operands are null"
  | .orderedNull _ => "null can only be compared with == or !="
  | .enumOperand _ type => "a " ++ type.name ++ " operand cannot be compared with an enum"
  | .textArity op actual => arityReason op.arity actual
  | .membershipOfOperand _ => "array membership takes a constant"
  | .membershipInScalar path type =>
    "membership needs an array field, '" ++ path.text ++ "' is " ++ type.name
  | .membershipInComposites _ => "membership is only supported on arrays of scalars"
  | .membershipOfNull _ => "membership value is null"
  | .fieldIsNotScalar _ type => "a " ++ type.name ++ " field cannot be compared"
  | .labelOfNonEnum path type =>
    "ToString is only supported on enum fields, '" ++ path.text ++ "' is " ++ type.name
  | .notText _ kind => "expects string operands, got " ++ kind

end Unsupported

namespace QueryError

/-- The stable code of an error. -/
def code : QueryError → String
  | .unsupported _ => "PGKV_QUERY_UNSUPPORTED"
  | .unbound _ => "PGKV_QUERY_UNBOUND_CAPTURE"
  | .malformed .. => "PGKV_QUERY_PARSE"

def message : QueryError → String
  | .unsupported cause => "Unsupported expression: " ++ cause.construct ++ ": " ++ cause.reason
  | .unbound capture => "Unbound capture: @" ++ capture
  | .malformed offset fault => "Parse error at offset " ++ natText offset ++ ": " ++ fault.message

end QueryError

end DocStore
