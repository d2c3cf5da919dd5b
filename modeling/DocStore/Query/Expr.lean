import DocStore.Query.Token

/-!
# Expressions of a predicate text

The syntax of predicates: boolean connectives over comparisons and calls, which are written after
their receiver.  A text may start with the head of a lambda, which names the parameter that all
paths start from.

    text    ::= [ident =>] or
    or      ::= and (|| and)*
    and     ::= unary (&& unary)*
    unary   ::= ! unary | compare
    compare ::= postfix [op postfix]
    postfix ::= primary (. ident [( args )])*
    primary ::= literal | - number | @ ident | string . ident ( args ) | ident | ( or )

Offsets are kept where a later message needs them.
-/

namespace DocStore

/-- A syntax tree.  Chains of one connective are one node. -/
inductive Expr where
  | path (segments : List String) (offset : Nat)
  | literal (value : Value)
  | capture (name : String)
  | call (receiver : Expr) (method : String) (args : List Expr) (offset : Nat)
  | staticCall (method : String) (args : List Expr) (offset : Nat)
  | hasValue (receiver : Expr) (offset : Nat)
  | compare (op : CompareOp) (left right : Expr)
  | and (operands : List Expr)
  | or (operands : List Expr)
  | not (operand : Expr)
deriving Repr

namespace Expr

/-- What stays the same while a text is read: the parameter of the lambda, if there is one, and the
length of the text in bytes. -/
structure Context where
  parameter : Option String
  length : Nat
deriving DecidableEq, Repr

/-- The outcome of reading: an error, or what was read. -/
abbrev Outcome := Except QueryError

/-- The offset of the next token, or the end of the text. -/
def Context.offset (ctx : Context) : List Token → Nat
  | [] => ctx.length
  | token :: _ => token.offset

def Context.fault {α : Type} (ctx : Context) (tokens : List Token) (f : SyntaxFault) :
    Outcome α :=
  .error (.malformed (ctx.offset tokens) f)

def Context.expect (ctx : Context) (lexeme : Lexeme) (f : SyntaxFault) (tokens : List Token) :
    Outcome (List Token) :=
  match tokens with
  | token :: rest => if token.lexeme = lexeme then .ok rest else ctx.fault tokens f
  | [] => ctx.fault tokens f

def Context.identifier (ctx : Context) (tokens : List Token) :
    Outcome ((String × Nat) × List Token) :=
  match tokens with
  | ⟨.ident name, offset⟩ :: rest => .ok ((name, offset), rest)
  | _ => ctx.fault tokens .expectedIdentifier

/-- The contrary of a numeric literal, in the least width that holds it.  The contrary of the least
64-bit integer does not exist, but no literal denotes that integer. -/
def negated? : Value → Option Value
  | .int32 i => some (.int32 (-i))
  | .int64 i => if i = Int64.minValue then none else some (Value.ofInt64 (-i))
  | .float32 x => some (.float32 x.negate)
  | .float64 x => some (.float64 x.negate)
  | .decimal d => some (.decimal d.negate)
  | _ => none

/-- A chain of one connective; a single operand stands for itself. -/
def chain (node : List Expr → Expr) (first : Expr) (more : List Expr) : Expr :=
  if more.isEmpty then first else node (first :: more)

/-- A word in the place of an operand: the names of constants, the parameter, or the first segment
of a path where there is no parameter. -/
def ofWord (ctx : Context) (name : String) (offset : Nat) : Outcome Expr :=
  if name = "true" then .ok (.literal (.bool true))
  else if name = "false" then .ok (.literal (.bool false))
  else if name = "null" then .ok (.literal .null)
  else match ctx.parameter with
    | none => .ok (.path [name] offset)
    | some parameter =>
      if parameter = name then .ok (.path [] offset)
      else .error (.unsupported (.foreignIdentifier name parameter))

/-- A member without a call: the reserved test for a value, or one more segment of a path. -/
def memberOf (receiver : Expr) (name : String) (offset : Nat) : Outcome Expr :=
  if name = "HasValue" then .ok (.hasValue receiver offset)
  else match receiver with
    | .path segments start => .ok (.path (segments ++ [name]) start)
    | _ => .error (.unsupported (.memberOfValue name))

mutual

/-- A chain of `||`. -/
def readOr : Nat → Context → List Token → Outcome (Expr × List Token)
  | 0, ctx, _ => ctx.fault [] .unexpectedEnd
  | fuel + 1, ctx, tokens => do
    let (first, tokens) ← readAnd fuel ctx tokens
    let (more, tokens) ← readOrTail fuel ctx tokens
    return (chain .or first more, tokens)

/-- The further operands of a disjunction. -/
def readOrTail : Nat → Context → List Token → Outcome (List Expr × List Token)
  | 0, ctx, _ => ctx.fault [] .unexpectedEnd
  | fuel + 1, ctx, ⟨.orOr, _⟩ :: tokens => do
    let (operand, tokens) ← readAnd fuel ctx tokens
    let (more, tokens) ← readOrTail fuel ctx tokens
    return (operand :: more, tokens)
  | _ + 1, _, tokens => .ok ([], tokens)

/-- A chain of `&&`. -/
def readAnd : Nat → Context → List Token → Outcome (Expr × List Token)
  | 0, ctx, _ => ctx.fault [] .unexpectedEnd
  | fuel + 1, ctx, tokens => do
    let (first, tokens) ← readUnary fuel ctx tokens
    let (more, tokens) ← readAndTail fuel ctx tokens
    return (chain .and first more, tokens)

/-- The further operands of a conjunction. -/
def readAndTail : Nat → Context → List Token → Outcome (List Expr × List Token)
  | 0, ctx, _ => ctx.fault [] .unexpectedEnd
  | fuel + 1, ctx, ⟨.andAnd, _⟩ :: tokens => do
    let (operand, tokens) ← readUnary fuel ctx tokens
    let (more, tokens) ← readAndTail fuel ctx tokens
    return (operand :: more, tokens)
  | _ + 1, _, tokens => .ok ([], tokens)

/-- Any number of `!` before a comparison. -/
def readUnary : Nat → Context → List Token → Outcome (Expr × List Token)
  | 0, ctx, _ => ctx.fault [] .unexpectedEnd
  | fuel + 1, ctx, ⟨.bang, _⟩ :: tokens => do
    let (operand, tokens) ← readUnary fuel ctx tokens
    return (.not operand, tokens)
  | fuel + 1, ctx, tokens => readCompare fuel ctx tokens

/-- An operand, or two with an operator between them; comparisons do not chain. -/
def readCompare : Nat → Context → List Token → Outcome (Expr × List Token)
  | 0, ctx, _ => ctx.fault [] .unexpectedEnd
  | fuel + 1, ctx, tokens => do
    let (left, tokens) ← readPostfix fuel ctx tokens
    match tokens with
    | ⟨.comparison op, _⟩ :: tokens =>
      let (right, tokens) ← readPostfix fuel ctx tokens
      return (.compare op left right, tokens)
    | _ => return (left, tokens)

/-- A primary with the members and calls after it. -/
def readPostfix : Nat → Context → List Token → Outcome (Expr × List Token)
  | 0, ctx, _ => ctx.fault [] .unexpectedEnd
  | fuel + 1, ctx, tokens => do
    let (receiver, tokens) ← readPrimary fuel ctx tokens
    readMembers fuel ctx receiver tokens

/-- The members and calls after a receiver. -/
def readMembers : Nat → Context → Expr → List Token → Outcome (Expr × List Token)
  | 0, ctx, _, _ => ctx.fault [] .unexpectedEnd
  | fuel + 1, ctx, receiver, ⟨.dot, _⟩ :: tokens => do
    let ((name, offset), tokens) ← ctx.identifier tokens
    match tokens with
    | ⟨.openParen, _⟩ :: tokens =>
      let (args, tokens) ← readArgs fuel ctx tokens
      readMembers fuel ctx (.call receiver name args offset) tokens
    | _ =>
      let member ← memberOf receiver name offset
      readMembers fuel ctx member tokens
  | _ + 1, _, receiver, tokens => .ok (receiver, tokens)

/-- What a path or an operand starts with, or a whole text in parentheses. -/
def readPrimary : Nat → Context → List Token → Outcome (Expr × List Token)
  | 0, ctx, _ => ctx.fault [] .unexpectedEnd
  | _ + 1, ctx, [] => ctx.fault [] .unexpectedEnd
  | fuel + 1, ctx, token :: rest =>
    match token.lexeme with
    | .number v => .ok (.literal v, rest)
    | .string s => .ok (.literal (.text s), rest)
    | .minus =>
      match rest with
      | ⟨.number v, _⟩ :: rest =>
        match negated? v with
        | some v => .ok (.literal v, rest)
        | none => ctx.fault (token :: rest) .literalOutOfRange
      | _ => ctx.fault (token :: rest) .strayMinus
    | .atSign => do
      let ((name, _), rest) ← ctx.identifier rest
      return (.capture name, rest)
    | .openParen => do
      let (inner, rest) ← readOr fuel ctx rest
      let rest ← ctx.expect .closeParen .expectedClosing rest
      return (inner, rest)
    | .ident name =>
      match name, rest with
      | "string", ⟨.dot, _⟩ :: rest => do
        let ((method, offset), rest) ← ctx.identifier rest
        let rest ← ctx.expect .openParen .expectedStaticCall rest
        let (args, rest) ← readArgs fuel ctx rest
        return (.staticCall method args offset, rest)
      | _, _ => (ofWord ctx name token.offset).map fun e => (e, rest)
    | _ => ctx.fault (token :: rest) .expectedExpression

/-- The arguments of a call up to its closing parenthesis. -/
def readArgs : Nat → Context → List Token → Outcome (List Expr × List Token)
  | 0, ctx, _ => ctx.fault [] .unexpectedEnd
  | _ + 1, _, ⟨.closeParen, _⟩ :: tokens => .ok ([], tokens)
  | fuel + 1, ctx, tokens => readArgList fuel ctx tokens

/-- One or more arguments up to the closing parenthesis. -/
def readArgList : Nat → Context → List Token → Outcome (List Expr × List Token)
  | 0, ctx, _ => ctx.fault [] .unexpectedEnd
  | fuel + 1, ctx, tokens => do
    let (arg, tokens) ← readOr fuel ctx tokens
    match tokens with
    | ⟨.closeParen, _⟩ :: tokens => return ([arg], tokens)
    | tokens =>
      let tokens ← ctx.expect .comma .expectedSeparator tokens
      let (args, tokens) ← readArgList fuel ctx tokens
      return (arg :: args, tokens)

end

/-- The parameter that a lambda head names, and the tokens of its body. -/
def splitHead : List Token → Option String × List Token
  | ⟨.ident name, _⟩ :: ⟨.arrow, _⟩ :: body => (some name, body)
  | tokens => (none, tokens)

/-- The tree of a whole token sequence.  A level of parentheses passes through seven rules, so the
fuel is enough for every text. -/
def ofTokens (length : Nat) (tokens : List Token) : Outcome Expr := do
  let head := splitHead tokens
  let ctx : Context := ⟨head.1, length⟩
  let (e, rest) ← readOr (8 * tokens.length + 8) ctx head.2
  match rest with
  | [] => return e
  | _ => ctx.fault rest .trailingInput

def ofText (s : String) : Outcome Expr := do
  let tokens ← Token.scan s
  ofTokens s.utf8ByteSize tokens

end Expr

end DocStore
