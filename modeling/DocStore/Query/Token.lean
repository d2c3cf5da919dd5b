import DocStore.Query.Error
import DocStore.Typing.Conversion
import DocStore.Text.Blank

/-!
# Tokens of a predicate text

A predicate text is cut into tokens, each with the byte offset at which it starts.

* `Token.scan`: the tokens of a text, or the first fault in it;
* `readNumber`: a numeric literal, whose type is told by its suffix or else by its form;
* `readString`: a string literal, which ends at the first quote that is not escaped.
-/

namespace DocStore

open DocStore.Text

/-- What a token says. -/
inductive Lexeme where
  | ident (name : String)
  | number (value : Value)
  | string (value : String)
  | comparison (op : CompareOp)
  | arrow
  | orOr
  | andAnd
  | bang
  | dot
  | comma
  | minus
  | atSign
  | openParen
  | closeParen
deriving DecidableEq, Repr

/-- A lexeme and the byte offset at which it starts. -/
structure Token where
  lexeme : Lexeme
  offset : Nat
deriving DecidableEq, Repr

namespace Token

/-- A lexeme read at the start of a text, the offset after it, and the text after it. -/
abbrev Read (α : Type) := Except QueryError (α × Nat × List Char)

def fault {α : Type} (offset : Nat) (f : SyntaxFault) : Except QueryError α :=
  .error (.malformed offset f)

/-- Whether a character may stand inside an identifier. -/
def isIdentChar (c : Char) : Bool := c.isAlphanum || c = '_'

/-- Whether an identifier may start with a character. -/
def isIdentStart (c : Char) : Bool := c.isAlpha || c = '_'

/-- The fraction of a numeric literal, and the text after it. -/
def splitFraction : List Char → List Char × List Char
  | '.' :: c :: rest =>
    if c.isDigit then ('.' :: c :: rest.takeWhile Char.isDigit, rest.dropWhile Char.isDigit)
    else ([], '.' :: c :: rest)
  | cs => ([], cs)

/-- The sign of an exponent, and the text after it. -/
def splitSign : List Char → List Char × List Char
  | c :: rest => if c = '+' || c = '-' then ([c], rest) else ([], c :: rest)
  | [] => ([], [])

/-- The exponent of a numeric literal, and the text after it.  A mark that no digit follows is not
an exponent. -/
def splitExponent : List Char → List Char × List Char
  | c :: rest =>
    let signed := splitSign rest
    let digits := signed.2.takeWhile Char.isDigit
    if (c = 'e' || c = 'E') && !digits.isEmpty then
      (c :: signed.1 ++ digits, signed.2.dropWhile Char.isDigit)
    else ([], c :: rest)
  | [] => ([], [])

/-- A literal of a kind, or the fault that it cannot be read as one. -/
def literal (start : Nat) (digits : List Char) (kind : LiteralKind) (value : Option Value) :
    Except QueryError Value :=
  match value with
  | some v => .ok v
  | none => fault start (.badLiteral kind (String.ofList digits))

/-- The value of a numeric literal without suffix: a number with a fraction or an exponent is a
64-bit floating-point number, any other an integer of the least width that holds it. -/
def unmarkedValue (start : Nat) (digits : List Char) (real : Bool) : Except QueryError Value :=
  if real then literal start digits .float64 ((Floating.readChars? digits).map .float64)
  else literal start digits .integer
    ((readIntIn? .signed64 digits).map fun i => Value.ofInt64 (.ofInt i))

/-- The value of a numeric literal with a suffix, which stands at `start + digits.length`. -/
def markedValue (start : Nat) (digits : List Char) (real : Bool) (mark : Char) :
    Except QueryError Value :=
  if mark = 'l' && !real then
    literal start digits .int64
      ((readIntIn? .signed64 digits).map fun i => .int64 (.ofInt i))
  else if mark = 'f' then
    literal start digits .float32 ((Floating.readChars? digits).map .float32)
  else if mark = 'd' then
    literal start digits .float64 ((Floating.readChars? digits).map .float64)
  else if mark = 'm' then literal start digits .decimal ((Decimal.readChars? digits).map .decimal)
  else fault (start + digits.length) (.unknownSuffix mark)

/-- A numeric literal, which starts with a digit. -/
def readNumber (start : Nat) (cs : List Char) : Read Lexeme :=
  let fraction := splitFraction (cs.dropWhile Char.isDigit)
  let exponent := splitExponent fraction.2
  let digits := cs.takeWhile Char.isDigit ++ fraction.1 ++ exponent.1
  let real := !fraction.1.isEmpty || !exponent.1.isEmpty
  let finish := start + digits.length
  match exponent.2 with
  | c :: rest =>
    if c.isAlpha then
      (markedValue start digits real c.toLower).map fun v => (.number v, finish + 1, rest)
    else (unmarkedValue start digits real).map fun v => (.number v, finish, c :: rest)
  | [] => (unmarkedValue start digits real).map fun v => (.number v, finish, [])

/-- The character that an escape stands for, given what follows its backslash. -/
def escape? : Char → Option Char
  | '"' => some '"'
  | '\\' => some '\\'
  | 'n' => some '\n'
  | 't' => some '\t'
  | 'r' => some '\r'
  | _ => none

/-- The rest of a string literal that starts at `start`, read from `offset` on. -/
def readString (start : Nat) : Nat → List Char → Read (List Char)
  | _, [] => fault start .unterminatedString
  | offset, '"' :: rest => .ok ([], offset + 1, rest)
  | _, ['\\'] => fault start .unterminatedString
  | offset, '\\' :: c :: rest =>
    match escape? c with
    | some d => (readString start (offset + 2) rest).map fun r => (d :: r.1, r.2)
    | none => fault offset (.unknownEscape c)
  | offset, c :: rest =>
    (readString start (offset + c.utf8Size) rest).map fun r => (c :: r.1, r.2)

/-- An operator of two characters, if the second is the expected one, or else of the first alone. -/
def oneOrTwo (offset : Nat) (second : Char) (two one : Lexeme) : List Char → Read Lexeme
  | c :: rest =>
    if c = second then .ok (two, offset + 2, rest) else .ok (one, offset + 1, c :: rest)
  | [] => .ok (one, offset + 1, [])

/-- The lexeme that starts with the character `c`, which is not spacing. -/
def read (offset : Nat) (c : Char) (rest : List Char) : Read Lexeme :=
  match c with
  | '(' => .ok (.openParen, offset + 1, rest)
  | ')' => .ok (.closeParen, offset + 1, rest)
  | ',' => .ok (.comma, offset + 1, rest)
  | '.' => .ok (.dot, offset + 1, rest)
  | '@' => .ok (.atSign, offset + 1, rest)
  | '-' => .ok (.minus, offset + 1, rest)
  | '"' =>
    (readString offset (offset + 1) rest).map fun r => (.string (String.ofList r.1), r.2)
  | '=' =>
    match rest with
    | '=' :: rest => .ok (.comparison .eq, offset + 2, rest)
    | '>' :: rest => .ok (.arrow, offset + 2, rest)
    | _ => fault offset .halfOperator
  | '!' => oneOrTwo offset '=' (.comparison .ne) .bang rest
  | '<' => oneOrTwo offset '=' (.comparison .le) (.comparison .lt) rest
  | '>' => oneOrTwo offset '=' (.comparison .ge) (.comparison .gt) rest
  | _ =>
    if c = '&' && rest.head? = some '&' then .ok (.andAnd, offset + 2, rest.drop 1)
    else if c = '|' && rest.head? = some '|' then .ok (.orOr, offset + 2, rest.drop 1)
    else if c.isDigit then readNumber offset (c :: rest)
    else if isIdentStart c then
      let name := c :: rest.takeWhile isIdentChar
      .ok (.ident (String.ofList name), offset + name.length, rest.dropWhile isIdentChar)
    else fault offset (.unexpectedCharacter c)

/-- The tokens of a text that starts at `offset`; the fuel bounds their number and that of the
spacing characters between them. -/
def scanFrom : Nat → Nat → List Char → Except QueryError (List Token)
  | 0, _, _ => .ok []
  | _ + 1, _, [] => .ok []
  | fuel + 1, offset, c :: rest =>
    if isSpacing c then scanFrom fuel (offset + 1) rest
    else match read offset c rest with
      | .error e => .error e
      | .ok (lexeme, next, rest) => (scanFrom fuel next rest).map (⟨lexeme, offset⟩ :: ·)

/-- The tokens of a text, or the first fault in it. -/
def scan (s : String) : Except QueryError (List Token) :=
  scanFrom s.toList.length 0 s.toList

end Token

end DocStore
