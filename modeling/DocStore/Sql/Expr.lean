import DocStore.Check.Basic

/-!
# SQL expressions

The expressions that filters are translated to, over a column of JSON documents, and their text.
Field names and enumeration labels stand in the text as quoted literals, constants only as numbered
placeholders with a cast.

* `SqlExpr.pieces`, `SqlExpr.text`: the text of an expression, as fixed code, literals and
  placeholders one after another;
* `SqlExpr.castTo`: a text-valued expression brought to a database type;
* `SqlExpr.labelOf`, `SqlExpr.codeOf`: the label and the code of a stored enumeration text.
-/

namespace DocStore

open DocStore.Text

/-- What an arm of a case distinction yields. -/
inductive SqlConst where
  | text (value : String)
  | bigint (value : Int64)
  | truth (value : Bool)
deriving DecidableEq, Repr

/-- An expression of the database. -/
inductive SqlExpr where
  /-- The document column. -/
  | document
  /-- A member of a JSON value, as JSON. -/
  | member (base : SqlExpr) (name : String)
  /-- A member of a JSON value, as text. -/
  | memberText (base : SqlExpr) (name : String)
  /-- A JSON value, as text. -/
  | wholeText (base : SqlExpr)
  /-- The element at hand in a scan of an array. -/
  | element
  | placeholder (index : Nat) (type : SqlType)
  | truth (value : Bool)
  | nullCode
  | cast (operand : SqlExpr) (type : SqlType)
  /-- The yield of the first arm whose text the subject equals; otherwise the subject or null. -/
  | caseOf (subject : SqlExpr) (arms : List (String × SqlConst)) (elseSubject : Bool)
  | lower (operand : SqlExpr)
  | upper (operand : SqlExpr)
  | replace (operand : SqlExpr) (what replacement : String)
  | compare (op : CompareOp) (left right : SqlExpr) (bytewise : Bool)
  | isNull (operand : SqlExpr) (negated : Bool)
  | like (pattern : Pattern) (receiver argument : SqlExpr)
  | blank (operand : SqlExpr)
  /-- Containment of a one-element array in a JSON value. -/
  | containsElement (base item : SqlExpr)
  /-- Whether some element of an array equals an item under a type; false of what is no array. -/
  | anyElement (base elementValue item : SqlExpr)
  | all (operands : List SqlExpr)
  | any (operands : List SqlExpr)
  | not (operand : SqlExpr)
deriving Repr

namespace SqlExpr

/-- A text-valued expression brought to a database type.  Truth values are spelled out, so that any
other text is null and no cast can fail on it. -/
def castTo (type : SqlType) (e : SqlExpr) : SqlExpr :=
  match type with
  | .text => e
  | .boolean => .caseOf e [("true", .truth true), ("false", .truth false)] false
  | type => .cast e type

/-- The label of a stored enumeration text: codes stand for labels, any other text for itself. -/
def labelOf (variants : List EnumVariant) (e : SqlExpr) : SqlExpr :=
  if variants.isEmpty then e
  else .caseOf e (variants.map fun v => (v.codeText, .text v.label)) true

/-- The code of a stored enumeration text, looked for among the labels and then among the codes. -/
def codeOf (variants : List EnumVariant) (e : SqlExpr) : SqlExpr :=
  if variants.isEmpty then .nullCode
  else .caseOf e
    (variants.map (fun v => (v.label, SqlConst.bigint v.code)) ++
      variants.map (fun v => (v.codeText, SqlConst.bigint v.code))) false

/-- The JSON value at a path of the document. -/
def node (path : FieldPath) : SqlExpr := path.segments.foldl .member .document

/-- The text of the value at a path of the document. -/
def leafText (path : FieldPath) : SqlExpr :=
  match path.segments.getLast? with
  | none => .wholeText .document
  | some last => .memberText (path.segments.dropLast.foldl .member .document) last

/-- A pattern argument with its metacharacters escaped by the database. -/
def escaped (e : SqlExpr) : SqlExpr :=
  .replace (.replace (.replace e "\\" "\\\\") "%" "\\%") "_" "\\_"

/-- A string literal: a quote inside it is written twice. -/
def quote (s : String) : String :=
  let doubled := s.toList.flatMap fun c => if c = '\'' then ['\'', '\''] else [c]
  String.ofList ('\'' :: doubled ++ ['\''])

def documentColumn : String := "value"

/-- The text that a placeholder is written as. -/
def placeholderText (index : Nat) (type : SqlType) : String :=
  "$" ++ natText index ++ "::" ++ type.name

/-- The blank texts, with every blank character spelled out so that the match does not depend on the
locale of the database. -/
def blankPattern : String :=
  "^[\\t\\n\\v\\f\\r \\u0085\\u00a0\\u1680\\u2000-\\u200a\\u2028\\u2029\\u202f\\u205f\\u3000]*$"

end SqlExpr

/-- A part of the text of an expression. -/
inductive Piece where
  | code (s : String)
  | literal (s : String)
  | placeholder (index : Nat) (type : SqlType)
deriving DecidableEq, Repr

namespace Piece

def text : Piece → String
  | .code s => s
  | .literal s => SqlExpr.quote s
  | .placeholder index type => SqlExpr.placeholderText index type

def textOf (ps : List Piece) : String := String.join (ps.map text)

/-- Lists of pieces with a separator between them. -/
def joined (separator : String) : List (List Piece) → List Piece
  | [] => []
  | [ps] => ps
  | ps :: rest => ps ++ .code separator :: joined separator rest

end Piece

/-- The pieces of what an arm yields. -/
def SqlConst.pieces : SqlConst → List Piece
  | .text s => [.literal s]
  | .bigint i => [.code "CAST(", .code (intText i.toInt), .code " AS bigint)"]
  | .truth b => [.code (if b then "TRUE" else "FALSE")]

namespace SqlExpr

/-- The pieces of the arms of a case distinction. -/
def armsPieces (arms : List (String × SqlConst)) : List Piece :=
  Piece.joined " " (arms.map fun arm =>
    .code "WHEN " :: .literal arm.1 :: .code " THEN " :: arm.2.pieces)

def likePieces (pattern : Pattern) (receiver argument : List Piece) : List Piece :=
  match pattern with
  | .atStart =>
    .code "(" :: receiver ++ .code " LIKE (" :: argument ++
      [Piece.code " || ", .literal "%", .code "))"]
  | .atEnd =>
    .code "(" :: receiver ++ .code " LIKE (" :: .literal "%" :: .code " || " :: argument ++
      [Piece.code "))"]
  | .anywhere =>
    .code "(" :: receiver ++ .code " LIKE (" :: .literal "%" :: .code " || " :: argument ++
      [Piece.code " || ", .literal "%", .code "))"]
  | .anywhereIgnoreCase =>
    .code "(" :: receiver ++ .code " ILIKE (" :: .literal "%" :: .code " || " :: argument ++
      [Piece.code " || ", .literal "%", .code "))"]

/-- The pieces of operands in parentheses with a connective between them. -/
def junctionPieces (joiner : String) (operands : List (List Piece)) : List Piece :=
  .code "(" :: Piece.joined joiner (operands.map fun ps => .code "(" :: ps ++ [Piece.code ")"]) ++
    [Piece.code ")"]

mutual

def pieces : SqlExpr → List Piece
  | .document => [.code documentColumn]
  | .member base name => .code "(" :: pieces base ++ [Piece.code " -> ", .literal name, .code ")"]
  | .memberText base name =>
    .code "(" :: pieces base ++ [Piece.code " ->> ", .literal name, .code ")"]
  | .wholeText base =>
    .code "(" :: pieces base ++ [Piece.code " #>> ", .literal "\x7b\x7d", .code ")"]
  | .element => [.code "item.elem"]
  | .placeholder index type => [.placeholder index type]
  | .truth b => (SqlConst.truth b).pieces
  | .nullCode => [.code "CAST(NULL AS bigint)"]
  | .cast operand type =>
    .code "CAST(" :: pieces operand ++ [Piece.code " AS ", .code type.name, .code ")"]
  | .caseOf subject arms elseSubject =>
    .code "(CASE " :: pieces subject ++ .code " " :: armsPieces arms ++
      (if elseSubject then .code " ELSE " :: pieces subject else []) ++ [Piece.code " END)"]
  | .lower operand => .code "LOWER(" :: pieces operand ++ [Piece.code ")"]
  | .upper operand => .code "UPPER(" :: pieces operand ++ [Piece.code ")"]
  | .replace operand what replacement =>
    .code "replace(" :: pieces operand ++
      [Piece.code ", ", .literal what, .code ", ", .literal replacement, .code ")"]
  | .compare op left right bytewise =>
    .code "(" :: pieces left ++ .code " " :: .code op.token :: .code " " :: pieces right ++
      [Piece.code (if bytewise then " COLLATE \"C\")" else ")")]
  | .isNull operand negated =>
    .code "(" :: pieces operand ++ [Piece.code (if negated then " IS NOT NULL)" else " IS NULL)")]
  | .like pattern receiver argument => likePieces pattern (pieces receiver) (pieces argument)
  | .blank operand =>
    .code "(COALESCE(" :: pieces operand ++
      [Piece.code ", ", .literal "", .code ") ~ ", .literal blankPattern, .code ")"]
  | .containsElement base item =>
    .code "(" :: pieces base ++ .code " @> jsonb_build_array(" :: pieces item ++ [Piece.code "))"]
  | .anyElement base elementValue item =>
    .code "(CASE WHEN jsonb_typeof(" :: pieces base ++ .code ") = " :: .literal "array" ::
      .code " THEN EXISTS (SELECT 1 FROM jsonb_array_elements_text(" :: pieces base ++
      .code ") AS item(elem) WHERE " :: pieces elementValue ++ .code " = " :: pieces item ++
      [Piece.code ") ELSE FALSE END)"]
  | .all operands =>
    if operands.isEmpty then [.code "TRUE"] else junctionPieces " AND " (piecesOfAll operands)
  | .any operands =>
    if operands.isEmpty then [.code "FALSE"] else junctionPieces " OR " (piecesOfAll operands)
  | .not operand => .code "(NOT (" :: pieces operand ++ [Piece.code "))"]

def piecesOfAll : List SqlExpr → List (List Piece)
  | [] => []
  | e :: rest => pieces e :: piecesOfAll rest

end

def text (e : SqlExpr) : String := Piece.textOf e.pieces

end SqlExpr

end DocStore
