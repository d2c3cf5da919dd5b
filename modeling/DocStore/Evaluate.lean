import DocStore.Check.Lowering
import DocStore.Text.Blank
import DocStore.Text.Case
import DocStore.Text.Search

/-!
# Evaluation in memory

What a checked predicate says of a JSON document, in three-valued logic: a missing field and a JSON
null are null, a comparison with null is null, the connectives are Kleene's, and a document matches
only where the predicate is true.

* `Check.eval`: the value of a predicate on a document, `none` standing for null;
* `Term.text?`, `Term.value?`, `Term.exactNumber?`: an operand as a text, under a comparison type,
  and as an exact number;
* `Check.holdsOf`: whether the value is true.
-/

namespace DocStore

open DocStore.Text

/-- A JSON value as the database extracts it as text; null has no text. -/
def Json.extracted? : Json → Option String
  | .null => none
  | .string s => some s
  | .bool b => some (if b then "true" else "false")
  | .number n => some n.text
  | j => some j.text

/-- The value at a path of a document. -/
def FieldPath.node? (path : FieldPath) (doc : Json) : Option Json := doc.descend? path.segments

/-- The text at a path of a document. -/
def FieldPath.extract? (path : FieldPath) (doc : Json) : Option String :=
  (path.node? doc).bind Json.extracted?

namespace Term

def text? (doc : Json) : Term → Option String
  | .field path _ => path.extract? doc
  | .node path => path.extract? doc
  | .label path variants => (path.extract? doc).map (labelOfText variants)
  | .lower inner => (text? doc inner).map Text.lower
  | .upper inner => (text? doc inner).map Text.upper
  | .constant .null => none
  | .constant (.text s) => some s
  | .constant value => some value.toJson.text

/-- The variants by which the text of an operand is projected: an enumeration field has its own. -/
def variantsOr (variants : List EnumVariant) : Term → List EnumVariant
  | .field _ (.enumeration _ own) => own
  | _ => variants

def value? (comparand : Comparand) (doc : Json) (term : Term) : Option Value :=
  match term, comparand with
  | .constant .null, _ => none
  | .constant value, _ => some value
  | term, .typed type => (term.text? doc).bind fun s => castText? s type
  | term, .label _ =>
    (term.text? doc).map fun s => .text (labelOfText (term.variantsOr []) s)
  | term, .code variants =>
    ((term.text? doc).bind (codeOfText? (term.variantsOr variants))).map .int64

def exactNumber? (doc : Json) (term : Term) : Option ExactNumber :=
  match term with
  | .constant value => value.exactNumber?
  | term => (term.text? doc).bind ExactNumber.read?

def isNullIn (doc : Json) (term : Term) : Bool :=
  match term with
  | .constant value => value.isNull
  | term => (term.text? doc).isNone

end Term

/-- The order of two operands under a comparison type; numbers are compared exactly under
`numeric`. -/
def Comparand.order? (comparand : Comparand) (doc : Json) (left right : Term) : Option Ordering :=
  if comparand = .typed .numeric then do
    let l ← left.exactNumber? doc
    let r ← right.exactNumber? doc
    return l.order r
  else do
    let l ← left.value? comparand doc
    let r ← right.value? comparand doc
    l.compare? r

/-- Whether a text is found in another as a pattern says. -/
def Pattern.holds : Pattern → String → String → Bool
  | .atStart, s, part => startsWith s part
  | .atEnd, s, part => endsWith s part
  | .anywhere, s, part => contains s part
  | .anywhereIgnoreCase, s, part => contains (lower s) (lower part)

/-- Whether a stored text, read as a database type, equals a value. -/
def textEquals (text : String) (type : SqlType) (value : Value) : Bool :=
  if type = .numeric then
    match ExactNumber.read? text, value.exactNumber? with
    | some a, some b => a = b
    | _, _ => false
  else match castText? text type with
    | some v => v.compare? value == some .eq
    | none => false

/-- Whether an array element is, as a JSON value, the JSON form of a value: strings equal strings,
truth values equal truth values, and numbers are equal as numbers. -/
def jsonEquals (type : SqlType) (value : Value) : Json → Bool
  | .string s =>
    match type with
    | .text => textEquals s type value
    | .uuid => textEquals s type value
    | _ => false
  | .bool b => type = .boolean && value = .bool b
  | .number n =>
    match type with
    | .text => false
    | .boolean => false
    | .uuid => false
    | _ => textEquals n.text .numeric value
  | _ => false

/-- Whether an array element that is read as a scalar equals a value. -/
def scannedEquals (type : SqlType) (value : Value) (item : Json) : Bool :=
  match item.extracted? with
  | some s => textEquals s type value
  | none => false

/-- Membership of a value in the array at a path. -/
def memberIn (path : FieldPath) (element : ScalarType) (comparand : Comparand) (value : Value)
    (doc : Json) : Option Bool :=
  match path.node? doc with
  | none => if element.isScanned then some false else none
  | some (.array items) =>
    some (items.any
      (if element.isScanned then scannedEquals comparand.sqlType value
      else jsonEquals comparand.sqlType value))
  | some _ => some false

/-- Kleene conjunction: false if some operand is, else null if some operand is. -/
def kleeneAll (values : List (Option Bool)) : Option Bool :=
  if values.contains (some false) then some false
  else if values.contains none then none
  else some true

/-- Kleene disjunction: true if some operand is, else null if some operand is. -/
def kleeneAny (values : List (Option Bool)) : Option Bool :=
  if values.contains (some true) then some true
  else if values.contains none then none
  else some false

namespace Check

mutual

/-- The value of a checked predicate on a document. -/
def eval (doc : Json) : Check → Option Bool
  | .compare op comparand left right => (comparand.order? doc left right).map op.holds
  | .isNull term negated => some (term.isNullIn doc != negated)
  | .search pattern receiver argument => do
    let s ← receiver.text? doc
    let part ← argument.text? doc
    return pattern.holds s part
  | .blank term =>
    match term.text? doc with
    | some s => some (allBlank s)
    | none => some true
  | .member path element comparand value => memberIn path element comparand value doc
  | .hasValue path => some (path.extract? doc).isSome
  | .flag path =>
    match (path.extract? doc).bind fun s => castText? s .boolean with
    | some (.bool b) => some b
    | _ => none
  | .literal b => some b
  | .all operands => kleeneAll (evalAll doc operands)
  | .any operands => kleeneAny (evalAll doc operands)
  | .not operand => (eval doc operand).map (!·)

def evalAll (doc : Json) : List Check → List (Option Bool)
  | [] => []
  | c :: rest => eval doc c :: evalAll doc rest

end

/-- Whether a checked predicate is true of a document. -/
def holdsOf (check : Check) (doc : Json) : Bool := check.eval doc == some true

end Check

end DocStore
