import DocStore.Proofs.Check.Values
import DocStore.Proofs.Text.Like

/-!
# What an expression of the database means

The value of an expression in a row, null being the absence of a value.  What the database itself
does with texts, comparisons and patterns is taken as given.

* `Engine`, `Engine.Documented`: the operations of the database, and what is known of them;
* `SqlExpr.value?`: the value of an expression;
* `SqlExpr.Ordinary`: the rows in which no cast fails and no not-a-number occurs;
* `foldl_sqlAnd`, `foldl_sqlOr`: connectives between any number of operands are Kleene's.
-/

namespace DocStore

open DocStore.Text

/-- A value of the database other than null. -/
inductive Datum where
  | json (value : Json)
  | scalar (value : Value)
  /-- A value of type `numeric`. -/
  | number (value : ExactNumber)

namespace Datum

def ofText (s : String) : Datum := .scalar (.text s)

def ofTruth (b : Bool) : Datum := .scalar (.bool b)

def json? : Datum → Option Json
  | .json j => some j
  | _ => none

def text? : Datum → Option String
  | .scalar (.text s) => some s
  | _ => none

def truth? : Datum → Option Bool
  | .scalar (.bool b) => some b
  | _ => none

/-- Whether it is the not-a-number of a floating-point type. -/
def isNaN : Datum → Bool
  | .scalar v => v.isNaN
  | _ => false

/-- A parameter under the type of its placeholder.  Under `numeric` it is the number that its
decimal text spells. -/
def ofParameter? (type : SqlType) (value : Value) : Option Datum :=
  match value with
  | .null => none
  | value => if type = .numeric then value.exactNumber?.map .number else some (.scalar value)

@[simp] theorem json?_json (j : Json) : (Datum.json j).json? = some j := rfl

@[simp] theorem text?_ofText (s : String) : (ofText s).text? = some s := rfl

@[simp] theorem truth?_ofTruth (b : Bool) : (ofTruth b).truth? = some b := rfl

end Datum

/-- What an arm of a case distinction yields, as a value. -/
def SqlConst.datum : SqlConst → Datum
  | .text s => .ofText s
  | .bigint i => .scalar (.int64 i)
  | .truth b => .ofTruth b

/-- The operations of a database that its expressions are built on. -/
structure Engine where
  cast : String → SqlType → Option Datum
  /-- A comparison, of texts by their bytes or by the collation of the database. -/
  compares : CompareOp → (bytewise : Bool) → Datum → Datum → Bool
  lower : String → String
  upper : String → String
  /-- Whether a text matches a regular expression. -/
  matchesPattern : String → String → Bool
  /-- Whether a text matches a pattern with wildcards when case is ignored. -/
  likeIgnoringCase : String → List Char → Bool
  /-- Whether a JSON value contains an array of one element. -/
  containsElement : Json → Datum → Bool

/-- A text read as a value of a type: under `numeric` as a number of any length. -/
def Datum.read? (type : SqlType) (s : String) : Option Datum :=
  if type = .numeric then (ExactNumber.read? s).map .number else (castText? s type).map .scalar

/-- What is known of the operations of the database.  Under a collation texts are equal only if they
are the same. -/
structure Engine.Documented (engine : Engine) : Prop where
  cast : ∀ {s type d}, Datum.read? type s = some d → engine.cast s type = some d
  compares : ∀ {op bytewise v w order}, v.compare? w = some order →
    (v.scalarType? = some .text → bytewise = true ∨ op.isEquality) →
    engine.compares op bytewise (.scalar v) (.scalar w) = op.holds order
  comparesNumbers : ∀ op bytewise m n,
    engine.compares op bytewise (.number m) (.number n) = op.holds (m.order n)
  lower : ∀ s, engine.lower s = Text.lower s
  upper : ∀ s, engine.upper s = Text.upper s
  blank : ∀ s, engine.matchesPattern SqlExpr.blankPattern s = allBlank s

/-- What an expression is evaluated in. -/
structure Row where
  document : Json
  /-- The values of the parameters, by index. -/
  parameter : Nat → Value
  /-- The text of the element at hand in a scan of an array. -/
  element : Option String

/-- Whether the parameters have the values that they were bound to. -/
def Row.Assigns (row : Row) (parameters : List Parameter) : Prop :=
  ∀ p ∈ parameters, row.parameter p.index = p.value

theorem assigns_append {row : Row} {xs ys : List Parameter} :
    row.Assigns (xs ++ ys) ↔ row.Assigns xs ∧ row.Assigns ys := by
  simp [Row.Assigns, or_imp, forall_and]

def sqlAnd : Option Bool → Option Bool → Option Bool
  | some false, _ => some false
  | _, some false => some false
  | some true, some true => some true
  | _, _ => none

def sqlOr : Option Bool → Option Bool → Option Bool
  | some true, _ => some true
  | _, some true => some true
  | some false, some false => some false
  | _, _ => none

/-- A text with wildcards at the ends where more may follow. -/
def Pattern.around (part : List Char) : Pattern → List Char
  | .atStart => part ++ ['%']
  | .atEnd => '%' :: part
  | .anywhere => '%' :: (part ++ ['%'])
  | .anywhereIgnoreCase => '%' :: (part ++ ['%'])

/-- Whether a text matches a pattern around an escaped text. -/
def Engine.like (engine : Engine) (pattern : Pattern) (s part : String) : Bool :=
  match pattern with
  | .anywhereIgnoreCase => engine.likeIgnoringCase s (pattern.around part.toList)
  | pattern => likeMatches (pattern.around part.toList) s.toList

namespace SqlExpr

variable (engine : Engine)

mutual

/-- The value of an expression in a row. -/
def value? (row : Row) : SqlExpr → Option Datum
  | .document => some (.json row.document)
  | .member base name => do
    let j ← (value? row base).bind Datum.json?
    (j.member? name).map .json
  | .memberText base name => do
    let j ← (value? row base).bind Datum.json?
    ((j.member? name).bind Json.extracted?).map .ofText
  | .wholeText base => do
    let j ← (value? row base).bind Datum.json?
    j.extracted?.map .ofText
  | .element => row.element.map .ofText
  | .placeholder index type => Datum.ofParameter? type (row.parameter index)
  | .truth b => some (.ofTruth b)
  | .nullCode => none
  | .cast operand type => do
    let s ← (value? row operand).bind Datum.text?
    engine.cast s type
  | .caseOf subject arms elseSubject => do
    let s ← (value? row subject).bind Datum.text?
    match arms.lookup s with
    | some yield => some yield.datum
    | none => if elseSubject then some (.ofText s) else none
  | .lower operand => ((value? row operand).bind Datum.text?).map fun s => .ofText (engine.lower s)
  | .upper operand => ((value? row operand).bind Datum.text?).map fun s => .ofText (engine.upper s)
  | .replace operand what replacement =>
    ((value? row operand).bind Datum.text?).map fun s =>
      .ofText (String.ofList (replaceAll what.toList replacement.toList s.toList))
  | .compare op left right bytewise => do
    let l ← value? row left
    let r ← value? row right
    return .ofTruth (engine.compares op bytewise l r)
  | .isNull operand negated => some (.ofTruth ((value? row operand).isNone != negated))
  | .like pattern receiver argument => do
    let s ← (value? row receiver).bind Datum.text?
    let part ← (value? row argument).bind Datum.text?
    return .ofTruth (engine.like pattern s part)
  | .blank operand =>
    some (.ofTruth (engine.matchesPattern blankPattern
      (((value? row operand).bind Datum.text?).getD "")))
  | .containsElement base item => do
    let j ← (value? row base).bind Datum.json?
    let d ← value? row item
    return .ofTruth (engine.containsElement j d)
  | .anyElement base elementValue item =>
    match (value? row base).bind Datum.json? with
    | some (.array items) =>
      some (.ofTruth (items.any fun j =>
        match value? { row with element := j.extracted? } elementValue, value? row item with
        | some l, some r => engine.compares .eq false l r
        | _, _ => false))
    | _ => some (.ofTruth false)
  | .all operands => ((truths row operands).foldl sqlAnd (some true)).map .ofTruth
  | .any operands => ((truths row operands).foldl sqlOr (some false)).map .ofTruth
  | .not operand => ((value? row operand).bind Datum.truth?).map fun b => .ofTruth !b

def truths (row : Row) : List SqlExpr → List (Option Bool)
  | [] => []
  | e :: rest => (value? row e).bind Datum.truth? :: truths row rest

end

/-- The truth value of a condition in a row. -/
def truth? (row : Row) (e : SqlExpr) : Option Bool := (e.value? engine row).bind Datum.truth?

mutual

/-- An expression with all expressions inside it. -/
def parts : SqlExpr → List SqlExpr
  | .document => [.document]
  | .member base name => .member base name :: parts base
  | .memberText base name => .memberText base name :: parts base
  | .wholeText base => .wholeText base :: parts base
  | .element => [.element]
  | .placeholder index type => [.placeholder index type]
  | .truth b => [.truth b]
  | .nullCode => [.nullCode]
  | .cast operand type => .cast operand type :: parts operand
  | .caseOf subject arms elseSubject => .caseOf subject arms elseSubject :: parts subject
  | .lower operand => .lower operand :: parts operand
  | .upper operand => .upper operand :: parts operand
  | .replace operand what replacement => .replace operand what replacement :: parts operand
  | .compare op left right bytewise =>
    .compare op left right bytewise :: (parts left ++ parts right)
  | .isNull operand negated => .isNull operand negated :: parts operand
  | .like pattern receiver argument =>
    .like pattern receiver argument :: (parts receiver ++ parts argument)
  | .blank operand => .blank operand :: parts operand
  | .containsElement base item => .containsElement base item :: (parts base ++ parts item)
  | .anyElement base elementValue item =>
    .anyElement base elementValue item :: (parts base ++ parts elementValue ++ parts item)
  | .all operands => .all operands :: partsOfAll operands
  | .any operands => .any operands :: partsOfAll operands
  | .not operand => .not operand :: parts operand

/-- Several expressions with all expressions inside them. -/
def partsOfAll : List SqlExpr → List SqlExpr
  | [] => []
  | e :: rest => parts e ++ partsOfAll rest

end

/-- Whether an expression, if it is a cast, casts a text that spells a value of the type, or null. -/
def castSucceeds (row : Row) : SqlExpr → Bool
  | .cast operand type =>
    ((operand.value? engine row).bind Datum.text?).all fun s => (Datum.read? type s).isSome
  | _ => true

/-- Whether an expression has its ordinary value in a row: no cast within it fails, and nothing
within it is a not-a-number. -/
structure Ordinary (row : Row) (e : SqlExpr) : Prop where
  casts : ∀ part ∈ e.parts, part.castSucceeds engine row
  numbers : ∀ part ∈ e.parts, (part.value? engine row).all (!·.isNaN)

variable {engine}

theorem Ordinary.mono {row : Row} {e part : SqlExpr} (h : e.Ordinary engine row)
    (inside : part.parts ⊆ e.parts) : part.Ordinary engine row :=
  ⟨fun inner mem => h.casts inner (inside mem), fun inner mem => h.numbers inner (inside mem)⟩

theorem mem_parts (e : SqlExpr) : e ∈ e.parts := by
  cases e <;> simp [parts]

theorem parts_subset_of_mem {e : SqlExpr} {es : List SqlExpr} (h : e ∈ es) :
    e.parts ⊆ partsOfAll es := by
  induction es with
  | nil => cases h
  | cons first rest ih =>
    rcases List.mem_cons.mp h with rfl | h
    · exact List.subset_append_left ..
    · exact List.Subset.trans (ih h) (List.subset_append_right ..)

end SqlExpr

/-! ## Connectives -/

theorem kleeneAll_cons (v : Option Bool) (vs : List (Option Bool)) :
    kleeneAll (v :: vs) = sqlAnd v (kleeneAll vs) := by
  by_cases someFalse : some false ∈ vs <;> by_cases someNull : none ∈ vs
  all_goals rcases v with _ | _ | _ <;> simp [kleeneAll, someFalse, someNull, sqlAnd]

theorem kleeneAny_cons (v : Option Bool) (vs : List (Option Bool)) :
    kleeneAny (v :: vs) = sqlOr v (kleeneAny vs) := by
  by_cases someTrue : some true ∈ vs <;> by_cases someNull : none ∈ vs
  all_goals rcases v with _ | _ | _ <;> simp [kleeneAny, someTrue, someNull, sqlOr]

theorem sqlAnd_assoc (a b c : Option Bool) : sqlAnd (sqlAnd a b) c = sqlAnd a (sqlAnd b c) := by
  rcases a with _ | _ | _ <;> rcases b with _ | _ | _ <;> rcases c with _ | _ | _ <;> rfl

theorem sqlOr_assoc (a b c : Option Bool) : sqlOr (sqlOr a b) c = sqlOr a (sqlOr b c) := by
  rcases a with _ | _ | _ <;> rcases b with _ | _ | _ <;> rcases c with _ | _ | _ <;> rfl

theorem foldl_sqlAnd_from (a : Option Bool) (vs : List (Option Bool)) :
    vs.foldl sqlAnd a = sqlAnd a (kleeneAll vs) := by
  induction vs generalizing a with
  | nil => rcases a with _ | _ | _ <;> rfl
  | cons v vs ih => rw [List.foldl_cons, ih, sqlAnd_assoc, kleeneAll_cons]

theorem foldl_sqlOr_from (a : Option Bool) (vs : List (Option Bool)) :
    vs.foldl sqlOr a = sqlOr a (kleeneAny vs) := by
  induction vs generalizing a with
  | nil => rcases a with _ | _ | _ <;> rfl
  | cons v vs ih => rw [List.foldl_cons, ih, sqlOr_assoc, kleeneAny_cons]

/-- A chain of `AND` is Kleene's conjunction of all its operands. -/
theorem foldl_sqlAnd (vs : List (Option Bool)) : vs.foldl sqlAnd (some true) = kleeneAll vs := by
  rw [foldl_sqlAnd_from]
  rcases kleeneAll vs with _ | _ | _ <;> rfl

/-- A chain of `OR` is Kleene's disjunction of all its operands. -/
theorem foldl_sqlOr (vs : List (Option Bool)) : vs.foldl sqlOr (some false) = kleeneAny vs := by
  rw [foldl_sqlOr_from]
  rcases kleeneAny vs with _ | _ | _ <;> rfl

/-! ## A database -/

/-- A database that does what is known of it. -/
def Engine.reference : Engine where
  cast s type := Datum.read? type s
  compares op _ l r :=
    match l, r with
    | .scalar v, .scalar w => (v.compare? w).any op.holds
    | .number m, .number n => op.holds (m.order n)
    | _, _ => false
  lower := Text.lower
  upper := Text.upper
  matchesPattern pattern s := pattern == SqlExpr.blankPattern && allBlank s
  likeIgnoringCase s pattern :=
    likeMatches (Text.lower (String.ofList pattern)).toList (Text.lower s).toList
  containsElement j d :=
    match j, d with
    | .array items, .scalar v =>
      items.any (jsonEquals ((v.scalarType?.map ScalarType.sqlType).getD .text) v)
    | .array items, .number n =>
      items.any fun item => (item.extracted?.bind ExactNumber.read?) == some n
    | _, _ => false

theorem Engine.reference_documented : Engine.reference.Documented where
  cast h := h
  compares ordered _ := by simp [reference, ordered]
  comparesNumbers _ _ _ _ := rfl
  lower _ := rfl
  upper _ := rfl
  blank s := by simp [reference]

end DocStore
