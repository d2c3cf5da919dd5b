import DocStore.Proofs.Numeric.Integer
import DocStore.Proofs.Sql.Meaning
import DocStore.Proofs.Sql.Token
import DocStore.Sql.Statement

/-!
# Expressions read from SQL text

What the database reads a text as that stands for a value, be it an operand or a condition.  A
reader takes token after token.  It looks at most one token ahead, to see whether an expression goes
on, so what it reads does not depend on what comes after, unless that goes on with it.

* `SqlOperand`, `SqlOperand.value?`: an expression as it is read, and its value;
* `SqlReader.primary`, …, `SqlReader.expression`: the reader, one definition for each level of
  precedence;
* `SqlReader.expression_extends`: what is read is read with enough fuel, whatever ends it;
* `SqlOperand.ofText`, `SqlOperand.valueOfText?`: the expression of a text, and the value of a text.
-/

namespace DocStore

open DocStore.Text

/-! ## Expressions -/

mutual

/-- An expression as the database reads it. -/
inductive SqlOperand where
  /-- A column of the row at hand, or of the row that a name stands for. -/
  | column (row : Option String) (column : Column)
  /-- The element at hand in a scan of an array. -/
  | element
  | now
  | literal (text : String)
  | integer (value : Int64)
  | truth (value : Bool)
  | null
  /-- A parameter, under a type if it is cast to one. -/
  | parameter (index : Nat) (type : Option SqlType)
  | cast (operand : SqlOperand) (type : SqlType)
  | member (base : SqlOperand) (name : String)
  | memberText (base : SqlOperand) (name : String)
  | wholeText (base : SqlOperand)
  | lower (operand : SqlOperand)
  | upper (operand : SqlOperand)
  | replace (operand what replacement : SqlOperand)
  | concat (left right : SqlOperand)
  /-- A text, or another one if it is null. -/
  | coalesce (operand other : SqlOperand)
  /-- The name of the type of a JSON value. -/
  | typeOf (operand : SqlOperand)
  /-- What the first arm yields whose key the subject equals. -/
  | caseOf (subject : SqlOperand) (arms : SqlArms)
  /-- What the first arm yields whose key is true. -/
  | caseWhen (arms : SqlArms)
  | compare (op : CompareOp) (bytewise : Bool) (left right : SqlOperand)
  | isNull (operand : SqlOperand) (negated : Bool)
  | like (ignoreCase : Bool) (receiver pattern : SqlOperand)
  /-- Whether a text matches a regular expression. -/
  | matchesPattern (receiver pattern : SqlOperand)
  /-- Whether a JSON value contains the array of one element. -/
  | containsElement (base item : SqlOperand)
  /-- Whether a condition is true of some element of an array. -/
  | anyElement (base condition : SqlOperand)
  | and (left right : SqlOperand)
  | or (left right : SqlOperand)
  | not (operand : SqlOperand)

/-- The arms of a case distinction in order, and what there is otherwise. -/
inductive SqlArms where
  | when (key yield : SqlOperand) (rest : SqlArms)
  | otherwise (yield : SqlOperand)
  | none

end

def SqlArms.isFilled : SqlArms → Bool
  | .when .. => true
  | _ => false

/-- What an expression that has been read is evaluated in. -/
structure SqlScope where
  /-- What a column has in the row at hand, or in the row that a name stands for. -/
  cell : Option String → Column → Option Datum
  /-- The text of the element at hand in a scan of an array. -/
  element : Option String
  /-- A parameter, under a type if it is cast to one. -/
  parameter : Nat → Option SqlType → Option Datum
  now : Option Instant

/-- A row as filters see it: the document, and the parameters under the types they are cast to. -/
def Row.scope (row : Row) : SqlScope where
  cell
    | none, .document => some (.json row.document)
    | _, _ => none
  element := row.element
  parameter index type := type.bind fun type => Datum.ofParameter? type (row.parameter index)
  now := none

/-- Whether a subject equals a key.  Null equals nothing. -/
def Engine.equates (engine : Engine) : Option Datum → Option Datum → Bool
  | some l, some r => engine.compares .eq false l r
  | _, _ => false

/-- A value cast to a type: texts are read, and whole numbers stay what they are. -/
def Engine.castDatum (engine : Engine) (type : SqlType) : Datum → Option Datum
  | .scalar (.text s) => engine.cast s type
  | .scalar (.int64 i) => if type = .bigint then some (.scalar (.int64 i)) else none
  | _ => none

/-- The name of the type of a JSON value. -/
def Json.typeName : Json → String
  | .null => "null"
  | .bool _ => "boolean"
  | .number _ => "number"
  | .string _ => "string"
  | .array _ => "array"
  | .object _ => "object"

mutual

/-- The value of an expression, null being the absence of a value. -/
def SqlOperand.value? (engine : Engine) (scope : SqlScope) : SqlOperand → Option Datum
  | .column row column => scope.cell row column
  | .element => scope.element.map .ofText
  | .now => scope.now.map fun t => .scalar (.timestamp t)
  | .literal text => some (.ofText text)
  | .integer i => some (.scalar (.int64 i))
  | .truth b => some (.ofTruth b)
  | .null => none
  | .parameter index type => scope.parameter index type
  | .cast operand type => (operand.value? engine scope).bind (engine.castDatum type)
  | .member base name => do
    let j ← (base.value? engine scope).bind Datum.json?
    (j.member? name).map .json
  | .memberText base name => do
    let j ← (base.value? engine scope).bind Datum.json?
    ((j.member? name).bind Json.extracted?).map .ofText
  | .wholeText base => do
    let j ← (base.value? engine scope).bind Datum.json?
    j.extracted?.map .ofText
  | .lower operand =>
    ((operand.value? engine scope).bind Datum.text?).map fun s => .ofText (engine.lower s)
  | .upper operand =>
    ((operand.value? engine scope).bind Datum.text?).map fun s => .ofText (engine.upper s)
  | .replace operand what replacement => do
    let s ← (operand.value? engine scope).bind Datum.text?
    let what ← (what.value? engine scope).bind Datum.text?
    let replacement ← (replacement.value? engine scope).bind Datum.text?
    return .ofText (String.ofList (replaceAll what.toList replacement.toList s.toList))
  | .concat left right => do
    let l ← (left.value? engine scope).bind Datum.text?
    let r ← (right.value? engine scope).bind Datum.text?
    return .ofText (l ++ r)
  | .coalesce operand other =>
    match (operand.value? engine scope).bind Datum.text? with
    | some s => some (.ofText s)
    | none => other.value? engine scope
  | .typeOf operand =>
    ((operand.value? engine scope).bind Datum.json?).map fun j => .ofText j.typeName
  | .caseOf subject arms =>
    arms.value? engine scope (engine.equates (subject.value? engine scope))
  | .caseWhen arms => arms.value? engine scope fun key => key.bind Datum.truth? == some true
  | .compare op bytewise left right => do
    let l ← left.value? engine scope
    let r ← right.value? engine scope
    return .ofTruth (engine.compares op bytewise l r)
  | .isNull operand negated => some (.ofTruth ((operand.value? engine scope).isNone != negated))
  | .like ignoreCase receiver pattern => do
    let s ← (receiver.value? engine scope).bind Datum.text?
    let pattern ← (pattern.value? engine scope).bind Datum.text?
    return .ofTruth (if ignoreCase then engine.likeIgnoringCase s pattern.toList
      else likeMatches pattern.toList s.toList)
  | .matchesPattern receiver pattern => do
    let s ← (receiver.value? engine scope).bind Datum.text?
    let pattern ← (pattern.value? engine scope).bind Datum.text?
    return .ofTruth (engine.matchesPattern pattern s)
  | .containsElement base item => do
    let j ← (base.value? engine scope).bind Datum.json?
    let d ← item.value? engine scope
    return .ofTruth (engine.containsElement j d)
  | .anyElement base condition =>
    match (base.value? engine scope).bind Datum.json? with
    | some (.array items) =>
      some (.ofTruth (items.any fun j =>
        (condition.value? engine { scope with element := j.extracted? }).bind Datum.truth? ==
          some true))
    | _ => none
  | .and left right =>
    (sqlAnd ((left.value? engine scope).bind Datum.truth?)
      ((right.value? engine scope).bind Datum.truth?)).map .ofTruth
  | .or left right =>
    (sqlOr ((left.value? engine scope).bind Datum.truth?)
      ((right.value? engine scope).bind Datum.truth?)).map .ofTruth
  | .not operand => ((operand.value? engine scope).bind Datum.truth?).map fun b => .ofTruth !b

/-- What the first arm yields whose key is chosen. -/
def SqlArms.value? (engine : Engine) (scope : SqlScope) (chosen : Option Datum → Bool) :
    SqlArms → Option Datum
  | .when key yield rest =>
    if chosen (key.value? engine scope) then yield.value? engine scope
    else rest.value? engine scope chosen
  | .otherwise yield => yield.value? engine scope
  | .none => .none

end

/-- The truth value of a condition. -/
def SqlOperand.truth? (engine : Engine) (scope : SqlScope) (o : SqlOperand) : Option Bool :=
  (o.value? engine scope).bind Datum.truth?

/-! ## The reader -/

abbrev SqlReader := StateT (List SqlToken) Option

namespace SqlReader

def next : SqlReader SqlToken
  | [] => none
  | t :: ts => some (t, ts)

def expect (s : String) : SqlReader Unit := do
  let t ← next
  if t = .code s then return () else failure

def literal : SqlReader String := do
  match ← next with
  | .literal s => return s
  | .code _ => failure

def word : SqlReader String := do
  match ← next with
  | .code s => return s
  | .literal _ => failure

/-- What is given if there is anything. -/
def given {α : Type} : Option α → SqlReader α
  | some a => return a
  | none => failure

/-- Takes the next token if it is one of some words, and leaves it otherwise. -/
def accept (words : List String) : SqlReader (Option String)
  | .code s :: ts => if s ∈ words then some (some s, ts) else some (none, .code s :: ts)
  | ts => some (none, ts)

/-- Whether the next token is a word.  There must be one, and it is left. -/
def isNext (s : String) : SqlReader Bool
  | [] => none
  | t :: ts => some (t = .code s, t :: ts)

/-- An integer in the range of `bigint`, after its sign. -/
def digits (sign : List Char) (s : String) : SqlReader SqlOperand := do
  let i ← given (readIntIn? .signed64 (sign ++ s.toList))
  return .integer (.ofInt i)

/-- The index that a placeholder names. -/
def index? (s : String) : Option Nat :=
  match s.toList with
  | '$' :: digits => readNat? digits
  | _ => none

def type : SqlReader SqlType := do
  let s ← word
  if s = "double" then do
    expect "precision"
    return .doublePrecision
  else given (SqlType.all.find? fun type => type.name = s)

/-- The column of a name. -/
def column? (s : String) : Option Column :=
  [.partition, .id, .document, .created, .updated, .expires].find? fun c => c.name = s

/-- Operators that bind tighter than comparisons. -/
def tightMarks : List String := ["->", "->>", "#>>", "||", "~", "@>"]

/-- What makes a condition of an operand. -/
def looseMarks : List String := ["IS", "LIKE", "ILIKE", "=", "<>", "<", "<=", ">", ">="]

/-- Words that are no names of rows. -/
def reserved : List String :=
  ["AND", "AS", "CASE", "ELSE", "END", "FROM", "IS", "NOT", "OR", "THEN", "WHEN", "WHERE"]

def operator? (s : String) : Option CompareOp :=
  [.eq, .ne, .lt, .le, .gt, .ge].find? fun op => op.token = s

/-- A parameter, under a type if it is cast to one. -/
def placeholder (index : Nat) : SqlReader SqlOperand := do
  match ← accept ["::"] with
  | some _ => do
    let type ← type
    return .parameter index (some type)
  | none => return .parameter index none

/-- What an expression goes on to with one accepted word after another. -/
def chain (words : List String) (step : SqlOperand → String → SqlReader SqlOperand) :
    Nat → SqlOperand → SqlReader SqlOperand
  | 0, _ => failure
  | fuel + 1, o => do
    match ← accept words with
    | none => return o
    | some s => do
      let o ← step o s
      chain words step fuel o

section

-- `names` are those of the rows that columns may be taken from, `none` being the row at hand, and
-- `self` reads an expression within the one that is being read.
variable (names : List (Option String)) (self : SqlReader SqlOperand)

/-- The arms of a case distinction with its end. -/
def arms : Nat → SqlReader SqlArms
  | 0 => failure
  | fuel + 1 => do
    let s ← word
    if s = "WHEN" then do
      let key ← self
      expect "THEN"
      let yield ← self
      let rest ← arms fuel
      return .when key yield rest
    else if s = "ELSE" then do
      let yield ← self
      expect "END"
      return .otherwise yield
    else if s = "END" then return .none else failure

/-- A function of one argument. -/
def applied (f : SqlOperand → SqlOperand) : SqlReader SqlOperand := do
  expect "("
  let o ← self
  expect ")"
  return f o

/-- A column of a row, or an element, by its name. -/
def named (s : String) : SqlReader SqlOperand :=
  match column? s with
  | some c => if none ∈ names then return .column none c else failure
  | none =>
    if s ∈ reserved then failure
    else do
      expect "."
      let name ← word
      if s = "item" ∧ name = "elem" then return .element
      else do
        let c ← given (column? name)
        if some s ∈ names then return .column (some s) c else failure

/-- Whether an element of an array meets a condition, as a subquery. -/
def subquery : SqlReader SqlOperand := do
  expect "("
  expect "SELECT"
  expect "1"
  expect "FROM"
  expect "jsonb_array_elements_text"
  let base ← applied self id
  expect "AS"
  expect "item"
  expect "("
  expect "elem"
  expect ")"
  expect "WHERE"
  let condition ← self
  expect ")"
  return .anyElement base condition

def distinction (fuel : Nat) : SqlReader SqlOperand := do
  if ← isNext "WHEN" then do
    let arms ← arms self fuel
    return .caseWhen arms
  else do
    let subject ← self
    let arms ← arms self fuel
    if arms.isFilled then return .caseOf subject arms else failure

/-- What starts with a word that is neither a placeholder nor a number. -/
def keyword (fuel : Nat) (s : String) : SqlReader SqlOperand :=
  if s = "(" then do
    let o ← self
    expect ")"
    return o
  else if s = "TRUE" then return .truth true
  else if s = "FALSE" then return .truth false
  else if s = "NULL" then return .null
  else if s = "-" then do
    let s ← word
    digits ['-'] s
  else if s = "now" then do
    expect "("
    expect ")"
    return .now
  else if s = "LOWER" then applied self .lower
  else if s = "UPPER" then applied self .upper
  else if s = "jsonb_typeof" then applied self .typeOf
  else if s = "CAST" then do
    expect "("
    let o ← self
    expect "AS"
    let type ← type
    expect ")"
    return .cast o type
  else if s = "replace" then do
    expect "("
    let o ← self
    expect ","
    let what ← self
    expect ","
    let replacement ← self
    expect ")"
    return .replace o what replacement
  else if s = "COALESCE" then do
    expect "("
    let o ← self
    expect ","
    let other ← self
    expect ")"
    return .coalesce o other
  else if s = "CASE" then distinction self fuel
  else if s = "EXISTS" then subquery self
  else named names s

/-- What starts with a word. -/
def worded (fuel : Nat) (s : String) : SqlReader SqlOperand :=
  match index? s with
  | some index => placeholder index
  | none =>
    match readIntIn? .signed64 s.toList with
    | some i => return .integer (.ofInt i)
    | none => keyword names self fuel s

/-- What needs no parentheses anywhere. -/
def primary (fuel : Nat) : SqlReader SqlOperand := do
  match ← next with
  | .literal s => return .literal s
  | .code s => worded names self fuel s

/-- What an operand goes on to with an operator. -/
def tightly (fuel : Nat) (o : SqlOperand) (s : String) : SqlReader SqlOperand :=
  if s = "->" then do
    let name ← literal
    return .member o name
  else if s = "->>" then do
    let name ← literal
    return .memberText o name
  else if s = "#>>" then do
    let path ← literal
    if path = "\x7b\x7d" then return .wholeText o else failure
  else if s = "||" then do
    let right ← primary names self fuel
    return .concat o right
  else if s = "~" then do
    let pattern ← primary names self fuel
    return .matchesPattern o pattern
  else do
    expect "jsonb_build_array"
    applied self (.containsElement o)

def operand (fuel : Nat) : SqlReader SqlOperand := do
  let o ← primary names self fuel
  chain tightMarks (tightly names self fuel) fuel o

/-- A comparison, by bytes if that is asked for. -/
def comparison (fuel : Nat) (op : CompareOp) (left : SqlOperand) : SqlReader SqlOperand := do
  let right ← operand names self fuel
  match ← accept ["COLLATE"] with
  | none => return .compare op false left right
  | some _ => do
    expect "\""
    expect "C"
    expect "\""
    return .compare op true left right

/-- What condition is made of an operand. -/
def loosely (fuel : Nat) (o : SqlOperand) (s : String) : SqlReader SqlOperand :=
  if s = "IS" then do
    if ← isNext "NOT" then do
      expect "NOT"
      expect "NULL"
      return .isNull o true
    else do
      expect "NULL"
      return .isNull o false
  else if s = "LIKE" then do
    let pattern ← operand names self fuel
    return .like false o pattern
  else if s = "ILIKE" then do
    let pattern ← operand names self fuel
    return .like true o pattern
  else do
    let op ← given (operator? s)
    comparison names self fuel op o

def predicate (fuel : Nat) : SqlReader SqlOperand := do
  let o ← operand names self fuel
  match ← accept looseMarks with
  | none => return o
  | some s => loosely names self fuel o s

def negation (fuel : Nat) : SqlReader SqlOperand := do
  if ← isNext "NOT" then do
    expect "NOT"
    let o ← predicate names self fuel
    return .not o
  else predicate names self fuel

def conjunction (fuel : Nat) : SqlReader SqlOperand := do
  let o ← negation names self fuel
  chain ["AND"] (fun left _ => do
    let right ← negation names self fuel
    return .and left right) fuel o

def disjunction (fuel : Nat) : SqlReader SqlOperand := do
  let o ← conjunction names self fuel
  chain ["OR"] (fun left _ => do
    let right ← conjunction names self fuel
    return .or left right) fuel o

end

/-- An expression.  One within another comes after a token at least, so more fuel than there are
tokens is enough. -/
def expression (names : List (Option String)) : Nat → SqlReader SqlOperand
  | 0 => failure
  | fuel + 1 => disjunction names (expression names fuel) (fuel + 1)

/-! ### More tokens and more fuel -/

/-- The words with which an expression goes on. -/
def goingOn : List String := tightMarks ++ looseMarks ++ ["COLLATE", "::", "AND", "OR"]

/-- Whether tokens start with none of some words. -/
def Stops (words : List String) (ts : List SqlToken) : Prop :=
  ∀ s ∈ words, ts.head? ≠ some (.code s)

theorem Stops.mono {words others : List String} {ts : List SqlToken} (ends : Stops others ts)
    (fewer : words ⊆ others) : Stops words ts := fun s mem => ends s (fewer mem)

/-- Whether what one reader reads of at most `k` tokens is read by another as well, whatever comes
after it.  Where all tokens are read, what comes after must not go on with them. -/
def Extends {α : Type} (k : Nat) (p q : SqlReader α) : Prop :=
  ∀ ts a rest, ts.length ≤ k → p.run ts = some (a, rest) → rest.length ≤ ts.length ∧
    ∀ more, (rest = [] → Stops goingOn more) → q.run (ts ++ more) = some (a, rest ++ more)

namespace Extends

variable {α β : Type} {k : Nat} {p q p' q' : SqlReader α}

theorem mono (extended : Extends k p q) {j : Nat} (fewer : j ≤ k) : Extends j p q :=
  fun ts a rest few => extended ts a rest (few.trans fewer)

theorem pure (a : α) : Extends k (Pure.pure a) (Pure.pure a) := by
  rintro ts _ _ _ ⟨⟩
  exact ⟨Nat.le_refl _, fun more _ => rfl⟩

theorem failure : Extends k failure q := by
  intro ts a rest _ read
  cases read

theorem bind {f g : α → SqlReader β} (first : Extends k p q) (after : ∀ a, Extends k (f a) (g a)) :
    Extends k (p >>= f) (q >>= g) := by
  intro ts b rest few read
  obtain ⟨⟨a, middle⟩, taken, read⟩ := Option.bind_eq_some_iff.mp read
  obtain ⟨shorter, extended⟩ := first _ _ _ few taken
  obtain ⟨shorter', extended'⟩ := after a _ _ _ (shorter.trans few) read
  refine ⟨shorter'.trans shorter, fun more ends => ?_⟩
  -- If nothing is left after the first reader, then nothing is left after the second.
  have nothing : middle = [] → Stops goingOn more := by
    rintro rfl
    exact ends (List.length_eq_zero_iff.mp (Nat.le_zero.mp shorter'))
  exact Option.bind_eq_some_iff.mpr ⟨_, extended more nothing, extended' more ends⟩

/-- What is read after a token is read of fewer tokens. -/
theorem next_bind {f g : SqlToken → SqlReader β}
    (after : ∀ t, ∀ j < k, Extends j (f t) (g t)) : Extends k (next >>= f) (next >>= g) := by
  intro ts b rest few read
  obtain ⟨⟨t, others⟩, taken, read⟩ := Option.bind_eq_some_iff.mp read
  cases ts with
  | nil => cases taken
  | cons =>
    cases taken
    obtain ⟨shorter, extended⟩ := after t others.length few _ _ _ (Nat.le_refl _) read
    exact ⟨Nat.le_succ_of_le shorter, extended⟩

theorem accept_bind {words : List String} (known : words ⊆ goingOn)
    {f g : Option String → SqlReader β} (none : Extends k (f none) (g none))
    (some : ∀ s ∈ words, ∀ j < k, Extends j (f (some s)) (g (some s))) :
    Extends k (accept words >>= f) (accept words >>= g) := by
  intro ts b rest few read
  obtain ⟨⟨found, left⟩, taken, after⟩ := Option.bind_eq_some_iff.mp read
  match ts with
  | [] =>
    cases taken
    obtain ⟨shorter, extended⟩ := none _ _ _ few after
    refine ⟨shorter, fun more ends => ?_⟩
    have left : accept words more = Option.some (.none, more) := by
      have ends := (ends (List.length_eq_zero_iff.mp (Nat.le_zero.mp shorter))).mono known
      unfold accept
      split
      · exact if_neg fun mem => ends _ mem rfl
      · rfl
    exact Option.bind_eq_some_iff.mpr ⟨_, left, extended more ends⟩
  | .literal s :: others =>
    cases taken
    obtain ⟨shorter, extended⟩ := none _ _ _ few after
    exact ⟨shorter, fun more ends => Option.bind_eq_some_iff.mpr ⟨_, rfl, extended more ends⟩⟩
  | .code s :: others =>
    rw [accept] at taken
    by_cases mem : s ∈ words
    · rw [if_pos mem] at taken
      cases taken
      obtain ⟨shorter, extended⟩ := some s mem left.length few _ _ _ (Nat.le_refl _) after
      refine ⟨Nat.le_succ_of_le shorter, fun more ends => ?_⟩
      exact Option.bind_eq_some_iff.mpr ⟨_, if_pos mem, extended more ends⟩
    · rw [if_neg mem] at taken
      cases taken
      obtain ⟨shorter, extended⟩ := none _ _ _ few after
      refine ⟨shorter, fun more ends => ?_⟩
      exact Option.bind_eq_some_iff.mpr ⟨_, if_neg mem, extended more ends⟩

theorem ite {c : Prop} [Decidable c] (yes : Extends k p q) (no : Extends k p' q') :
    Extends k (if c then p else p') (if c then q else q') := by
  split
  · exact yes
  · exact no

theorem expect (s : String) : Extends k (expect s) (SqlReader.expect s) :=
  next_bind fun _ _ _ => (pure ()).ite failure

theorem literal : Extends k literal SqlReader.literal := by
  refine next_bind fun t _ _ => ?_
  cases t with
  | literal s => exact pure s
  | code => exact failure

theorem word : Extends k word SqlReader.word := by
  refine next_bind fun t _ _ => ?_
  cases t with
  | literal => exact failure
  | code s => exact pure s

/-- What is read after a word is read of fewer tokens. -/
theorem word_bind {f g : String → SqlReader β} (after : ∀ s, ∀ j < k, Extends j (f s) (g s)) :
    Extends k (SqlReader.word >>= f) (SqlReader.word >>= g) := by
  rw [SqlReader.word, bind_assoc, bind_assoc]
  refine next_bind fun t j below => ?_
  cases t with
  | literal => exact failure
  | code s => simpa only [pure_bind] using after s j below

theorem isNext (s : String) : Extends k (isNext s) (SqlReader.isNext s) := by
  intro ts a rest few read
  cases ts with
  | nil => cases read
  | cons t ts =>
    cases read
    exact ⟨Nat.le_refl _, fun more _ => rfl⟩

theorem given (found : Option α) : Extends k (given found) (SqlReader.given found) := by
  cases found with
  | none => exact failure
  | some a => exact pure a

theorem digits (sign : List Char) (s : String) :
    Extends k (digits sign s) (SqlReader.digits sign s) :=
  (given _).bind fun _ => pure _

theorem type : Extends k type SqlReader.type :=
  word.bind fun _ => ((expect _).bind fun _ => pure _).ite (given _)

theorem placeholder (index : Nat) :
    Extends k (placeholder index) (SqlReader.placeholder index) :=
  accept_bind (by decide) (pure _) fun _ _ _ _ => type.bind fun _ => pure _

/-- A chain takes a token for every step, so as much fuel as there are tokens is enough. -/
theorem chain {words : List String} (known : words ⊆ goingOn)
    {step step' : SqlOperand → String → SqlReader SqlOperand} {n m : Nat} (fewer : k < m)
    (steps : ∀ j < k, ∀ o s, Extends j (step o s) (step' o s)) (o : SqlOperand) :
    Extends k (chain words step n o) (SqlReader.chain words step' m o) := by
  induction n generalizing k m o with
  | zero => exact failure
  | succ n ih =>
    obtain ⟨m, rfl⟩ : ∃ l, m = l + 1 := ⟨m - 1, by omega⟩
    rw [SqlReader.chain, SqlReader.chain]
    refine accept_bind known (pure o) fun s _ j below => (steps j below o s).bind fun o => ?_
    exact ih (by omega) (fun i less => steps i (by omega)) o

section

variable {names : List (Option String)} {self self' : SqlReader SqlOperand} {n m : Nat}

theorem applied (inner : Extends k self self') (f : SqlOperand → SqlOperand) :
    Extends k (applied self f) (SqlReader.applied self' f) :=
  (expect _).bind fun _ => inner.bind fun _ => (expect _).bind fun _ => pure _

theorem arms (inner : ∀ j < k, Extends j self self') (fewer : k < m) :
    Extends k (arms self n) (SqlReader.arms self' m) := by
  induction n generalizing k m with
  | zero => exact failure
  | succ n ih =>
    obtain ⟨m, rfl⟩ : ∃ l, m = l + 1 := ⟨m - 1, by omega⟩
    rw [SqlReader.arms, SqlReader.arms]
    refine word_bind fun s j below => .ite ?_ (.ite ?_ (.ite (pure _) failure))
    · refine (inner j below).bind fun _ => (expect _).bind fun _ => (inner j below).bind fun _ => ?_
      exact (ih (fun i less => inner i (by omega)) (by omega)).bind fun _ => pure _
    · exact (inner j below).bind fun _ => (expect _).bind fun _ => pure _

theorem named (s : String) : Extends k (named names s) (SqlReader.named names s) := by
  unfold SqlReader.named
  cases column? s with
  | some c => exact .ite (pure _) failure
  | none =>
    refine .ite failure ((expect _).bind fun _ => word.bind fun _ => .ite (pure _) ?_)
    exact (given _).bind fun _ => .ite (pure _) failure

theorem subquery (inner : Extends k self self') :
    Extends k (subquery self) (SqlReader.subquery self') :=
  (expect _).bind fun _ => (expect _).bind fun _ => (expect _).bind fun _ => (expect _).bind
    fun _ => (expect _).bind fun _ => (applied inner _).bind fun _ => (expect _).bind fun _ =>
    (expect _).bind fun _ => (expect _).bind fun _ => (expect _).bind fun _ => (expect _).bind
    fun _ => (expect _).bind fun _ => inner.bind fun _ => (expect _).bind fun _ => pure _

theorem distinction (inner : Extends k self self') (fewer : k < m) :
    Extends k (distinction self n) (SqlReader.distinction self' m) := by
  have arms : Extends k (SqlReader.arms self n) (SqlReader.arms self' m) :=
    arms (fun j below => inner.mono below.le) fewer
  refine (isNext _).bind fun _ => .ite (arms.bind fun _ => pure _) ?_
  exact inner.bind fun _ => arms.bind fun _ => .ite (pure _) failure

theorem keyword (inner : Extends k self self') (fewer : k < m) (s : String) :
    Extends k (keyword names self n s) (SqlReader.keyword names self' m s) := by
  unfold SqlReader.keyword
  refine .ite (inner.bind fun _ => (expect _).bind fun _ => pure _) (.ite (pure _) (.ite (pure _)
    (.ite (pure _) (.ite (word.bind fun _ => digits _ _) (.ite ((expect _).bind fun _ =>
    (expect _).bind fun _ => pure _) (.ite (applied inner _) (.ite (applied inner _)
    (.ite (applied inner _) (.ite ?cast (.ite ?replace (.ite ?coalesce
    (.ite (distinction inner fewer) (.ite (subquery inner) (named s))))))))))))))
  case cast =>
    exact (expect _).bind fun _ => inner.bind fun _ => (expect _).bind fun _ => type.bind fun _ =>
      (expect _).bind fun _ => pure _
  case replace =>
    exact (expect _).bind fun _ => inner.bind fun _ => (expect _).bind fun _ => inner.bind fun _ =>
      (expect _).bind fun _ => inner.bind fun _ => (expect _).bind fun _ => pure _
  case coalesce =>
    exact (expect _).bind fun _ => inner.bind fun _ => (expect _).bind fun _ => inner.bind fun _ =>
      (expect _).bind fun _ => pure _

theorem worded (inner : Extends k self self') (fewer : k < m) (s : String) :
    Extends k (worded names self n s) (SqlReader.worded names self' m s) := by
  unfold SqlReader.worded
  cases index? s with
  | some index => exact placeholder index
  | none =>
    cases readIntIn? .signed64 s.toList with
    | some i => exact pure _
    | none => exact keyword inner fewer s

theorem primary (inner : ∀ j < k, Extends j self self') (few : k ≤ m) :
    Extends k (primary names self n) (SqlReader.primary names self' m) := by
  refine next_bind fun t j below => ?_
  cases t with
  | literal s => exact pure _
  | code s => exact worded (inner j below) (by omega) s

theorem tightly (inner : Extends k self self') (fewer : k < m) (o : SqlOperand) (s : String) :
    Extends k (tightly names self n o s) (SqlReader.tightly names self' m o s) := by
  have primary : Extends k (SqlReader.primary names self n) (SqlReader.primary names self' m) :=
    primary (fun j below => inner.mono below.le) fewer.le
  refine .ite (literal.bind fun _ => pure _) (.ite (literal.bind fun _ => pure _)
    (.ite (literal.bind fun _ => .ite (pure _) failure) (.ite (primary.bind fun _ => pure _)
    (.ite (primary.bind fun _ => pure _) ((expect _).bind fun _ => applied inner _)))))

theorem operand (inner : ∀ j < k, Extends j self self') (fewer : k < m) :
    Extends k (operand names self n) (SqlReader.operand names self' m) :=
  (primary inner fewer.le).bind fun o =>
    chain (by decide) fewer (fun j below o s => tightly (inner j below) (by omega) o s) o

theorem comparison (inner : Extends k self self') (fewer : k < m) (op : CompareOp)
    (left : SqlOperand) :
    Extends k (comparison names self n op left) (SqlReader.comparison names self' m op left) := by
  refine (operand (fun j below => inner.mono below.le) fewer).bind fun _ => ?_
  refine accept_bind (by decide) (pure _) fun _ _ _ _ => ?_
  exact (expect _).bind fun _ => (expect _).bind fun _ => (expect _).bind fun _ => pure _

theorem loosely (inner : Extends k self self') (fewer : k < m) (o : SqlOperand) (s : String) :
    Extends k (loosely names self n o s) (SqlReader.loosely names self' m o s) := by
  have operand : Extends k (SqlReader.operand names self n) (SqlReader.operand names self' m) :=
    operand (fun j below => inner.mono below.le) fewer
  refine .ite ((isNext _).bind fun _ => ?_) (.ite (operand.bind fun _ => pure _)
    (.ite (operand.bind fun _ => pure _) ((given _).bind fun op => comparison inner fewer op o)))
  exact .ite ((expect _).bind fun _ => (expect _).bind fun _ => pure _)
    ((expect _).bind fun _ => pure _)

theorem predicate (inner : ∀ j < k, Extends j self self') (fewer : k < m) :
    Extends k (predicate names self n) (SqlReader.predicate names self' m) := by
  refine (operand inner fewer).bind fun o => ?_
  exact accept_bind (by decide) (pure _) fun s _ j below =>
    loosely (inner j below) (by omega) o s

theorem negation (inner : ∀ j < k, Extends j self self') (fewer : k < m) :
    Extends k (negation names self n) (SqlReader.negation names self' m) := by
  refine (isNext _).bind fun _ => .ite ?_ (predicate inner fewer)
  exact (expect _).bind fun _ => (predicate inner fewer).bind fun _ => pure _

theorem conjunction (inner : ∀ j < k, Extends j self self') (fewer : k < m) :
    Extends k (conjunction names self n) (SqlReader.conjunction names self' m) := by
  refine (negation inner fewer).bind fun o => chain (by decide) fewer (fun j below _ _ => ?_) o
  exact (negation (fun i less => inner i (by omega)) (by omega)).bind fun _ => pure _

theorem disjunction (inner : ∀ j < k, Extends j self self') (fewer : k < m) :
    Extends k (disjunction names self n) (SqlReader.disjunction names self' m) := by
  refine (conjunction inner fewer).bind fun o => chain (by decide) fewer (fun j below _ _ => ?_) o
  exact (conjunction (fun i less => inner i (by omega)) (by omega)).bind fun _ => pure _

end

end Extends

/-- What is read with any fuel is read with more fuel than there are tokens, whatever ends it. -/
theorem expression_extends (names : List (Option String)) (n : Nat) {k m : Nat} (fewer : k < m) :
    Extends k (expression names n) (expression names m) := by
  induction n generalizing k m with
  | zero =>
    rw [expression]
    exact .failure
  | succ n ih =>
    obtain ⟨m, rfl⟩ : ∃ l, m = l + 1 := ⟨m - 1, by omega⟩
    rw [expression, expression]
    exact .disjunction (fun j below => ih (by omega)) fewer

end SqlReader

end DocStore
