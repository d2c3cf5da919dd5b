import DocStore.Sql.Binding

/-!
# Statements

The statements that a collection of documents needs of a database, as data, and their text.  Values
stand in the text as numbered placeholders, each with the argument of that number.

* `Command.text`: the text of a command on a table;
* `Condition.text`: the text of a condition on a row.
-/

namespace DocStore

open DocStore.Text

/-- A column of the collection table. -/
inductive Column where
  | partition
  | id
  | document
  | created
  | updated
  | expires
deriving DecidableEq, Repr

def Column.name : Column → String
  | .partition => "partition_id"
  | .id => "id"
  | .document => SqlExpr.documentColumn
  | .created => "created"
  | .updated => "updated"
  | .expires => "expires"

/-- An argument of a statement. -/
inductive Argument where
  | text (value : String)
  | json (value : Json)
  | expiry (value : Option Instant)
  | bigint (value : Int64)
  /-- A constant of a filter. -/
  | bound (value : Value)
deriving Repr

/-- A parameter as an argument.  A floating-point number that is to be compared exactly goes as its
decimal text, which the database reads without loss. -/
def Parameter.argument (p : Parameter) : Argument :=
  match p.value, p.type with
  | .float32 x, .numeric => ((Value.float32 x).numericText?.map .text).getD (.bound p.value)
  | .float64 x, .numeric => ((Value.float64 x).numericText?.map .text).getD (.bound p.value)
  | value, _ => .bound value

/-- What a column is given. -/
inductive Source where
  | argument (index : Nat)
  | now
  | null
  /-- What the row to be inserted has in a column. -/
  | inserted (column : Column)
deriving DecidableEq, Repr

def argumentMark (index : Nat) : String := "$" ++ natText index

def Source.text : Source → String
  | .argument index => argumentMark index
  | .now => "now()"
  | .null => "NULL"
  | .inserted column => "EXCLUDED." ++ column.name

/-- A condition on a row. -/
inductive Condition where
  | equals (column : Column) (index : Nat)
  | live
  | expired
  | filter (condition : SqlExpr)
deriving Repr

/-- The condition that a row has not expired. -/
def liveText : String := "(expires IS NULL OR now() < expires)"

/-- The condition that a row has expired. -/
def expiredText : String := "(expires IS NOT NULL AND now() >= expires)"

def Condition.text : Condition → String
  | .equals column index => column.name ++ " = " ++ argumentMark index
  | .live => liveText
  | .expired => expiredText
  | .filter condition => "(" ++ condition.text ++ ")"

/-- What is asked of the rows that meet some conditions. -/
inductive Selection where
  /-- Their documents in id order, at most as many and from where two arguments say. -/
  | documents (limit offset : Option Nat)
  /-- The document of the one row. -/
  | document
  /-- Whether there are any. -/
  | existence
  /-- How many there are. -/
  | number
deriving DecidableEq, Repr

/-- A command on the collection table. -/
inductive Command where
  /-- Inserts a row; a row of the same key is changed instead, or only if it has expired. -/
  | insert (row : List (Column × Source)) (change : List (Column × Source)) (onlyExpired : Bool)
  /-- Changes the rows that meet the conditions. -/
  | update (change : List (Column × Source)) (conditions : List Condition)
  /-- Deletes the rows that meet the conditions. -/
  | delete (conditions : List Condition)
  | select (selection : Selection) (conditions : List Condition)
deriving Repr

/-- The text of conditions that must all be met. -/
def conditionsText (conditions : List Condition) : String :=
  " WHERE " ++ " AND ".intercalate (conditions.map Condition.text)

/-- The text of columns with what they are set to. -/
def changeText (change : List (Column × Source)) : String :=
  ", ".intercalate (change.map fun c => c.1.name ++ " = " ++ c.2.text)

def columnsText (columns : List Column) : String :=
  "(" ++ ", ".intercalate (columns.map Column.name) ++ ")"

/-- The text of a bound on how much is listed. -/
def boundText (word : String) (index : Option Nat) : String :=
  match index with
  | some index => " " ++ word ++ " " ++ argumentMark index
  | none => ""

def keyColumns : List Column := [.partition, .id]

/-- The text of a command on a table. -/
def Command.text (table : String) : Command → String
  | .insert row change onlyExpired =>
    "INSERT INTO " ++ table ++ (if onlyExpired then " AS t " else " ") ++
      columnsText (row.map (·.1)) ++ " VALUES (" ++
      ", ".intercalate (row.map fun c => c.2.text) ++ ") ON CONFLICT " ++
      columnsText keyColumns ++ " DO UPDATE SET " ++ changeText change ++
      (if onlyExpired then " WHERE t.expires IS NOT NULL AND now() >= t.expires" else "")
  | .update change conditions =>
    "UPDATE " ++ table ++ " SET " ++ changeText change ++ conditionsText conditions
  | .delete conditions => "DELETE FROM " ++ table ++ conditionsText conditions
  | .select selection conditions =>
    let rows := " FROM " ++ table ++ conditionsText conditions
    let document := "SELECT " ++ Column.document.name ++ rows
    match selection with
    | .documents limit offset =>
      document ++ " ORDER BY id" ++ boundText "LIMIT" limit ++ boundText "OFFSET" offset
    | .document => document
    | .existence => "SELECT EXISTS (SELECT 1" ++ rows ++ ")"
    | .number => "SELECT count(*)" ++ rows

/-- A command with its arguments in the order of their placeholders. -/
structure Statement where
  command : Command
  arguments : List Argument
deriving Repr

end DocStore
