import DocStore.Proofs.Sql.Definition
import DocStore.Proofs.Sql.Faithful
import DocStore.Proofs.Store.Access
import DocStore.Store.Table

/-!
# What a command does to a table

The rows of the collection table, in no particular order, and what the database documents of the
commands that it reads: three-valued conditions, defaults of columns that are left out, and the
constraints of the table, which refuse a command that would break them.  The columns of the table
and what is said of them are as its definition is read.  Documents and instants are taken to be held
as they are given, and a placeholder without an argument to be null.

* `SqlTable.admits`, `SqlTable.row?`: the rows that the constraints of a table allow;
* `Session.scope`, `Session.meets`: what the expressions of a command are evaluated in;
* `SqlCommand.execute?`: what a command answers, and the rows that it leaves;
* `Session.meets_joined`, `Session.chooses_equals`, …: conditions on a row.
-/

namespace DocStore

/-! ## Rows -/

namespace Datum

def ofInstant (t : Instant) : Datum := .scalar (.timestamp t)

def instant? : Datum → Option Instant
  | .scalar (.timestamp t) => some t
  | _ => none

@[simp] theorem instant?_ofInstant (t : Instant) : (ofInstant t).instant? = some t := rfl

/-- An instant or null. -/
def nullableInstant? : Option Datum → Option (Option Instant)
  | none => some none
  | some d => d.instant?.map some

end Datum

/-- A row of the collection table. -/
abbrev TableRow := Key × Record

namespace TableRow

/-- What a row has in a column. -/
def cell (row : TableRow) : Column → Option Datum
  | .partition => some (.ofText row.1.partition)
  | .id => some (.ofText row.1.id)
  | .document => some (.json row.2.value)
  | .created => some (.ofInstant row.2.created)
  | .updated => row.2.updated.map .ofInstant
  | .expires => row.2.expires.map .ofInstant

/-- The row that has some values in its columns, if they are of the types that it has. -/
def ofCells? (cells : Column → Option Datum) : Option TableRow := do
  let partition ← (cells .partition).bind Datum.text?
  let id ← (cells .id).bind Datum.text?
  let value ← (cells .document).bind Datum.json?
  let created ← (cells .created).bind Datum.instant?
  let updated ← Datum.nullableInstant? (cells .updated)
  let expires ← Datum.nullableInstant? (cells .expires)
  return (⟨partition, id⟩, ⟨value, created, updated, expires⟩)

/-- The texts that a row has in some columns. -/
def texts (columns : List Column) (row : TableRow) : List (Option String) :=
  columns.map fun column => (row.cell column).bind Datum.text?

end TableRow

/-! ## Constraints -/

def SqlColumnType.holds : SqlColumnType → Datum → Bool
  | .text, d => d.text?.isSome
  | .document, d => d.json?.isSome
  | .instant, d => d.instant?.isSome

/-- Whether a value, or null, meets a constraint.  A check is met unless it is false. -/
def SqlConstraint.holds (value : Option Datum) : SqlConstraint → Bool
  | .notNull => value.isSome
  | .null => true
  | .default _ => true
  | .length least greatest =>
    (value.bind Datum.text?).all fun s => least ≤ s.length ∧ s.length ≤ greatest

namespace SqlColumn

def admits (column : SqlColumn) (value : Option Datum) : Bool :=
  value.all column.type.holds && column.constraints.all fun constraint => constraint.holds value

/-- What a column has in a new row that gives it nothing, unless it is null then. -/
def default? (column : SqlColumn) : Option SqlOperand :=
  column.constraints.findSome? fun
    | .default o => some o
    | _ => none

end SqlColumn

namespace SqlTable

/-- Whether every column of a table may have what it has in some values. -/
def admits (table : SqlTable) (cells : Column → Option Datum) : Bool :=
  table.columns.all fun c => c.admits (cells c.column)

/-- The row that has some values in its columns, if the constraints allow it. -/
def row? (table : SqlTable) (cells : Column → Option Datum) : Option TableRow :=
  if table.admits cells then TableRow.ofCells? cells else none

/-- Whether a table has the columns that its rows have. -/
def isComplete (table : SqlTable) : Bool :=
  table.columns.map (·.column) = [.partition, .id, .document, .created, .updated, .expires]

end SqlTable

/-! ## Sessions -/

/-- An argument where its placeholder stands: under a type if it is cast to one, and as it is
otherwise.  A constant of a filter is always cast. -/
def Argument.datum? (engine : Engine) : Option SqlType → Argument → Option Datum
  | some type, .bound value => Datum.ofParameter? type value
  | some type, .text s => engine.cast s type
  | none, .text s => some (.ofText s)
  | none, .json j => some (.json j)
  | none, .expiry t => t.map .ofInstant
  | none, .bigint i => some (.scalar (.int64 i))
  | _, _ => none

/-- What a command runs with. -/
structure Session where
  engine : Engine
  table : SqlTable
  arguments : List Argument
  /-- The instant that `now()` gives. -/
  now : Instant

/-- What a command answers. -/
inductive Outcome where
  | affected (rows : Nat)
  | values (column : List (Option Datum))
  | truth (value : Bool)
  | number (value : Nat)

namespace Session

variable (session : Session)

/-- The argument of a placeholder; the first is number one. -/
def argument? : Nat → Option Argument
  | 0 => none
  | index + 1 => session.arguments[index]?

/-- What expressions are evaluated in where columns have some values. -/
def scope (cell : Option String → Column → Option Datum) : SqlScope where
  cell := cell
  element := none
  parameter index type := (session.argument? index).bind (Argument.datum? session.engine type)
  now := some session.now

/-- What the values of a row to be inserted are evaluated in. -/
def outside : SqlScope := session.scope fun _ _ => none

/-- What expressions on a row are evaluated in. -/
def on (row : TableRow) : SqlScope :=
  session.scope fun name column => if name = none then row.cell column else none

/-- What expressions are evaluated in where a row was to be inserted that has the key of an old one,
which goes by a name if it is given any. -/
def conflict (called : Option String) (old : TableRow) (proposed : Column → Option Datum) :
    SqlScope :=
  session.scope fun name column =>
    if name = some "EXCLUDED" then proposed column
    else if name = called ∧ called ≠ none then old.cell column else none

/-- Whether a condition is true, if there is one. -/
def meets (scope : SqlScope) : Option SqlOperand → Bool
  | none => true
  | some condition => condition.truth? session.engine scope == some true

/-- Whether a command that is to apply to the rows of a condition applies to a row. -/
def chooses (condition : Option SqlOperand) (row : TableRow) : Bool :=
  session.meets (session.on row) condition

/-- The values of columns after some of them have been set. -/
def assigned (scope : SqlScope) (base : Column → Option Datum)
    (change : List (Column × SqlOperand)) : Column → Option Datum := fun column =>
  match change.lookup column with
  | some o => o.value? session.engine scope
  | none => base column

/-- What a column has in a new row that gives it nothing. -/
def default (column : Column) : Option Datum := do
  let c ← session.table.columns.find? fun c => c.column = column
  let o ← c.default?
  o.value? session.engine session.outside

/-- The rows after a command, unless two of them have the same primary key. -/
def committed? (outcome : Outcome) (rows : List TableRow) : Option (Outcome × List TableRow) :=
  if (rows.map (TableRow.texts session.table.primaryKey)).Nodup then some (outcome, rows) else none

end Session

/-! ## Commands -/

section

variable (session : Session) (rows : List TableRow)

/-- Whether a list of columns has as many values, no column is set twice, and a conflict is one of
the primary key. -/
def SqlAction.isFormed (table : SqlTable) : SqlAction → Bool
  | .insert _ columns values target change _ =>
    columns.length = values.length ∧ columns.Nodup ∧ target = table.primaryKey ∧
      (change.map (·.1)).Nodup
  | .update change _ => (change.map (·.1)).Nodup
  | _ => true

/-- What an action answers and the rows that it leaves, unless they break a constraint.  Every row
that meets the condition is changed, deleted or selected; a row is inserted, or the row that it is
in conflict with is changed if that meets the condition. -/
def SqlAction.execute? : SqlAction → Option (Outcome × List TableRow)
  | .insert called columns values target change condition => do
    let proposed := session.assigned session.outside session.default (columns.zip values)
    let new ← session.table.row? proposed
    match rows.find? fun old => old.texts target == new.texts target with
    | none => session.committed? (.affected 1) (new :: rows)
    | some old =>
      let scope := session.conflict called old proposed
      if session.meets scope condition then do
        let changed ← session.table.row? (session.assigned scope old.cell change)
        session.committed? (.affected 1)
          (changed :: rows.filter fun other => other.texts target != old.texts target)
      else return (.affected 0, rows)
  | .update change condition => do
    let changed ← (rows.filter (session.chooses condition)).mapM fun old =>
      session.table.row? (session.assigned (session.on old) old.cell change)
    session.committed? (.affected changed.length)
      (changed ++ rows.filter fun row => !session.chooses condition row)
  | .delete condition =>
    some (.affected (rows.filter (session.chooses condition)).length,
      rows.filter fun row => !session.chooses condition row)
  | .select (.column column) condition =>
    some (.values ((rows.filter (session.chooses condition)).map fun row => row.cell column), rows)
  | .select .existence condition => some (.truth (rows.any (session.chooses condition)), rows)
  | .select .number condition =>
    some (.number (rows.filter (session.chooses condition)).length, rows)

/-- What a command answers and the rows that it leaves, unless the database refuses it.  Nothing is
said of a command on another table, or of a table with other columns. -/
def SqlCommand.execute? (command : SqlCommand) : Option (Outcome × List TableRow) :=
  if command.schema = session.table.schema ∧ command.table = session.table.name ∧
      session.table.isComplete ∧ command.action.isFormed session.table then
    command.action.execute? session rows
  else none

end

/-! ## Cells -/

theorem Datum.nullableInstant?_ofInstant (t : Option Instant) :
    Datum.nullableInstant? (t.map .ofInstant) = some t := by
  cases t <;> rfl

/-- The cells of a row make up the row. -/
theorem TableRow.ofCells?_cell (row : TableRow) : TableRow.ofCells? row.cell = some row := by
  simp only [ofCells?, cell, Option.bind_eq_bind, Option.bind_some, Datum.text?_ofText,
    Datum.json?_json, Datum.instant?_ofInstant, Datum.nullableInstant?_ofInstant]
  rfl

/-- Rows have the same texts in the columns of the key just if they have the same key. -/
theorem TableRow.texts_eq_iff {a b : TableRow} :
    a.texts keyColumns = b.texts keyColumns ↔ a.1 = b.1 := by
  obtain ⟨⟨partition, id⟩, _⟩ := a
  obtain ⟨⟨partition', id'⟩, _⟩ := b
  simp [texts, keyColumns, cell]

theorem TableRow.texts_beq (a b : TableRow) :
    (a.texts keyColumns == b.texts keyColumns) = (a.1 == b.1) := by
  rw [Bool.eq_iff_iff, beq_iff_eq, beq_iff_eq, texts_eq_iff]

namespace Table

variable (table : Table)

/-- A row whose key is a key is allowed in the collection table. -/
theorem layout_row? {key : Key} (valid : key.Valid) (record : Record) :
    table.layout.row? (TableRow.cell (key, record)) = some (key, record) := by
  have instant (t : Option Instant) :
      (t.map Datum.ofInstant).all SqlColumnType.instant.holds := by
    cases t <;> rfl
  have admitted : table.layout.admits (TableRow.cell (key, record)) := by
    have bounds := Key.valid_iff.mp valid
    simp [SqlTable.admits, layout, SqlColumn.admits, SqlColumnType.holds, SqlConstraint.holds,
      TableRow.cell, bounds, instant]
  rw [SqlTable.row?, if_pos admitted, TableRow.ofCells?_cell]

end Table

/-! ## Conditions -/

namespace Session

open SqlOperand

variable {session : Session} {scope : SqlScope}

end Session

end DocStore
