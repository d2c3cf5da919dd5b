import DocStore.Sql.Compile
import DocStore.Sql.Statement
import DocStore.Store.Config
import DocStore.Store.Records

/-!
# The collection table

The store as a table of a database: the statements that make the table, and a statement for every
operation of `Records`.  The partition is the first argument of every statement, and a filter's
constants come right after it.

* `Table.ofNames`, `Table.ofConfig`: a table with valid names;
* `Table.definition`: what makes the table;
* `Table.write`, `Table.list`, …: the statements of the operations.
-/

namespace DocStore

open DocStore.Text

/-- A collection table.  Its names are identifiers, so they may be quoted as they stand. -/
structure Table where
  schema : String
  name : String
  schema_valid : isIdentifier schema
  name_valid : isIdentifier name

/-- The index of the first placeholder of a filter, after that of the partition. -/
def filterFirstIndex : Nat := 2

/-- The greatest integer of 64 bits, beyond which a page goes nowhere. -/
def maxPageBound : Nat := 0x7fffffffffffffff

/-- A bound of a page as an argument. -/
def pageArgument (n : UInt64) : Argument := .bigint (.ofNat (min n.toNat maxPageBound))

namespace Table

/-- The table of some names, if they are identifiers; that of the schema is looked at first. -/
def ofNames (schema name : String) : Except StoreError Table :=
  if hs : isIdentifier schema then
    if hn : isIdentifier name then .ok ⟨schema, name, hs, hn⟩
    else .error (.config (.notIdentifier "table name" name))
  else .error (.config (.notIdentifier "schema_name" schema))

def ofConfig (config : Config) : Except StoreError Table :=
  ofNames config.schemaName config.qualifiedTable

def quoted (name : String) : String := "\"" ++ name ++ "\""

/-- The name of the table within the database. -/
def qualified (table : Table) : String := quoted table.schema ++ "." ++ quoted table.name

/-- The name of the index on a column. -/
def indexName (table : Table) (column : Column) : String :=
  table.name ++ "_" ++ column.name ++ "_idx"

/-- The definition of a part of the key. -/
def keyColumnText (column : Column) : String :=
  column.name ++ " text NOT NULL CHECK (char_length(" ++ column.name ++ ") BETWEEN 1 AND " ++
    natText maxKeyLength ++ ")"

/-- What makes an index on a column, unless there is an object of that name already. -/
def indexText (table : Table) (column : Column) : String :=
  "CREATE INDEX IF NOT EXISTS " ++ quoted (table.indexName column) ++ " ON " ++ table.qualified ++
    " (" ++ column.name ++ ")"

/-- What restricts an index to the rows that have a value in a column. -/
def presentText (column : Column) : String := " WHERE " ++ column.name ++ " IS NOT NULL"

/-- What makes the schema, the table and its indexes, where they do not exist. -/
def definition (table : Table) : List String := [
  "CREATE SCHEMA IF NOT EXISTS " ++ quoted table.schema,
  "CREATE TABLE IF NOT EXISTS " ++ table.qualified ++ " (" ++
    keyColumnText .partition ++ ", " ++ keyColumnText .id ++ ", " ++
    Column.document.name ++ " jsonb NOT NULL, created timestamptz NOT NULL DEFAULT now(), " ++
    "updated timestamptz NULL, expires timestamptz NULL, PRIMARY KEY " ++
    columnsText keyColumns ++ ")",
  table.indexText .created,
  table.indexText .updated ++ presentText .updated,
  table.indexText .expires ++ presentText .expires]

/-- The text of a statement on the table. -/
def text (table : Table) (statement : Statement) : String := statement.command.text table.qualified

end Table

/-! ## The statements of the operations -/

namespace Statement

/-- The condition on the partition, which is the first argument. -/
def ofPartition : Condition := .equals .partition 1

/-- The conditions on the key, which is the first two arguments. -/
def ofKey : List Condition := [ofPartition, .equals .id 2]

def keyArguments (key : Key) : List Argument := [.text key.partition, .text key.id]

/-- The row of a new record. -/
def newRow : List (Column × Source) := [
  (.partition, .argument 1), (.id, .argument 2), (.document, .argument 3), (.created, .now),
  (.expires, .argument 4)]

/-- The command of a write.  A create overwrites nothing but an expired row, and then as if there
had been none; an upsert keeps the instant of creation, as an update does. -/
def writeCommand : WriteMode → Command
  | .create =>
    .insert newRow
      [(.document, .inserted .document), (.created, .now), (.updated, .null),
        (.expires, .inserted .expires)] true
  | .update =>
    .update [(.document, .argument 3), (.updated, .now), (.expires, .argument 4)] (ofKey ++ [.live])
  | .upsert =>
    .insert newRow
      [(.document, .inserted .document), (.updated, .now), (.expires, .inserted .expires)] false

def write (mode : WriteMode) (key : Key) (value : Json) (expires : Option Instant) : Statement :=
  ⟨writeCommand mode, keyArguments key ++ [.json value, .expiry expires]⟩

/-- Deletes a record, expired or not. -/
def delete (key : Key) : Statement := ⟨.delete ofKey, keyArguments key⟩

def filterConditions (filter : Option CompiledQuery) : List Condition :=
  match filter with
  | some query => [.filter query.condition]
  | none => []

/-- The arguments of a partition and a filter. -/
def scanArguments (partition : String) (filter : Option CompiledQuery) : List Argument :=
  .text partition ::
    match filter with
    | some query => query.parameters.map Parameter.argument
    | none => []

/-- Deletes the records of a partition that a filter holds of, expired or not. -/
def deleteMatching (partition : String) (filter : Option CompiledQuery) : Statement :=
  ⟨.delete (ofPartition :: filterConditions filter), scanArguments partition filter⟩

/-- Deletes the expired records of a partition. -/
def deleteExpired (partition : String) : Statement :=
  ⟨.delete [ofPartition, .expired], [.text partition]⟩

/-- Fetches the document under a key, if it is live. -/
def get (key : Key) : Statement := ⟨.select .document (ofKey ++ [.live]), keyArguments key⟩

/-- Asks whether there is a live record under a key. -/
def contains (key : Key) : Statement := ⟨.select .existence (ofKey ++ [.live]), keyArguments key⟩

/-- The conditions on the live rows of a partition that a filter holds of. -/
def scanConditions (filter : Option CompiledQuery) : List Condition :=
  ofPartition :: .live :: filterConditions filter

/-- Counts the live records of a partition that a filter holds of. -/
def count (partition : String) (filter : Option CompiledQuery) : Statement :=
  ⟨.select .number (scanConditions filter), scanArguments partition filter⟩

/-- Lists the live documents of a partition that a filter holds of, in id order, on a page.  The
bounds of the page come after the filter's constants. -/
def list (partition : String) (filter : Option CompiledQuery) (page : Page) : Statement :=
  let scan := scanArguments partition filter
  let withLimit := scan ++ (page.limit.map pageArgument).toList
  let withOffset := withLimit ++ (page.offset.map pageArgument).toList
  ⟨.select (.documents (page.limit.map fun _ => withLimit.length)
      (page.offset.map fun _ => withOffset.length)) (scanConditions filter), withOffset⟩

end Statement

end DocStore
