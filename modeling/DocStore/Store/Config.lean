import DocStore.Json.Outline
import DocStore.Json.Record
import DocStore.Json.Writer
import DocStore.Sql.Identifier
import DocStore.Store.Key
import DocStore.Text.Blank

/-!
# Configuration

Where a collection is stored: the database, the names of its schema and table, and defaults of the
command line.  A configuration is read from JSON, where every field may be left out, or made from
the environment.

* `Config.ofText?`: a configuration from its JSON text;
* `Config.validate`: what is wrong with a configuration, if anything;
* `Config.load`, `Config.ofEnvironment`: a valid configuration from a file and from the environment.
-/

namespace DocStore

open Json (optional?)
open DocStore.Text

/-- Where and how a collection is stored. -/
structure Config where
  /-- The address of the database. -/
  address : String
  schemaName : String
  tableName : String
  /-- What sets collections apart that share a table name. -/
  serviceKey : Option String
  /-- The partition of commands that name none. -/
  defaultPartition : String
  maxConnections : UInt32
  /-- Whether the table is made on connecting. -/
  bootstrap : Bool
deriving DecidableEq, Repr

/-- The variables of the environment that name a database. -/
structure Environment where
  address : Option String
  fallbackAddress : Option String
deriving DecidableEq, Repr

/-- The environment without these variables. -/
def Environment.empty : Environment := ⟨none, none⟩

/-- The address that the environment gives: the first that is not blank. -/
def Environment.databaseAddress? (env : Environment) : Option String :=
  (env.address.filter fun s => !allBlank s).or (env.fallbackAddress.filter fun s => !allBlank s)

namespace Config

/-- The configuration of a collection whose address is unknown. -/
def default : Config := ⟨"", "pgkeyvaluedb", "pgkeyvaluedb", none, "default", 10, true⟩

/-- The default configuration at an address. -/
def ofAddress (address : String) : Config := { default with address }

/-! ## JSON -/

/-- A count of connections: a word of 32 bits. -/
def connections? (j : Json) : Option UInt32 :=
  (j.intIn? .unsigned32).map fun n => .ofNat n.toNat

/-- A configuration from the members of an object. -/
def ofMembers? (members : List (String × Json)) : Option Config := do
  let address ← optional? "connection_string" default.address Json.string? members
  let schemaName ← optional? "schema_name" default.schemaName Json.string? members
  let tableName ← optional? "table_name" default.tableName Json.string? members
  let serviceKey ← optional? "service_key" default.serviceKey Json.nullableString? members
  let partition ← optional? "default_partition" default.defaultPartition Json.string? members
  let connections ← optional? "max_connections" default.maxConnections connections? members
  let bootstrap ← optional? "bootstrap_schema" default.bootstrap Json.bool? members
  return ⟨address, schemaName, tableName, serviceKey, partition, connections, bootstrap⟩

def fieldNames : List String := [
  "connection_string", "schema_name", "table_name", "service_key", "default_partition",
  "max_connections", "bootstrap_schema"]

/-- A configuration from its JSON: an object, or the array of some of its first fields. -/
def ofJson? : Json → Option Config
  | .object members => ofMembers? members
  | .array items =>
    if items.length ≤ fieldNames.length then ofMembers? (fieldNames.zip items) else none
  | _ => none

def ofText? (s : String) : Option Config := (Json.readRecord? fieldNames s).bind ofJson?

def toJson (config : Config) : Json := .object [
  ("connection_string", .string config.address),
  ("schema_name", .string config.schemaName),
  ("table_name", .string config.tableName),
  ("service_key", (config.serviceKey.map Json.string).getD .null),
  ("default_partition", .string config.defaultPartition),
  ("max_connections", .ofInt config.maxConnections.toNat),
  ("bootstrap_schema", .bool config.bootstrap)]

/-! ## Validity -/

def qualifiedTable (config : Config) : String :=
  match config.serviceKey with
  | some key => config.tableName ++ "_" ++ key
  | none => config.tableName

/-- A name that must be an identifier. -/
def checkIdentifier (what name : String) : Except StoreError Unit :=
  if isIdentifier name then .ok () else .error (.config (.notIdentifier what name))

/-- The names of the schema and of the table. -/
def checkNames (config : Config) : Except StoreError Unit := do
  checkIdentifier "schema_name" config.schemaName
  checkIdentifier "table name" config.qualifiedTable

/-- What is wrong with a configuration, if anything. -/
def validate (config : Config) : Except StoreError Unit := do
  if allBlank config.address then .error (.config .blankAddress)
  config.checkNames
  if config.maxConnections = 0 then .error (.config .noConnections)
  match Key.checkPart .partition config.defaultPartition with
  | .ok () => .ok ()
  | .error _ => .error (.config (.defaultPartition config.defaultPartition.length))

def validated (config : Config) : Except StoreError Config :=
  config.validate.map fun _ => config

/-- The configuration in a file, given under its path with what reading it has yielded: its text, or
why it cannot be read.  Where the file gives no address, the environment does. -/
def load (env : Environment) (path : String) (file : Except String String) :
    Except StoreError Config :=
  match file with
  | .error reason => .error (.config (.unreadable path reason))
  | .ok text =>
    match ofText? text with
    | none => .error (.config .malformed)
    | some config =>
      let address := if config.address.isEmpty then env.databaseAddress?.getD "" else config.address
      validated { config with address }

/-- The default configuration at the address that the environment gives. -/
def ofEnvironment (env : Environment) : Except StoreError Config :=
  match env.databaseAddress? with
  | none => .error (.config .noAddress)
  | some address => validated (ofAddress address)

end Config

end DocStore
