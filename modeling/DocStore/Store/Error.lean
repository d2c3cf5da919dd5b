import DocStore.Query.Error

/-!
# Store errors

Why an operation on a store is refused or fails.  A write that meets a live record, or misses one,
is no error: it answers false.
-/

namespace DocStore

open DocStore.Text

/-- The two parts of a key. -/
inductive KeyPart where
  | partition
  | id
deriving DecidableEq, Repr

/-- The name of a key's part in messages. -/
def KeyPart.name : KeyPart → String
  | .partition => "partition"
  | .id => "id"

/-- The most characters that a part of a key may have. -/
def maxKeyLength : Nat := 255

/-- What is wrong with a configuration. -/
inductive ConfigFault where
  /-- The file cannot be read. -/
  | unreadable (path reason : String)
  /-- The file does not hold a configuration. -/
  | malformed
  /-- No environment variable names a database. -/
  | noAddress
  /-- The database address is blank. -/
  | blankAddress
  /-- A name, of what is told, that is no identifier. -/
  | notIdentifier (what name : String)
  | noConnections
  /-- The default partition is not of 1 to 255 characters, but of `length`. -/
  | defaultPartition (length : Nat)
deriving DecidableEq, Repr

/-- Why an operation on a store fails. -/
inductive StoreError where
  /-- The filter is refused. -/
  | query (cause : QueryError)
  /-- A part of the key is not of 1 to 255 characters, but of `length`. -/
  | invalidKey (part : KeyPart) (length : Nat)
  | config (fault : ConfigFault)
  /-- A stored document is not of the type it is read as, or a value to be stored is no document. -/
  | undecodable
  /-- The database fails. -/
  | backend (reason : String)
deriving Repr

/-- The environment variable that names the database. -/
def addressVariable : String := "PGKV_DATABASE_URL"

/-- The environment variable that names the database when the first does not. -/
def fallbackAddressVariable : String := "DATABASE_URL"

/-- The wording of a key part of the wrong length. -/
def invalidKeyMessage (part : KeyPart) (length : Nat) : String :=
  "Invalid key: " ++ part.name ++ " must be 1-" ++ natText maxKeyLength ++ " characters, got " ++
    natText length

def ConfigFault.message : ConfigFault → String
  | .unreadable path reason => "Failed to read config " ++ path ++ ": " ++ reason
  | .malformed => "Invalid config JSON: "
  | .noAddress => addressVariable ++ " (or " ++ fallbackAddressVariable ++ ") is not set"
  | .blankAddress => "connection_string is required"
  | .notIdentifier what name =>
    "Invalid " ++ what ++ ": '" ++ name ++
      "'. Use letters, digits and '_' (max 63, not starting with a digit)."
  | .noConnections => "max_connections must be > 0"
  | .defaultPartition length => "default_partition: " ++ invalidKeyMessage .partition length

namespace StoreError

/-- The stable code of an error. -/
def code : StoreError → String
  | .query cause => cause.code
  | .invalidKey .. => "PGKV_STORE_INVALID_KEY"
  | .config _ => "PGKV_STORE_CONFIG"
  | .undecodable => "PGKV_STORE_SERIALIZATION"
  | .backend _ => "PGKV_STORE_BACKEND"

def message : StoreError → String
  | .query cause => cause.message
  | .invalidKey part length => invalidKeyMessage part length
  | .config fault => "Configuration error: " ++ fault.message
  | .undecodable => "Serialization error: "
  | .backend reason => "Backend error: " ++ reason

/-- Whether the caller is at fault, so that no record has been looked at. -/
def isClientError : StoreError → Bool
  | .query _ => true
  | .invalidKey .. => true
  | .config _ => true
  | .undecodable => false
  | .backend _ => false

end StoreError

end DocStore
