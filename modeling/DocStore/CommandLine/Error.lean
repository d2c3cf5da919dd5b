import DocStore.Store.Error

/-!
# Errors of the command line

Why a command fails.  Errors of the query and of the store keep their own codes; only what is wrong
with the configuration goes by the code of the command line.
-/

namespace DocStore

/-- Why a command fails. -/
inductive CommandError where
  | store (cause : StoreError)
  /-- The schema's file cannot be read. -/
  | unreadableSchema (path reason : String)
  /-- The standard input cannot be read. -/
  | unreadableInput (reason : String)
  /-- There is no document on the standard input. -/
  | emptyInput
  /-- The document is no JSON. -/
  | malformedDocument
  /-- The schema's file does not hold a schema. -/
  | malformedSchema
  | filterWithoutSchema
  | nothingToCompile
  /-- A value for a capture without an equals sign. -/
  | malformedBind (text : String)
  /-- An expiry that is no instant. -/
  | malformedExpiry (text : String)
deriving Repr

namespace CommandError

/-- The stable code of an error. -/
def code : CommandError → String
  | .store (.config _) => "PGKV_CLI_CONFIG_ERROR"
  | .store cause => cause.code
  | .unreadableSchema .. => "PGKV_CLI_IO_ERROR"
  | .unreadableInput _ => "PGKV_CLI_IO_ERROR"
  | .emptyInput => "PGKV_CLI_IO_ERROR"
  | .malformedDocument => "PGKV_CLI_IO_ERROR"
  | .malformedSchema => "PGKV_CLI_INVALID_ARGUMENT"
  | .filterWithoutSchema => "PGKV_CLI_INVALID_ARGUMENT"
  | .nothingToCompile => "PGKV_CLI_INVALID_ARGUMENT"
  | .malformedBind _ => "PGKV_CLI_INVALID_ARGUMENT"
  | .malformedExpiry _ => "PGKV_CLI_INVALID_ARGUMENT"

def message : CommandError → String
  | .store (.config fault) => fault.message
  | .store cause => cause.message
  | .unreadableSchema path reason => "Failed to read schema " ++ path ++ ": " ++ reason
  | .unreadableInput reason => reason
  | .emptyInput => "Empty input"
  | .malformedDocument => "JSON error: "
  | .malformedSchema => "Invalid schema JSON: "
  | .filterWithoutSchema => "--filter requires --schema"
  | .nothingToCompile => "compile requires --filter"
  | .malformedBind text => "Invalid --bind '" ++ text ++ "': expected NAME=VALUE"
  | .malformedExpiry text => "Invalid --expires '" ++ text ++ "': "

end CommandError

end DocStore
