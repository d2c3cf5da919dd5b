import DocStore.Store.Records

/-!
# Invocations

What a caller of the command line can ask for.
-/

namespace DocStore

/-- What selects documents on the command line. -/
structure QueryArgs where
  /-- The path of the schema's file. -/
  schema : Option String
  filter : Option String
  /-- Values for the filter's captures, each as a name, an equals sign and a value. -/
  binds : List String
deriving DecidableEq, Repr

/-- A command with its arguments. -/
inductive Request where
  /-- Make the table. -/
  | init
  /-- Show what a filter is translated to, numbered from `first`. -/
  | compile (query : QueryArgs) (first : UInt64)
  | get (id : String) (partition : Option String)
  /-- Write a document, which is read from the standard input if it is not given. -/
  | put (id : String) (value : Option String) (mode : WriteMode) (expires : Option String)
      (partition : Option String)
  | remove (id : String) (partition : Option String)
  | list (query : QueryArgs) (page : Page) (partition : Option String)
  | count (query : QueryArgs) (partition : Option String)
  /-- Remove every document that is selected. -/
  | purge (query : QueryArgs) (partition : Option String)
  /-- Remove the expired documents. -/
  | sweep (partition : Option String)
deriving DecidableEq, Repr

/-- A command and where the configuration is. -/
structure Invocation where
  /-- The path of the configuration's file; without one, the environment is used. -/
  config : Option String
  request : Request
deriving DecidableEq, Repr

namespace Request

def query? : Request → Option QueryArgs
  | .compile query _ => some query
  | .list query _ _ => some query
  | .count query _ => some query
  | .purge query _ => some query
  | _ => none

/-- Whether a request takes a document from the standard input. -/
def readsInput : Request → Bool
  | .put _ none _ _ _ => true
  | _ => false

end Request

/-- The files that an invocation may read. -/
def Invocation.files (invocation : Invocation) : List String :=
  invocation.config.toList ++ (invocation.request.query?.bind (·.schema)).toList

end DocStore
