import DocStore.CommandLine.Error
import DocStore.CommandLine.Invocation
import DocStore.Query.Reading
import DocStore.Schema.Reader
import DocStore.Sql.Compile
import DocStore.Store.Basic
import DocStore.Store.Config

/-!
# Running commands

What each command does to a store, and what is written about it: one JSON object that holds either
the result or the error.

* `Request.perform`: a command on an open store;
* `Invocation.configuration`: the configuration that an invocation names;
* `Invocation.run`: an invocation from the configuration to the result;
* `Output.ofResult`: what is written.
-/

namespace DocStore

open DocStore.Text

/-- What commands find around them. -/
structure Surroundings where
  environment : Environment
  /-- The text of the file at a path, or why it cannot be read. -/
  file : String → Except String String
  /-- The standard input, or why it cannot be read. -/
  input : Except String String

abbrev CommandResult (α : Type) := Except CommandError α

/-- A reply of the store as the result of a command. -/
def Store.Reply.result {α : Type} (encode : α → Json) (reply : Store.Reply α) :
    CommandResult Json × Store :=
  (match reply.1 with
    | .ok a => .ok (encode a)
    | .error e => .error (.store e), reply.2)

def tally (name : String) (n : Nat) : Json := .ofMembers [(name, .ofInt n)]

/-- A result with a single truth value. -/
def verdict (name : String) (b : Bool) : Json := .ofMembers [(name, .bool b)]

namespace QueryArgs

def loadSchema (around : Surroundings) (path : String) : CommandResult Schema :=
  match around.file path with
  | .error reason => .error (.unreadableSchema path reason)
  | .ok text =>
    match Schema.ofText? text with
    | some schema => .ok schema
    | none => .error .malformedSchema

/-- A capture's name without the mark in front, and its value: JSON, or any other text as it
stands. -/
def readBind (text : String) : CommandResult (String × Value) :=
  match text.toList.dropWhile (· ≠ '=') with
  | [] => .error (.malformedBind text)
  | _ :: rest =>
    let name := (text.toList.takeWhile (· ≠ '=')).dropWhile (· = '@')
    let raw := String.ofList rest
    match Json.read? raw with
    | none => .ok (String.ofList name, .text raw)
    | some j =>
      match Value.ofJson j with
      | .ok value => .ok (String.ofList name, value)
      | .error e => .error (.store (.query e))

/-- A filter with a value for one of its captures. -/
def addBind (filter : Filter) (text : String) : CommandResult Filter :=
  (readBind text).map fun bound => filter.bind bound.1 bound.2

/-- A filter from its text, with the values of its captures. -/
def loadFilter (query : QueryArgs) (text : String) : CommandResult Filter :=
  match Filter.ofText text with
  | .error e => .error (.store (.query e))
  | .ok filter => query.binds.foldlM addBind filter

/-- The schema that documents are selected by; without a file it has no fields. -/
def chooseSchema (query : QueryArgs) (around : Surroundings) : CommandResult Schema :=
  match query.schema with
  | some path => loadSchema around path
  | none => if query.filter.isSome then .error .filterWithoutSchema else .ok (.empty "document")

/-- The schema and the filter that select documents.  A filter needs a schema. -/
def load (query : QueryArgs) (around : Surroundings) : CommandResult (Schema × Option Filter) := do
  let schema ← query.chooseSchema around
  match query.filter with
  | none => return (schema, none)
  | some text => do
    let filter ← query.loadFilter text
    return (schema, some filter)

/-- What a filter is translated to, numbered from `first`. -/
def compile (query : QueryArgs) (around : Surroundings) (first : UInt64) : CommandResult Json := do
  let (schema, filter) ← query.load around
  match filter with
  | none => .error .nothingToCompile
  | some filter =>
    match filter.compileFrom schema first.toNat with
    | .error e => .error (.store (.query e))
    | .ok compiled =>
      let parameter (p : Parameter) : Json := .ofMembers [
        ("placeholder", .string p.placeholder), ("type", .string p.type.name),
        ("value", p.value.toJson)]
      return .ofMembers [
        ("fragment", .string compiled.fragment),
        ("parameters", .array (compiled.parameters.map parameter))]

end QueryArgs

namespace Request

def readDocument (text : String) : CommandResult Json :=
  match Json.read? text with
  | some value => .ok value
  | none => .error .malformedDocument

/-- The document to be written: given, or from the standard input. -/
def document (around : Surroundings) (given : Option String) : CommandResult Json :=
  match given with
  | some text => readDocument text
  | none =>
    match around.input with
    | .error reason => .error (.unreadableInput reason)
    | .ok text => if allBlank text then .error .emptyInput else readDocument text

/-- The expiry of a document, if there is one. -/
def expiry (given : Option String) : CommandResult (Option Instant) :=
  match given with
  | none => .ok none
  | some text =>
    match Instant.read? text with
    | some instant => .ok (some instant)
    | none => .error (.malformedExpiry text)

/-- What a command on selected documents does, if they can be selected. -/
def onSelection (store : Store) (around : Surroundings) (query : QueryArgs)
    (act : Schema → Option Filter → CommandResult Json × Store) : CommandResult Json × Store :=
  match query.load around with
  | .error e => (.error e, store)
  | .ok (schema, filter) => act schema filter

/-- A command on an open store, at an instant. -/
def perform (request : Request) (store : Store) (config : Config) (around : Surroundings)
    (now : Instant) : CommandResult Json × Store :=
  let within (partition : Option String) : String := partition.getD config.defaultPartition
  match request with
  | .init =>
    (.ok (.ofMembers [("schema", .string config.schemaName),
      ("table", .string config.qualifiedTable)]), store)
  | .compile query first => (query.compile around first, store)
  | .get id partition =>
    (store.get (within partition) id now).result fun found => found.getD .null
  | .put id given mode expires partition =>
    match document around given with
    | .error e => (.error e, store)
    | .ok value =>
      match expiry expires with
      | .error e => (.error e, store)
      | .ok expires =>
        (store.write mode (within partition) id value expires now).result (verdict "written")
  | .remove id partition => (store.remove (within partition) id).result (verdict "removed")
  | .list query page partition =>
    onSelection store around query fun schema filter =>
      (store.list (within partition) schema filter page now).result Json.array
  | .count query partition =>
    onSelection store around query fun schema filter =>
      (store.count (within partition) schema filter now).result (tally "count")
  | .purge query partition =>
    onSelection store around query fun schema filter =>
      (store.removeAll (within partition) schema filter).result (tally "removed")
  | .sweep partition => (store.sweep (within partition) now).result (tally "removed")

end Request

namespace Invocation

/-- The configuration that an invocation names: that of a file, or of the environment. -/
def configuration (invocation : Invocation) (around : Surroundings) : CommandResult Config :=
  (match invocation.config with
    | some path => Config.load around.environment path (around.file path)
    | none => Config.ofEnvironment around.environment).mapError .store

/-- The configuration that the store is opened with: to make the table is to open the store. -/
def opening (invocation : Invocation) (config : Config) : Config :=
  match invocation.request with
  | .init => { config with bootstrap := true }
  | _ => config

/-- An invocation on the store that `connect` opens, at the instant that it tells.  Translating a
filter needs neither configuration nor store. -/
def run (invocation : Invocation) (around : Surroundings)
    (connect : Config → Except StoreError (Store × Instant)) : CommandResult Json :=
  match invocation.request with
  | .compile query first => query.compile around first
  | request => do
    let config ← invocation.configuration around
    let config := invocation.opening config
    let (store, now) ← (connect config).mapError .store
    (request.perform store config around now).1

end Invocation

/-- What a command writes. -/
structure Output where
  standard : String
  /-- What is written to the standard error, if the command fails. -/
  error : Option String
deriving DecidableEq, Repr

/-- What is written about the result of a command. -/
def Output.ofResult : CommandResult Json → Output
  | .ok data => ⟨(Json.ofMembers [("data", data), ("status", .string "ok")]).text ++ "\n", none⟩
  | .error e =>
    ⟨(Json.ofMembers [("code", .string e.code), ("message", .string e.message),
        ("status", .string "error")]).text ++ "\n",
      some (e.code ++ ": " ++ e.message)⟩

end DocStore
