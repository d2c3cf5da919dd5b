import DocStore.CommandLine.Arguments
import DocStore.CommandLine.Run

/-!
# The program

The command line as a program: it reads the files that an invocation names, and the standard input
where a document is taken from it, runs the invocation, and writes what comes of it.  No database
driver is part of the program, so only what needs no open store can succeed.
-/

namespace DocStore.Program

def usage : String := "\n".intercalate [
  "Usage: docstore [--config <CONFIG>] <COMMAND>",
  "",
  "Commands:",
  "  init     Create the schema, table and indexes",
  "  compile  Compile a predicate and print the fragment and parameters",
  "  get      Print one document",
  "  put      Write one document",
  "  remove   Remove one document",
  "  list     List live documents in id order",
  "  count    Count live documents",
  "  purge    Remove every matching document, expired or not",
  "  sweep    Remove expired documents",
  "  help     Print this message or the help of the given subcommand(s)"]

def reasonOf : IO.Error → String
  | .noFileOrDirectory _ _ _ => "No such file or directory (os error 2)"
  | e => toString e

/-- The text of a file, or why it cannot be read. -/
def readFile (path : String) : IO (Except String String) := do
  try
    return .ok (← IO.FS.readFile path)
  catch e => return .error (reasonOf e)

/-- All that can be read from a stream. -/
def readAll (stream : IO.FS.Stream) : IO (Except String String) := do
  try
    let mut text := ""
    let mut line ← stream.getLine
    while !line.isEmpty do
      text := text ++ line
      line ← stream.getLine
    return .ok text
  catch e => return .error (reasonOf e)

def surroundings (invocation : Invocation) : IO Surroundings := do
  let files ← invocation.files.mapM fun path => do return (path, ← readFile path)
  let input ← if invocation.request.readsInput then readAll (← IO.getStdin) else pure (.ok "")
  let environment := ⟨← IO.getEnv addressVariable, ← IO.getEnv fallbackAddressVariable⟩
  return ⟨environment, fun path => (files.lookup path).getD (.error "not read"), input⟩

/-- Runs an invocation, and answers with the exit status. -/
def runInvocation (invocation : Invocation) : IO UInt32 := do
  let around ← surroundings invocation
  let connect (_ : Config) : Except StoreError (Store × Instant) :=
    .error (.backend "no database driver is present")
  let output := Output.ofResult (invocation.run around connect)
  (← IO.getStdout).putStr output.standard
  match output.error with
  | none => return 0
  | some text =>
    IO.eprintln text
    return 1

/-- Answers a command line that is not carried out. -/
def refuse (fault : UsageFault) : IO UInt32 := do
  match fault with
  | .help =>
    IO.println usage
    return 0
  | .version =>
    IO.println "docstore"
    return 0
  | _ =>
    IO.eprintln usage
    return 2

end DocStore.Program

def main (args : List String) : IO UInt32 :=
  match DocStore.Invocation.ofWords args with
  | .ok invocation => DocStore.Program.runInvocation invocation
  | .error fault => DocStore.Program.refuse fault
