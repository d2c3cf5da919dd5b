import DocStore.CommandLine.Invocation
import DocStore.Text.Digits

/-!
# Arguments

The grammar of the command line: options in front of the command, the command, and its options and
arguments in any order.

An option's value is the next word, unless that word looks like an option itself, or what follows an
equals sign in the option's own word.  A value that stands in a word of its own is looked at only
when the next option or argument is met, or at the end; until then a word that has no place at all
is the graver fault.  After a word of two dashes every word is an argument.

* `Word.ofText`: how a word of the command line is meant;
* `Progress.step`: one word more;
* `Invocation.ofWords`: what a command line asks for, or why it is refused.
-/

namespace DocStore

open DocStore.Text

/-- Why a command line is not carried out. -/
inductive UsageFault where
  /-- Help is asked for. -/
  | help
  /-- The version is asked for. -/
  | version
  /-- Nothing is asked for, which is answered with help. -/
  | nothing
  /-- Options are given, but no command. -/
  | noCommand
  | unknownCommand
  /-- An option that does not exist, or an argument too many. -/
  | unknownArgument
  /-- The command's argument is missing. -/
  | missingArgument
  /-- An option without its value, or with one that is none of its choices. -/
  | invalidValue
  /-- An option whose value is no number. -/
  | notNumber
  /-- An option given twice that may be given once. -/
  | repeated
  /-- A value for an option that takes none. -/
  | needlessValue
deriving DecidableEq, Repr

/-- How a word of the command line is meant, unless it is the value of an option. -/
inductive Word where
  /-- The mark after which every word is an argument. -/
  | escape
  | long (name : String) (value : Option String)
  | short (name : Char)
  | plain (text : String)
deriving DecidableEq, Repr

/-- The name of a long option and its value, which follows an equals sign. -/
def Word.longOf (cs : List Char) : Word :=
  .long (String.ofList (cs.takeWhile (· ≠ '=')))
    (match cs.dropWhile (· ≠ '=') with
      | [] => none
      | _ :: value => some (String.ofList value))

/-- How a word is meant.  A single dash is an argument. -/
def Word.ofText (s : String) : Word :=
  match s.toList with
  | ['-', '-'] => .escape
  | '-' :: '-' :: rest => longOf rest
  | '-' :: c :: _ => .short c
  | _ => .plain s

/-- An option with a value. -/
inductive Flag where
  | config
  | schema
  | filter
  | bind
  | first
  | value
  | mode
  | expires
  | limit
  | offset
  | partition
deriving DecidableEq, Repr

/-- The value of an option. -/
inductive FlagValue where
  | text (value : String)
  | number (value : UInt64)
  | mode (value : WriteMode)
deriving DecidableEq, Repr

namespace Flag

def name : Flag → String
  | .config => "config"
  | .schema => "schema"
  | .filter => "filter"
  | .bind => "bind"
  | .first => "first"
  | .value => "value"
  | .mode => "mode"
  | .expires => "expires"
  | .limit => "limit"
  | .offset => "offset"
  | .partition => "partition"

/-- Whether an option may be given more than once. -/
def isRepeatable : Flag → Bool
  | .bind => true
  | _ => false

/-- A path, which is not empty. -/
def readPath (s : String) : Except UsageFault FlagValue :=
  if s.isEmpty then .error .invalidValue else .ok (.text s)

/-- A number of 64 bits without a minus sign. -/
def readNumber (s : String) : Except UsageFault FlagValue :=
  match readNatUpTo? (UInt64.size - 1) s.toList with
  | some n => .ok (.number (.ofNat n))
  | none => .error .notNumber

/-- The value of an option from its text. -/
def read (flag : Flag) (s : String) : Except UsageFault FlagValue :=
  match flag with
  | .config => readPath s
  | .schema => readPath s
  | .first => readNumber s
  | .limit => readNumber s
  | .offset => readNumber s
  | .mode =>
    match WriteMode.ofName? s with
    | some m => .ok (.mode m)
    | none => .error .invalidValue
  | _ => .ok (.text s)

end Flag

/-- What the words of one level may be: those in front of the command, or those after it. -/
structure Level where
  flags : List Flag
  /-- Whether the version may be asked for. -/
  hasVersion : Bool
  /-- Whether there is an argument besides the options. -/
  hasArgument : Bool
  /-- What is wrong with an argument that has no place, by whether it follows the mark. -/
  stray : String → Bool → UsageFault

/-- How far the words of a level have been read. -/
structure Progress where
  /-- The options whose values have been looked at, in order. -/
  given : List (Flag × FlagValue)
  /-- An option that has been met last, and its value if it has been met too. -/
  pending : Option (Flag × Option String)
  argument : Option String
  /-- Whether the mark has been met. -/
  escaped : Bool
deriving Repr

namespace Progress

def start : Progress := ⟨[], none, none, false⟩

/-- An option with its value, if it has one, is taken down. -/
def take (progress : Progress) (flag : Flag) (value : Option String) :
    Except UsageFault Progress :=
  match value with
  | none => .error .invalidValue
  | some s =>
    if !flag.isRepeatable && progress.given.any (·.1 = flag) then .error .repeated
    else (flag.read s).map fun v =>
      { progress with given := progress.given ++ [(flag, v)], pending := none }

/-- The option that has been met last is taken down. -/
def settle (progress : Progress) : Except UsageFault Progress :=
  match progress.pending with
  | none => .ok progress
  | some (flag, value) => progress.take flag value

/-- Whether the next plain word is the value of an option. -/
def awaitsValue (progress : Progress) : Bool :=
  !progress.escaped &&
    match progress.pending with
    | some (_, none) => true
    | _ => false

def meetArgument (level : Level) (progress : Progress) (s : String) : Except UsageFault Progress :=
  if level.hasArgument && progress.argument.isNone then
    progress.settle.map fun settled => { settled with argument := some s }
  else .error (level.stray s progress.escaped)

/-- An option is met that answers on its own. -/
def meetAnswer (progress : Progress) (answer : UsageFault) (value : Option String) :
    Except UsageFault Progress :=
  match value with
  | some _ => .error .needlessValue
  | none => progress.settle.bind fun _ => .error answer

def meetLong (level : Level) (progress : Progress) (name : String) (value : Option String) :
    Except UsageFault Progress :=
  match level.flags.find? (·.name == name) with
  | some flag => do
    let settled ← progress.settle
    match value with
    | some _ => settled.take flag value
    | none => return { settled with pending := some (flag, none) }
  | none =>
    if name = "help" then progress.meetAnswer .help value
    else if name = "version" ∧ level.hasVersion then progress.meetAnswer .version value
    else .error .unknownArgument

def meetShort (level : Level) (progress : Progress) (name : Char) : Except UsageFault Progress :=
  if name = 'h' then progress.meetAnswer .help none
  else if name = 'V' ∧ level.hasVersion then progress.meetAnswer .version none
  else .error .unknownArgument

def step (level : Level) (progress : Progress) (s : String) : Except UsageFault Progress :=
  if progress.escaped then progress.meetArgument level s
  else
    match Word.ofText s with
    | .escape => .ok { progress with escaped := true }
    | .long name value => progress.meetLong level name value
    | .short name => progress.meetShort level name
    | .plain s =>
      match progress.pending with
      | some (flag, none) => .ok { progress with pending := some (flag, some s) }
      | _ => progress.meetArgument level s

/-- The texts that an option has been given. -/
def texts (progress : Progress) (flag : Flag) : List String :=
  progress.given.filterMap fun g =>
    match g.2 with
    | .text s => if g.1 = flag then some s else none
    | _ => none

/-- The text that an option has been given. -/
def text? (progress : Progress) (flag : Flag) : Option String := (progress.texts flag).head?

/-- The number that an option has been given. -/
def number? (progress : Progress) (flag : Flag) : Option UInt64 :=
  progress.given.findSome? fun g =>
    match g.2 with
    | .number n => if g.1 = flag then some n else none
    | _ => none

def mode? (progress : Progress) : Option WriteMode :=
  progress.given.findSome? fun g =>
    match g.2 with
    | .mode mode => some mode
    | _ => none

def query (progress : Progress) : QueryArgs :=
  ⟨progress.text? .schema, progress.text? .filter, progress.texts .bind⟩

end Progress

/-- A command without its arguments. -/
inductive Verb where
  | init
  | compile
  | get
  | put
  | remove
  | list
  | count
  | purge
  | sweep
deriving DecidableEq, Repr

namespace Verb

def name : Verb → String
  | .init => "init"
  | .compile => "compile"
  | .get => "get"
  | .put => "put"
  | .remove => "remove"
  | .list => "list"
  | .count => "count"
  | .purge => "purge"
  | .sweep => "sweep"

def all : List Verb := [.init, .compile, .get, .put, .remove, .list, .count, .purge, .sweep]

def ofName? (name : String) : Option Verb := all.find? fun verb => verb.name == name

def flags : Verb → List Flag
  | .init => [.config]
  | .compile => [.config, .schema, .filter, .bind, .first]
  | .get => [.config, .partition]
  | .put => [.config, .value, .mode, .expires, .partition]
  | .remove => [.config, .partition]
  | .list => [.config, .schema, .filter, .bind, .limit, .offset, .partition]
  | .count => [.config, .schema, .filter, .bind, .partition]
  | .purge => [.config, .schema, .filter, .bind, .partition]
  | .sweep => [.config, .partition]

/-- Whether a command is about one document, whose id it takes. -/
def takesId : Verb → Bool
  | .get => true
  | .put => true
  | .remove => true
  | _ => false

/-- The words that may follow a command. -/
def level (verb : Verb) : Level :=
  ⟨verb.flags, false, verb.takesId, fun _ _ => .unknownArgument⟩

/-- A command with the arguments that have been read. -/
def request (verb : Verb) (progress : Progress) : Except UsageFault Request :=
  let partition := progress.text? .partition
  let withId (make : String → Request) : Except UsageFault Request :=
    match progress.argument with
    | some id => .ok (make id)
    | none => .error .missingArgument
  match verb with
  | .init => .ok .init
  | .compile => .ok (.compile progress.query ((progress.number? .first).getD 1))
  | .get => withId fun id => .get id partition
  | .put => withId fun id =>
    .put id (progress.text? .value) (progress.mode?.getD .upsert) (progress.text? .expires)
      partition
  | .remove => withId fun id => .remove id partition
  | .list =>
    .ok (.list progress.query ⟨progress.number? .limit, progress.number? .offset⟩ partition)
  | .count => .ok (.count progress.query partition)
  | .purge => .ok (.purge progress.query partition)
  | .sweep => .ok (.sweep partition)

end Verb

namespace Invocation

/-- The words in front of the command.  The name of a command after the mark is one argument too
many, and any other stray word is taken for a command. -/
def rootLevel : Level :=
  ⟨[.config], true, false, fun s escaped =>
    if escaped && (s == "help" || (Verb.ofName? s).isSome) then .unknownArgument
    else .unknownCommand⟩

/-- What a command that asks for help on other commands is answered: help, if they exist.  No
command has commands of its own. -/
def helpOn : List String → UsageFault
  | [] => .help
  | [s] => if s = "help" ∨ (Verb.ofName? s).isSome then .help else .unknownCommand
  | _ => .unknownCommand

def ofCommand (verb : Verb) (words : List String) : Except UsageFault Invocation := do
  let progress ← words.foldlM (Progress.step verb.level) .start
  let progress ← progress.settle
  let request ← verb.request progress
  return ⟨progress.text? .config, request⟩

/-- The words of a command line, of which some have been read in front of the command.  A file that
is named after the command goes before one that is named in front of it. -/
def ofWordsAfter (progress : Progress) : List String → Except UsageFault Invocation
  | [] => do
    let progress ← progress.settle
    .error (if progress.given.isEmpty then .nothing else .noCommand)
  | s :: rest =>
    if progress.escaped || progress.awaitsValue then do
      let progress ← progress.step rootLevel s
      ofWordsAfter progress rest
    else if s = "help" then .error (helpOn rest)
    else
      match Verb.ofName? s with
      | some verb => do
        let invocation ← ofCommand verb rest
        let progress ← progress.settle
        return { invocation with config := invocation.config.or (progress.text? .config) }
      | none => do
        let progress ← progress.step rootLevel s
        ofWordsAfter progress rest

def ofWords (words : List String) : Except UsageFault Invocation := ofWordsAfter .start words

end Invocation

end DocStore
