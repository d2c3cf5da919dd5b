import DocStore.Json.Reader

/-!
# Passing over JSON

Records take the members that they have fields for, and pass over the others.  Of a value that is
passed over only the outline is looked at: where strings end, that brackets match, that numbers and
words are spelled rightly.  Whether a number is too great, whether surrogate escapes come in pairs
and how deep the value is nested does not matter.

* `Json.skipValue?`: what follows a value;
* `Json.readRecord?`: a text read for the members of some names.
-/

namespace DocStore.Json

/-- What follows a string, after its opening quote. -/
def skipString? : List Char → Option (List Char)
  | [] => none
  | '"' :: rest => some rest
  | '\\' :: 'u' :: a :: b :: c :: d :: rest =>
    if [a, b, c, d].all fun h => (hexDigit? h).isSome then skipString? rest else none
  | '\\' :: c :: rest => if "\"\\/bfnrt".toList.contains c then skipString? rest else none
  | c :: rest => if c = '\\' ∨ c.toNat < 0x20 then none else skipString? rest

mutual

/-- What follows a value at the start of a text. -/
def skipValue? : Nat → List Char → Option (List Char)
  | 0, _ => none
  | fuel + 1, cs =>
    match skipSpace cs with
    | [] => none
    | 'n' :: rest => skipWord? "ull" rest
    | 't' :: rest => skipWord? "rue" rest
    | 'f' :: rest => skipWord? "alse" rest
    | '"' :: rest => skipString? rest
    | '[' :: rest =>
      match skipSpace rest with
      | ']' :: rest => some rest
      | rest => skipItems? fuel rest
    | '\x7b' :: rest =>
      match skipSpace rest with
      | '\x7d' :: rest => some rest
      | rest => skipMembers? fuel rest
    | c :: rest =>
      if c = '-' || c.isDigit then (readNumberText? (c :: rest)).map (·.2) else none

/-- What follows the items of an array and its end. -/
def skipItems? : Nat → List Char → Option (List Char)
  | 0, _ => none
  | fuel + 1, cs =>
    match skipValue? fuel cs with
    | none => none
    | some rest =>
      match skipSpace rest with
      | ',' :: rest => skipItems? fuel rest
      | ']' :: rest => some rest
      | _ => none

/-- What follows the members of an object and its end. -/
def skipMembers? : Nat → List Char → Option (List Char)
  | 0, _ => none
  | fuel + 1, cs =>
    match skipSpace cs with
    | '"' :: rest =>
      match (skipString? rest).map skipSpace with
      | some (':' :: rest) =>
        match (skipValue? fuel rest).map skipSpace with
        | some (',' :: rest) => skipMembers? fuel rest
        | some ('\x7d' :: rest) => some rest
        | _ => none
      | _ => none
    | _ => none

end

/-- The value of a member if its name is wanted, and what follows it in either case. -/
def readWanted? (names : List String) (name : String) (cs : List Char) :
    Option (Option Json × List Char) :=
  if names.contains name then
    (readValue? (fuelFor cs) (maxDepth - 1) cs).map fun r => (some r.1, r.2)
  else (skipValue? (fuelFor cs) cs).map fun rest => (none, rest)

/-- The wanted members of an object up to its end. -/
def readWantedMembers? (names : List String) :
    Nat → List Char → Option (List (String × Json) × List Char)
  | 0, _ => none
  | fuel + 1, cs =>
    match skipSpace cs with
    | '"' :: rest => do
      let (name, rest) ← readString? (rest.length + 1) [] rest
      match skipSpace rest with
      | ':' :: rest => do
        let (value, rest) ← readWanted? names name rest
        let member := value.toList.map fun value => (name, value)
        match skipSpace rest with
        | ',' :: rest => do
          let (members, rest) ← readWantedMembers? names fuel rest
          return (member ++ members, rest)
        | '\x7d' :: rest => return (member, rest)
        | _ => none
      | _ => none
    | _ => none

/-- A JSON text of which the members of some names are wanted, if it is an object. -/
def readRecord? (names : List String) (s : String) : Option Json :=
  match skipSpace s.toList with
  | '\x7b' :: rest =>
    match skipSpace rest with
    | '\x7d' :: rest => wholeText? (some (.object [], rest))
    | rest => (wholeText? (readWantedMembers? names (fuelFor rest) rest)).map .object
  | _ => readAsGiven? s

end DocStore.Json
