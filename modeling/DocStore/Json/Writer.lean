import DocStore.Floating.Layout
import DocStore.Json.Basic

/-!
# Writing JSON

The compact text of a JSON value: no spacing, members in the order they are held, and only quotes,
backslashes and control characters escaped.
-/

namespace DocStore

open DocStore.Text

def JsonNumber.text : JsonNumber → String
  | .whole i => intText i
  | .float x => x.text .json

namespace Json

/-- How one character stands in a JSON string. -/
def escaped (c : Char) : String :=
  if c = '"' then "\\\""
  else if c = '\\' then "\\\\"
  else if c = '\x08' then "\\b"
  else if c = '\x0c' then "\\f"
  else if c = '\n' then "\\n"
  else if c = '\r' then "\\r"
  else if c = '\t' then "\\t"
  else if c.toNat < 0x20 then
    "\\u00" ++ String.ofList [Nat.digitChar (c.toNat / 16), Nat.digitChar (c.toNat % 16)]
  else String.singleton c

def stringText (s : String) : String := "\"" ++ String.join (s.toList.map escaped) ++ "\""

mutual

def text : Json → String
  | .null => "null"
  | .bool true => "true"
  | .bool false => "false"
  | .number n => n.text
  | .string s => stringText s
  | .array items => "[" ++ itemsText items ++ "]"
  | .object members => "\x7b" ++ membersText members ++ "\x7d"

/-- The items of an array with commas between them. -/
def itemsText : List Json → String
  | [] => ""
  | [j] => text j
  | j :: rest => text j ++ "," ++ itemsText rest

/-- The members of an object with commas between them. -/
def membersText : List (String × Json) → String
  | [] => ""
  | [(name, j)] => stringText name ++ ":" ++ text j
  | (name, j) :: rest => stringText name ++ ":" ++ text j ++ "," ++ membersText rest

end

end Json

end DocStore
