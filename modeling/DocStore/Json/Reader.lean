import DocStore.Floating.Reading
import DocStore.Json.Basic

/-!
# Reading JSON

JSON texts read strictly: no leading zeros, no bare control characters in strings, surrogate escapes
only in pairs, numbers within the range of a 64-bit floating-point number, at most 127 arrays and
objects around a value, and nothing but spacing around the whole.

* `Json.readAsGiven?` keeps the members of objects as they stand in the text;
* `Json.read?` is its canonical form.
-/

namespace DocStore.Json

open DocStore.Text

/-- Spacing between the parts of a JSON text. -/
def isSpace (c : Char) : Bool := c = ' ' || c = '\n' || c = '\t' || c = '\r'

/-- A text without the spacing at its start. -/
def skipSpace (cs : List Char) : List Char := cs.dropWhile isSpace

/-- The value of a hexadecimal digit in either case. -/
def hexDigit? (c : Char) : Option Nat :=
  if c.isDigit then some (digitValue c)
  else if 'a' ≤ c ∧ c ≤ 'f' then some (c.toNat - 'a'.toNat + 10)
  else if 'A' ≤ c ∧ c ≤ 'F' then some (c.toNat - 'A'.toNat + 10)
  else none

/-- Four hexadecimal digits and what follows them. -/
def readHex4? : List Char → Option (Nat × List Char)
  | a :: b :: c :: d :: rest => do
    let a ← hexDigit? a
    let b ← hexDigit? b
    let c ← hexDigit? c
    let d ← hexDigit? d
    return (((a * 16 + b) * 16 + c) * 16 + d, rest)
  | _ => none

/-- The character of a code unit escape whose first unit has been read; a leading surrogate takes a
second escape. -/
def readUnits? (unit : Nat) (rest : List Char) : Option (Char × List Char) :=
  if 0xDC00 ≤ unit ∧ unit ≤ 0xDFFF then none
  else if 0xD800 ≤ unit ∧ unit ≤ 0xDBFF then
    match rest with
    | '\\' :: 'u' :: rest => do
      let (low, rest) ← readHex4? rest
      if 0xDC00 ≤ low ∧ low ≤ 0xDFFF then
        some (Char.ofNat (0x10000 + (unit - 0xD800) * 0x400 + (low - 0xDC00)), rest)
      else none
    | _ => none
  else some (Char.ofNat unit, rest)

/-- The character of an escape, after its backslash. -/
def readEscape? : List Char → Option (Char × List Char)
  | '"' :: rest => some ('"', rest)
  | '\\' :: rest => some ('\\', rest)
  | '/' :: rest => some ('/', rest)
  | 'b' :: rest => some ('\x08', rest)
  | 'f' :: rest => some ('\x0c', rest)
  | 'n' :: rest => some ('\n', rest)
  | 'r' :: rest => some ('\r', rest)
  | 't' :: rest => some ('\t', rest)
  | 'u' :: rest => (readHex4? rest).bind fun unit => readUnits? unit.1 unit.2
  | _ => none

/-- The characters of a string up to its closing quote, most recent first, and what follows it. -/
def readString? : Nat → List Char → List Char → Option (String × List Char)
  | 0, _, _ => none
  | _ + 1, _, [] => none
  | fuel + 1, read, c :: rest =>
    if c = '"' then some (String.ofList read.reverse, rest)
    else if c = '\\' then
      match readEscape? rest with
      | some (d, rest) => readString? fuel (d :: read) rest
      | none => none
    else if c.toNat < 0x20 then none
    else readString? fuel (c :: read) rest

/-- A number as it is written. -/
structure NumberText where
  negative : Bool
  /-- The digits before the point. -/
  whole : List Char
  /-- The digits after the point, if there is one. -/
  fraction : Option (List Char)
  exponent : Option Int
deriving DecidableEq, Repr

/-- The number that is written: a whole one if it has neither fraction nor exponent and fits in 64
bits, minus zero aside, or else the nearest floating-point number, which must be finite. -/
def NumberText.value? (n : NumberText) : Option JsonNumber :=
  let magnitude := natOfDigits n.whole
  let signed : Int := if n.negative then -(magnitude : Int) else magnitude
  let isWhole := n.fraction.isNone && n.exponent.isNone
  let range := if n.negative then IntRange.signed64 else IntRange.unsigned64
  if isWhole && !(n.negative && magnitude == 0) && range.holds signed then some (.whole signed)
  else
    let places := n.fraction.getD []
    let x : Float64Value := Floating.ofDecimal n.negative
      ((n.whole ++ places).dropWhile (· = '0')) (n.exponent.getD 0 - places.length)
    if x.isFinite then some (.float x) else none

/-- The fraction of a number: nothing, or a point and at least one digit. -/
def readFraction? : List Char → Option (Option (List Char) × List Char)
  | '.' :: rest =>
    let digits := rest.takeWhile Char.isDigit
    if digits.isEmpty then none else some (some digits, rest.dropWhile Char.isDigit)
  | cs => some (none, cs)

/-- The exponent of a number: nothing, or a mark, an optional sign and at least one digit. -/
def readExponent? : List Char → Option (Option Int × List Char)
  | c :: rest =>
    if c = 'e' ∨ c = 'E' then
      let negative := rest.head? = some '-'
      let unsigned := match rest with
        | '-' :: cs => cs
        | '+' :: cs => cs
        | cs => cs
      let digits := unsigned.takeWhile Char.isDigit
      let magnitude := natOfDigits digits
      if digits.isEmpty then none
      else some (some (if negative then -(magnitude : Int) else magnitude),
        unsigned.dropWhile Char.isDigit)
    else some (none, c :: rest)
  | [] => some (none, [])

/-- A number as it is written at the start of a text. -/
def readNumberText? (cs : List Char) : Option (NumberText × List Char) := do
  let negative := cs.head? = some '-'
  let unsigned := if negative then cs.drop 1 else cs
  let whole := unsigned.takeWhile Char.isDigit
  let (fraction, rest) ← readFraction? (unsigned.dropWhile Char.isDigit)
  let (exponent, rest) ← readExponent? rest
  if whole.isEmpty ∨ (whole.head? = some '0' ∧ whole.length ≠ 1) then none
  else return (⟨negative, whole, fraction, exponent⟩, rest)

/-- A number at the start of a text. -/
def readNumber? (cs : List Char) : Option (JsonNumber × List Char) :=
  (readNumberText? cs).bind fun r => r.1.value?.map fun number => (number, r.2)

/-- What follows an expected word. -/
def skipWord? (word : String) (cs : List Char) : Option (List Char) :=
  if word.toList.isPrefixOf cs then some (cs.drop word.length) else none

mutual

/-- A value at the start of a text, inside arrays and objects of which `depth` more may open. -/
def readValue? : Nat → Nat → List Char → Option (Json × List Char)
  | 0, _, _ => none
  | fuel + 1, depth, cs =>
    match skipSpace cs with
    | [] => none
    | 'n' :: rest => (skipWord? "ull" rest).map fun rest => (.null, rest)
    | 't' :: rest => (skipWord? "rue" rest).map fun rest => (.bool true, rest)
    | 'f' :: rest => (skipWord? "alse" rest).map fun rest => (.bool false, rest)
    | '"' :: rest => (readString? (rest.length + 1) [] rest).map fun r => (.string r.1, r.2)
    | '[' :: rest =>
      if depth = 0 then none
      else match skipSpace rest with
        | ']' :: rest => some (.array [], rest)
        | rest => (readItems? fuel (depth - 1) rest).map fun r => (.array r.1, r.2)
    | '\x7b' :: rest =>
      if depth = 0 then none
      else match skipSpace rest with
        | '\x7d' :: rest => some (.object [], rest)
        | rest => (readMembers? fuel (depth - 1) rest).map fun r => (.object r.1, r.2)
    | c :: rest =>
      if c = '-' || c.isDigit then
        (readNumber? (c :: rest)).map fun r => (.number r.1, r.2)
      else none

/-- The items of an array up to its end. -/
def readItems? : Nat → Nat → List Char → Option (List Json × List Char)
  | 0, _, _ => none
  | fuel + 1, depth, cs =>
    match readValue? fuel depth cs with
    | none => none
    | some (item, rest) =>
      match skipSpace rest with
      | ',' :: rest => (readItems? fuel depth rest).map fun r => (item :: r.1, r.2)
      | ']' :: rest => some ([item], rest)
      | _ => none

/-- The members of an object up to its end. -/
def readMembers? : Nat → Nat → List Char → Option (List (String × Json) × List Char)
  | 0, _, _ => none
  | fuel + 1, depth, cs =>
    match skipSpace cs with
    | '"' :: rest =>
      match readString? (rest.length + 1) [] rest with
      | none => none
      | some (name, rest) =>
        match skipSpace rest with
        | ':' :: rest =>
          match readValue? fuel depth rest with
          | none => none
          | some (value, rest) =>
            match skipSpace rest with
            | ',' :: rest =>
              (readMembers? fuel depth rest).map fun r => ((name, value) :: r.1, r.2)
            | '\x7d' :: rest => some ([(name, value)], rest)
            | _ => none
        | _ => none
    | _ => none

end

/-- How many arrays and objects may stand around a value. -/
def maxDepth : Nat := 127

/-- What has been read of a text, if nothing but spacing follows it. -/
def wholeText? {α : Type} (result : Option (α × List Char)) : Option α :=
  result.bind fun r => if (skipSpace r.2).isEmpty then some r.1 else none

/-- Enough fuel to read a text: every value, and every item and member, takes a character. -/
def fuelFor (cs : List Char) : Nat := 2 * cs.length + 1

/-- A JSON text, the members of its objects as they stand. -/
def readAsGiven? (s : String) : Option Json :=
  let cs := s.toList
  wholeText? (readValue? (fuelFor cs) maxDepth cs)

/-- A JSON text, in canonical form. -/
def read? (s : String) : Option Json := (readAsGiven? s).map canonical

end DocStore.Json
