import DocStore.Instant.Basic
import DocStore.Text.Digits

/-!
# Instants as text

The RFC 3339 notation: read with any offset, written in universal time with as many groups of three
fraction digits as the instant needs.
-/

namespace DocStore.Instant

open DocStore.Text

/-- A number of exactly `width` digits at the start of a text, and what follows. -/
def readFixed? (width : Nat) (cs : List Char) : Option (Nat × List Char) :=
  let digits := cs.take width
  if digits.length = width ∧ digits.all Char.isDigit then
    some (natOfDigits digits, cs.drop width)
  else none

/-- The rest of a text after an expected character. -/
def skip? (c : Char) : List Char → Option (List Char)
  | [] => none
  | d :: rest => if c = d then some rest else none

/-- The fraction of a second in nanoseconds, if there is one; digits after the ninth are dropped. -/
def readFraction? : List Char → Option (Nat × List Char)
  | '.' :: rest =>
    let digits := rest.takeWhile Char.isDigit
    let kept := digits.take 9
    if digits.isEmpty then none
    else some (natOfDigits kept * Nat.pow 10 (9 - kept.length), rest.dropWhile Char.isDigit)
  | cs => some (0, cs)

/-- The offset from universal time in seconds, which ends the text. -/
def readOffset? : List Char → Option Int
  | ['Z'] => some 0
  | ['z'] => some 0
  | c :: rest => do
    let sign ← if c = '+' then some 1 else if c = '-' ∨ c = '−' then some (-1) else none
    let (hours, rest) ← readFixed? 2 rest
    let rest ← skip? ':' rest
    let (minutes, rest) ← readFixed? 2 rest
    if rest = [] ∧ hours < 24 ∧ minutes < 60 then
      some (sign * (hours * 3600 + minutes * 60 : Nat))
    else none
  | [] => none

/-- An instant in RFC 3339 notation; a second numbered 60 is a leap second. -/
def readChars? (cs : List Char) : Option Instant := do
  let (year, cs) ← readFixed? 4 cs
  let cs ← skip? '-' cs
  let (month, cs) ← readFixed? 2 cs
  let cs ← skip? '-' cs
  let (day, cs) ← readFixed? 2 cs
  let cs ← (skip? 'T' cs).or ((skip? 't' cs).or (skip? ' ' cs))
  let (hour, cs) ← readFixed? 2 cs
  let cs ← skip? ':' cs
  let (minute, cs) ← readFixed? 2 cs
  let cs ← skip? ':' cs
  let (second, cs) ← readFixed? 2 cs
  let (nano, cs) ← readFraction? cs
  let offset ← readOffset? cs
  let date : CalendarDay := ⟨year, month, day⟩
  if date.isValid ∧ hour < 24 ∧ minute < 60 ∧ second ≤ 60 then
    let ofDay : Nat := hour * 3600 + minute * 60 + min second 59
    let leap := if second = 60 then 1000000000 else 0
    some ⟨date.toDays * 86400 + ofDay - offset, nano + leap⟩
  else none

def read? (s : String) : Option Instant := readChars? s.toList

/-- A year in four digits, with a sign and at least four digits outside those years. -/
def yearText (year : Int) : String :=
  if 0 ≤ year ∧ year ≤ 9999 then paddedNat 4 year.toNat
  else (if year < 0 then "-" else "+") ++ paddedNat 4 year.natAbs

/-- A fraction of a second in groups of three digits. -/
def fractionText (nano : Nat) : String :=
  if nano = 0 then ""
  else if nano % 1000000 = 0 then "." ++ paddedNat 3 (nano / 1000000)
  else if nano % 1000 = 0 then "." ++ paddedNat 6 (nano / 1000)
  else "." ++ paddedNat 9 nano

def text (i : Instant) : String :=
  let date := CalendarDay.ofDays (i.second / 86400)
  let ofDay := (i.second % 86400).toNat
  let leap := i.nano / 1000000000
  yearText date.year ++ "-" ++ paddedNat 2 date.month ++ "-" ++ paddedNat 2 date.day ++ "T" ++
    paddedNat 2 (ofDay / 3600) ++ ":" ++ paddedNat 2 (ofDay / 60 % 60) ++ ":" ++
    paddedNat 2 (ofDay % 60 + leap) ++ fractionText (i.nano % 1000000000) ++ "+00:00"

end DocStore.Instant
