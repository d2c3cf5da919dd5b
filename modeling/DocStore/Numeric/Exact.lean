import DocStore.Text.Blank
import DocStore.Text.Digits
import DocStore.Text.Search

/-!
# Exact numbers

Decimal numbers of any length, in a normal form that makes equal numbers equal values: a number is
`0.d₁d₂… · 10 ^ exponent`, with neither a leading nor a trailing zero among its digits, and zero has
no digits.  Exponents are 64-bit integers, and a text whose exponent would leave that range is
refused.
-/

namespace DocStore

open DocStore.Text

/-- A decimal number in normal form. -/
structure ExactNumber where
  negative : Bool
  digits : List Nat
  exponent : Int
deriving DecidableEq, Repr

namespace ExactNumber

def zero : ExactNumber := ⟨false, [], 0⟩

/-- A 64-bit integer, or nothing. -/
def inRange? (i : Int) : Option Int := if IntRange.signed64.holds i then some i else none

/-- The number with these digits before and after its point, moved by a power of ten. -/
def ofParts? (negative : Bool) (whole fraction : List Char) (shift : Int) : Option ExactNumber :=
  let digits := whole ++ fraction
  let leading := (digits.takeWhile (· = '0')).length
  let kept := ((digits.dropWhile (· = '0')).reverse.dropWhile (· = '0')).reverse
  if kept.isEmpty then some zero
  else do
    let grown ← inRange? (shift + whole.length)
    let exponent ← inRange? (grown - leading)
    return ⟨negative, kept.map digitValue, exponent⟩

/-- A number without sign: digits with an optional point, at least one in all, and an optional
exponent. -/
def readMagnitude? (negative : Bool) (body : List Char) : Option ExactNumber := do
  let (mantissa, shift) ←
    match splitFirst (fun c => c = 'e' || c = 'E') body with
    | some halves =>
      (readIntIn? .signed64 halves.2).map fun shift => (halves.1, shift)
    | none => some (body, 0)
  let halves := (splitFirst (· = '.') mantissa).getD (mantissa, [])
  if halves.1.isEmpty && halves.2.isEmpty then none
  else if (halves.1 ++ halves.2).all Char.isDigit then
    ofParts? negative halves.1 halves.2 shift
  else none

/-- A number with an optional sign, blank ends aside. -/
def readChars? (cs : List Char) : Option ExactNumber :=
  match cs with
  | '-' :: body => readMagnitude? true body
  | '+' :: body => readMagnitude? false body
  | body => readMagnitude? false body

/-- A text read as an exact number. -/
def read? (s : String) : Option ExactNumber := readChars? (trimmed s)

/-- Minus one, zero or one. -/
def sign (x : ExactNumber) : Int :=
  if x.digits.isEmpty then 0 else if x.negative then -1 else 1

/-- The lexicographic order of digits; a longer list is greater than its beginning. -/
def compareDigits : List Nat → List Nat → Ordering
  | [], [] => .eq
  | [], _ :: _ => .lt
  | _ :: _, [] => .gt
  | a :: as, b :: bs => (compare a b).then (compareDigits as bs)

/-- The order of the absolute values of two nonzero numbers. -/
def compareMagnitude (x y : ExactNumber) : Ordering :=
  (compare x.exponent y.exponent).then (compareDigits x.digits y.digits)

def order (x y : ExactNumber) : Ordering :=
  match compare x.sign y.sign with
  | .eq =>
    if x.sign = 0 then .eq
    else if x.sign < 0 then (compareMagnitude x y).swap
    else compareMagnitude x y
  | unequal => unequal

end ExactNumber

end DocStore
