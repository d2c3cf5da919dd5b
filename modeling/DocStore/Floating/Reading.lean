import DocStore.Floating.Basic
import DocStore.Text.Digits

/-!
# Reading floating-point numbers

Decimal notation, read to the nearest number: an optional sign; digits with an optional point, at
least one digit in all; an optional exponent; or the words for infinity and not-a-number in any
case.
-/

namespace DocStore.Floating

open DocStore.Text

variable {f : Format}

/-- The number nearest to `± digits · 10 ^ exponent`, where `digits` has no leading zero.  Exponents
that are certain to overflow or to vanish are settled without computing the power. -/
def ofDecimal (negative : Bool) (digits : List Char) (exponent : Int) : Floating f :=
  let magnitude := exponent + digits.length
  if digits.isEmpty then ofRank negative 0
  else if Nat.pow 2 f.exponentBits < magnitude then ofRank negative f.infinityRank
  else if magnitude < -(Nat.pow 2 f.exponentBits : Int) then ofRank negative 0
  else ofRatio negative (natOfDigits digits * Nat.pow 10 exponent.toNat)
    (Nat.pow 10 (-exponent).toNat)

/-- The exponent part of a number, if the text is one: nothing, or a marked signed number. -/
def readExponent? : List Char → Option Int
  | [] => some 0
  | c :: rest => if c = 'e' ∨ c = 'E' then readInt? rest else none

/-- A number without sign in decimal notation. -/
def readMagnitude? (negative : Bool) (cs : List Char) : Option (Floating f) :=
  let whole := cs.takeWhile Char.isDigit
  let afterWhole := cs.dropWhile Char.isDigit
  let fraction := match afterWhole with
    | '.' :: rest => rest.takeWhile Char.isDigit
    | _ => []
  let afterFraction := match afterWhole with
    | '.' :: rest => rest.dropWhile Char.isDigit
    | _ => afterWhole
  if whole.isEmpty && fraction.isEmpty then none
  else (readExponent? afterFraction).map fun exponent =>
    ofDecimal negative ((whole ++ fraction).dropWhile (· = '0')) (exponent - fraction.length)

/-- The words for the special numbers, in lower case. -/
def readWord? (negative : Bool) (cs : List Char) : Option (Floating f) :=
  match String.ofList (cs.map Char.toLower) with
  | "inf" => some (ofRank negative f.infinityRank)
  | "infinity" => some (ofRank negative f.infinityRank)
  | "nan" => some .nan
  | _ => none

/-- A number in decimal notation or one of the words, after an optional sign. -/
def readChars? (cs : List Char) : Option (Floating f) :=
  let negative := cs.head? = some '-'
  let body := match cs with
    | '-' :: rest => rest
    | '+' :: rest => rest
    | _ => cs
  (readMagnitude? negative body).or (readWord? negative body)

/-- A text read as a floating-point number. -/
def read? (s : String) : Option (Floating f) := readChars? s.toList

end DocStore.Floating
