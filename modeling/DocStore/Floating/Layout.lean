import DocStore.Floating.Shortest

/-!
# Layout of floating-point text

How the shortest digits of a number are set out.  Two layouts are in use: the plain one, which never
has an exponent, and the one of JSON numbers.
-/

namespace DocStore

open DocStore.Text

/-- How digits are set out as text. -/
structure Layout where
  /-- Where a tie between two shortest decimals goes. -/
  tie : Tie
  /-- Whether a number is written without an exponent, given how many of its digits stand before
  the decimal point. -/
  positional : Int → Bool
  /-- Whether a whole number ends in `.0`. -/
  wholePoint : Bool

namespace Layout

/-- No exponent, and no point in a whole number. -/
def plain : Layout := ⟨.up, fun _ => true, false⟩

/-- JSON numbers: a point in every number, and an exponent below `1e-5` and from `1e16` on. -/
def json : Layout := ⟨.even, fun before => -5 < before && before ≤ 16, true⟩

/-- Digits with `before` of them in front of the decimal point. -/
def positionalText (layout : Layout) (digits : List Char) (before : Int) : List Char :=
  if before ≤ 0 then
    ['0', '.'] ++ List.replicate (-before).toNat '0' ++ digits
  else if digits.length ≤ before then
    digits ++ List.replicate (before - digits.length).toNat '0' ++
      (if layout.wholePoint then ['.', '0'] else [])
  else digits.take before.toNat ++ ['.'] ++ digits.drop before.toNat

/-- One digit, the others after a point, and a signed exponent. -/
def exponentText (digits : List Char) (before : Int) : List Char :=
  let exponent := before - 1
  digits.take 1 ++ (if digits.length ≤ 1 then [] else '.' :: digits.drop 1) ++
    ['e', if exponent < 0 then '-' else '+'] ++ natDigits exponent.natAbs

def magnitudeText (layout : Layout) (d : DecimalDigits) : List Char :=
  let digits := natDigits d.digits
  let before := d.exponent + digits.length
  if d.digits = 0 ∨ layout.positional before then layout.positionalText digits before
  else exponentText digits before

end Layout

def Floating.text (layout : Layout) {f : Format} : Floating f → String
  | .nan => "NaN"
  | .number negative rank =>
    let magnitude :=
      if rank.val < f.infinityRank then
        layout.magnitudeText (Floating.shortestDigits layout.tie f rank.val)
      else "inf".toList
    String.ofList (if negative then '-' :: magnitude else magnitude)

end DocStore
