import DocStore.Floating.Basic
import DocStore.Text.Digits

/-!
# Shortest decimal digits

The fewest decimal digits that read back as a given number, and of those the nearest to it.

A number stands for the interval of reals that round to it, its ends included exactly when its
significand is even.  On the grid of the decimals with `n` digits only the two neighbours of the
number can be the nearest ones in the interval, so `n = 1, 2, …` is tried on those two until one
lies inside.
-/

namespace DocStore

/-- Where an exact tie between two decimals goes. -/
inductive Tie where
  | up
  | even
deriving DecidableEq, Repr

/-- A decimal number: digits times a power of ten. -/
structure DecimalDigits where
  digits : Nat
  exponent : Int
deriving DecidableEq, Repr

namespace DecimalDigits

/-- The same number without trailing zeros in its digits; `fuel` bounds how many are dropped. -/
def stripped : Nat → DecimalDigits → DecimalDigits
  | 0, d => d
  | fuel + 1, d =>
    if d.digits ≠ 0 ∧ d.digits % 10 = 0 then stripped fuel ⟨d.digits / 10, d.exponent + 1⟩ else d

end DecimalDigits

/-- A magnitude with the interval that rounds to it, as multiples of one fraction `1 / unit`. -/
structure RoundingInterval where
  lower : Nat
  value : Nat
  upper : Nat
  unit : Nat
  /-- Whether the ends belong to the interval. -/
  closed : Bool
deriving DecidableEq, Repr

namespace RoundingInterval

open DocStore.Text

/-- The interval of a rank: half a step to both sides, but a quarter downwards where the steps
halve. -/
def ofRank (f : Format) (rank : Nat) : RoundingInterval :=
  let p := Floating.parts f rank
  let below := if p.1 = Nat.pow 2 f.fractionBits ∧ 0 < p.2 then 1 else 2
  { lower := (4 * p.1 - below) * Nat.pow 2 p.2
    value := 4 * p.1 * Nat.pow 2 p.2
    upper := (4 * p.1 + 2) * Nat.pow 2 p.2
    unit := 4 * Nat.pow 2 f.unitBits
    closed := p.1 % 2 = 0 }

/-- Whether a fraction lies in the interval, given its numerator over the same unit. -/
def contains (i : RoundingInterval) (scale num : Nat) : Bool :=
  if i.closed then i.lower * scale ≤ num && num ≤ i.upper * scale
  else i.lower * scale < num && num < i.upper * scale

/-- The exponent of the leading decimal digit of a nonzero magnitude. -/
def leadingExponent (i : RoundingInterval) : Int :=
  if i.unit ≤ i.value then (natDigits (i.value / i.unit)).length - 1
  else -((natDigits ((i.unit - 1) / i.value)).length : Int)

/-- The decimal on the grid `10 ^ exponent` that lies in the interval and is nearest to its value,
if one does. -/
def nearestOnGrid? (tie : Tie) (i : RoundingInterval) (exponent : Int) : Option Nat :=
  let scale := Nat.pow 10 (-exponent).toNat
  let step := i.unit * Nat.pow 10 exponent.toNat
  let value := i.value * scale
  let below := value / step
  let above := below + 1
  let belowIn := i.contains scale (below * step)
  let aboveIn := i.contains scale (above * step)
  if belowIn && aboveIn then
    let toBelow := value - below * step
    let toAbove := above * step - value
    if toBelow < toAbove then some below
    else if toAbove < toBelow then some above
    else match tie with
      | .up => some above
      | .even => some (if below % 2 = 0 then below else above)
  else if belowIn then some below
  else if aboveIn then some above
  else none

/-- The shortest digits, trying the grids from `exponent` downwards. -/
def shortestFrom (tie : Tie) (i : RoundingInterval) : Nat → Int → DecimalDigits
  | 0, _ => ⟨0, 0⟩
  | fuel + 1, exponent =>
    match i.nearestOnGrid? tie exponent with
    | some digits => DecimalDigits.stripped 20 ⟨digits, exponent⟩
    | none => shortestFrom tie i fuel (exponent - 1)

/-- The shortest digits of the value of an interval. -/
def shortest (tie : Tie) (i : RoundingInterval) : DecimalDigits :=
  i.shortestFrom tie 20 i.leadingExponent

end RoundingInterval

/-- The shortest decimal digits that read back as the magnitude of a finite rank. -/
def Floating.shortestDigits (tie : Tie) (f : Format) (rank : Nat) : DecimalDigits :=
  if rank = 0 then ⟨0, 0⟩ else (RoundingInterval.ofRank f rank).shortest tie

end DocStore
