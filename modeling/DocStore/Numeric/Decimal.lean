import DocStore.Text.Digits
import DocStore.Text.Search

/-!
# Scaled decimals

Decimal numbers with a 96-bit coefficient and at most 28 places.  The number of places is part of a
decimal's text but not of its order.

* `Decimal.read?`: plain and scientific notation, rounded to what the type can hold;
* `Decimal.roundTo`: fewer places, a half away from zero;
* `Decimal.text`: every place is written;
* `Decimal.order`: the numeric order.
-/

namespace DocStore

open DocStore.Text

/-- The least number of more than 96 bits. -/
def Decimal.bound : Nat := 0x1000000000000000000000000

/-- A sign, a coefficient, and how many of its digits are decimal places. -/
structure Decimal where
  negative : Bool
  coefficient : Nat
  scale : Nat
  coefficient_lt : coefficient < Decimal.bound
  scale_le : scale ≤ 28
deriving DecidableEq, Repr

namespace Decimal

/-- The decimal with these parts, when they are in range; zero has no sign. -/
def ofParts? (negative : Bool) (coefficient scale : Nat) : Option Decimal :=
  if h : coefficient < Decimal.bound ∧ scale ≤ 28 then
    some ⟨negative && coefficient != 0, coefficient, scale, h.1, h.2⟩
  else none

/-- A 64-bit integer as a decimal without places. -/
def ofInt64 (i : Int64) : Decimal where
  negative := i.toInt < 0
  coefficient := i.toInt.natAbs
  scale := 0
  coefficient_lt := by
    have h₁ := i.le_toInt
    have h₂ := i.toInt_lt
    simp only [Decimal.bound]
    omega
  scale_le := Nat.zero_le _

/-- The decimal with the other sign; minus zero is kept apart from zero. -/
def negate (d : Decimal) : Decimal := { d with negative := !d.negative }

def signed (d : Decimal) : Int := if d.negative then -(d.coefficient : Int) else d.coefficient

def order (a b : Decimal) : Ordering :=
  compare (a.signed * Nat.pow 10 b.scale) (b.signed * Nat.pow 10 a.scale)

/-- The text with every decimal place. -/
def text (d : Decimal) : String :=
  let digits := natDigits d.coefficient
  let padded := List.replicate (d.scale + 1 - digits.length) '0' ++ digits
  let whole := padded.length - d.scale
  String.ofList ((if d.negative then ['-'] else []) ++ padded.take whole ++
    (if d.scale = 0 then [] else '.' :: padded.drop whole))

/-- Rounds by the first digit that does not fit.  A coefficient that outgrows its bits in the
process gives up a place. -/
def roundAt (coefficient scale digit : Nat) : Option (Nat × Nat) :=
  if digit < 5 then some (coefficient, scale)
  else if coefficient + 1 < bound then some (coefficient + 1, scale)
  else if scale = 0 then none
  else some ((coefficient + 5) / 10, scale - 1)

/-- A coefficient below this surely fits one 64-bit word with a further digit. -/
def wordLimit : Nat := 0x199999999999989a

/-- Whether the last digit of a coefficient was added within one word. -/
def isNarrow (coefficient : Nat) : Bool := coefficient / 10 < wordLimit

/-- Whether only digits and underscores are left. -/
def isDigitTail (cs : List Char) : Bool := cs.all fun c => c.isDigit || c = '_'

/-- Coefficient and scale of an unsigned text.  Underscores may follow the first digit.  Decimal
places are read while they fit; the first digit that does not rounds the number, and what follows it
must still be digits but counts for nothing.  An underscore after the last place is passed over on
the way to that digit, unless the coefficient is narrow: then it stands for the digit itself, and
the number is cut off. -/
def readFrom? (point seen : Bool) (coefficient scale : Nat) : List Char → Option (Nat × Nat)
  | [] => if seen then some (coefficient, scale) else none
  | c :: rest =>
    let next := coefficient * 10 + digitValue c
    if c.isDigit then
      if next < bound && (!point || scale < 28) then
        readFrom? point true next (if point then scale + 1 else scale) rest
      else if point && isDigitTail rest then roundAt coefficient scale (digitValue c)
      else none
    else if c = '.' && !point then readFrom? true seen coefficient scale rest
    else if c = '_' && seen then
      if point && scale = 28 && isNarrow coefficient then
        if isDigitTail rest then some (coefficient, scale) else none
      else readFrom? point seen coefficient scale rest
    else none

/-- Plain notation: an optional sign, then digits with an optional point. -/
def readPlain? (cs : List Char) : Option Decimal :=
  let body := match cs with
    | '-' :: rest => rest
    | '+' :: rest => rest
    | _ => cs
  (readFrom? false false 0 0 body).bind fun parts =>
    ofParts? (cs.head? = some '-') parts.1 parts.2

/-- A decimal with at most the given places, a half rounded away from zero.  The sign stays, also
that of a number which becomes zero. -/
def roundTo (d : Decimal) (places : Nat) : Decimal :=
  if h : places < d.scale then
    let unit := Nat.pow 10 (d.scale - places)
    { d with
      coefficient := (d.coefficient + unit / 2) / unit
      scale := places
      coefficient_lt := by
        have unit_pos : 0 < unit := Nat.pow_pos (by decide)
        have coefficient_lt := d.coefficient_lt
        have scaled : unit - 1 + bound ≤ unit * bound := by
          have le : (unit - 1) * 1 ≤ (unit - 1) * bound := Nat.mul_le_mul_left _ (by decide)
          have split : unit * bound = (unit - 1) * bound + bound := by
            rw [← Nat.succ_mul, Nat.succ_eq_add_one, Nat.sub_add_cancel unit_pos]
          omega
        exact Nat.div_lt_of_lt_mul (by omega)
      scale_le := by have := d.scale_le; omega }
  else d

/-- Rounding leaves no more places than asked for. -/
theorem scale_roundTo_le (d : Decimal) (places : Nat) : (d.roundTo places).scale ≤ places := by
  unfold roundTo
  split
  · exact Nat.le_refl _
  · omega

/-- A decimal divided by a power of ten.  Digits past the last place are rounded away. -/
def shiftedRight? (d : Decimal) (exponent : Nat) : Option Decimal :=
  if h : exponent ≤ 28 then
    let rounded := d.roundTo (28 - exponent)
    some { rounded with
      scale := rounded.scale + exponent
      scale_le := by
        have le : rounded.scale ≤ 28 - exponent := d.scale_roundTo_le _
        omega }
  else none

/-- A decimal multiplied by a power of ten, by using up places before adding zeros. -/
def shiftedLeft? (d : Decimal) (exponent : Nat) : Option Decimal :=
  if exponent ≤ d.scale then
    some { d with scale := d.scale - exponent
                  scale_le := Nat.le_trans (Nat.sub_le ..) d.scale_le }
  else if 28 < exponent then none
  else ofParts? d.negative (d.coefficient * Nat.pow 10 (exponent - d.scale)) 0

/-- Scientific notation: plain notation, a mark, and an exponent of at most 28 either way. -/
def readScientific? (cs : List Char) : Option Decimal := do
  let halves ← splitFirst (fun c => c = 'e' || c = 'E') cs
  let base ← readPlain? halves.1
  match halves.2 with
  | '-' :: digits =>
    let exponent ← readNatUpTo? 0xffffffff digits
    base.shiftedRight? exponent
  | digits =>
    let exponent ← readNatUpTo? 0xffffffff digits
    base.shiftedLeft? exponent

/-- A decimal in plain or scientific notation. -/
def readChars? (cs : List Char) : Option Decimal := (readPlain? cs).or (readScientific? cs)

def read? (s : String) : Option Decimal := readChars? s.toList

end Decimal

end DocStore
