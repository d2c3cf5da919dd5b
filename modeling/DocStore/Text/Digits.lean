import DocStore.Numeric.Range

/-!
# Numbers in decimal digits

Writing whole numbers, and reading them: digits only, or digits after an optional sign, kept when
the number lies in a given range.
-/

namespace DocStore.Text

def digitValue (c : Char) : Nat := c.toNat - '0'.toNat

/-- The number that a list of decimal digits denotes, after `start`. -/
def natFrom (start : Nat) (digits : List Char) : Nat :=
  digits.foldl (fun n c => n * 10 + digitValue c) start

/-- The number that a list of decimal digits denotes. -/
def natOfDigits (digits : List Char) : Nat := natFrom 0 digits

def natDigits (n : Nat) : List Char := Nat.toDigits 10 n

def natText (n : Nat) : String := String.ofList (natDigits n)

/-- The decimal text of an integer, with a minus sign in front of a negative one. -/
def intText (i : Int) : String :=
  if i < 0 then "-" ++ natText i.natAbs else natText i.natAbs

/-- A nonempty list of digits, read as a number. -/
def readNat? (cs : List Char) : Option Nat :=
  if cs ≠ [] ∧ cs.all Char.isDigit then some (natOfDigits cs) else none

/-- Digits after an optional sign, read as an integer. -/
def readInt? : List Char → Option Int
  | '-' :: cs => (readNat? cs).map fun n => -(n : Int)
  | '+' :: cs => (readNat? cs).map Int.ofNat
  | cs => (readNat? cs).map Int.ofNat

def readIntIn? (range : IntRange) (cs : List Char) : Option Int := (readInt? cs).filter range.holds

/-- A number without a minus sign, at most `greatest`. -/
def readNatUpTo? (greatest : Nat) (cs : List Char) : Option Nat :=
  let digits := match cs with
    | '+' :: rest => rest
    | _ => cs
  (readNat? digits).filter (· ≤ greatest)

/-- A number in at least `width` digits, filled with leading zeros. -/
def paddedNat (width n : Nat) : String :=
  let digits := natDigits n
  String.ofList (List.replicate (width - digits.length) '0' ++ digits)

end DocStore.Text
