/-!
# Binary floating point

Floating-point numbers of a binary interchange format, held by *rank*: the position of the magnitude
among all magnitudes of the format, counted from zero up to infinity.  The order of finite numbers
is then the order of ranks, and every operation is exact integer arithmetic.

* `Floating.compare?`: the numeric order; a not-a-number has no place in it;
* `Floating.ofRatio`: the nearest number to a fraction, ties going to the even neighbour.
-/

namespace DocStore

/-- A binary interchange format. -/
structure Format where
  fractionBits : Nat
  exponentBits : Nat
deriving DecidableEq, Repr

namespace Format

def single : Format := ⟨23, 8⟩

def double : Format := ⟨52, 11⟩

/-- The rank of infinity, one more than that of the largest finite number. -/
def infinityRank (f : Format) : Nat := (Nat.pow 2 f.exponentBits - 1) * Nat.pow 2 f.fractionBits

/-- The least positive number of the format is two to the power of minus this. -/
def unitBits (f : Format) : Nat := Nat.pow 2 (f.exponentBits - 1) + f.fractionBits - 2

end Format

/-- A floating-point number.  There is one not-a-number, and two zeros. -/
inductive Floating (f : Format) where
  | nan
  | number (negative : Bool) (rank : Fin (f.infinityRank + 1))
deriving DecidableEq, Repr

abbrev Float32Value := Floating Format.single

abbrev Float64Value := Floating Format.double

/-- The whole number nearest to a fraction; a tie goes to the even one. -/
def roundHalfEven (num den : Nat) : Nat :=
  let q := num / den
  let twice := 2 * (num % den)
  if den < twice ∨ (twice = den ∧ q % 2 = 1) then q + 1 else q

namespace Floating

variable {f : Format}

/-- The number with a given sign and rank; ranks from infinity on are infinity. -/
def ofRank (negative : Bool) (rank : Nat) : Floating f :=
  .number negative ⟨min rank f.infinityRank, Nat.lt_succ_of_le (Nat.min_le_right ..)⟩

/-- Significand and binary exponent of a rank: the magnitude is the first times two to the power of
the second, in units of the least positive number. -/
def parts (f : Format) (rank : Nat) : Nat × Nat :=
  let exponent := rank / Nat.pow 2 f.fractionBits - 1
  (rank - exponent * Nat.pow 2 f.fractionBits, exponent)

/-- The rank of the magnitude nearest to `num / den`, possibly beyond infinity. -/
def rankOfRatio (f : Format) (num den : Nat) : Nat :=
  let units := num * Nat.pow 2 f.unitBits
  let exponent := Nat.log2 (units / den) - f.fractionBits
  exponent * Nat.pow 2 f.fractionBits + roundHalfEven units (den * Nat.pow 2 exponent)

/-- The number nearest to `± num / den`; a tie goes to the even neighbour. -/
def ofRatio (negative : Bool) (num den : Nat) : Floating f :=
  ofRank negative (rankOfRatio f num den)

def ofInt (i : Int) : Floating f := ofRatio (i < 0) i.natAbs 1

/-- The magnitude as a fraction, for a rank below infinity. -/
def ratioOfRank (f : Format) (rank : Nat) : Nat × Nat :=
  ((parts f rank).1 * Nat.pow 2 (parts f rank).2, Nat.pow 2 f.unitBits)

def isNaN : Floating f → Bool
  | .nan => true
  | .number .. => false

/-- Whether a number is neither infinite nor a not-a-number. -/
def isFinite : Floating f → Bool
  | .nan => false
  | .number _ rank => rank.val < f.infinityRank

def negate : Floating f → Floating f
  | .nan => .nan
  | .number negative rank => .number (!negative) rank

/-- The place of a number in the numeric order; both zeros have place zero. -/
def place? : Floating f → Option Int
  | .nan => none
  | .number true rank => some (-(rank.val : Int))
  | .number false rank => some rank.val

/-- The numeric order; a not-a-number is comparable with nothing. -/
def compare? (x y : Floating f) : Option Ordering :=
  match x.place?, y.place? with
  | some a, some b => some (compare a b)
  | _, _ => none

/-- The same number in another format, rounded if that format cannot hold it. -/
def convert {g : Format} : Floating f → Floating g
  | .nan => .nan
  | .number negative rank =>
    if rank.val < f.infinityRank then
      let ratio := ratioOfRank f rank.val
      ofRatio negative ratio.1 ratio.2
    else ofRank negative g.infinityRank

end Floating

end DocStore
