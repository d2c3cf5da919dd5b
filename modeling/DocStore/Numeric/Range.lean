/-!
# Ranges of integers

The integers that words of some width hold.
-/

namespace DocStore

/-- The integers between two bounds, both included. -/
structure IntRange where
  least : Int
  greatest : Int
deriving DecidableEq, Repr

namespace IntRange

/-- Whether an integer lies in a range. -/
def holds (range : IntRange) (i : Int) : Bool := range.least ≤ i && i ≤ range.greatest

/-- Words of 16 bits with a sign. -/
def signed16 : IntRange := ⟨-0x8000, 0x7fff⟩

/-- Words of 32 bits with a sign. -/
def signed32 : IntRange := ⟨-0x80000000, 0x7fffffff⟩

/-- Words of 64 bits with a sign. -/
def signed64 : IntRange := ⟨-0x8000000000000000, 0x7fffffffffffffff⟩

/-- Words of 32 bits without a sign. -/
def unsigned32 : IntRange := ⟨0, 0xffffffff⟩

/-- Words of 64 bits without a sign. -/
def unsigned64 : IntRange := ⟨0, 0xffffffffffffffff⟩

end IntRange

end DocStore
