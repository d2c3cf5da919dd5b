/-!
# Identifiers of 128 bits

Globally unique identifiers: four spellings are read, and one is written.
-/

namespace DocStore

/-- The least number of more than 128 bits. -/
def Guid.bound : Nat := 0x100000000000000000000000000000000

/-- A 128-bit identifier. -/
structure Guid where
  value : Nat
  value_lt : value < Guid.bound
deriving DecidableEq, Repr

namespace Guid

/-- The value of a hexadecimal digit in either case. -/
def hexValue? (c : Char) : Option Nat :=
  if c.isDigit then some (c.toNat - '0'.toNat)
  else if 'a' ≤ c ∧ c ≤ 'f' then some (c.toNat - 'a'.toNat + 10)
  else if 'A' ≤ c ∧ c ≤ 'F' then some (c.toNat - 'A'.toNat + 10)
  else none

def hexNumber? (cs : List Char) : Option Nat :=
  cs.foldlM (fun n c => (hexValue? c).map (n * 16 + ·)) 0

/-- Thirty-two hexadecimal digits. -/
def readSimple? (cs : List Char) : Option Guid :=
  if cs.length = 32 then
    (hexNumber? cs).bind fun n => if h : n < bound then some ⟨n, h⟩ else none
  else none

/-- Thirty-two hexadecimal digits in groups of 8, 4, 4, 4 and 12 with hyphens between them. -/
def readHyphenated? (cs : List Char) : Option Guid :=
  if cs.length = 36 ∧ [8, 13, 18, 23].all (fun i => cs[i]? = some '-') then
    readSimple? (cs.take 8 ++ (cs.drop 9).take 4 ++ (cs.drop 14).take 4 ++ (cs.drop 19).take 4 ++
      cs.drop 24)
  else none

/-- An identifier in one of its spellings: simple, hyphenated, hyphenated in braces, or hyphenated
as a uniform resource name, whose scheme and namespace are read in either case. -/
def readChars? (cs : List Char) : Option Guid :=
  if cs.length = 32 then readSimple? cs
  else if cs.length = 36 then readHyphenated? cs
  else if cs.length = 38 then
    if cs.head? = some '\x7b' ∧ cs.getLast? = some '\x7d' then
      readHyphenated? (cs.drop 1).dropLast
    else none
  else if cs.length = 45 then
    if (cs.take 9).map Char.toLower = "urn:uuid:".toList then readHyphenated? (cs.drop 9) else none
  else none

def read? (s : String) : Option Guid := readChars? s.toList

/-- The hyphenated spelling in lower case. -/
def text (g : Guid) : String :=
  let digits := Nat.toDigits 16 g.value
  let padded := List.replicate (32 - digits.length) '0' ++ digits
  String.ofList (padded.take 8 ++ ['-'] ++ (padded.drop 8).take 4 ++ ['-'] ++
    (padded.drop 12).take 4 ++ ['-'] ++ (padded.drop 16).take 4 ++ ['-'] ++ padded.drop 20)

end Guid

end DocStore
