import DocStore.Text.Blank
import DocStore.Text.Case.Table

/-!
# Case folding

Lower and upper case of a whole text by the full Unicode mappings.  A character may grow to several
(`ß` to `SS`), and a capital sigma is lowered to its final form exactly where it ends a word:

* `lower`, `upper`: the two mappings of a text;
* `sigmaIsFinal`: the only place where a neighbour matters.
-/

namespace DocStore.Text

namespace Case

/-- Whether a code point is in a run. -/
def Shift.covers (n : Nat) (r : Shift) : Bool :=
  r.1 ≤ n && n ≤ r.2.1 && (n - r.1) % r.2.2.1 == 0

/-- The mapping of one character: an expansion, else a shift, else the character itself. -/
def mapChar (expansions : List (Nat × List Nat)) (shifts : List Shift) (c : Char) : List Char :=
  match expansions.find? (·.1 == c.toNat) with
  | some e => e.2.map Char.ofNat
  | none =>
    match shifts.find? (Shift.covers c.toNat) with
    | some r => [Char.ofNat (r.2.2.2 + (c.toNat - r.1))]
    | none => [c]

/-- The mapping of one character, found without the tables when it is ASCII. -/
def lowerChar (c : Char) : List Char :=
  if c.toNat < 128 then [c.toLower] else mapChar lowerExpansions lowerShifts c

/-- The mapping of one character, found without the tables when it is ASCII. -/
def upperChar (c : Char) : List Char :=
  if c.toNat < 128 then [c.toUpper] else mapChar upperExpansions upperShifts c

/-- Whether the nearest character that is not case-ignorable is cased. -/
def meetsCased (cs : List Char) : Bool :=
  match cs.dropWhile fun c => inRanges ignorableRanges c.toNat with
  | [] => false
  | c :: _ => inRanges casedRanges c.toNat

/-- A sigma ends a word when a cased character stands before it and none after it, case-ignorable
characters apart.  `before` is what precedes it, nearest character first. -/
def sigmaIsFinal (before after : List Char) : Bool :=
  meetsCased before && !meetsCased after

/-- Lower case of the characters that follow `before`, which is held nearest first. -/
def lowerFrom (before : List Char) : List Char → List Char
  | [] => []
  | c :: rest =>
    let here := if c = 'Σ' then [if sigmaIsFinal before rest then 'ς' else 'σ'] else lowerChar c
    here ++ lowerFrom (c :: before) rest

end Case

def lower (s : String) : String := String.ofList (Case.lowerFrom [] s.toList)

/-- Upper case of a text, character by character. -/
def upper (s : String) : String := String.ofList (s.toList.flatMap Case.upperChar)

end DocStore.Text
