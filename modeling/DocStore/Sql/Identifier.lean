/-!
# Identifiers

Names that may stand in a statement between double quotes: a letter or an underscore, then letters,
digits and underscores, all of ASCII and at most 63 of them, which is what the database keeps of a
name.
-/

namespace DocStore

namespace Identifier

/-- The most characters that an identifier may have. -/
def maxLength : Nat := 63

/-- Whether an identifier may start with a character. -/
def isStart (c : Char) : Bool := c.isAlpha || c = '_'

/-- Whether an identifier may go on with a character. -/
def isPart (c : Char) : Bool := c.isAlphanum || c = '_'

end Identifier

def isIdentifier (s : String) : Bool :=
  match s.toList with
  | [] => false
  | c :: rest =>
    Identifier.isStart c && rest.all Identifier.isPart && rest.length < Identifier.maxLength

namespace Identifier

theorem isPart_of_isStart {c : Char} (start : isStart c) : isPart c := by
  simp only [isStart, isPart, Char.isAlphanum, Bool.or_eq_true] at start ⊢
  exact start.imp_left .inl

theorem isPart_of_mem {s : String} (valid : isIdentifier s) {c : Char} (mem : c ∈ s.toList) :
    isPart c := by
  unfold isIdentifier at valid
  split at valid
  · cases valid
  · rename_i first rest spelled
    simp only [Bool.and_eq_true, List.all_eq_true] at valid
    obtain ⟨⟨start, parts⟩, -⟩ := valid
    rw [spelled] at mem
    rcases List.mem_cons.mp mem with rfl | later
    · exact isPart_of_isStart start
    · exact parts c later

theorem length_le {s : String} (valid : isIdentifier s) : s.length ≤ maxLength := by
  unfold isIdentifier at valid
  split at valid
  · cases valid
  · rename_i first rest spelled
    simp only [Bool.and_eq_true, decide_eq_true_eq] at valid
    rw [← String.length_toList, spelled]
    exact valid.2

end Identifier

end DocStore
