import DocStore.Proofs.Text.Like
import DocStore.Text.Case

/-!
# Lower case of a part of a text

What stands around a part of a text has a say in its lower case through the capital sigma only.  So
the lower case of a text has that of the part in it unless the form of a sigma of the part is open,
and if one is open then some text contains the part without containing its lower case.

* `lowerAmid`: lower case of characters that stand between others;
* `isOpen`: sigmas whose form is up to what stands around the part;
* `isSettled`: the parts without such a sigma;
* `isSettled_iff`: they are those whose lower case is in the lower case of every text they are in.
-/

namespace DocStore.Text

namespace Case

/-- Lower case of characters that stand between others, of which those before are held nearest
first. -/
def lowerAmid (before after : List Char) : List Char → List Char
  | [] => []
  | c :: rest =>
    (if c = 'Σ' then [if sigmaIsFinal before (rest ++ after) then 'ς' else 'σ'] else lowerChar c) ++
      lowerAmid (c :: before) after rest

theorem lowerFrom_eq_lowerAmid (before cs : List Char) :
    lowerFrom before cs = lowerAmid before [] cs := by
  induction cs generalizing before with
  | nil => rfl
  | cons c rest ih => rw [lowerFrom, lowerAmid, ih, List.append_nil]

theorem lowerAmid_append (before after cs ds : List Char) :
    lowerAmid before after (cs ++ ds) =
      lowerAmid before (ds ++ after) cs ++ lowerAmid (cs.reverse ++ before) after ds := by
  induction cs generalizing before with
  | nil => rfl
  | cons c rest ih => simp [lowerAmid, ih]

/-- What stands around characters does not change how many come of them. -/
theorem length_lowerAmid (before after before' after' cs : List Char) :
    (lowerAmid before after cs).length = (lowerAmid before' after' cs).length := by
  induction cs generalizing before before' with
  | nil => rfl
  | cons c rest ih =>
    rw [lowerAmid, lowerAmid, List.length_append, List.length_append, ih (c :: before) (c :: before')]
    split <;> rfl

/-! ## Sigmas -/

/-- Whether a search for a cased character goes on beyond some characters. -/
def isPassed (cs : List Char) : Bool := cs.all fun c => inRanges ignorableRanges c.toNat

theorem meetsCased_append (cs ds : List Char) :
    meetsCased (cs ++ ds) = if isPassed cs then meetsCased ds else meetsCased cs := by
  induction cs with
  | nil => rfl
  | cons c rest ih =>
    by_cases ignorable : inRanges ignorableRanges c.toNat
    · simpa [meetsCased, isPassed, ignorable] using ih
    · simp [meetsCased, isPassed, ignorable]

theorem meetsCased_of_isPassed {cs : List Char} (passed : isPassed cs) : meetsCased cs = false := by
  have none := meetsCased_append cs []
  rw [List.append_nil, if_pos passed] at none
  exact none

/-- Whether the form of a sigma between two parts of a text is up to what stands around them: a
final one that more letters could follow, or one that is not final and that could follow letters. -/
def isOpen (before after : List Char) : Bool :=
  isPassed after && meetsCased before || isPassed before && !meetsCased after

theorem sigmaIsFinal_append {before after : List Char} (closed : ¬ isOpen before after)
    (further later : List Char) :
    sigmaIsFinal (before ++ further) (after ++ later) = sigmaIsFinal before after := by
  have alone {cs : List Char} : isPassed cs → meetsCased cs = false := meetsCased_of_isPassed
  simp only [sigmaIsFinal, meetsCased_append]
  grind [isOpen]

/-- A letter after a sigma whose form is open, or one before it, gives it the other form. -/
theorem sigmaIsFinal_of_isOpen {before after : List Char} (opened : isOpen before after) {x : Char}
    (letter : meetsCased [x]) :
    sigmaIsFinal before (after ++ [x]) ≠ sigmaIsFinal before after ∨
      sigmaIsFinal (before ++ [x]) after ≠ sigmaIsFinal before after := by
  have alone {cs : List Char} : isPassed cs → meetsCased cs = false := meetsCased_of_isPassed
  simp only [sigmaIsFinal, meetsCased_append]
  grind [isOpen]

/-- Whether no sigma of the characters that follow others in a part is open. -/
def isSettledFrom (before : List Char) : List Char → Bool
  | [] => true
  | c :: rest => (c ≠ 'Σ' || !isOpen before rest) && isSettledFrom (c :: before) rest

/-- Whether the lower case of a part is the same whatever stands around it. -/
def isSettled (part : List Char) : Bool := isSettledFrom [] part

theorem lowerAmid_of_isSettledFrom {inner part : List Char} (settled : isSettledFrom inner part)
    (before after : List Char) :
    lowerAmid (inner ++ before) after part = lowerAmid inner [] part := by
  -- `inner` is what of the part comes before the characters that are left, nearest first
  induction part generalizing inner with
  | nil => rfl
  | cons c rest ih =>
    simp only [isSettledFrom, Bool.and_eq_true, Bool.or_eq_true, Bool.not_eq_true',
      decide_eq_true_eq] at settled
    obtain ⟨closed, settled⟩ := settled
    have tail := ih settled
    rw [List.cons_append] at tail
    rw [lowerAmid, lowerAmid, tail, List.append_nil]
    split
    · next sigma =>
      have closed : ¬ isOpen inner rest := by simpa using closed.resolve_left (not_not_intro sigma)
      rw [sigmaIsFinal_append closed]
    · rfl

/-- A letter after a part that is not settled, or one before it, changes the lower case of the
part. -/
theorem lowerAmid_of_not_isSettledFrom {inner part : List Char}
    (unsettled : ¬ isSettledFrom inner part) {x : Char} (letter : meetsCased [x]) :
    lowerAmid inner [x] part ≠ lowerAmid inner [] part ∨
      lowerAmid (inner ++ [x]) [] part ≠ lowerAmid inner [] part := by
  induction part generalizing inner with
  | nil => exact absurd rfl unsettled
  | cons c rest ih =>
    simp only [isSettledFrom, Bool.and_eq_true, Bool.or_eq_true, Bool.not_eq_true',
      decide_eq_true_eq] at unsettled
    by_cases here : c = 'Σ' ∧ isOpen inner rest
    · obtain ⟨rfl, opened⟩ := here
      apply (sigmaIsFinal_of_isOpen opened letter).imp
      all_goals
        intro other same
        have first := congrArg List.head? same
        simp only [lowerAmid, if_pos, List.append_nil, List.cons_append, List.head?_cons] at first
        grind
    · have later : ¬ isSettledFrom (c :: inner) rest := by grind
      apply (ih later).imp
      all_goals
        intro other same
        rw [lowerAmid, lowerAmid] at same
        refine other (List.append_inj_right same ?_)
        split <;> rfl

end Case

/-! ## Parts -/

theorem lower_toList (s : String) : (lower s).toList = Case.lowerAmid [] [] s.toList := by
  rw [lower, String.toList_ofList, Case.lowerFrom_eq_lowerAmid]

/-- The lower case of a part stands in that of the whole. -/
theorem contains_lower {s part : String} (settled : Case.isSettled part.toList)
    (inside : contains s part) : contains (lower s) (lower part) := by
  obtain ⟨before, after, spelled⟩ := (occursIn_iff _ _).mp inside
  apply (occursIn_iff _ _).mpr
  have here := Case.lowerAmid_of_isSettledFrom settled before.reverse after
  rw [List.nil_append] at here
  rw [lower_toList, lower_toList, ← spelled, Case.lowerAmid_append, Case.lowerAmid_append,
    List.append_nil, List.append_nil, here]
  exact ⟨_, _, rfl⟩

theorem not_infix_cons {l m : List Char} {x : Char} (length : m.length = l.length) (other : m ≠ l)
    (first : l.head? ≠ some x) : ¬ l <:+: x :: m := by
  rintro ⟨before, after, spelled⟩
  -- one character is left over, so the list stands at the front or right behind the new character
  have total := congrArg List.length spelled
  simp only [List.length_append, List.length_cons] at total
  cases before with
  | nil =>
    cases l with
    | nil => exact other (List.eq_nil_of_length_eq_zero length)
    | cons c rest => exact first (congrArg List.head? spelled)
  | cons c before =>
    obtain ⟨none, none'⟩ : before = [] ∧ after = [] := by
      rw [List.length_cons] at total
      exact ⟨List.eq_nil_of_length_eq_zero (by omega), List.eq_nil_of_length_eq_zero (by omega)⟩
    subst none none'
    rw [List.append_nil] at spelled
    exact other (List.cons.inj spelled).2.symm

theorem not_infix_concat {l m : List Char} {x : Char} (length : m.length = l.length)
    (other : m ≠ l) (last : l.getLast? ≠ some x) : ¬ l <:+: m ++ [x] := by
  rw [← List.reverse_infix, List.reverse_append]
  apply not_infix_cons
  · simpa using length
  · simpa using other
  · simpa using last

/-- There is a letter of lower case that a list does not start or end with. -/
theorem exists_other_letter (cs : List Char) :
    ∃ x, cs.head? ≠ some x ∧ cs.getLast? ≠ some x ∧
      Case.meetsCased [x] ∧ x ≠ 'Σ' ∧ Case.lowerChar x = [x] := by
  have letters : ∀ x ∈ ['a', 'b', 'c'],
      Case.meetsCased [x] ∧ x ≠ 'Σ' ∧ Case.lowerChar x = [x] := by
    intro x mem
    simp only [List.mem_cons, List.not_mem_nil, or_false] at mem
    obtain rfl | rfl | rfl := mem
    all_goals exact ⟨by decide +kernel, by decide, rfl⟩
  have spare : ∀ first last : Option Char,
      ∃ x ∈ ['a', 'b', 'c'], first ≠ some x ∧ last ≠ some x := by
    intro first last
    by_contra none
    have taken (x : Char) (mem : x ∈ ['a', 'b', 'c']) : first = some x ∨ last = some x := by
      by_contra free
      exact none ⟨x, mem, not_or.mp free⟩
    have a := taken 'a' (by simp)
    have b := taken 'b' (by simp)
    have c := taken 'c' (by simp)
    grind
  obtain ⟨x, mem, first, last⟩ := spare cs.head? cs.getLast?
  exact ⟨x, first, last, letters x mem⟩

/-- A part with a sigma whose form is open is in a text without its lower case being in that of the
text: it is enough to put a letter before it or after it. -/
theorem exists_not_contains_lower {part : String} (unsettled : ¬ Case.isSettled part.toList) :
    ∃ s, contains s part ∧ ¬ contains (lower s) (lower part) := by
  obtain ⟨x, first, last, letter, other, single⟩ := exists_other_letter (lower part).toList
  have lowered (before after : List Char) : Case.lowerAmid before after [x] = [x] := by
    rw [Case.lowerAmid, if_neg other, single]
    rfl
  simp only [contains, occursIn_iff, lower_toList] at first last ⊢
  rcases Case.lowerAmid_of_not_isSettledFrom unsettled letter with changed | changed
  · refine ⟨String.ofList (part.toList ++ [x]), ?_, ?_⟩
    · rw [String.toList_ofList]
      exact (List.prefix_append _ _).isInfix
    · rw [String.toList_ofList, Case.lowerAmid_append, lowered]
      exact not_infix_concat (Case.length_lowerAmid ..) changed last
  · refine ⟨String.ofList (x :: part.toList), ?_, ?_⟩
    · rw [String.toList_ofList]
      exact (List.suffix_cons _ _).isInfix
    · rw [String.toList_ofList, ← List.singleton_append, Case.lowerAmid_append, lowered]
      exact not_infix_cons (Case.length_lowerAmid ..) changed first

/-- Case folding keeps a part inside every text that has it if and only if the part is settled. -/
theorem isSettled_iff (part : String) : Case.isSettled part.toList ↔
    ∀ s, contains s part → contains (lower s) (lower part) := by
  constructor
  · intro settled s inside
    exact contains_lower settled inside
  · intro kept
    by_contra unsettled
    obtain ⟨s, inside, outside⟩ := exists_not_contains_lower unsettled
    exact outside (kept s inside)

end DocStore.Text
