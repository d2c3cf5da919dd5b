import DocStore.Proofs.Sql.Agreement

/-!
# Escaped patterns

A text that is searched for reaches the database as it is.  The database escapes it by three
replacements, one over the output of another, and puts wildcards at its ends.  The pattern that
comes of it matches the texts in which the searched text itself occurs, whatever characters are in
it.

* `isComplete`: patterns that do not end in the midst of an escape;
* `Pattern.holds_iff`: where in a text a search finds another;
* `escaped_search_literal`: what escaped patterns match.
-/

namespace DocStore

open DocStore.Text

namespace Text

/-- Whether every backslash of a pattern has a character after it that it takes as it is.  A pattern
that ends in the midst of an escape is an error. -/
def isComplete : List Char → Bool
  | [] => true
  | ['\\'] => false
  | '\\' :: _ :: p => isComplete p
  | _ :: p => isComplete p

theorem isComplete_plain {c : Char} (other : c ≠ '\\') (p : List Char) :
    isComplete (c :: p) = isComplete p := by
  rw [isComplete]
  · intro same
    exact absurd same other
  · intro _ _ same
    exact absurd same other

/-- Escaping leaves no backslash alone, whatever pattern comes after it. -/
theorem isComplete_escaped (t p : List Char) : isComplete (likeEscaped t ++ p) = isComplete p := by
  induction t with
  | nil => rfl
  | cons c t ih =>
    have spelled : likeEscaped (c :: t) ++ p =
        (if isWildcard c then ['\\', c] else [c]) ++ (likeEscaped t ++ p) := by
      simp [likeEscaped]
    rw [spelled]
    by_cases wild : isWildcard c
    · rw [if_pos wild]
      exact ih
    · have other : c ≠ '\\' := by
        rintro rfl
        exact wild rfl
      rw [if_neg wild, List.singleton_append, isComplete_plain other, ih]

end Text

/-- Where in a text a search that is exact finds another. -/
theorem Pattern.holds_iff (s t : String) :
    (Pattern.atStart.holds s t ↔ t.toList <+: s.toList) ∧
      (Pattern.atEnd.holds s t ↔ t.toList <:+ s.toList) ∧
      (Pattern.anywhere.holds s t ↔ t.toList <:+: s.toList) :=
  ⟨List.isPrefixOf_iff_prefix, List.isSuffixOf_iff_suffix, occursIn_iff _ _⟩

/-- A pattern around an escaped text does not end in the midst of an escape. -/
theorem Pattern.around_complete (pattern : Pattern) (t : List Char) :
    isComplete (pattern.around (likeEscaped t)) := by
  have percent (p : List Char) : isComplete ('%' :: p) = isComplete p :=
    isComplete_plain (by decide) p
  cases pattern with
  | atStart => exact isComplete_escaped t ['%']
  | atEnd =>
    have alone := isComplete_escaped t []
    rw [List.append_nil] at alone
    rw [around, percent, alone]
    rfl
  | anywhere | anywhereIgnoreCase =>
    rw [around, percent, isComplete_escaped]
    rfl

/-- Escaped by the three replacements, a text with a wildcard after it, before it or on both sides
is a pattern of exactly the texts that start with it, end with it or contain it.  That is what a
search finds in memory. -/
theorem escaped_search_literal {engine : Engine} {row : Row} {receiver argument : SqlExpr}
    {s t : String} (text : receiver.value? engine row = some (.ofText s))
    (part : argument.value? engine row = some (.ofText t)) :
    ∃ escaped : String, argument.escaped.value? engine row = some (.ofText escaped) ∧
      escaped.toList = replaceAll ['_'] ['\\', '_']
        (replaceAll ['%'] ['\\', '%'] (replaceAll ['\\'] ['\\', '\\'] t.toList)) ∧
      (likeMatches (escaped.toList ++ ['%']) s.toList ↔ t.toList <+: s.toList) ∧
      (likeMatches ('%' :: escaped.toList) s.toList ↔ t.toList <:+ s.toList) ∧
      (likeMatches ('%' :: (escaped.toList ++ ['%'])) s.toList ↔ t.toList <:+: s.toList) ∧
      ∀ pattern : Pattern, isComplete (pattern.around escaped.toList) ∧
        (pattern ≠ .anywhereIgnoreCase →
          (SqlExpr.like pattern receiver argument.escaped).value? engine row =
            some (.ofTruth (pattern.holds s t))) := by
  obtain ⟨atStart, atEnd, anywhere⟩ := Pattern.holds_iff s t
  have part' : argument.value? engine row = (some t).map .ofText := part
  have value : argument.escaped.value? engine row =
      some (.ofText (String.ofList (likeEscaped t.toList))) := escaped_value? part'
  refine ⟨_, value, ?_⟩
  rw [String.toList_ofList, replaceAll_thrice, like_startsWith, like_endsWith, like_contains]
  refine ⟨rfl, atStart, atEnd, anywhere, fun pattern => ⟨pattern.around_complete _, fun exact => ?_⟩⟩
  simp only [SqlExpr.value?, text, value]
  simp [like_escaped exact]

/-- A text of every character that has a meaning of its own, found in the midst of another. -/
theorem escaped_search_literal_of_wildcards :
    let row : Row := ⟨.null, fun index => .text (if index = 1 then "5%_\\0" else "%_\\"), none⟩
    (SqlExpr.placeholder 1 .text).value? Engine.reference row = some (.ofText "5%_\\0") ∧
      (SqlExpr.placeholder 2 .text).value? Engine.reference row = some (.ofText "%_\\") ∧
      likeMatches "%\\%\\_\\\\%".toList "5%_\\0".toList ∧
      (SqlExpr.like .anywhere (.placeholder 1 .text)
          (SqlExpr.placeholder 2 .text).escaped).value? Engine.reference row =
        some (.ofTruth true) := by
  intro row
  have text : (SqlExpr.placeholder 1 .text).value? Engine.reference row =
      some (.ofText "5%_\\0") := rfl
  have part : (SqlExpr.placeholder 2 .text).value? Engine.reference row =
      some (.ofText "%_\\") := rfl
  obtain ⟨escaped, -, spelled, -, -, anywhere, searches⟩ := escaped_search_literal text part
  have pattern : '%' :: (escaped.toList ++ ['%']) = "%\\%\\_\\\\%".toList := by
    rw [spelled]
    decide
  rw [pattern] at anywhere
  exact ⟨text, part, anywhere.mpr (by decide), (searches .anywhere).2 (by decide)⟩

/-- In another order the backslashes that were put in would be doubled. -/
example : replaceAll ['\\'] ['\\', '\\'] (replaceAll ['%'] ['\\', '%'] ['%']) =
    ['\\', '\\', '%'] := by
  decide

end DocStore
