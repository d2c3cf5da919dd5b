import DocStore.Text.Search
import Mathlib.Data.List.Infix

/-!
# Matching with wildcards

Matching of texts as `LIKE` does it, textual replacement, and how a text is escaped so that it
matches nothing but itself.

* `likeMatches`: a percent sign stands for any text, an underscore for any character, and a backslash
  takes the character after it as it is;
* `replaceAll`: every occurrence replaced, from left to right;
* `like_startsWith`, `like_endsWith`, `like_contains`: an escaped text with wildcards at its ends.
-/

namespace DocStore.Text

/-- Whether a text matches a pattern.  A backslash at the very end of a pattern matches nothing. -/
def likeMatches : List Char → List Char → Bool
  | [], s => s.isEmpty
  | '%' :: p, s => s.tails.any (likeMatches p)
  | '_' :: p, s =>
    match s with
    | [] => false
    | _ :: rest => likeMatches p rest
  | ['\\'], _ => false
  | '\\' :: c :: p, s =>
    match s with
    | [] => false
    | d :: rest => c = d && likeMatches p rest
  | c :: p, s =>
    match s with
    | [] => false
    | d :: rest => c = d && likeMatches p rest

/-- A text with every occurrence of another replaced, of which `skip` characters are left over from
the last occurrence. -/
def replaceFrom (what replacement : List Char) : (skip : Nat) → List Char → List Char
  | _, [] => []
  | skip + 1, _ :: rest => replaceFrom what replacement skip rest
  | 0, c :: rest =>
    if !what.isEmpty && what.isPrefixOf (c :: rest) then
      replacement ++ replaceFrom what replacement (what.length - 1) rest
    else c :: replaceFrom what replacement 0 rest

/-- A text with every occurrence of another replaced.  Occurrences are looked for from left to right
and do not overlap; there are none of the empty text. -/
def replaceAll (what replacement s : List Char) : List Char := replaceFrom what replacement 0 s

/-- Whether a character has a meaning of its own in patterns. -/
def isWildcard (c : Char) : Bool := c = '\\' || c = '%' || c = '_'

/-- A text with a backslash in front of every character that has a meaning of its own. -/
def likeEscaped (s : List Char) : List Char :=
  s.flatMap fun c => if isWildcard c then ['\\', c] else [c]

/-! ## Escaping by replacement -/

theorem replaceAll_character (a : Char) (replacement s : List Char) :
    replaceAll [a] replacement s = s.flatMap fun c => if c = a then replacement else [c] := by
  unfold replaceAll
  induction s with
  | nil => rfl
  | cons c rest ih =>
    rw [replaceFrom, List.flatMap_cons, ← ih]
    by_cases h : c = a
    · simp [h]
    · have other : ¬ a = c := fun same => h same.symm
      simp [h, other]

/-- Backslashes first, so that those put in for the other characters are not doubled. -/
theorem replaceAll_thrice (s : List Char) :
    replaceAll ['_'] ['\\', '_'] (replaceAll ['%'] ['\\', '%'] (replaceAll ['\\'] ['\\', '\\'] s)) =
      likeEscaped s := by
  simp only [replaceAll_character, likeEscaped, List.flatMap_assoc]
  congr 1
  funext c
  by_cases slash : c = '\\'
  · subst slash; rfl
  · by_cases percent : c = '%'
    · subst percent; rfl
    · by_cases underscore : c = '_'
      · subst underscore; rfl
      · simp [slash, percent, underscore, isWildcard]

/-! ## Matching -/

theorem likeMatches_any (p s : List Char) :
    likeMatches ('%' :: p) s ↔ ∃ rest, rest <:+ s ∧ likeMatches p rest := by
  simp [likeMatches, List.any_eq_true]

/-- A character without a meaning of its own matches itself. -/
theorem likeMatches_plain {c : Char} (h : isWildcard c = false) (p s : List Char) :
    likeMatches (c :: p) s ↔ ∃ rest, s = c :: rest ∧ likeMatches p rest := by
  simp only [isWildcard, Bool.or_eq_false_iff, decide_eq_false_iff_not] at h
  obtain ⟨⟨slash, percent⟩, underscore⟩ := h
  cases s with
  | nil => simp [likeMatches, slash]
  | cons d rest => simp [likeMatches, slash, @eq_comm _ c d]

/-- A character after a backslash matches itself. -/
theorem likeMatches_escape (c : Char) (p s : List Char) :
    likeMatches ('\\' :: c :: p) s ↔ ∃ rest, s = c :: rest ∧ likeMatches p rest := by
  cases s with
  | nil => simp [likeMatches]
  | cons d rest => simp [likeMatches, @eq_comm _ c d]

theorem likeMatches_escaped (t p s : List Char) :
    likeMatches (likeEscaped t ++ p) s ↔ ∃ rest, s = t ++ rest ∧ likeMatches p rest := by
  induction t generalizing s with
  | nil => simp [likeEscaped]
  | cons c t ih =>
    have next : likeMatches (likeEscaped (c :: t) ++ p) s ↔
        ∃ rest, s = c :: rest ∧ likeMatches (likeEscaped t ++ p) rest := by
      cases wild : isWildcard c
      · simpa [likeEscaped, wild] using likeMatches_plain wild _ s
      · simpa [likeEscaped, wild] using likeMatches_escape c _ s
    rw [next]
    constructor
    · rintro ⟨_, rfl, found⟩
      obtain ⟨rest, rfl, matched⟩ := (ih _).mp found
      exact ⟨rest, rfl, matched⟩
    · rintro ⟨rest, rfl, matched⟩
      exact ⟨t ++ rest, rfl, (ih _).mpr ⟨rest, rfl, matched⟩⟩

theorem likeMatches_nil (s : List Char) : likeMatches [] s ↔ s = [] := by
  simp [likeMatches]

theorem likeMatches_percent (s : List Char) : likeMatches ['%'] s := by
  rw [likeMatches_any]
  exact ⟨[], List.nil_suffix, rfl⟩

theorem occursIn_iff (needle s : List Char) : occursIn needle s ↔ needle <:+: s := by
  induction s with
  | nil => simp [occursIn]
  | cons c rest ih => simp [occursIn, ih, List.infix_cons_iff]

/-! ## Escaped texts between wildcards -/

theorem like_startsWith (s t : String) :
    likeMatches (likeEscaped t.toList ++ ['%']) s.toList = startsWith s t := by
  rw [Bool.eq_iff_iff, likeMatches_escaped, startsWith, List.isPrefixOf_iff_prefix]
  constructor
  · rintro ⟨rest, same, _⟩
    exact ⟨rest, same.symm⟩
  · rintro ⟨rest, same⟩
    exact ⟨rest, same.symm, likeMatches_percent rest⟩

theorem like_endsWith (s t : String) :
    likeMatches ('%' :: likeEscaped t.toList) s.toList = endsWith s t := by
  have whole (rest : List Char) : likeMatches (likeEscaped t.toList) rest ↔ rest = t.toList := by
    simpa [likeMatches_nil] using likeMatches_escaped t.toList [] rest
  rw [Bool.eq_iff_iff, likeMatches_any, endsWith, List.isSuffixOf_iff_suffix]
  simp only [whole, exists_eq_right]

theorem like_contains (s t : String) :
    likeMatches ('%' :: (likeEscaped t.toList ++ ['%'])) s.toList = contains s t := by
  rw [Bool.eq_iff_iff, likeMatches_any, contains, occursIn_iff]
  simp only [likeMatches_escaped, likeMatches_percent, and_true]
  constructor
  · rintro ⟨_, ⟨before, split⟩, after, rfl⟩
    exact ⟨before, after, by rw [← split, List.append_assoc]⟩
  · rintro ⟨before, after, split⟩
    exact ⟨t.toList ++ after, ⟨before, by rw [← split, List.append_assoc]⟩, after, rfl⟩

end DocStore.Text
