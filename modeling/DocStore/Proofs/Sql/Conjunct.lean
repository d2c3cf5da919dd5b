import DocStore.Proofs.Sql.Balanced
import DocStore.Store.Table

/-!
# Conjuncts of a where clause

The conditions that a where clause joins with `AND`, read off its text: only an `AND` outside of
literals and parentheses joins two of them.

* `conjuncts`: the conditions of a text;
* `conjuncts_intercalate`: joined conditions are read back one by one, whatever a filter says.
-/

namespace DocStore

namespace SqlLexeme

/-- How deep the lexemes after this one are. -/
def deepen (depth : Nat) : SqlLexeme → Nat
  | .code '(' => depth + 1
  | .code ')' => depth - 1
  | _ => depth

/-- The runs of lexemes between the connectives at depth zero; the first `skip` lexemes belong to a
connective that has been seen. -/
def split (skip depth : Nat) : List SqlLexeme → List (List SqlLexeme)
  | [] => [[]]
  | l :: rest =>
    match skip with
    | skip + 1 => split skip depth rest
    | 0 =>
      if depth = 0 ∧ codes " AND " <+: l :: rest then [] :: split 4 0 rest
      else (split 0 (deepen depth l) rest).modifyHead (l :: ·)

/-- The conditions that a text joins; there are none if it ends inside a literal. -/
def conjuncts (s : String) : Option (List String) :=
  (lex s.toList).map fun ls => (split 0 0 ls).map fun run => String.ofList (run.flatMap spell)

/-- Whether lexemes are kept together, unless their end and what follows make up a connective. -/
def Whole (ls : List SqlLexeme) : Prop :=
  ∀ rest, rest.head? ≠ some (.code 'A') →
    split 0 0 (ls ++ rest) = (split 0 0 rest).modifyHead (ls ++ ·)

theorem split_keep {depth : Nat} {l : SqlLexeme} {rest : List SqlLexeme}
    (other : ¬ (depth = 0 ∧ codes " AND " <+: l :: rest)) :
    split 0 depth (l :: rest) = (split 0 (deepen depth l) rest).modifyHead (l :: ·) := by
  rw [split, if_neg other]

theorem split_connective (rest : List SqlLexeme) :
    split 0 0 (codes " AND " ++ rest) = [] :: split 0 0 rest := by
  have starts : codes " AND " = .code ' ' :: codes "AND " := rfl
  have found : codes " AND " <+: .code ' ' :: (codes "AND " ++ rest) :=
    ⟨rest, rfl⟩
  rw [starts, List.cons_append, split, if_pos ⟨rfl, found⟩]
  rfl

theorem modifyHead_nil_append (runs : List (List SqlLexeme)) :
    runs.modifyHead ([] ++ ·) = runs := by
  cases runs <;> rfl

theorem modifyHead_cons_append (l : SqlLexeme) (ls : List SqlLexeme)
    (runs : List (List SqlLexeme)) :
    (runs.modifyHead (ls ++ ·)).modifyHead (l :: ·) = runs.modifyHead (l :: ls ++ ·) := by
  cases runs <;> rfl

/-- Nothing is split inside parentheses. -/
theorem split_inside {ls : List SqlLexeme} {depth after : Nat}
    (h : depthAfter depth ls = some after) (rest : List SqlLexeme) :
    split 0 (depth + 1) (ls ++ rest) = (split 0 (after + 1) rest).modifyHead (ls ++ ·) := by
  induction ls generalizing depth with
  | nil =>
    cases h
    exact (modifyHead_nil_append _).symm
  | cons l ls ih =>
    rw [List.cons_append, split_keep (by simp), ← modifyHead_cons_append]
    congr 1
    cases l with
    | literal text => exact ih h
    | code c =>
      unfold depthAfter at h
      split at h
      · rename_i opens
        subst opens
        exact ih h
      · rename_i notOpens
        split at h
        · rename_i closes
          subst closes
          cases depth with
          | zero => cases h
          | succ depth => exact ih h
        · rename_i notCloses
          have same : deepen (depth + 1) (.code c) = depth + 1 := by
            unfold deepen
            split <;> simp_all
          rw [same]
          exact ih h

theorem whole_parenthesized {ls : List SqlLexeme} (balanced : depthAfter 0 ls = some 0) :
    Whole (codes "(" ++ ls ++ codes ")") := by
  intro rest _
  have shape : codes "(" ++ ls ++ codes ")" ++ rest = .code '(' :: (ls ++ .code ')' :: rest) := by
    simp [codes]
  have opening : ¬ (0 = 0 ∧ codes " AND " <+: .code '(' :: (ls ++ .code ')' :: rest)) := by
    rintro ⟨-, _, starts⟩
    cases starts
  rw [shape, split_keep opening]
  have inside := split_inside balanced (.code ')' :: rest)
  rw [split_keep (by simp)] at inside
  rw [deepen, inside, deepen]
  cases split 0 0 rest <;> simp [codes]

/-- Code without parentheses is kept together if no connective can start in it. -/
theorem whole_plain {cs : List Char} (plain : ∀ c ∈ cs, c ≠ '(' ∧ c ≠ ')' ∧ c ≠ 'A') :
    Whole (cs.map .code) := by
  intro rest other
  induction cs with
  | nil => exact (modifyHead_nil_append _).symm
  | cons c cs ih =>
    obtain ⟨⟨left, right, _⟩, others⟩ := List.forall_mem_cons.mp plain
    have keeps : ¬ (0 = 0 ∧ codes " AND " <+: .code c :: (cs.map .code ++ rest)) := by
      rintro ⟨-, after, starts⟩
      have second := congrArg (fun ls => ls.tail.head?) starts
      have isA : (codes " AND " ++ after).tail.head? = some (.code 'A') := rfl
      rw [isA, List.tail_cons] at second
      cases cs with
      | nil => exact other second.symm
      | cons d cs =>
        cases second
        exact (others 'A' (List.mem_cons_self ..)).2.2 rfl
    have same : deepen 0 (.code c) = 0 := by
      unfold deepen
      split <;> simp_all
    rw [List.map_cons, List.cons_append, split_keep keeps, same, ih others,
      modifyHead_cons_append]

theorem split_whole {ls : List SqlLexeme} (whole : Whole ls) : split 0 0 ls = [ls] := by
  have alone := whole [] (by simp)
  simpa [split] using alone

theorem split_joined {runs : List (List SqlLexeme)} (whole : ∀ ls ∈ runs, Whole ls)
    (some_run : runs ≠ []) : split 0 0 ((codes " AND ").intercalate runs) = runs := by
  induction runs with
  | nil => exact absurd rfl some_run
  | cons ls others ih =>
    obtain ⟨first, remaining⟩ := List.forall_mem_cons.mp whole
    cases others with
    | nil => simpa [List.intercalate] using split_whole first
    | cons ms others =>
      have next := ih remaining (List.cons_ne_nil _ _)
      have joined : (codes " AND ").intercalate (ls :: ms :: others) =
          ls ++ (codes " AND " ++ (codes " AND ").intercalate (ms :: others)) := by
        simp [List.intercalate]
      rw [joined, first _ (by simp [codes]), split_connective, next]
      simp

end SqlLexeme

namespace Condition

open DocStore.Text SqlLexeme

def lexemes : Condition → List SqlLexeme
  | .filter condition => codes "(" ++ Piece.lexemesOf condition.pieces ++ codes ")"
  | other => codes other.text

theorem spell_lexemes (c : Condition) : c.lexemes.flatMap spell = c.text.toList := by
  cases c with
  | filter condition =>
    simp [lexemes, text, SqlExpr.text, spell_codes, Piece.spell_lexemesOf]
  | _ => exact spell_codes _

theorem equals_plain (column : Column) (index : Nat) :
    ∀ c ∈ (equals column index).text.toList, c ≠ '(' ∧ c ≠ ')' ∧ c ≠ 'A' ∧ c ≠ '\'' := by
  have named : ∀ c ∈ column.name.toList, c ≠ '(' ∧ c ≠ ')' ∧ c ≠ 'A' ∧ c ≠ '\'' := by
    cases column <;> simp [Column.name, SqlExpr.documentColumn]
  have marks : ∀ c ∈ " = ".toList ++ "$".toList, c ≠ '(' ∧ c ≠ ')' ∧ c ≠ 'A' ∧ c ≠ '\'' := by
    simp
  intro c hc
  simp only [text, argumentMark, natText, String.toList_append, String.toList_ofList,
    List.mem_append] at hc
  rcases hc with (hc | hc) | hc | hc
  · exact named c hc
  · exact marks c (List.mem_append_left _ hc)
  · exact marks c (List.mem_append_right _ hc)
  · have digit : c.isDigit := natDigits_isDigit hc
    refine ⟨?_, ?_, ?_, ?_⟩ <;> rintro rfl <;> exact absurd digit (by decide)

theorem lex_text (c : Condition) (rest : List Char) :
    lex (c.text.toList ++ rest) = (lex rest).map (c.lexemes ++ ·) := by
  cases c with
  | equals column index =>
    exact Piece.lex_codes (fun c hc => (equals_plain column index c hc).2.2.2) rest
  | live => exact Piece.lex_fixed (by decide) rest
  | expired => exact Piece.lex_fixed (by decide) rest
  | filter condition =>
    have closing : StartsUnquoted (')' :: rest) := by simp [StartsUnquoted]
    have inner := Piece.lex_spaced (Piece.spaced_pieces condition) closing
    rw [lex_code (by decide)] at inner
    have shape : (filter condition).text.toList ++ rest =
        '(' :: ((Piece.textOf condition.pieces).toList ++ ')' :: rest) := by
      simp [text, SqlExpr.text]
    rw [shape, lex_code (by decide), inner]
    simp [lexemes, codes, Function.comp_def]

theorem whole_lexemes (c : Condition) : Whole c.lexemes := by
  cases c with
  | equals column index =>
    refine whole_plain fun c hc => ?_
    obtain ⟨left, right, letter, -⟩ := equals_plain column index c hc
    exact ⟨left, right, letter⟩
  | live =>
    have inside : live.text = "(" ++ "expires IS NULL OR now() < expires" ++ ")" := rfl
    have balanced : depthAfter 0 (codes "expires IS NULL OR now() < expires") = some 0 := by decide
    have whole := whole_parenthesized balanced
    rwa [← codes_append, ← codes_append, ← inside] at whole
  | expired =>
    have inside : expired.text = "(" ++ "expires IS NOT NULL AND now() >= expires" ++ ")" := rfl
    have balanced : depthAfter 0 (codes "expires IS NOT NULL AND now() >= expires") = some 0 := by
      decide
    have whole := whole_parenthesized balanced
    rwa [← codes_append, ← codes_append, ← inside] at whole
  | filter condition => exact whole_parenthesized (Piece.balanced_pieces condition 0)

theorem lex_joined {cs : List Condition} (some_condition : cs ≠ []) :
    lex (" AND ".intercalate (cs.map text)).toList =
      some ((codes " AND ").intercalate (cs.map lexemes)) := by
  rw [String.toList_intercalate]
  induction cs with
  | nil => exact absurd rfl some_condition
  | cons c others ih =>
    cases others with
    | nil => simpa [List.intercalate, lex] using c.lex_text []
    | cons d others =>
      have next := ih (List.cons_ne_nil _ _)
      have joined : " AND ".toList.intercalate (((c :: d :: others).map text).map String.toList) =
          c.text.toList ++ (" AND ".toList ++
            " AND ".toList.intercalate (((d :: others).map text).map String.toList)) := by
        simp [List.intercalate]
      rw [joined, c.lex_text, Piece.lex_fixed (by decide), next]
      simp [List.intercalate, codes]

/-- Joined conditions are read back one by one, whatever a filter says. -/
theorem conjuncts_intercalate {cs : List Condition} (some_condition : cs ≠ []) :
    conjuncts (" AND ".intercalate (cs.map text)) = some (cs.map text) := by
  have whole : ∀ ls ∈ cs.map lexemes, Whole ls :=
    List.forall_mem_map.mpr fun c _ => c.whole_lexemes
  rw [conjuncts, lex_joined some_condition, Option.map_some,
    split_joined whole (by simpa using some_condition), List.map_map]
  congr 1
  refine List.map_congr_left fun c _ => ?_
  simp [spell_lexemes]

end Condition

end DocStore
