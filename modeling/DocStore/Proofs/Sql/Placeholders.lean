import DocStore.Proofs.Sql.Spacing

/-!
# Placeholders of a text

The placeholders of a condition as they are read off its text: each `$` outside of literals, with the
digits and the type that follow it.

* `SqlLexeme.tokens`: the placeholders of a text;
* `Piece.tokens_lexemesOf`: in spaced pieces they are the placeholders among the pieces.
-/

namespace DocStore

open DocStore.Text

namespace SqlLexeme

/-- Whether a character belongs to a word. -/
def isWord (c : Char) : Bool := c.isAlphanum || c = '_'

/-- The name of a type that code starts with; one has two words. -/
def typeRun (cs : List Char) : List Char :=
  let word := cs.takeWhile isWord
  let second := " precision".toList
  if word = "double".toList ∧ second <+: cs.dropWhile isWord then word ++ second else word

/-- What goes on a placeholder after its `$`: digits, and a type after two colons. -/
def tokenRun (cs : List Char) : List Char :=
  let digits := cs.takeWhile Char.isDigit
  match cs.dropWhile Char.isDigit with
  | ':' :: ':' :: rest => digits ++ "::".toList ++ typeRun rest
  | _ => digits

def codeRun : List SqlLexeme → List Char
  | .code c :: rest => c :: codeRun rest
  | _ => []

/-- The placeholders outside of literals, in order. -/
def tokens : List SqlLexeme → List String
  | [] => []
  | .literal _ :: rest => tokens rest
  | .code c :: rest =>
    if c = '$' then String.ofList ('$' :: tokenRun (codeRun rest)) :: tokens rest else tokens rest

theorem codeRun_codes (cs : List Char) (ls : List SqlLexeme) :
    codeRun (cs.map .code ++ ls) = cs ++ codeRun ls := by
  induction cs with
  | nil => rfl
  | cons c rest ih => simp [codeRun, ih]

theorem tokens_codes {cs : List Char} (plain : ∀ c ∈ cs, c ≠ '$') (ls : List SqlLexeme) :
    tokens (cs.map .code ++ ls) = tokens ls := by
  induction cs with
  | nil => rfl
  | cons c rest ih =>
    obtain ⟨first, others⟩ := List.forall_mem_cons.mp plain
    simp [tokens, first, ih others]

/-- Whether no word goes on at the start of some code. -/
def EndsWord (cs : List Char) : Prop := ∀ c ∈ cs.head?, isWord c = false

theorem typeRun_name (type : SqlType) {rest : List Char} (ended : EndsWord rest) :
    typeRun (type.name.toList ++ rest) = type.name.toList := by
  by_cases double : type = .doublePrecision
  · subst double
    have split : SqlType.doublePrecision.name.toList ++ rest =
        "double".toList ++ (" precision".toList ++ rest) := rfl
    have halted : EndsWord (" precision".toList ++ rest) := by
      intro c hc
      cases hc
      rfl
    have inside : ∀ c ∈ "double".toList, isWord c := List.all_eq_true.mp rfl
    obtain ⟨word, second⟩ := takeWhile_run inside halted
    rw [split, typeRun, word, second, if_pos ⟨rfl, List.prefix_append ..⟩]
    rfl
  · have inside : ∀ c ∈ type.name.toList, isWord c := by
      cases type <;> first | exact List.all_eq_true.mp rfl | exact absurd rfl double
    have single : type.name.toList ≠ "double".toList := by
      cases type <;> decide
    obtain ⟨word, -⟩ := takeWhile_run inside ended
    rw [typeRun, word, if_neg fun both => single both.1]

theorem tokenRun_placeholder (index : Nat) (type : SqlType) {rest : List Char}
    (ended : EndsWord rest) :
    tokenRun (natDigits index ++ ("::".toList ++ (type.name.toList ++ rest))) =
      natDigits index ++ "::".toList ++ type.name.toList := by
  have digits : ∀ c ∈ natDigits index, c.isDigit := fun c hc => natDigits_isDigit hc
  have colons : ("::".toList ++ (type.name.toList ++ rest)) =
      ':' :: ':' :: (type.name.toList ++ rest) := rfl
  have notDigit : ¬ (':').isDigit := by decide
  unfold tokenRun
  rw [List.takeWhile_append_of_pos digits, List.dropWhile_append_of_pos digits, colons,
    List.dropWhile_cons_of_neg notDigit, List.takeWhile_cons_of_neg notDigit, List.append_nil]
  simp only [typeRun_name type ended]

end SqlLexeme

namespace Piece

open SqlLexeme

/-- The placeholders among some pieces, in order. -/
def marks (ps : List Piece) : List (Nat × SqlType) :=
  ps.filterMap fun
    | .placeholder index type => some (index, type)
    | _ => none

theorem endsWord_of_leads {ps : List Piece} (h : leads ps) : EndsWord (codeRun (lexemesOf ps)) := by
  match ps with
  | [] =>
    intro c hc
    cases hc
  | .code s :: others =>
    rw [lexemesOf_cons, lexemes, codes, codeRun_codes]
    simp only [leads] at h
    cases chars : s.toList with
    | nil => simp [chars] at h
    | cons d ds =>
      rw [chars] at h
      intro c hc
      cases hc
      simp only [List.head?_cons, Option.any_some, separates, Bool.or_eq_true,
        decide_eq_true_eq] at h
      rcases h with (rfl | rfl) | rfl <;> rfl

/-- The placeholders that are read off spaced pieces are those among the pieces. -/
theorem tokens_lexemesOf {ps : List Piece} (h : Spaced ps) :
    tokens (lexemesOf ps) = (marks ps).map fun m => SqlExpr.placeholderText m.1 m.2 := by
  induction ps with
  | nil => rfl
  | cons p rest ih =>
    rw [lexemesOf_cons]
    cases p with
    | code s =>
      obtain ⟨calm, spaced⟩ := h
      rw [lexemes, codes, tokens_codes fun c hc => (isCalm_plain calm c hc).2.2.2]
      exact ih spaced
    | literal s => exact ih h.2
    | placeholder index type =>
      obtain ⟨led, spaced⟩ := h
      have ended := endsWord_of_leads led
      have shape : (SqlExpr.placeholderText index type).toList =
          '$' :: (natDigits index ++ ("::".toList ++ type.name.toList)) := by
        simp [SqlExpr.placeholderText, natText]
      have plain : ∀ c ∈ natDigits index ++ ("::".toList ++ type.name.toList), c ≠ '$' := by
        intro c hc
        simp only [List.mem_append] at hc
        rcases hc with hc | hc | hc
        · rintro rfl
          exact absurd (natDigits_isDigit hc) (by decide)
        · revert c
          simp
        · rintro rfl
          rcases mem_typeName hc with h | h <;> exact absurd h (by decide)
      have token : tokenRun (codeRun ((natDigits index ++
          ("::".toList ++ type.name.toList)).map .code ++ lexemesOf rest)) =
            natDigits index ++ ("::".toList ++ type.name.toList) := by
        rw [codeRun_codes]
        simpa only [List.append_assoc] using tokenRun_placeholder index type ended
      rw [lexemes, codes, shape, List.map_cons, List.cons_append, tokens, if_pos rfl, token,
        tokens_codes plain, ih spaced, ← shape, String.ofList_toList]
      rfl

end Piece

end DocStore
