import DocStore.Sql.Expr
import Mathlib.Data.List.Infix

/-!
# Lexemes of SQL text

A text as the database splits it: single characters of code, and literals.  A literal stands between
single quotes; inside it a doubled quote stands for one, and a backslash for itself.

* `lex`: the lexemes of a text, if it ends outside of any literal;
* `lex_literal`: a literal is read back from its spelling, unless another quote follows;
* `depthAfter`: how many parentheses are open after some code, if no more are closed than opened;
* `Inert`: code without the end of a statement and without the start of a comment.
-/

namespace DocStore

/-- A part of an SQL text. -/
inductive SqlLexeme where
  | code (c : Char)
  | literal (text : List Char)
deriving DecidableEq, Repr

namespace SqlLexeme

mutual

/-- The lexemes of a text; there are none if it ends inside a literal. -/
def lex : List Char → Option (List SqlLexeme)
  | [] => some []
  | '\'' :: rest => (lexLiteral rest).map fun r => .literal r.1 :: r.2
  | c :: rest => (lex rest).map (.code c :: ·)

/-- The literal that a text goes on with after its opening quote, and the lexemes after it. -/
def lexLiteral : List Char → Option (List Char × List SqlLexeme)
  | [] => none
  | '\'' :: '\'' :: rest => (lexLiteral rest).map fun r => ('\'' :: r.1, r.2)
  | '\'' :: rest => (lex rest).map fun ls => ([], ls)
  | c :: rest => (lexLiteral rest).map fun r => (c :: r.1, r.2)

end

def spell : SqlLexeme → List Char
  | .code c => [c]
  | .literal text =>
    '\'' :: (text.flatMap fun c => if c = '\'' then ['\'', '\''] else [c]) ++ ['\'']

def codes (s : String) : List SqlLexeme := s.toList.map .code

/-- The texts of the literals, in order. -/
def literals (ls : List SqlLexeme) : List String :=
  ls.filterMap fun
    | .code _ => none
    | .literal text => some (String.ofList text)

/-- How many parentheses are open after some lexemes, if there are `depth` before them; nothing if
one is closed that is not open. -/
def depthAfter (depth : Nat) : List SqlLexeme → Option Nat
  | [] => some depth
  | .literal _ :: rest => depthAfter depth rest
  | .code c :: rest =>
    if c = '(' then depthAfter (depth + 1) rest
    else if c = ')' then if depth = 0 then none else depthAfter (depth - 1) rest
    else depthAfter depth rest

/-- Whether code neither ends a statement nor starts a comment. -/
structure Inert (ls : List SqlLexeme) : Prop where
  semicolon : .code ';' ∉ ls
  lineComment : ¬ codes "--" <:+: ls
  blockComment : ¬ codes "/*" <:+: ls

/-! ## Reading back -/

theorem codes_append (s t : String) : codes (s ++ t) = codes s ++ codes t := by
  simp [codes]

theorem spell_codes (s : String) : (codes s).flatMap spell = s.toList := by
  simp [codes, spell, List.flatMap_map]

theorem spell_quote (s : String) : (SqlExpr.quote s).toList = (literal s.toList).spell := by
  simp [SqlExpr.quote, spell]

/-- Whether something does not start with a quote, so that a literal before it is at its end. -/
def StartsUnquoted (cs : List Char) : Prop := cs.head? ≠ some '\''

theorem lex_code {c : Char} (plain : c ≠ '\'') (rest : List Char) :
    lex (c :: rest) = (lex rest).map (.code c :: ·) := by
  rw [lex]
  exact plain

theorem lexLiteral_close {rest : List Char} (after : StartsUnquoted rest) :
    lexLiteral ('\'' :: rest) = (lex rest).map fun ls => ([], ls) := by
  cases rest with
  | nil => simp [lexLiteral]
  | cons c rest =>
    have plain : c ≠ '\'' := by simpa [StartsUnquoted] using after
    simp [lexLiteral, plain]

theorem lexLiteral_spelled (text : List Char) {rest : List Char} (after : StartsUnquoted rest) :
    lexLiteral ((text.flatMap fun c => if c = '\'' then ['\'', '\''] else [c]) ++ '\'' :: rest) =
      (lex rest).map fun ls => (text, ls) := by
  induction text with
  | nil => exact lexLiteral_close after
  | cons c text ih =>
    by_cases quote : c = '\''
    · subst quote
      simp [lexLiteral, ih, Function.comp_def]
    · simp [lexLiteral, quote, ih, Function.comp_def]

theorem lex_literal (text : List Char) {rest : List Char} (after : StartsUnquoted rest) :
    lex ((literal text).spell ++ rest) = (lex rest).map (.literal text :: ·) := by
  have spelled := lexLiteral_spelled text after
  simp [spell, lex, spelled, Function.comp_def]

/-! ## Parentheses -/

theorem depthAfter_append (depth : Nat) (ls ms : List SqlLexeme) :
    depthAfter depth (ls ++ ms) = (depthAfter depth ls).bind fun d => depthAfter d ms := by
  induction ls generalizing depth with
  | nil => rfl
  | cons l rest ih =>
    cases l with
    | literal text => exact ih depth
    | code c =>
      simp only [List.cons_append, depthAfter, ih]
      split
      · rfl
      · split
        · split <;> rfl
        · rfl

theorem depthAfter_plain {cs : List Char} (plain : ∀ c ∈ cs, c ≠ '(' ∧ c ≠ ')') (depth : Nat) :
    depthAfter depth (cs.map .code) = some depth := by
  induction cs with
  | nil => rfl
  | cons c rest ih =>
    obtain ⟨⟨left, right⟩, others⟩ := List.forall_mem_cons.mp plain
    simpa [depthAfter, left, right] using ih others

end SqlLexeme

end DocStore
