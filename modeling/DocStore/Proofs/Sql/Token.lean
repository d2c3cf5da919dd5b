import DocStore.Proofs.Sql.Spacing
import Mathlib.Data.List.SplitBy

/-!
# Tokens of SQL text

What the database makes of the lexemes of a text.  Characters of names, keywords and numbers next to
each other are one token, and so are those of operators; every other character stands alone, and
white space does nothing but keep tokens apart.

* `SqlToken.ofText`: the tokens of a text;
* `SqlToken.ofLexemes_append`: tokens on both sides of a place where none goes on;
* `SqlToken.ofLexemes_intText`, `SqlToken.ofLexemes_placeholder`: written integers and placeholders;
* `Piece.tokens_code`, `Piece.tokens_between`: tokens end where pieces meet at marks or spaces.
-/

namespace DocStore

open DocStore.Text

/-- A part of an SQL text that means something on its own. -/
inductive SqlToken where
  /-- A word, an operator or a mark. -/
  | code (s : String)
  | literal (s : String)
deriving DecidableEq, Repr

namespace SqlLexeme

/-- Whether a character may stand in a name, a keyword, a number or a placeholder. -/
def isWordChar (c : Char) : Bool := c.isAlphanum || c = '_' || c = '$'

/-- Whether a character may stand in an operator or in the sign of a cast. -/
def isOperatorChar (c : Char) : Bool := "+-*/<>=~!@#%^&|`?:".toList.contains c

/-- Whether two lexemes next to each other are parts of one token. -/
def joins : SqlLexeme → SqlLexeme → Bool
  | .code c, .code d => (isWordChar c && isWordChar d) || (isOperatorChar c && isOperatorChar d)
  | _, _ => false

/-- Whether a lexeme is a token of its own, or white space. -/
def isLoose : SqlLexeme → Bool
  | .code c => !isWordChar c && !isOperatorChar c
  | .literal _ => true

theorem joins_left {l : SqlLexeme} (loose : l.isLoose) (m : SqlLexeme) : joins l m = false := by
  cases l <;> cases m <;> simp_all [joins, isLoose]

theorem joins_right {m : SqlLexeme} (loose : m.isLoose) (l : SqlLexeme) : joins l m = false := by
  cases l <;> cases m <;> simp_all [joins, isLoose]

theorem isWordChar_of_operator {c : Char} (operator : isOperatorChar c) : isWordChar c = false := by
  have marks : "+-*/<>=~!@#%^&|`?:".toList.all (!isWordChar ·) := by decide
  simpa using List.all_eq_true.mp marks c (List.contains_iff_mem.mp operator)

/-- A word and an operator do not go on with each other. -/
theorem joins_apart {c d : Char} (operator : isOperatorChar c) (word : isWordChar d) :
    joins (.code c) (.code d) = false ∧ joins (.code d) (.code c) = false := by
  have left : isWordChar c = false := isWordChar_of_operator operator
  have right : isOperatorChar d = false := by
    rw [Bool.eq_false_iff]
    intro both
    rw [isWordChar_of_operator both] at word
    cases word
  simp [joins, left, right]

end SqlLexeme

namespace SqlToken

open SqlLexeme

/-- The token that a run of lexemes makes up; white space makes up none. -/
def ofRun : List SqlLexeme → Option SqlToken
  | [.literal text] => some (.literal (String.ofList text))
  | [.code c] => if c.isWhitespace then none else some (.code (String.ofList [c]))
  | run => some (.code (String.ofList (run.flatMap spell)))

def ofLexemes (ls : List SqlLexeme) : List SqlToken := (ls.splitBy joins).filterMap ofRun

/-- The tokens of a text; there are none if it ends inside a literal. -/
def ofText (s : String) : Option (List SqlToken) := (lex s.toList).map ofLexemes

/-! ## Where tokens end -/

theorem ofLexemes_append {ls ms : List SqlLexeme}
    (apart : ∀ l ∈ ls.getLast?, ∀ m ∈ ms.head?, joins l m = false) :
    ofLexemes (ls ++ ms) = ofLexemes ls ++ ofLexemes ms := by
  rw [ofLexemes, List.splitBy_append apart, List.filterMap_append]
  rfl

theorem ofLexemes_after {ls : List SqlLexeme} (ends : ls.getLast?.all isLoose)
    (ms : List SqlLexeme) : ofLexemes (ls ++ ms) = ofLexemes ls ++ ofLexemes ms :=
  ofLexemes_append fun l last m _ => joins_left ((Option.all_eq_true _ _).mp ends l last) m

theorem ofLexemes_before (ls : List SqlLexeme) {ms : List SqlLexeme}
    (starts : ms.head?.all isLoose) : ofLexemes (ls ++ ms) = ofLexemes ls ++ ofLexemes ms :=
  ofLexemes_append fun l _ m first => joins_right ((Option.all_eq_true _ _).mp starts m first) l

theorem ofRun_word {cs : List Char} (filled : cs ≠ []) (word : ∀ c ∈ cs, isWordChar c) :
    ofRun (cs.map .code) = some (.code (String.ofList cs)) := by
  match cs with
  | [] => exact absurd rfl filled
  | [c] =>
    have visible : c.isWhitespace = false := by
      have letter := word c (List.mem_singleton_self c)
      simp only [Char.isWhitespace, Bool.or_eq_false_iff, decide_eq_false_iff_not]
      refine ⟨⟨⟨?_, ?_⟩, ?_⟩, ?_⟩ <;> rintro rfl <;> exact absurd letter (by decide)
    simp [ofRun, visible]
  | c :: d :: rest => simp [ofRun, spell, List.flatMap_map]

/-- Characters that go on with each other are one token. -/
theorem ofLexemes_word {cs : List Char} (filled : cs ≠ []) (word : ∀ c ∈ cs, isWordChar c) :
    ofLexemes (cs.map .code) = [.code (String.ofList cs)] := by
  have chain : (cs.map SqlLexeme.code).IsChain fun x y => joins x y := by
    rw [List.isChain_map]
    refine List.Pairwise.isChain (List.pairwise_of_forall_mem_list fun c left d right => ?_)
    simp [joins, word c left, word d right]
  rw [ofLexemes, List.splitBy_of_isChain (by simpa using filled) chain, List.filterMap_cons,
    ofRun_word filled word]
  rfl

/-! ## Numbers -/

theorem isWordChar_of_digit {c : Char} (digit : c.isDigit) : isWordChar c := by
  simp [isWordChar, Char.isAlphanum, digit]

theorem ofLexemes_natText (n : Nat) : ofLexemes (codes (natText n)) = [.code (natText n)] := by
  rw [codes, natText, String.toList_ofList]
  exact ofLexemes_word (natDigits_ne_nil n) fun c mem => isWordChar_of_digit (natDigits_isDigit mem)

theorem isWordChar_of_natText {n : Nat} {l : SqlLexeme} (mem : l ∈ codes (natText n)) :
    ∃ c, l = .code c ∧ isWordChar c := by
  obtain ⟨c, inside, rfl⟩ := List.mem_map.mp mem
  rw [natText, String.toList_ofList] at inside
  exact ⟨c, rfl, isWordChar_of_digit (natDigits_isDigit inside)⟩

/-- A minus sign is a token of its own. -/
theorem ofLexemes_intText (i : Int) :
    ofLexemes (codes (intText i)) =
      (if i < 0 then [.code "-"] else []) ++ [.code (natText i.natAbs)] := by
  unfold intText
  split
  · have sign : codes "-" = [.code '-'] := rfl
    have apart : ∀ l ∈ (codes "-").getLast?, ∀ m ∈ (codes (natText i.natAbs)).head?,
        joins l m = false := by
      rw [sign]
      rintro _ ⟨⟩ m first
      obtain ⟨c, rfl, word⟩ := isWordChar_of_natText (List.mem_of_mem_head? first)
      exact (joins_apart rfl word).1
    rw [codes_append, ofLexemes_append apart, ofLexemes_natText]
    rfl
  · exact ofLexemes_natText _

/-- The number of a placeholder and its mark are one token. -/
theorem ofLexemes_mark (index : Nat) :
    ofLexemes (codes ("$" ++ natText index)) = [.code ("$" ++ natText index)] ∧
      ∀ l ∈ codes ("$" ++ natText index), ∃ c, l = .code c ∧ isWordChar c := by
  have chars : ("$" ++ natText index).toList = '$' :: natDigits index := by simp [natText]
  have letters : ∀ c ∈ ("$" ++ natText index).toList, isWordChar c := by
    rw [chars]
    refine List.forall_mem_cons.mpr ⟨rfl, fun c mem => ?_⟩
    exact isWordChar_of_digit (natDigits_isDigit mem)
  constructor
  · have filled : ("$" ++ natText index).toList ≠ [] := by simp [chars]
    have word := ofLexemes_word filled letters
    rwa [String.ofList_toList] at word
  · intro l mem
    obtain ⟨c, inside, rfl⟩ := List.mem_map.mp mem
    exact ⟨c, rfl, letters c inside⟩

/-- A placeholder is one token, and so is the sign of the cast after it. -/
theorem ofLexemes_placeholder (index : Nat) (type : SqlType) :
    ofLexemes (codes (SqlExpr.placeholderText index type)) =
      .code ("$" ++ natText index) :: .code "::" :: ofLexemes (codes type.name) := by
  obtain ⟨mark, letters⟩ := ofLexemes_mark index
  have sign : codes "::" = [.code ':', .code ':'] := rfl
  have first : ∀ l ∈ (codes ("$" ++ natText index)).getLast?, ∀ m ∈ (codes "::").head?,
      joins l m = false := by
    rw [sign]
    rintro l last _ ⟨⟩
    obtain ⟨c, rfl, word⟩ := letters l (List.mem_of_mem_getLast? last)
    exact (joins_apart rfl word).2
  have second : ∀ l ∈ (codes ("$" ++ natText index ++ "::")).getLast?,
      ∀ m ∈ (codes type.name).head?, joins l m = false := by
    rw [codes_append, sign, List.getLast?_append]
    rintro _ ⟨⟩ m start
    have word : ∀ l ∈ (codes type.name).head?, joins (.code ':') l = false := by
      cases type <;> decide
    exact word m start
  rw [SqlExpr.placeholderText, codes_append, ofLexemes_append second, codes_append,
    ofLexemes_append first, mark]
  rfl

end SqlToken

namespace Piece

open SqlToken

/-- The tokens of some pieces. -/
def tokens (ps : List Piece) : List SqlToken := ofLexemes (lexemesOf ps)

theorem tokens_literal (s : String) (ps : List Piece) :
    tokens (.literal s :: ps) = .literal s :: tokens ps := by
  have whole : ofLexemes [.literal s.toList] = [.literal s] := by
    simp [ofLexemes, List.splitBy, List.splitBy.loop, ofRun]
  rw [tokens, lexemesOf_cons, lexemes, ofLexemes_after rfl, whole]
  rfl

theorem tokens_singleton (s : String) : tokens [.code s] = ofLexemes (SqlLexeme.codes s) := by
  rw [tokens, lexemesOf, List.flatMap_singleton, lexemes]

theorem tokens_placeholder (index : Nat) (type : SqlType) :
    tokens [.placeholder index type] =
      .code ("$" ++ natText index) :: .code "::" :: ofLexemes (SqlLexeme.codes type.name) := by
  rw [tokens, lexemesOf, List.flatMap_singleton, lexemes, ofLexemes_placeholder]

/-- Code up to a mark or a space. -/
theorem tokens_code {s : String} (ends : (SqlLexeme.codes s).getLast?.all SqlLexeme.isLoose)
    (ps : List Piece) : tokens (.code s :: ps) = ofLexemes (SqlLexeme.codes s) ++ tokens ps := by
  rw [tokens, lexemesOf_cons, lexemes, ofLexemes_after ends, tokens]

/-- Code from a mark or a space on. -/
theorem tokens_append_code (ps : List Piece) {s : String}
    (starts : (SqlLexeme.codes s).head?.any SqlLexeme.isLoose) (qs : List Piece) :
    tokens (ps ++ .code s :: qs) = tokens ps ++ tokens (.code s :: qs) := by
  have first : (lexemesOf (.code s :: qs)).head?.all SqlLexeme.isLoose := by
    rw [lexemesOf_cons, lexemes]
    cases chars : SqlLexeme.codes s with
    | nil => simp [chars] at starts
    | cons l ls => simpa [chars] using starts
  have split : lexemesOf (ps ++ .code s :: qs) = lexemesOf ps ++ lexemesOf (.code s :: qs) :=
    List.flatMap_append
  rw [tokens, split, ofLexemes_before _ first, tokens, tokens]

/-- Code between marks or spaces. -/
theorem tokens_between (ps : List Piece) {s : String}
    (starts : (SqlLexeme.codes s).head?.any SqlLexeme.isLoose)
    (ends : (SqlLexeme.codes s).getLast?.all SqlLexeme.isLoose) (qs : List Piece) :
    tokens (ps ++ .code s :: qs) = tokens ps ++ (ofLexemes (SqlLexeme.codes s) ++ tokens qs) := by
  rw [tokens_append_code ps starts, tokens_code ends]

/-- A space between pieces keeps them apart and is no token. -/
theorem tokens_joined (pss : List (List Piece)) : tokens (joined " " pss) = pss.flatMap tokens := by
  induction pss with
  | nil => rfl
  | cons ps others ih =>
    cases others with
    | nil => simp [joined]
    | cons qs others =>
      rw [joined_cons_cons, tokens_between _ (by decide) (by decide), ih]
      rfl

end Piece

/-- The text of an expression has the tokens of its pieces. -/
theorem SqlExpr.ofText_text (e : SqlExpr) :
    SqlToken.ofText e.text = some (Piece.tokens e.pieces) := by
  rw [SqlToken.ofText, lex_text]
  rfl

end DocStore
