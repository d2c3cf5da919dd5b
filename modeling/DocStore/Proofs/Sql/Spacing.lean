import DocStore.Proofs.Numeric.Readable
import DocStore.Proofs.Sql.Lexeme
import DocStore.Proofs.Trees

/-!
# Pieces keep apart

The pieces of an expression are written so that the database splits the text where the pieces meet: a
literal or a placeholder is always followed by code that is part of neither.

* `Spaced`: pieces that keep apart, and code in them that does no harm;
* `lex_spaced`, `inert_of_spaced`: the lexemes of spaced pieces;
* `spaced_pieces`: the pieces of every expression are spaced, whatever its names and labels are.
-/

namespace DocStore

open DocStore.Text

namespace Piece

def lexemes : Piece → List SqlLexeme
  | .code s => SqlLexeme.codes s
  | .literal s => [.literal s.toList]
  | .placeholder index type => SqlLexeme.codes (SqlExpr.placeholderText index type)

def lexemesOf (ps : List Piece) : List SqlLexeme := ps.flatMap lexemes

/-- The literals among some pieces, in order. -/
def literals (ps : List Piece) : List String :=
  ps.filterMap fun
    | .literal s => some s
    | _ => none

/-- Whether a character ends what a literal or a placeholder may be followed by. -/
def separates (c : Char) : Bool := c = ' ' || c = ')' || c = ','

/-- Whether every hyphen is followed by another character. -/
def hyphensApart : List Char → Bool
  | [] => true
  | c :: rest => (c != '-' || rest.head?.any (· != '-')) && hyphensApart rest

/-- Whether code has no quotes and no marks of placeholders, comments or a statement's end. -/
def isCalm (cs : List Char) : Bool :=
  cs.all (fun c => c != '\'' && c != ';' && c != '/' && c != '$') && hyphensApart cs

/-- Whether pieces start with code that ends whatever is before it. -/
def leads : List Piece → Bool
  | [] => true
  | .code s :: _ => s.toList.head?.any separates
  | _ => false

def Spaced : List Piece → Prop
  | [] => True
  | .code s :: rest => isCalm s.toList ∧ Spaced rest
  | _ :: rest => leads rest ∧ Spaced rest

/-! ## Lexemes -/

theorem toList_textOf_cons (p : Piece) (ps : List Piece) :
    (textOf (p :: ps)).toList = p.text.toList ++ (textOf ps).toList := by
  simp [textOf]

theorem lexemesOf_cons (p : Piece) (ps : List Piece) :
    lexemesOf (p :: ps) = p.lexemes ++ lexemesOf ps := rfl

theorem isCalm_plain {cs : List Char} (h : isCalm cs) :
    ∀ c ∈ cs, c ≠ '\'' ∧ c ≠ ';' ∧ c ≠ '/' ∧ c ≠ '$' := by
  intro c hc
  have plain := List.all_eq_true.mp (Bool.and_eq_true_iff.mp h).1 c hc
  simp only [Bool.and_eq_true, bne_iff_ne] at plain
  exact ⟨plain.1.1.1, plain.1.1.2, plain.1.2, plain.2⟩

theorem mem_intText {i : Int} {c : Char} (h : c ∈ (intText i).toList) : c = '-' ∨ c.isDigit := by
  unfold intText at h
  split at h
  · simp only [natText, String.toList_append, String.toList_ofList, List.mem_append] at h
    rcases h with h | h
    · exact .inl (by simpa using h)
    · exact .inr (natDigits_isDigit h)
  · rw [natText, String.toList_ofList] at h
    exact .inr (natDigits_isDigit h)

theorem mem_typeName {type : SqlType} {c : Char} (h : c ∈ type.name.toList) :
    c = ' ' ∨ c.isLower := by
  have found : type.name.toList.all fun c => c = ' ' || c.isLower := by cases type <;> decide
  simpa using List.all_eq_true.mp found c h

theorem mem_placeholderText {index : Nat} {type : SqlType} {c : Char}
    (h : c ∈ (SqlExpr.placeholderText index type).toList) :
    c = '$' ∨ c.isDigit ∨ c = ':' ∨ c = ' ' ∨ c.isLower := by
  simp only [SqlExpr.placeholderText, natText, String.toList_append, String.toList_ofList,
    List.mem_append] at h
  rcases h with ((h | h) | h) | h
  · exact .inl (by simpa using h)
  · exact .inr (.inl (natDigits_isDigit h))
  · exact .inr (.inr (.inl (by simpa using h)))
  · exact .inr (.inr (.inr (mem_typeName h)))

theorem lex_codes {cs : List Char} (plain : ∀ c ∈ cs, c ≠ '\'') (rest : List Char) :
    SqlLexeme.lex (cs ++ rest) = (SqlLexeme.lex rest).map (cs.map .code ++ ·) := by
  induction cs with
  | nil => simp
  | cons c cs ih =>
    obtain ⟨first, others⟩ := List.forall_mem_cons.mp plain
    rw [List.cons_append, SqlLexeme.lex_code first, ih others]
    simp [Function.comp_def]

theorem lex_fixed {s : String} (plain : s.toList.all (· != '\'')) (rest : List Char) :
    SqlLexeme.lex (s.toList ++ rest) =
      (SqlLexeme.lex rest).map (SqlLexeme.codes s ++ ·) :=
  lex_codes (fun c hc => bne_iff_ne.mp (List.all_eq_true.mp plain c hc)) rest

theorem startsUnquoted_of_leads {ps : List Piece} (h : leads ps) {rest : List Char}
    (after : SqlLexeme.StartsUnquoted rest) :
    SqlLexeme.StartsUnquoted ((textOf ps).toList ++ rest) := by
  match ps with
  | [] => simpa [textOf] using after
  | .code s :: others =>
    rw [toList_textOf_cons]
    simp only [leads] at h
    cases chars : s.toList with
    | nil => simp [chars] at h
    | cons c cs =>
      rw [chars] at h
      simp only [text, chars, SqlLexeme.StartsUnquoted, List.cons_append, List.head?_cons]
      rintro ⟨⟩
      cases h

/-- Spaced pieces are split where they meet. -/
theorem lex_spaced {ps : List Piece} (h : Spaced ps) {rest : List Char}
    (after : SqlLexeme.StartsUnquoted rest) :
    SqlLexeme.lex ((textOf ps).toList ++ rest) =
      (SqlLexeme.lex rest).map (lexemesOf ps ++ ·) := by
  induction ps with
  | nil => simp [textOf, lexemesOf]
  | cons p others ih =>
    rw [toList_textOf_cons, List.append_assoc, lexemesOf_cons]
    cases p with
    | code s =>
      obtain ⟨calm, spaced⟩ := h
      rw [text, lex_codes fun c hc => (isCalm_plain calm c hc).1, ih spaced]
      simp [lexemes, SqlLexeme.codes, Function.comp_def]
    | literal s =>
      obtain ⟨led, spaced⟩ := h
      rw [text, SqlLexeme.spell_quote, SqlLexeme.lex_literal _ (startsUnquoted_of_leads led after),
        ih spaced]
      simp [lexemes, Function.comp_def]
    | placeholder index type =>
      obtain ⟨led, spaced⟩ := h
      have plain : ∀ c ∈ (SqlExpr.placeholderText index type).toList, c ≠ '\'' := by
        rintro c hc rfl
        rcases mem_placeholderText hc with h | h | h | h | h <;> exact absurd h (by decide)
      rw [text, lex_codes plain, ih spaced]
      simp [lexemes, SqlLexeme.codes, Function.comp_def]

/-- The lexemes of pieces are written as the pieces are. -/
theorem spell_lexemesOf (ps : List Piece) :
    (lexemesOf ps).flatMap SqlLexeme.spell = (textOf ps).toList := by
  have spelled (s : String) : (SqlLexeme.codes s).flatMap SqlLexeme.spell = s.toList :=
    SqlLexeme.spell_codes s
  induction ps with
  | nil => simp [lexemesOf, textOf]
  | cons p rest ih =>
    rw [lexemesOf_cons, List.flatMap_append, ih, toList_textOf_cons]
    cases p with
    | code s => rw [lexemes, text, spelled]
    | literal s => rw [text, SqlLexeme.spell_quote]; simp [lexemes]
    | placeholder index type => rw [lexemes, text, spelled]

theorem literals_codes (cs : List Char) (ls : List SqlLexeme) :
    SqlLexeme.literals (cs.map .code ++ ls) = SqlLexeme.literals ls := by
  simp [SqlLexeme.literals, List.filterMap_append, List.filterMap_map]

theorem literals_lexemesOf (ps : List Piece) :
    SqlLexeme.literals (lexemesOf ps) = literals ps := by
  induction ps with
  | nil => rfl
  | cons p rest ih =>
    rw [lexemesOf_cons]
    cases p with
    | code s => exact (literals_codes ..).trans ih
    | placeholder index type => exact (literals_codes ..).trans ih
    | literal s => simpa [lexemes, SqlLexeme.literals, literals] using ih

/-! ## Harmless code -/

theorem hyphensApart_of_none {cs : List Char} (h : ∀ c ∈ cs, c ≠ '-') : hyphensApart cs := by
  induction cs with
  | nil => rfl
  | cons c rest ih =>
    obtain ⟨first, others⟩ := List.forall_mem_cons.mp h
    simp [hyphensApart, first, ih others]

theorem lineComment_append {cs : List Char} (apart : hyphensApart cs) {ls : List SqlLexeme}
    (h : ¬ SqlLexeme.codes "--" <:+: ls) : ¬ SqlLexeme.codes "--" <:+: cs.map .code ++ ls := by
  induction cs with
  | nil => exact h
  | cons c rest ih =>
    simp only [hyphensApart, Bool.and_eq_true, Bool.or_eq_true, bne_iff_ne] at apart
    rw [List.map_cons, List.cons_append, List.infix_cons_iff, not_or]
    refine ⟨?_, ih apart.2⟩
    rintro ⟨after, starts⟩
    have hyphens : SqlLexeme.codes "--" = [.code '-', .code '-'] := rfl
    rw [hyphens, List.cons_append, List.cons_append, List.cons.injEq] at starts
    obtain ⟨first, starts⟩ := starts
    cases first
    have other := apart.1
    cases rest with
    | nil => simp at other
    | cons d rest =>
      simp only [List.map_cons, List.cons_append, List.cons.injEq] at starts
      cases starts.1
      simp at other

theorem code_mem_lexemesOf {ps : List Piece} (h : Spaced ps) {c : Char}
    (mem : SqlLexeme.code c ∈ lexemesOf ps) : c ≠ '\'' ∧ c ≠ ';' ∧ c ≠ '/' := by
  induction ps with
  | nil => cases mem
  | cons p rest ih =>
    rw [lexemesOf_cons, List.mem_append] at mem
    cases p with
    | code s =>
      rcases mem with mem | mem
      · obtain ⟨_, hc, same⟩ := List.mem_map.mp mem
        cases same
        have plain := isCalm_plain h.1 _ hc
        exact ⟨plain.1, plain.2.1, plain.2.2.1⟩
      · exact ih h.2 mem
    | literal s =>
      rcases mem with mem | mem
      · cases List.mem_singleton.mp mem
      · exact ih h.2 mem
    | placeholder index type =>
      rcases mem with mem | mem
      · obtain ⟨_, hc, same⟩ := List.mem_map.mp mem
        cases same
        refine ⟨?_, ?_, ?_⟩ <;> rintro rfl <;>
          rcases mem_placeholderText hc with h | h | h | h | h <;> exact absurd h (by decide)
      · exact ih h.2 mem

theorem inert_of_spaced {ps : List Piece} (h : Spaced ps) : SqlLexeme.Inert (lexemesOf ps) := by
  refine ⟨fun mem => (code_mem_lexemesOf h mem).2.1 rfl, ?_, ?_⟩
  · induction ps with
    | nil => decide
    | cons p rest ih =>
      rw [lexemesOf_cons]
      cases p with
      | code s => exact lineComment_append (Bool.and_eq_true_iff.mp h.1).2 (ih h.2)
      | literal s =>
        rw [lexemes, List.singleton_append, List.infix_cons_iff, not_or]
        refine ⟨?_, ih h.2⟩
        rintro ⟨after, starts⟩
        cases starts
      | placeholder index type =>
        refine lineComment_append (hyphensApart_of_none ?_) (ih h.2)
        rintro c hc rfl
        rcases mem_placeholderText hc with h | h | h | h | h <;> exact absurd h (by decide)
  · intro found
    exact (code_mem_lexemesOf h (found.subset (by decide : SqlLexeme.code '/' ∈ _))).2.2 rfl

/-! ## Fixed code -/

theorem isCalm_of_none {cs : List Char}
    (h : ∀ c ∈ cs, c ≠ '\'' ∧ c ≠ ';' ∧ c ≠ '/' ∧ c ≠ '$' ∧ c ≠ '-') : isCalm cs := by
  have apart : hyphensApart cs := hyphensApart_of_none fun c hc => (h c hc).2.2.2.2
  rw [isCalm, apart, Bool.and_true, List.all_eq_true]
  intro c hc
  obtain ⟨quote, semicolon, slash, mark, -⟩ := h c hc
  simp [quote, semicolon, slash, mark]

theorem isCalm_natText (n : Nat) : isCalm (natText n).toList := by
  rw [natText, String.toList_ofList]
  refine isCalm_of_none fun c hc => ?_
  have digit : c.isDigit := natDigits_isDigit hc
  refine ⟨?_, ?_, ?_, ?_, ?_⟩ <;> rintro rfl <;> exact absurd digit (by decide)

theorem isCalm_intText (i : Int) : isCalm (intText i).toList := by
  have calm := isCalm_natText i.natAbs
  unfold intText
  split
  · rw [natText, String.toList_ofList] at calm
    cases digits : natDigits i.natAbs with
    | nil => exact absurd digits (natDigits_ne_nil _)
    | cons d rest =>
      have digit : d.isDigit := natDigits_isDigit (by rw [digits]; exact List.mem_cons_self)
      have other : d ≠ '-' := by
        rintro rfl
        exact absurd digit (by decide)
      rw [digits] at calm
      simp only [isCalm, Bool.and_eq_true] at calm
      simp [natText, digits, isCalm, hyphensApart, other] at calm ⊢
      exact calm
  · exact calm

theorem isCalm_typeName (type : SqlType) : isCalm type.name.toList := by
  refine isCalm_of_none fun c hc => ?_
  refine ⟨?_, ?_, ?_, ?_, ?_⟩ <;> rintro rfl <;> rcases mem_typeName hc with h | h <;>
    exact absurd h (by decide)

theorem isCalm_token (op : CompareOp) : isCalm op.token.toList := by
  cases op <;> decide

/-! ## Expressions -/

/-- Whether pieces keep apart from whatever may come after them. -/
def Tidy (ps : List Piece) : Prop := ∀ rest, leads rest → Spaced rest → Spaced (ps ++ rest)

theorem joined_cons_cons (separator : String) (ps qs : List Piece) (rest : List (List Piece)) :
    joined separator (ps :: qs :: rest) = ps ++ .code separator :: joined separator (qs :: rest) :=
  rfl

/-- A separator adds nothing to what is taken from the pieces but their code. -/
theorem filterMap_joined {α : Type} {f : Piece → Option α} (code : ∀ s, f (.code s) = none)
    (separator : String) (pss : List (List Piece)) :
    (joined separator pss).filterMap f = pss.flatMap (List.filterMap f) := by
  induction pss with
  | nil => rfl
  | cons ps others ih =>
    cases others with
    | nil => simp [joined]
    | cons qs others => simp [joined_cons_cons, List.filterMap_append, code, ih]

theorem tidy_joined {separator : String} {pss : List (List Piece)} (each : ∀ ps ∈ pss, Tidy ps)
    (calm : isCalm separator.toList) (ends : separator.toList.head?.any separates) :
    Tidy (joined separator pss) := by
  intro rest led spaced
  induction pss with
  | nil => exact spaced
  | cons ps others ih =>
    cases others with
    | nil => exact each ps (List.mem_cons_self ..) rest led spaced
    | cons qs others =>
      have remaining := ih fun p hp => each p (List.mem_cons_of_mem _ hp)
      rw [joined_cons_cons, List.append_assoc]
      exact each ps (List.mem_cons_self ..) _ ends ⟨calm, remaining⟩

theorem tidy_const (c : SqlConst) : Tidy c.pieces := by
  intro rest led spaced
  cases c with
  | text s => exact ⟨led, spaced⟩
  | bigint i => exact ⟨rfl, isCalm_intText i.toInt, rfl, spaced⟩
  | truth b => cases b <;> exact ⟨rfl, spaced⟩

theorem tidy_arms (arms : List (String × SqlConst)) : Tidy (SqlExpr.armsPieces arms) := by
  refine tidy_joined ?_ rfl rfl
  intro ps mem rest led spaced
  obtain ⟨arm, _, rfl⟩ := List.mem_map.mp mem
  exact ⟨rfl, rfl, rfl, tidy_const arm.2 rest led spaced⟩

theorem Tidy.parenthesized {ps : List Piece} (h : Tidy ps) :
    Tidy (.code "(" :: ps ++ [Piece.code ")"]) := by
  intro rest led spaced
  simp only [List.append_assoc, List.cons_append, List.nil_append]
  exact ⟨rfl, h _ rfl ⟨rfl, spaced⟩⟩

theorem tidy_junction {joiner : String} {pss : List (List Piece)} (each : ∀ ps ∈ pss, Tidy ps)
    (calm : isCalm joiner.toList) (ends : joiner.toList.head?.any separates) :
    Tidy (SqlExpr.junctionPieces joiner pss) := by
  refine (tidy_joined ?_ calm ends).parenthesized
  exact List.forall_mem_map.mpr fun ps hp => (each ps hp).parenthesized

theorem tidy_like (pattern : Pattern) {receiver argument : List Piece} (hr : Tidy receiver)
    (ha : Tidy argument) : Tidy (SqlExpr.likePieces pattern receiver argument) := by
  intro rest led spaced
  cases pattern <;>
    simp only [SqlExpr.likePieces, List.append_assoc, List.cons_append, List.nil_append]
  · exact ⟨rfl, hr _ rfl ⟨rfl, ha _ rfl ⟨rfl, rfl, rfl, spaced⟩⟩⟩
  · exact ⟨rfl, hr _ rfl ⟨rfl, rfl, rfl, ha _ rfl ⟨rfl, spaced⟩⟩⟩
  · exact ⟨rfl, hr _ rfl ⟨rfl, rfl, rfl, ha _ rfl ⟨rfl, rfl, rfl, spaced⟩⟩⟩
  · exact ⟨rfl, hr _ rfl ⟨rfl, rfl, rfl, ha _ rfl ⟨rfl, rfl, rfl, spaced⟩⟩⟩

theorem tidy_piecesOfAll {es : List SqlExpr} (each : ∀ e ∈ es, Tidy e.pieces) :
    ∀ ps ∈ SqlExpr.piecesOfAll es, Tidy ps := by
  rw [SqlExpr.piecesOfAll_eq_map]
  exact List.forall_mem_map.mpr each

/-- Every expression is written in pieces that keep apart. -/
theorem tidy_pieces (e : SqlExpr) : Tidy e.pieces := by
  induction e with
  | all operands ih =>
    cases operands with
    | nil => exact fun _ _ spaced => ⟨rfl, spaced⟩
    | cons => exact tidy_junction (tidy_piecesOfAll ih) rfl rfl
  | any operands ih =>
    cases operands with
    | nil => exact fun _ _ spaced => ⟨rfl, spaced⟩
    | cons => exact tidy_junction (tidy_piecesOfAll ih) rfl rfl
  | like pattern receiver argument hr ha => exact tidy_like pattern hr ha
  | document | element | nullCode => exact fun _ _ spaced => ⟨rfl, spaced⟩
  | truth b => exact tidy_const (.truth b)
  | placeholder => exact fun _ led spaced => ⟨led, spaced⟩
  | caseOf subject arms elseSubject ih =>
    intro rest led spaced
    simp only [SqlExpr.pieces, List.append_assoc, List.cons_append, List.nil_append]
    refine ⟨rfl, ih _ rfl ⟨rfl, ?_⟩⟩
    cases elseSubject with
    | true => exact tidy_arms arms _ rfl ⟨rfl, ih _ rfl ⟨rfl, spaced⟩⟩
    | false => exact tidy_arms arms _ rfl ⟨rfl, spaced⟩
  | compare op left right bytewise hl hr =>
    intro rest led spaced
    simp only [SqlExpr.pieces, List.append_assoc, List.cons_append, List.nil_append]
    refine ⟨rfl, hl _ rfl ⟨rfl, isCalm_token op, rfl, hr _ ?_ ⟨?_, spaced⟩⟩⟩ <;>
      cases bytewise <;> rfl
  | isNull operand negated ih =>
    intro rest led spaced
    rw [SqlExpr.pieces, List.append_assoc]
    cases negated <;> exact ⟨rfl, ih _ rfl ⟨rfl, spaced⟩⟩
  | cast operand type ih =>
    intro rest led spaced
    rw [SqlExpr.pieces, List.append_assoc]
    exact ⟨rfl, ih _ rfl ⟨rfl, isCalm_typeName type, rfl, spaced⟩⟩
  | containsElement base item hb hi =>
    intro rest led spaced
    simp only [SqlExpr.pieces, List.append_assoc, List.cons_append, List.nil_append]
    exact ⟨rfl, hb _ rfl ⟨rfl, hi _ rfl ⟨rfl, spaced⟩⟩⟩
  | anyElement base elementValue item hb he hi =>
    intro rest led spaced
    simp only [SqlExpr.pieces, List.append_assoc, List.cons_append, List.nil_append]
    exact ⟨rfl, hb _ rfl ⟨rfl, rfl, rfl, hb _ rfl ⟨rfl, he _ rfl ⟨rfl, hi _ rfl ⟨rfl, spaced⟩⟩⟩⟩⟩
  | member base name ih | memberText base name ih | wholeText base ih =>
    intro rest led spaced
    rw [SqlExpr.pieces, List.append_assoc]
    exact ⟨rfl, ih _ rfl ⟨rfl, rfl, rfl, spaced⟩⟩
  | lower operand ih | upper operand ih | not operand ih =>
    intro rest led spaced
    rw [SqlExpr.pieces, List.append_assoc]
    exact ⟨rfl, ih _ rfl ⟨rfl, spaced⟩⟩
  | replace operand what replacement ih =>
    intro rest led spaced
    rw [SqlExpr.pieces, List.append_assoc]
    exact ⟨rfl, ih _ rfl ⟨rfl, rfl, rfl, rfl, rfl, spaced⟩⟩
  | blank operand ih =>
    intro rest led spaced
    rw [SqlExpr.pieces, List.append_assoc]
    exact ⟨rfl, ih _ rfl ⟨rfl, rfl, rfl, rfl, rfl, spaced⟩⟩

theorem spaced_pieces (e : SqlExpr) : Spaced e.pieces := by
  simpa using tidy_pieces e [] rfl trivial

end Piece

/-- The text of an expression is split where its pieces meet. -/
theorem SqlExpr.lex_text (e : SqlExpr) :
    SqlLexeme.lex e.text.toList = some (Piece.lexemesOf e.pieces) := by
  have ended : SqlLexeme.StartsUnquoted [] := by simp [SqlLexeme.StartsUnquoted]
  simpa [SqlExpr.text, SqlLexeme.lex] using Piece.lex_spaced (Piece.spaced_pieces e) ended

end DocStore
