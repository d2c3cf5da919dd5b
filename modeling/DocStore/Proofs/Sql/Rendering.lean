import DocStore.Proofs.Sql.Reading

/-!
# Tokens that are read as an expression

What tokens each form of expression is read from, at which level of precedence, and what may come
after them.

* `SqlOperand.ofText`, `SqlOperand.valueOfText?`: the expression of a text, and the value of a text;
* `Renders`, `RendersOperand`, `RendersConjunct`, `RendersWhole`: tokens that are read as an
  expression at a level, one lemma for each form;
* `Renders.operand`, …, `Renders.whole`: what needs no parentheses is read at every level;
* `RendersWhole.closed`: what stands in parentheses needs none.
-/

namespace DocStore

open DocStore.Text
open SqlToken (code)

namespace SqlReader

/-! ## Running the reader -/

variable {names : List (Option String)} {self : SqlReader SqlOperand}

theorem run_next (t : SqlToken) (ts : List SqlToken) : next.run (t :: ts) = some (t, ts) := rfl

theorem run_expect (s : String) (ts : List SqlToken) :
    (expect s).run (code s :: ts) = some ((), ts) := by
  simp [expect, run_next]

theorem run_literal (s : String) (ts : List SqlToken) :
    literal.run (.literal s :: ts) = some (s, ts) := rfl

theorem run_word (s : String) (ts : List SqlToken) : word.run (code s :: ts) = some (s, ts) := rfl

theorem run_isNext (s : String) (t : SqlToken) (ts : List SqlToken) :
    (isNext s).run (t :: ts) = some (decide (t = code s), t :: ts) := rfl

theorem run_accept {words : List String} {s : String} (mem : s ∈ words) (ts : List SqlToken) :
    (accept words).run (code s :: ts) = some (some s, ts) :=
  if_pos mem

theorem run_accept_none {words : List String} {ts : List SqlToken} (ends : Stops words ts) :
    (accept words).run ts = some (none, ts) := by
  change accept words ts = some (none, ts)
  unfold accept
  split
  · exact if_neg fun mem => ends _ mem rfl
  · rfl

theorem stops_nil (words : List String) : Stops words [] := by
  intro s _ first
  cases first

/-- Nothing is asked of what comes next. -/
theorem stops_anywhere (ts : List SqlToken) : Stops [] ts := by
  intro s mem
  cases mem

theorem stops_code {words : List String} {s : String} (other : s ∉ words) (ts : List SqlToken) :
    Stops words (code s :: ts) := by
  rintro w mem ⟨⟩
  exact other mem

/-- A chain ends where none of its words comes next. -/
theorem run_chain_stops {words : List String} {ts : List SqlToken} (ends : Stops words ts)
    (step : SqlOperand → String → SqlReader SqlOperand) (n : Nat) (o : SqlOperand) :
    (chain words step (n + 1) o).run ts = some (o, ts) := by
  simp [chain, run_accept_none ends]

theorem run_type (type : SqlType) (ts : List SqlToken) :
    SqlReader.type.run (SqlToken.ofLexemes (SqlLexeme.codes type.name) ++ ts) =
      some (type, ts) := by
  have tokens : SqlToken.ofLexemes (SqlLexeme.codes type.name) =
      if type = .doublePrecision then [code "double", code "precision"]
      else [code type.name] := by
    cases type <;> decide
  rw [tokens]
  cases type <;> rfl

end SqlReader

namespace SqlOperand

open SqlReader

/-! ## Texts -/

/-- The expression that some tokens are read as, if nothing is left over. -/
def ofTokens (ts : List SqlToken) : Option SqlOperand :=
  match (expression [none] (ts.length + 1)).run ts with
  | some (o, []) => some o
  | _ => none

def ofText (s : String) : Option SqlOperand := (SqlToken.ofText s).bind ofTokens

/-- The value of a text in a row, null being the absence of a value; there is none at all if the
text is not read as an expression. -/
def valueOfText? (engine : Engine) (row : Row) (s : String) : Option (Option Datum) :=
  (ofText s).map (value? engine row.scope)

/-! ## Levels -/

section

variable (names : List (Option String))

/-- Whether a reader reads some tokens as an expression, if what comes after them starts with none
of some words. -/
def RendersAt (level : SqlReader SqlOperand → Nat → SqlReader SqlOperand) (words : List String)
    (ts : List SqlToken) (o : SqlOperand) : Prop :=
  ∀ n, ts.length ≤ n → ∀ more, Stops words more →
    (level (expression names n) (n + 1)).run (ts ++ more) = some (o, more)

/-- The words with which an operand goes on. -/
def operandWords : List String := tightMarks ++ ["::"]

/-- The words with which what is joined by `AND` goes on. -/
def conjunctWords : List String := operandWords ++ looseMarks ++ ["COLLATE"]

/-- Tokens that need no parentheses anywhere. -/
abbrev Renders := RendersAt names (primary names) []

abbrev RendersOperand := RendersAt names (operand names) operandWords

abbrev RendersConjunct := RendersAt names (negation names) conjunctWords

/-- Tokens of what is joined by `OR`. -/
abbrev RendersDisjunct := RendersAt names (conjunction names) ("AND" :: conjunctWords)

/-- Tokens of a whole expression. -/
abbrev RendersWhole := RendersAt names (disjunction names) goingOn

end

variable {names : List (Option String)} {ts us : List SqlToken} {o p : SqlOperand}

theorem RendersWhole.run (renders : RendersWhole names ts o) {n : Nat} (more : ts.length < n)
    {rest : List SqlToken} (ends : Stops goingOn rest) :
    (expression names n).run (ts ++ rest) = some (o, rest) := by
  obtain ⟨m, rfl⟩ : ∃ m, n = m + 1 := ⟨n - 1, by omega⟩
  exact renders m (by omega) rest ends

/-- An expression before a word with which it does not go on. -/
theorem RendersWhole.before (renders : RendersWhole names ts o) {n : Nat} (more : ts.length < n)
    {s : String} (other : s ∉ goingOn) (rest : List SqlToken) :
    (expression names n).run (ts ++ code s :: rest) = some (o, code s :: rest) :=
  renders.run more (stops_code other rest)

theorem Renders.operand (renders : Renders names ts o) : RendersOperand names ts o := by
  intro n long more ends
  have read := renders n long more (stops_anywhere _)
  have none : Stops tightMarks more := ends.mono (by decide)
  simp [SqlReader.operand, read, run_chain_stops none]

/-- No operand starts with the word that opens a negation. -/
theorem RendersOperand.first (renders : RendersOperand names ts o) :
    ∃ t rest, ts = t :: rest ∧ t ≠ code "NOT" := by
  have read := renders ts.length (Nat.le_refl _) [] (stops_nil _)
  cases ts with
  | nil => cases read
  | cons t rest =>
    refine ⟨t, rest, rfl, ?_⟩
    rintro rfl
    cases read

theorem RendersOperand.conjunct (renders : RendersOperand names ts o) :
    RendersConjunct names ts o := by
  intro n long more ends
  have read := renders n long more (ends.mono (by decide))
  have none : Stops looseMarks more := ends.mono (by decide)
  have predicate : (predicate names (expression names n) (n + 1)).run (ts ++ more) =
      some (o, more) := by
    simp [SqlReader.predicate, read, run_accept_none none]
  obtain ⟨t, others, rfl, other⟩ := renders.first
  rw [List.cons_append] at predicate ⊢
  simp [negation, run_isNext, other, predicate]

theorem RendersConjunct.disjunct (renders : RendersConjunct names ts o) :
    RendersDisjunct names ts o := by
  intro n long more ends
  have read := renders n long more (ends.mono (by decide))
  have none : Stops ["AND"] more := ends.mono (by decide)
  simp [conjunction, read, run_chain_stops none]

theorem RendersDisjunct.whole (renders : RendersDisjunct names ts o) :
    RendersWhole names ts o := by
  intro n long more ends
  have read := renders n long more (ends.mono (by decide))
  have none : Stops ["OR"] more := ends.mono (by decide)
  simp [disjunction, read, run_chain_stops none]

theorem Renders.whole (renders : Renders names ts o) : RendersWhole names ts o :=
  renders.operand.conjunct.disjunct.whole

/-! ## What needs no parentheses -/

namespace Renders

theorem literal (s : String) : Renders names [.literal s] (.literal s) :=
  fun _ _ _ _ => rfl

/-- What starts with a word that is neither a placeholder nor a number. -/
theorem of_keyword {s : String} (index : index? s = none)
    (number : readIntIn? .signed64 s.toList = none)
    (read : ∀ n, ts.length < n → ∀ more,
      (keyword names (expression names n) (n + 1) s).run (ts ++ more) = some (o, more)) :
    Renders names (code s :: ts) o := by
  intro n long more _
  have worded : worded names (expression names n) (n + 1) s =
      keyword names (expression names n) (n + 1) s := by
    simp [SqlReader.worded, index, number]
  simpa [primary, run_next, worded] using read n (Nat.lt_of_succ_le long) more

/-- What stands in parentheses needs none around it. -/
theorem closed (renders : RendersWhole names ts o) :
    Renders names (code "(" :: (ts ++ [code ")"])) o := by
  refine of_keyword rfl rfl fun n long more => ?_
  have inner := renders.before (n := n) (by simp at long; omega) (by decide : ")" ∉ goingOn)
  simp [keyword, inner, run_expect]

theorem truth (b : Bool) : Renders names [code (if b then "TRUE" else "FALSE")] (.truth b) := by
  cases b with
  | false => exact of_keyword rfl rfl fun n _ more => by simp [keyword]
  | true => exact of_keyword rfl rfl fun n _ more => by simp [keyword]

theorem null : Renders names [code "NULL"] .null :=
  of_keyword rfl rfl fun n _ more => by simp [keyword]

theorem now : Renders names [code "now", code "(", code ")"] .now :=
  of_keyword rfl rfl fun n _ more => by simp [keyword, run_expect]

theorem element : Renders names [code "item", code ".", code "elem"] .element :=
  of_keyword rfl rfl fun n _ more => by
    have none : column? "item" = Option.none := by decide
    simp [keyword, named, none, reserved, run_expect, run_word]

theorem column?_name (c : Column) : column? c.name = some c := by
  cases c <;> decide

/-- A column of the row at hand. -/
theorem column (known : none ∈ names) (c : Column) :
    Renders names [code c.name] (.column none c) := by
  refine of_keyword (by cases c <;> rfl) (by cases c <;> rfl) fun n _ more => ?_
  have keyword : keyword names (expression names n) (n + 1) c.name = named names c.name := by
    cases c <;> simp [SqlReader.keyword, Column.name, SqlExpr.documentColumn]
  simp [keyword, named, column?_name, known]

/-- A column of the row that is to be changed, or of the one that was to be inserted. -/
theorem columnOf {row : String} (name : row = "t" ∨ row = "EXCLUDED") (known : some row ∈ names)
    (c : Column) :
    Renders names [code row, code ".", code c.name] (.column (some row) c) := by
  have taken (n : Nat) (more : List SqlToken) :
      (named names row).run (code "." :: code c.name :: more) =
        some (.column (some row) c, more) := by
    have other : column? row = Option.none ∧ row ∉ reserved ∧ row ≠ "item" := by
      rcases name with rfl | rfl <;> decide
    obtain ⟨other, free, item⟩ := other
    simp [named, other, free, item, run_expect, run_word, column?_name, given, known]
  rcases name with rfl | rfl
  · exact of_keyword rfl rfl fun n _ more => by simpa [keyword] using taken n more
  · exact of_keyword rfl rfl fun n _ more => by simpa [keyword] using taken n more

theorem index?_natText (n : Nat) : index? (natText n) = Option.none := by
  rw [index?, natText, String.toList_ofList]
  split
  · rename_i digits spelled
    have digit := natDigits_isDigit (spelled ▸ List.mem_cons_self : '$' ∈ natDigits n)
    simp at digit
  · rfl

/-- An integer is read from its text. -/
theorem integer (i : Int64) :
    Renders names (SqlToken.ofLexemes (SqlLexeme.codes (intText i.toInt))) (.integer i) := by
  have read := readIntIn?_intText (IntRange.signed64_holds i)
  have whole : Int64.ofInt i.toInt = i := Int64.ofInt_toInt i
  rw [SqlToken.ofLexemes_intText]
  unfold intText at read
  split at read
  · rename_i negative
    rw [if_pos negative]
    rw [String.toList_append] at read
    refine of_keyword rfl rfl fun n _ more => ?_
    have digits : (digits ['-'] (natText i.toInt.natAbs)).run more = some (.integer i, more) := by
      have sign : "-".toList = ['-'] := rfl
      rw [SqlReader.digits, ← sign, read]
      simp [given, whole]
    simp [keyword, run_word, digits]
  · rename_i positive
    rw [if_neg positive]
    intro n _ more _
    simp [primary, run_next, worded, index?_natText, read, whole]

theorem index?_placeholder (n : Nat) : index? ("$" ++ natText n) = some n := by
  have chars : ("$" ++ natText n).toList = '$' :: natDigits n := by simp [natText]
  simp only [index?, chars]
  exact readNat?_eq_some_iff.mpr
    ⟨natDigits_ne_nil _, fun _ => natDigits_isDigit, natOfDigits_natDigits _⟩

theorem parameter (index : Nat) (type : SqlType) :
    Renders names (code ("$" ++ natText index) :: code "::" ::
      SqlToken.ofLexemes (SqlLexeme.codes type.name)) (.parameter index (some type)) := by
  intro n _ more _
  simp [primary, run_next, worded, index?_placeholder, placeholder,
    run_accept (List.mem_singleton_self "::"), run_type]

theorem applied {s : String} {f : SqlOperand → SqlOperand} (renders : RendersWhole names ts o)
    (index : index? s = Option.none) (number : readIntIn? .signed64 s.toList = Option.none)
    (keyword : ∀ self n, keyword names self n s = applied self f) :
    Renders names (code s :: code "(" :: (ts ++ [code ")"])) (f o) := by
  refine of_keyword index number fun n long more => ?_
  have inner := renders.before (n := n) (by simp at long; omega) (by decide : ")" ∉ goingOn)
  simp [keyword, SqlReader.applied, inner, run_expect]

theorem lower (renders : RendersWhole names ts o) :
    Renders names (code "LOWER" :: code "(" :: (ts ++ [code ")"])) (.lower o) :=
  applied renders rfl rfl fun _ _ => by simp [keyword]

theorem upper (renders : RendersWhole names ts o) :
    Renders names (code "UPPER" :: code "(" :: (ts ++ [code ")"])) (.upper o) :=
  applied renders rfl rfl fun _ _ => by simp [keyword]

theorem typeOf (renders : RendersWhole names ts o) :
    Renders names (code "jsonb_typeof" :: code "(" :: (ts ++ [code ")"])) (.typeOf o) :=
  applied renders rfl rfl fun _ _ => by simp [keyword]

theorem cast (renders : RendersWhole names ts o) (type : SqlType) :
    Renders names (code "CAST" :: code "(" :: (ts ++ code "AS" ::
      (SqlToken.ofLexemes (SqlLexeme.codes type.name) ++ [code ")"]))) (.cast o type) := by
  refine of_keyword rfl rfl fun n long more => ?_
  have inner := renders.before (n := n) (by simp at long; omega) (by decide : "AS" ∉ goingOn)
  simp [keyword, inner, run_expect, run_type]

theorem replace (renders : RendersWhole names ts o) (what replacement : String) :
    Renders names (code "replace" :: code "(" :: (ts ++ [code ",", .literal what, code ",",
      .literal replacement, code ")"])) (.replace o (.literal what) (.literal replacement)) := by
  refine of_keyword rfl rfl fun n long more => ?_
  have long : ts.length + 1 < n := by simp at long; omega
  have first := renders.before (n := n) (by omega) (by decide : "," ∉ goingOn)
  have text (s : String) : RendersWhole names [.literal s] (.literal s) := (literal s).whole
  have second := (text what).before (n := n) (by simp; omega) (by decide : "," ∉ goingOn)
  have third := (text replacement).before (n := n) (by simp; omega) (by decide : ")" ∉ goingOn)
  simp only [List.singleton_append] at second third
  simp [keyword, first, second, third, run_expect]

theorem coalesce (renders : RendersWhole names ts o) (other : String) :
    Renders names (code "COALESCE" :: code "(" :: (ts ++ [code ",", .literal other,
      code ")"])) (.coalesce o (.literal other)) := by
  refine of_keyword rfl rfl fun n long more => ?_
  have long : ts.length + 1 < n := by simp at long; omega
  have first := renders.before (n := n) (by omega) (by decide : "," ∉ goingOn)
  have text : RendersWhole names [.literal other] (.literal other) := (literal other).whole
  have second := text.before (n := n) (by simp; omega) (by decide : ")" ∉ goingOn)
  simp only [List.singleton_append] at second
  simp [keyword, first, second, run_expect]

end Renders

/-! ## Case distinctions -/

/-- Whether some tokens are read as the arms of a case distinction and its end. -/
def RendersArms (names : List (Option String)) (ts : List SqlToken) (a : SqlArms) : Prop :=
  ∀ n, ts.length ≤ n → ∀ fuel, ts.length ≤ fuel → ∀ more,
    (arms (expression names n) fuel).run (ts ++ more) = some (a, more)

namespace RendersArms

variable {vs : List SqlToken} {a : SqlArms}

theorem none : RendersArms names [code "END"] .none := by
  intro n _ fuel enough more
  obtain ⟨m, rfl⟩ : ∃ m, fuel = m + 1 := ⟨fuel - 1, by simp at enough; omega⟩
  simp [arms, run_word]

theorem otherwise (yield : RendersWhole names ts o) :
    RendersArms names (code "ELSE" :: (ts ++ [code "END"])) (.otherwise o) := by
  intro n long fuel enough more
  obtain ⟨m, rfl⟩ : ∃ m, fuel = m + 1 := ⟨fuel - 1, by simp at enough; omega⟩
  have inner := yield.before (n := n) (by simp at long; omega) (by decide : "END" ∉ goingOn)
  simp [arms, run_word, run_expect, inner]

/-- Arms start with a word with which no expression goes on. -/
theorem first (renders : RendersArms names ts a) :
    ∃ s others, ts = code s :: others ∧ s ∉ goingOn := by
  have read := renders ts.length (Nat.le_refl _) (ts.length + 1) (Nat.le_succ _) []
  match ts with
  | [] => cases read
  | .literal _ :: _ => cases read
  | code s :: others =>
    refine ⟨s, others, rfl, ?_⟩
    intro going
    have other : s ≠ "WHEN" ∧ s ≠ "ELSE" ∧ s ≠ "END" := by
      refine ⟨?_, ?_, ?_⟩ <;> rintro rfl <;> exact absurd going (by decide)
    simp [arms, run_word, other] at read

theorem when (key : RendersWhole names ts o) (yield : Renders names us p)
    (rest : RendersArms names vs a) :
    RendersArms names (code "WHEN" :: (ts ++ code "THEN" :: (us ++ vs))) (.when o p a) := by
  intro n long fuel enough more
  obtain ⟨m, rfl⟩ : ∃ m, fuel = m + 1 := ⟨fuel - 1, by simp at enough; omega⟩
  simp only [List.length_cons, List.length_append] at long enough
  have first := key.before (n := n) (by omega) (by decide : "THEN" ∉ goingOn)
  have third := rest n (by omega) m (by omega) more
  obtain ⟨s, others, rfl, going⟩ := rest.first
  have second := yield.whole.before (n := n) (by omega) going
  rw [List.cons_append] at third
  simp [arms, run_word, run_expect, first, second, third]

end RendersArms

/-- No expression starts with the word that opens an arm. -/
theorem RendersWhole.first (renders : RendersWhole names ts o) :
    ∃ t rest, ts = t :: rest ∧ t ≠ code "WHEN" := by
  have read := renders ts.length (Nat.le_refl _) [] (stops_nil _)
  cases ts with
  | nil => cases read
  | cons t rest =>
    refine ⟨t, rest, rfl, ?_⟩
    rintro rfl
    cases read

namespace Renders

variable {a : SqlArms}

theorem caseOf (subject : RendersWhole names ts o) (arms : RendersArms names us a)
    (filled : a.isFilled) : Renders names (code "CASE" :: (ts ++ us)) (.caseOf o a) := by
  refine of_keyword rfl rfl fun n long more => ?_
  simp only [List.length_append] at long
  have second := arms n (by omega) (n + 1) (by omega) more
  obtain ⟨s, others, rfl, going⟩ := arms.first
  have first := subject.before (n := n) (by omega) going
  obtain ⟨t, rest, rfl, other⟩ := subject.first
  simp only [List.cons_append] at first second
  simp [keyword, distinction, run_isNext, other, first, second, filled]

theorem caseWhen (arms : RendersArms names (code "WHEN" :: us) a) :
    Renders names (code "CASE" :: code "WHEN" :: us) (.caseWhen a) := by
  refine of_keyword rfl rfl fun n long more => ?_
  have read := arms n long.le (n + 1) (by omega) more
  rw [List.cons_append] at read
  simp [keyword, distinction, run_isNext, read]

/-- A subquery for the elements of an array that meet a condition. -/
theorem anyElement (base : RendersWhole names ts o) (condition : RendersWhole names us p) :
    Renders names (code "EXISTS" :: code "(" :: code "SELECT" :: code "1" :: code "FROM" ::
      code "jsonb_array_elements_text" :: code "(" :: (ts ++ code ")" :: code "AS" ::
      code "item" :: code "(" :: code "elem" :: code ")" :: code "WHERE" ::
      (us ++ [code ")"]))) (.anyElement o p) := by
  refine of_keyword rfl rfl fun n long more => ?_
  simp only [List.length_cons, List.length_append] at long
  have first := base.before (n := n) (by omega) (by decide : ")" ∉ goingOn)
  have second := condition.before (n := n) (by omega) (by decide : ")" ∉ goingOn)
  simp [keyword, subquery, SqlReader.applied, run_expect, first, second]

end Renders

/-! ## Operands -/

namespace RendersOperand

/-- What an operand goes on to with one operator. -/
theorem of_step {s : String} (renders : Renders names ts o) (mark : s ∈ tightMarks)
    (read : ∀ n, us.length ≤ n → ∀ more, Stops operandWords more →
      (tightly names (expression names n) (n + 1) o s).run (us ++ more) = some (p, more)) :
    RendersOperand names (ts ++ code s :: us) p := by
  intro n long more ends
  simp only [List.length_append, List.length_cons] at long
  obtain ⟨m, rfl⟩ : ∃ m, n = m + 1 := ⟨n - 1, by omega⟩
  have first := renders (m + 1) (by omega) (code s :: (us ++ more)) (stops_anywhere _)
  have second := read (m + 1) (by omega) more ends
  have none : Stops tightMarks more := ends.mono (by decide)
  rw [operand, List.append_assoc, List.cons_append, StateT.run_bind, first]
  simp [chain, run_accept mark, second, run_accept_none none]

theorem member (renders : Renders names ts o) (name : String) :
    RendersOperand names (ts ++ [code "->", .literal name]) (.member o name) :=
  of_step renders (by decide) fun n _ more _ => by simp [tightly, run_literal]

theorem memberText (renders : Renders names ts o) (name : String) :
    RendersOperand names (ts ++ [code "->>", .literal name]) (.memberText o name) :=
  of_step renders (by decide) fun n _ more _ => by simp [tightly, run_literal]

theorem wholeText (renders : Renders names ts o) :
    RendersOperand names (ts ++ [code "#>>", .literal "\x7b\x7d"]) (.wholeText o) :=
  of_step renders (by decide) fun n _ more _ => by simp [tightly, run_literal]

theorem concat (left : Renders names ts o) (right : Renders names us p) :
    RendersOperand names (ts ++ code "||" :: us) (.concat o p) :=
  of_step left (by decide) fun n long more _ => by
    have read := right n long more (stops_anywhere _)
    simp [tightly, read]

/-- Two operators one after another; the left one comes first. -/
theorem concatBoth {vs : List SqlToken} {q : SqlOperand} (first : Renders names ts o)
    (second : Renders names us p) (third : Renders names vs q) :
    RendersOperand names (ts ++ code "||" :: (us ++ code "||" :: vs))
      (.concat (.concat o p) q) := by
  intro n long more ends
  simp only [List.length_append, List.length_cons] at long
  obtain ⟨m, rfl⟩ : ∃ m, n = m + 2 := ⟨n - 2, by omega⟩
  have third := third (m + 2) (by omega) more (stops_anywhere _)
  have second := second (m + 2) (by omega) (code "||" :: (vs ++ more)) (stops_anywhere _)
  have first := first (m + 2) (by omega) (code "||" :: (us ++ code "||" :: (vs ++ more)))
    (stops_anywhere _)
  have none : Stops tightMarks more := ends.mono (by decide)
  have mark : "||" ∈ tightMarks := by decide
  simp [operand, chain, first, second, third, tightly, run_accept mark, run_accept_none none]

theorem matchesPattern (left : Renders names ts o) (right : Renders names us p) :
    RendersOperand names (ts ++ code "~" :: us) (.matchesPattern o p) :=
  of_step left (by decide) fun n long more _ => by
    have read := right n long more (stops_anywhere _)
    simp [tightly, read]

theorem containsElement (left : Renders names ts o) (right : RendersWhole names us p) :
    RendersOperand names (ts ++ code "@>" :: code "jsonb_build_array" :: code "(" ::
      (us ++ [code ")"])) (.containsElement o p) :=
  of_step left (by decide) fun n long more _ => by
    have read := right.before (n := n) (by simp at long; omega) (by decide : ")" ∉ goingOn)
    simp [tightly, SqlReader.applied, run_expect, read]

/-- A parameter that is not cast. -/
theorem parameter (index : Nat) :
    RendersOperand names [code ("$" ++ natText index)] (.parameter index none) := by
  intro n _ more ends
  have uncast : Stops ["::"] more := ends.mono (by decide)
  have none : Stops tightMarks more := ends.mono (by decide)
  simp [operand, primary, run_next, worded, Renders.index?_placeholder, placeholder,
    run_accept_none uncast, run_chain_stops none]

end RendersOperand

/-! ## Conditions -/

namespace RendersConjunct

/-- The condition that is made of an operand. -/
theorem of_step {s : String} (renders : RendersOperand names ts o) (mark : s ∈ looseMarks)
    (read : ∀ n, us.length ≤ n → ∀ more, Stops conjunctWords more →
      (loosely names (expression names n) (n + 1) o s).run (us ++ more) = some (p, more)) :
    RendersConjunct names (ts ++ code s :: us) p := by
  intro n long more ends
  simp only [List.length_append, List.length_cons] at long
  have other : s ∉ operandWords := by
    intro mem
    have apart : ∀ w ∈ looseMarks, w ∉ operandWords := by decide
    exact apart s mark mem
  have first := renders n (by omega) (code s :: (us ++ more)) (stops_code other _)
  have second := read n (by omega) more ends
  have predicate : (predicate names (expression names n) (n + 1)).run
      (ts ++ code s :: (us ++ more)) = some (p, more) := by
    rw [predicate, StateT.run_bind, first]
    simp [run_accept mark, second]
  obtain ⟨t, others, rfl, word⟩ := renders.first
  rw [List.append_assoc, List.cons_append]
  rw [List.cons_append] at predicate ⊢
  simp [negation, run_isNext, word, predicate]

theorem isNull (renders : RendersOperand names ts o) :
    RendersConjunct names (ts ++ [code "IS", code "NULL"]) (.isNull o false) :=
  of_step renders (by decide) fun n _ more _ => by simp [loosely, run_isNext, run_expect]

theorem isNotNull (renders : RendersOperand names ts o) :
    RendersConjunct names (ts ++ [code "IS", code "NOT", code "NULL"]) (.isNull o true) :=
  of_step renders (by decide) fun n _ more _ => by simp [loosely, run_isNext, run_expect]

theorem like (left : RendersOperand names ts o) (right : RendersOperand names us p) :
    RendersConjunct names (ts ++ code "LIKE" :: us) (.like false o p) :=
  of_step left (by decide) fun n long more ends => by
    have read := right n long more (ends.mono (by decide))
    simp [loosely, read]

theorem ilike (left : RendersOperand names ts o) (right : RendersOperand names us p) :
    RendersConjunct names (ts ++ code "ILIKE" :: us) (.like true o p) :=
  of_step left (by decide) fun n long more ends => by
    have read := right n long more (ends.mono (by decide))
    simp [loosely, read]

theorem loosely_token (op : CompareOp) (self : SqlReader SqlOperand) (n : Nat) :
    loosely names self n o op.token = comparison names self n op o := by
  cases op <;> simp [loosely, CompareOp.token, operator?, given]

theorem token_mem (op : CompareOp) : op.token ∈ looseMarks := by
  cases op <;> decide

theorem compare (op : CompareOp) (left : RendersOperand names ts o)
    (right : RendersOperand names us p) :
    RendersConjunct names (ts ++ code op.token :: us) (.compare op false o p) :=
  of_step left (token_mem op) fun n long more ends => by
    have read := right n long more (ends.mono (by decide))
    have none : Stops ["COLLATE"] more := ends.mono (by decide)
    simp [loosely_token, comparison, read, run_accept_none none]

/-- A comparison of texts by their bytes. -/
theorem compareBytewise (op : CompareOp) (left : RendersOperand names ts o)
    (right : RendersOperand names us p) :
    RendersConjunct names (ts ++ code op.token ::
      (us ++ [code "COLLATE", code "\"", code "C", code "\""])) (.compare op true o p) :=
  of_step left (token_mem op) fun n long more _ => by
    have read := right n (by simp at long; omega)
      (code "COLLATE" :: code "\"" :: code "C" :: code "\"" :: more) (stops_code (by decide) _)
    simp [loosely_token, comparison, read, run_accept (List.mem_singleton_self "COLLATE"),
      run_expect]

theorem not (renders : Renders names ts o) :
    RendersConjunct names (code "NOT" :: ts) (.not o) := by
  intro n long more ends
  have read := renders.operand n (Nat.le_of_succ_le long) more (ends.mono (by decide))
  have none : Stops looseMarks more := ends.mono (by decide)
  simp [negation, run_isNext, run_expect, predicate, read, run_accept_none none]

end RendersConjunct

theorem RendersOperand.closed (renders : RendersOperand names (ts ++ us) o) :
    Renders names (code "(" :: (ts ++ (us ++ [code ")"]))) o := by
  rw [← List.append_assoc]
  exact .closed renders.conjunct.disjunct.whole

theorem RendersConjunct.closed (renders : RendersConjunct names (ts ++ us) o) :
    Renders names (code "(" :: (ts ++ (us ++ [code ")"]))) o := by
  rw [← List.append_assoc]
  exact .closed renders.disjunct.whole

/-! ## Junctions -/

section

variable {level : SqlReader SqlOperand → Nat → SqlReader SqlOperand} {words : List String}

/-- A chain of operands after a mark each. -/
theorem run_chain (mark : String) (join : SqlOperand → SqlOperand → SqlOperand)
    (apart : mark ∉ words) {xs : List (List SqlToken × SqlOperand)}
    (each : ∀ x ∈ xs, RendersAt names level words x.1 x.2) {n k : Nat}
    (long : (xs.flatMap fun x => code mark :: x.1).length ≤ n)
    (enough : (xs.flatMap fun x => code mark :: x.1).length < k) (o : SqlOperand)
    {more : List SqlToken} (ends : Stops (mark :: words) more) :
    (chain [mark] (fun left _ => do
      let right ← level (expression names n) (n + 1)
      return join left right) k o).run ((xs.flatMap fun x => code mark :: x.1) ++ more) =
        some ((xs.map (·.2)).foldl join o, more) := by
  induction xs generalizing k o with
  | nil =>
    obtain ⟨m, rfl⟩ : ∃ m, k = m + 1 := ⟨k - 1, by omega⟩
    exact run_chain_stops (ends.mono (by simp)) _ m o
  | cons x xs ih =>
    obtain ⟨first, others⟩ := List.forall_mem_cons.mp each
    obtain ⟨m, rfl⟩ : ∃ m, k = m + 1 := ⟨k - 1, by omega⟩
    simp only [List.flatMap_cons, List.cons_append, List.length_cons, List.length_append]
      at long enough
    -- The next operand ends where the next mark comes, or where the chain does.
    have stops : Stops words ((xs.flatMap fun x => code mark :: x.1) ++ more) := by
      cases xs with
      | nil => exact ends.mono (List.subset_cons_self ..)
      | cons y ys => exact stops_code apart _
    have read := first n (by omega) _ stops
    have rest := ih others (k := m) (by omega) (by omega) (join o x.2)
    rw [List.flatMap_cons, List.append_assoc, List.cons_append]
    simpa [chain, run_accept (List.mem_singleton_self mark), read] using rest

end

/-- Conditions joined by `AND`. -/
theorem RendersDisjunct.joined (first : RendersConjunct names ts o)
    {xs : List (List SqlToken × SqlOperand)} (each : ∀ x ∈ xs, RendersConjunct names x.1 x.2) :
    RendersDisjunct names (ts ++ xs.flatMap fun x => code "AND" :: x.1)
      ((xs.map (·.2)).foldl .and o) := by
  intro n long more ends
  rw [List.length_append] at long
  have stops : Stops conjunctWords ((xs.flatMap fun x => code "AND" :: x.1) ++ more) := by
    cases xs with
    | nil => exact ends.mono (List.subset_cons_self ..)
    | cons x xs => exact stops_code (by decide) _
  have read := first n (by omega) _ stops
  have rest := run_chain "AND" .and (by decide) each (n := n) (k := n + 1) (by omega) (by omega) o
    ends
  rw [conjunction, List.append_assoc, StateT.run_bind, read]
  exact rest

/-- Conditions joined by `OR`. -/
theorem RendersWhole.joined (first : RendersDisjunct names ts o)
    {xs : List (List SqlToken × SqlOperand)} (each : ∀ x ∈ xs, RendersDisjunct names x.1 x.2) :
    RendersWhole names (ts ++ xs.flatMap fun x => code "OR" :: x.1)
      ((xs.map (·.2)).foldl .or o) := by
  intro n long more ends
  rw [List.length_append] at long
  have stops : Stops ("AND" :: conjunctWords)
      ((xs.flatMap fun x => code "OR" :: x.1) ++ more) := by
    cases xs with
    | nil => exact ends.mono (by decide)
    | cons x xs => exact stops_code (by decide) _
  have read := first n (by omega) _ stops
  have rest := run_chain "OR" .or (by decide) each (n := n) (k := n + 1) (by omega) (by omega) o
    (ends.mono (by decide))
  rw [disjunction, List.append_assoc, StateT.run_bind, read]
  exact rest

theorem RendersDisjunct.and (first : RendersConjunct names ts o)
    (second : RendersConjunct names us p) :
    RendersDisjunct names (ts ++ code "AND" :: us) (.and o p) := by
  have each : ∀ x ∈ [(us, p)], RendersConjunct names x.1 x.2 :=
    List.forall_mem_singleton.mpr second
  simpa using RendersDisjunct.joined first each

theorem RendersWhole.or (first : RendersDisjunct names ts o)
    (second : RendersDisjunct names us p) :
    RendersWhole names (ts ++ code "OR" :: us) (.or o p) := by
  have each : ∀ x ∈ [(us, p)], RendersDisjunct names x.1 x.2 :=
    List.forall_mem_singleton.mpr second
  simpa using RendersWhole.joined first each

/-! ## Whole texts -/

theorem ofTokens_eq_some_iff : ofTokens ts = some o ↔ RendersWhole [none] ts o := by
  constructor
  · intro read n long more ends
    have whole : (expression [none] (ts.length + 1)).run ts = some (o, []) := by
      unfold ofTokens at read
      split at read
      · rename_i whole
        cases read
        exact whole
      · cases read
    have extended := expression_extends [none] (ts.length + 1) (Nat.lt_succ_of_le long)
    exact (extended ts o [] (Nat.le_refl _) whole).2 more fun _ => ends
  · intro renders
    have read := renders.run (Nat.lt_succ_self _) (stops_nil goingOn)
    rw [List.append_nil] at read
    simp [ofTokens, read]

end SqlOperand

end DocStore
