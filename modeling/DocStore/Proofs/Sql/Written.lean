import DocStore.Proofs.Check.Typing
import DocStore.Proofs.Sql.Numbering
import DocStore.Proofs.Sql.Placeholders

/-!
# Constants that are written

Every constant of a check is bound, and all but some are written as placeholders.  Under the codes of
an enumeration without variants an operand is not written at all, and if it is the case fold of a
constant, the constant has no placeholder.

* `Check.unwritten`: how many constants are bound but not written;
* `Check.toSql_writes`: all others are written once each and in order;
* `placeholders_match`: the placeholders of a compiled filter are those of its parameters just where
  no constant is left out.
-/

namespace DocStore

/-! ## Placeholders among pieces -/

namespace Piece

@[simp] theorem marks_nil : marks [] = [] := rfl

@[simp] theorem marks_append (ps qs : List Piece) : marks (ps ++ qs) = marks ps ++ marks qs :=
  List.filterMap_append

@[simp] theorem marks_code (s : String) (ps : List Piece) : marks (.code s :: ps) = marks ps := rfl

@[simp] theorem marks_literal (s : String) (ps : List Piece) :
    marks (.literal s :: ps) = marks ps := rfl

@[simp] theorem marks_placeholder (index : Nat) (type : SqlType) (ps : List Piece) :
    marks (.placeholder index type :: ps) = (index, type) :: marks ps := rfl

theorem marks_joined (separator : String) (pss : List (List Piece)) :
    marks (joined separator pss) = pss.flatMap marks :=
  filterMap_joined (fun _ => rfl) separator pss

end Piece

namespace SqlExpr

open Piece

@[simp] theorem marks_const (c : SqlConst) : marks c.pieces = [] := by
  cases c <;> rfl

@[simp] theorem marks_arms (arms : List (String × SqlConst)) : marks (armsPieces arms) = [] := by
  simp [armsPieces, marks_joined, List.flatMap_map]

theorem marks_members (names : List String) (base : SqlExpr) :
    marks (names.foldl member base).pieces = marks base.pieces := by
  induction names generalizing base with
  | nil => rfl
  | cons name names ih => simp [ih, pieces]

@[simp] theorem marks_node (path : FieldPath) : marks (node path).pieces = [] := by
  simp [node, marks_members, pieces]

@[simp] theorem marks_leafText (path : FieldPath) : marks (leafText path).pieces = [] := by
  unfold leafText
  split <;> simp [pieces, marks_members]

@[simp] theorem marks_castTo (type : SqlType) (e : SqlExpr) :
    marks (castTo type e).pieces = marks e.pieces := by
  cases type <;> simp [castTo, pieces]

/-- What is written twice for its label has no placeholder in it. -/
theorem marks_labelOf {variants : List EnumVariant} {e : SqlExpr}
    (h : variants ≠ [] → marks e.pieces = []) :
    marks (labelOf variants e).pieces = marks e.pieces := by
  cases variants with
  | nil => rfl
  | cons v rest => simp [labelOf, pieces, h (List.cons_ne_nil _ _)]

theorem marks_codeOf (variants : List EnumVariant) (e : SqlExpr) :
    marks (codeOf variants e).pieces = if variants.isEmpty then [] else marks e.pieces := by
  unfold codeOf
  split <;> simp [pieces]

@[simp] theorem marks_escaped (e : SqlExpr) : marks (escaped e).pieces = marks e.pieces := by
  simp [escaped, pieces]

@[simp] theorem marks_like (pattern : Pattern) (receiver argument : List Piece) :
    marks (likePieces pattern receiver argument) = marks receiver ++ marks argument := by
  cases pattern <;> simp [likePieces]

theorem marks_junction (joiner : String) (pss : List (List Piece)) :
    marks (junctionPieces joiner pss) = pss.flatMap marks := by
  simp [junctionPieces, marks_joined, List.flatMap_map]

end SqlExpr

/-! ## Constants -/

namespace Term

def constants : Term → Nat
  | .lower inner => inner.constants
  | .upper inner => inner.constants
  | .constant _ => 1
  | _ => 0

/-- How many constants of an operand are bound but not written under a comparison type. -/
def unwritten (comparand : Comparand) (term : Term) : Nat :=
  match term, comparand with
  | .constant _, _ => 0
  | term, .code variants => if (term.variantsOr variants).isEmpty then term.constants else 0
  | _, _ => 0

end Term

namespace Term

@[simp] theorem unwritten_typed (type : SqlType) (term : Term) :
    term.unwritten (.typed type) = 0 := by
  cases term <;> rfl

@[simp] theorem unwritten_label (variants : List EnumVariant) (term : Term) :
    term.unwritten (.label variants) = 0 := by
  cases term <;> rfl

theorem unwritten_code {term : Term} (read : ∀ v, term ≠ .constant v)
    (variants : List EnumVariant) :
    term.unwritten (.code variants) =
      if (term.variantsOr variants).isEmpty then term.constants else 0 := by
  cases term with
  | constant v => exact absurd rfl (read v)
  | _ => rfl

end Term

namespace Check

mutual

/-- How many constants of a check are bound but not written. -/
def unwritten : Check → Nat
  | .compare _ comparand left right => left.unwritten comparand + right.unwritten comparand
  | .all operands => unwrittenInAll operands
  | .any operands => unwrittenInAll operands
  | .not operand => unwritten operand
  | _ => 0

/-- How many constants of several checks are bound but not written. -/
def unwrittenInAll : List Check → Nat
  | [] => 0
  | c :: rest => unwritten c + unwrittenInAll rest

end

end Check

/-- Whether some placeholders are those of some parameters, once each and in order, but for as many
as are missing. -/
structure Writes (written : List (Nat × SqlType)) (bound : List Parameter) (missing : Nat) :
    Prop where
  ordered : written.Sublist (bound.map Parameter.slot)
  counted : written.length + missing = bound.length

open Piece

theorem Writes.all {written : List (Nat × SqlType)} {bound : List Parameter}
    (h : written = bound.map Parameter.slot) : Writes written bound 0 := by
  refine ⟨h ▸ .refl _, ?_⟩
  simp [h]

theorem Writes.append {written others : List (Nat × SqlType)} {bound more : List Parameter}
    {m k : Nat} (first : Writes written bound m) (second : Writes others more k) :
    Writes (written ++ others) (bound ++ more) (m + k) := by
  constructor
  · rw [List.map_append]
    exact first.ordered.append second.ordered
  · have one := first.counted
    have other := second.counted
    simp only [List.length_append]
    omega

namespace Term

theorem toText_writes (term : Term) (n : Nat) :
    marks (term.toText n).1.pieces = (term.toText n).2.map Parameter.slot := by
  induction term with
  | field | node => exact SqlExpr.marks_leafText _
  | label path variants =>
    have none := SqlExpr.marks_leafText path
    exact (SqlExpr.marks_labelOf fun _ => none).trans none
  | lower inner ih => simpa [toText, SqlExpr.pieces] using ih
  | upper inner ih => simpa [toText, SqlExpr.pieces] using ih
  | constant v => rfl

theorem length_toText (term : Term) (n : Nat) : (term.toText n).2.length = term.constants := by
  induction term with
  | lower inner ih => simpa [toText, constants] using ih
  | upper inner ih => simpa [toText, constants] using ih
  | _ => rfl

theorem toSql_writes (comparand : Comparand) (term : Term) (n : Nat) :
    Writes (marks (term.toSql comparand n).1.pieces) (term.toSql comparand n).2
      (term.unwritten comparand) := by
  by_cases constant : ∃ v, term = .constant v
  · obtain ⟨v, rfl⟩ := constant
    exact .all rfl
  · have read : ∀ v, term ≠ .constant v := fun v h => constant ⟨v, h⟩
    have text := term.toText_writes n
    cases comparand with
    | typed type =>
      rw [toSql_typed read, unwritten_typed]
      exact .all ((SqlExpr.marks_castTo ..).trans text)
    | label variants =>
      rw [toSql_label read, unwritten_label]
      refine .all ((SqlExpr.marks_labelOf fun own => ?_).trans text)
      cases term with
      | field path type => exact SqlExpr.marks_leafText path
      | _ => exact absurd rfl own
    | code variants =>
      rw [toSql_code read, unwritten_code read]
      cases empty : (term.variantsOr variants).isEmpty with
      | true =>
        constructor
        · simp [SqlExpr.marks_codeOf, empty]
        · simp [SqlExpr.marks_codeOf, empty, length_toText]
      | false =>
        refine .all ?_
        simpa [SqlExpr.marks_codeOf, empty] using text

theorem toNatural_writes (term : Term) (n : Nat) :
    marks (term.toNatural n).1.pieces = (term.toNatural n).2.map Parameter.slot := by
  cases term with
  | constant v => rfl
  | _ => exact toText_writes _ n

end Term

namespace Check

theorem toSqlAll_writes {cs : List Check}
    (each : ∀ c ∈ cs, ∀ n, Writes (marks (c.toSql n).1.pieces) (c.toSql n).2 c.unwritten)
    (n : Nat) :
    Writes ((SqlExpr.piecesOfAll (toSqlAll cs n).1).flatMap marks) (toSqlAll cs n).2
      (unwrittenInAll cs) := by
  induction cs generalizing n with
  | nil => exact .all rfl
  | cons c rest ih =>
    obtain ⟨first, others⟩ := List.forall_mem_cons.mp each
    have whole := (first n).append (ih others (n + (c.toSql n).2.length))
    simpa [toSqlAll, unwrittenInAll, SqlExpr.piecesOfAll] using whole

/-- The placeholders of a check are those of its parameters, once each and in order, but for the
constants that are not written. -/
theorem toSql_writes (c : Check) (n : Nat) :
    Writes (marks (c.toSql n).1.pieces) (c.toSql n).2 c.unwritten := by
  induction c generalizing n with
  | compare op comparand left right =>
    have sides := (left.toSql_writes comparand n).append
      (right.toSql_writes comparand (n + (left.toSql comparand n).2.length))
    simpa [toSql, unwritten, SqlExpr.pieces] using sides
  | isNull term negated =>
    refine .all ?_
    simpa [toSql, SqlExpr.pieces] using term.toNatural_writes n
  | search pattern receiver argument =>
    refine .all ?_
    simp [toSql, SqlExpr.pieces, Term.toText_writes]
  | blank term =>
    refine .all ?_
    simpa [toSql, SqlExpr.pieces] using term.toText_writes n
  | member path element comparand value =>
    refine .all ?_
    rw [toSql]
    split <;> simp [SqlExpr.pieces, Parameter.slot]
  | hasValue path =>
    refine .all ?_
    simp [toSql, SqlExpr.pieces]
  | flag path =>
    refine .all ?_
    simp [toSql]
  | literal b => exact .all rfl
  | all operands ih =>
    have each := toSqlAll_writes ih n
    have bound : ((Check.all operands).toSql n).2 = (toSqlAll operands n).2 := by simp [toSql]
    rw [bound]
    cases operands with
    | nil => exact each
    | cons =>
      rw [← SqlExpr.marks_junction " AND "] at each
      exact each
  | any operands ih =>
    have each := toSqlAll_writes ih n
    have bound : ((Check.any operands).toSql n).2 = (toSqlAll operands n).2 := by simp [toSql]
    rw [bound]
    cases operands with
    | nil => exact each
    | cons =>
      rw [← SqlExpr.marks_junction " OR "] at each
      exact each
  | not operand ih => simpa [toSql, unwritten, SqlExpr.pieces] using ih n

end Check

/-! ## Enumerations with variants -/

/-- Whether every enumeration field of a schema has a variant. -/
def Schema.DeclaresVariants (schema : Schema) : Prop :=
  ∀ path field name variants, schema.resolve path = .ok field →
    field.type = .scalar (.enumeration name variants) → variants ≠ []

theorem variants?_of_constant {v : Value} {type : ScalarType} (h : v.scalarType? = some type) :
    type.variants? = none := by
  cases v <;> cases h <;> rfl

theorem Term.unwritten_eq_zero {comparand : Comparand} {term : Term}
    (common : ∀ variants, comparand = .code variants → variants ≠ [])
    (own : ∀ path name variants, term = .field path (.enumeration name variants) → variants ≠ []) :
    term.unwritten comparand = 0 := by
  cases comparand with
  | typed type => exact unwritten_typed ..
  | label variants => exact unwritten_label ..
  | code variants =>
    have given := common variants rfl
    have nonempty : (term.variantsOr variants).isEmpty = false := by
      unfold variantsOr
      split
      · exact List.isEmpty_eq_false_iff.mpr (own _ _ _ rfl)
      · exact List.isEmpty_eq_false_iff.mpr given
    cases term with
    | constant v => rfl
    | _ => simp [unwritten, nonempty]

namespace Scope

variable {scope : Scope}

/-- The enumeration that an operand is, and the one whose field it is, have a variant. -/
theorem Reads.variants {o : Operand} {typed : TypedTerm} (declared : scope.schema.DeclaresVariants)
    (h : scope.Reads o (some typed)) :
    (∀ variants, typed.type.variants? = some variants → variants ≠ []) ∧
      ∀ path name variants, typed.term = .field path (.enumeration name variants) →
        variants ≠ [] := by
  generalize same : some typed = result at h
  cases h with
  | @field path field type resolved leaf =>
    cases same
    constructor
    · intro variants own
      cases type <;> cases own
      exact declared _ _ _ _ resolved leaf
    · rintro _ name variants ⟨⟩
      exact declared _ _ _ _ resolved leaf
  | @constant c value found =>
    obtain ⟨type, kind, rfl⟩ := Option.map_eq_some_iff.mp same.symm
    constructor
    · intro variants own
      rw [variants?_of_constant kind] at own
      cases own
    · rintro _ _ _ ⟨⟩
  | label | lower | upper =>
    cases same
    constructor
    · rintro _ ⟨⟩
    · rintro _ _ _ ⟨⟩

theorem unwritten_of_fit {op : CompareOp} {comparand : Comparand} {typed : TypedTerm} {term : Term}
    (common : ∀ variants, comparand = .code variants → variants ≠ [])
    (own : ∀ path name variants, typed.term = .field path (.enumeration name variants) →
      variants ≠ [])
    (h : fit op comparand typed = .ok term) : term.unwritten comparand = 0 := by
  rcases fit_eq_ok h with ⟨_, _, _, _, rfl⟩ | ⟨_, rfl⟩
  · rfl
  · exact Term.unwritten_eq_zero common own

theorem Takes.unwritten {p : Predicate} {c : Check} (declared : scope.schema.DeclaresVariants)
    (h : scope.Takes p c) : c.unwritten = 0 := by
  cases h with
  | @compare _ _ _ _ _ comparand _ _ first second common fitFirst fitSecond =>
    obtain ⟨left, leftOwn⟩ := first.variants declared
    obtain ⟨right, rightOwn⟩ := second.variants declared
    have given : ∀ variants, comparand = .code variants → variants ≠ [] := by
      rintro variants rfl
      rcases Comparand.of_eq_ok common with ⟨own, side, same⟩ | ⟨_, same⟩
      · unfold Comparand.ofVariants at same
        split at same <;> cases same
        exact side.elim (left _) (right _)
      · cases same
    simp [Check.unwritten, unwritten_of_fit given leftOwn fitFirst,
      unwritten_of_fit given rightOwn fitSecond]
  | equals => simp [Check.unwritten]
  | _ => rfl

end Scope

/-- Under a schema whose enumerations have variants every constant is written. -/
theorem check_unwritten {filter : Filter} {schema : Schema} {c : Check}
    (declared : schema.DeclaresVariants) (h : filter.check schema = .ok c) : c.unwritten = 0 := by
  have each {ps : List Predicate} {cs : List Check}
      (all : List.Forall₂ (fun _ c => c.unwritten = 0) ps cs) : Check.unwrittenInAll cs = 0 := by
    induction all with
    | nil => rfl
    | cons first _ rest => rw [Check.unwrittenInAll, first, rest]
  exact Scope.check_induction (motive := fun _ c => c.unwritten = 0)
    (Scope.Takes.unwritten declared) each each id h

/-! ## Compiled filters -/

open SqlLexeme

theorem natDigits_injective {m n : Nat} (h : Text.natDigits m = Text.natDigits n) : m = n := by
  have read := congrArg (fun ds => Nat.ofDigitChars 10 ds 0) h
  simpa [Text.natDigits, Nat.ofDigitChars_ten_toDigits] using read

/-- A placeholder tells its index. -/
theorem index_of_placeholder {p q : Parameter} (h : p.placeholder = q.placeholder) :
    p.index = q.index := by
  have shape (p : Parameter) : p.placeholder.toList =
      '$' :: (Text.natDigits p.index ++ ':' :: (':' :: p.type.name.toList)) := by
    simp [Parameter.placeholder, SqlExpr.placeholderText, Text.natText]
  have digits (p : Parameter) :
      p.placeholder.toList.tail.takeWhile Char.isDigit = Text.natDigits p.index := by
    rw [shape, List.tail_cons, List.takeWhile_append_of_pos fun c hc => natDigits_isDigit hc]
    simp
  apply natDigits_injective
  rw [← digits p, h, digits q]

theorem Binding.Numbered.nodup_placeholders {α : Type} {x : Binding α} (numbered : x.Numbered)
    (n : Nat) (fits : (x n).2.length ≤ UInt64.size) :
    ((x n).2.map Parameter.placeholder).Nodup := by
  have indexes : ((x n).2.map Parameter.index).Nodup := by
    rw [numbered n]
    exact Binding.nodup_indexAt n fits
  rw [List.Nodup, List.pairwise_map] at indexes ⊢
  exact indexes.imp fun apart same => apart (index_of_placeholder same)

/-- The placeholders in the text of a compiled filter are those of its parameters, once each and in
order, just where no constant is left out.  None is under a schema whose enumerations have
variants. -/
theorem placeholders_match {filter : Filter} {schema : Schema} {check : Check}
    (passed : filter.check schema = .ok check) (first : Nat) :
    ∃ query ls, filter.compileFrom schema first = .ok query ∧
      lex query.fragment.toList = some ls ∧
      (tokens ls).Sublist (query.parameters.map Parameter.placeholder) ∧
      (tokens ls).length + check.unwritten = query.parameters.length ∧
      (tokens ls = query.parameters.map Parameter.placeholder ↔ check.unwritten = 0) ∧
      (schema.DeclaresVariants → tokens ls = query.parameters.map Parameter.placeholder) ∧
      (query.parameters.length ≤ UInt64.size → (tokens ls).Nodup) := by
  let query := check.compileFrom first
  have compiled : filter.compileFrom schema first = .ok query := by
    rw [Filter.compileFrom, passed]
    rfl
  obtain ⟨ordered, counted⟩ := check.toSql_writes (Binding.firstPosition first)
  let write (m : Nat × SqlType) : String := SqlExpr.placeholderText m.1 m.2
  have read : tokens (lexemesOf query.condition.pieces) =
      (marks query.condition.pieces).map write := tokens_lexemesOf (spaced_pieces _)
  have bound : query.parameters.map Parameter.placeholder =
      (query.parameters.map Parameter.slot).map write := by
    rw [List.map_map]
    rfl
  have sublist : (tokens (lexemesOf query.condition.pieces)).Sublist
      (query.parameters.map Parameter.placeholder) := by
    rw [read, bound]
    exact ordered.map write
  have count : (tokens (lexemesOf query.condition.pieces)).length + check.unwritten =
      query.parameters.length := by
    rw [read, List.length_map]
    exact counted
  have all : tokens (lexemesOf query.condition.pieces) =
      query.parameters.map Parameter.placeholder ↔ check.unwritten = 0 := by
    rw [← sublist.length_eq, List.length_map]
    omega
  refine ⟨query, _, compiled, query.condition.lex_text, sublist, count, all, ?_, ?_⟩
  · intro declared
    exact all.mpr (check_unwritten declared passed)
  · intro fits
    exact sublist.nodup (check.toSql_numbered.nodup_placeholders _ fits)

/-- Documents with a rank. -/
def rankSchema (variants : List EnumVariant) : Schema :=
  (Schema.empty "Member").declare "rank" (.required (.scalar (.enumeration "Rank" variants)))

/-- Documents whose rank is above a rank in lower case. -/
def rankFilter : Filter where
  predicate := .comparison .gt (.field ⟨["rank"]⟩) (.lower (.constant (.literal (.text "A"))))
  captures := []

theorem placeholders_match_of_rank :
    ∃ check, rankFilter.check (rankSchema [⟨"a", 1⟩]) = .ok check ∧ check.unwritten = 0 ∧
      ∃ query ls, rankFilter.compileFrom (rankSchema [⟨"a", 1⟩]) 2 = .ok query ∧
        lex query.fragment.toList = some ls ∧
        tokens ls = query.parameters.map Parameter.placeholder := by
  obtain ⟨check, passed, none⟩ : ∃ check,
      rankFilter.check (rankSchema [⟨"a", 1⟩]) = .ok check ∧ check.unwritten = 0 := ⟨_, rfl, rfl⟩
  obtain ⟨query, ls, compiled, read, -, -, all, -⟩ := placeholders_match passed 2
  exact ⟨check, passed, none, query, ls, compiled, read, all.mpr none⟩

/-- Under an enumeration without variants the constant is bound and has no placeholder. -/
theorem placeholder_left_out :
    ¬ ∀ (filter : Filter) (schema : Schema) (first : Nat) (query : CompiledQuery)
      (ls : List SqlLexeme), filter.compileFrom schema first = .ok query →
        lex query.fragment.toList = some ls →
        tokens ls = query.parameters.map Parameter.placeholder := by
  intro all
  have read := SqlExpr.lex_text (.compare .gt .nullCode .nullCode false)
  have same := all rankFilter (rankSchema []) 1 _ _ rfl read
  exact absurd same (by decide)

end DocStore
