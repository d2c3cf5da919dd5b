import DocStore.Proofs.Sql.Binding
import DocStore.Proofs.Sql.Conjunct
import Mathlib.Data.List.Flatten

/-!
# Fragments are closed

Whatever the names and labels of a schema are, the text of a condition ends outside of literals, its
parentheses balance, and it holds no mark that ends a statement or starts a comment.  So it cannot
reach the conditions that stand beside it.

* `Check.names`: the names and labels that a check writes, in order;
* `Check.names_sublist`: each of them is a literal of the condition;
* `fragment_closed`: the text of a compiled filter, and the where clauses it stands in.
-/

namespace DocStore

/-! ## Names and labels -/

/-- The names and labels of an operand as a text. -/
def Term.textNames : Term → List String
  | .field path _ => path.segments
  | .node path => path.segments
  | .label path variants => path.segments ++ variants.map (·.label)
  | .lower inner => inner.textNames
  | .upper inner => inner.textNames
  | .constant _ => []

/-- The names and labels of an operand under a comparison type.  Under the codes of an enumeration
without variants nothing of the operand is written. -/
def Term.names (comparand : Comparand) (term : Term) : List String :=
  match term, comparand with
  | .constant _, _ => []
  | term, .typed _ => term.textNames
  | term, .label _ => term.textNames ++ (term.variantsOr []).map (·.label)
  | term, .code variants =>
    let own := term.variantsOr variants
    if own.isEmpty then [] else term.textNames ++ own.map (·.label)

namespace Check

mutual

/-- The names and labels that a check writes, in order. -/
def names : Check → List String
  | .compare _ comparand left right => left.names comparand ++ right.names comparand
  | .isNull term _ => term.textNames
  | .search _ receiver argument => receiver.textNames ++ argument.textNames
  | .blank term => term.textNames
  | .member path _ _ _ => path.segments
  | .hasValue path => path.segments
  | .flag path => path.segments
  | .literal _ => []
  | .all operands => namesOfAll operands
  | .any operands => namesOfAll operands
  | .not operand => names operand

/-- The names and labels of several checks. -/
def namesOfAll : List Check → List String
  | [] => []
  | c :: rest => names c ++ namesOfAll rest

end

end Check

/-! ## Literals -/

namespace Piece

@[simp] theorem literals_append (ps qs : List Piece) :
    literals (ps ++ qs) = literals ps ++ literals qs := List.filterMap_append

@[simp] theorem literals_code (s : String) (ps : List Piece) :
    literals (.code s :: ps) = literals ps := rfl

@[simp] theorem literals_literal (s : String) (ps : List Piece) :
    literals (.literal s :: ps) = s :: literals ps := rfl

@[simp] theorem literals_nil : literals [] = [] := rfl

theorem literals_joined (separator : String) (pss : List (List Piece)) :
    literals (joined separator pss) = pss.flatMap literals :=
  filterMap_joined (fun _ => rfl) separator pss

end Piece

namespace SqlExpr

open Piece

theorem literals_members (names : List String) (base : SqlExpr) :
    literals (names.foldl member base).pieces = literals base.pieces ++ names := by
  induction names generalizing base with
  | nil => simp
  | cons name names ih => simp [ih, pieces]

theorem literals_node (path : FieldPath) : literals (node path).pieces = path.segments := by
  simp [node, literals_members, pieces]

theorem segments_sublist (path : FieldPath) :
    path.segments.Sublist (literals (leafText path).pieces) := by
  unfold leafText
  split
  · rename_i none
    simp [List.getLast?_eq_none_iff.mp none]
  · rename_i last found
    have whole : path.segments.dropLast ++ [last] = path.segments :=
      List.dropLast_append_getLast? last found
    simp [pieces, literals_members, whole]

theorem literals_arms (arms : List (String × SqlConst)) :
    literals (armsPieces arms) = arms.flatMap fun arm => arm.1 :: literals arm.2.pieces := by
  simp [armsPieces, literals_joined, List.flatMap_map]

theorem castTo_sublist (type : SqlType) (e : SqlExpr) :
    (literals e.pieces).Sublist (literals (castTo type e).pieces) := by
  cases type <;> simp [castTo, pieces]

theorem labelOf_sublist (variants : List EnumVariant) (e : SqlExpr) :
    (literals e.pieces ++ variants.map (·.label)).Sublist
      (literals (labelOf variants e).pieces) := by
  unfold labelOf
  split
  · rename_i none
    simp [List.isEmpty_iff.mp none]
  · have labels : (variants.map (·.label)).Sublist
        (variants.flatMap fun v => [v.codeText, v.label]) := by
      rw [List.map_eq_flatMap]
      exact .flatMap_right _ fun v _ => .cons _ (.refl _)
    have arms : (variants.map (·.label)).Sublist (literals
        (armsPieces (variants.map fun v => (v.codeText, .text v.label)))) := by
      simpa [literals_arms, List.flatMap_map, SqlConst.pieces] using labels
    have whole := (List.Sublist.refl (literals e.pieces)).append
      (arms.append (List.nil_sublist (literals e.pieces)))
    simpa [pieces] using whole

theorem codeOf_sublist {variants : List EnumVariant} (some_variant : variants.isEmpty = false)
    (e : SqlExpr) :
    (literals e.pieces ++ variants.map (·.label)).Sublist
      (literals (codeOf variants e).pieces) := by
  have arms : (variants.map (·.label)).Sublist (literals
      (armsPieces (variants.map (fun v => (v.label, SqlConst.bigint v.code)) ++
        variants.map (fun v => (v.codeText, SqlConst.bigint v.code))))) := by
    rw [literals_arms, List.flatMap_append, List.flatMap_map, List.map_eq_flatMap]
    exact List.sublist_append_left ..
  have whole := (List.Sublist.refl (literals e.pieces)).append arms
  rw [codeOf, some_variant]
  simpa [pieces] using whole

theorem escaped_sublist (e : SqlExpr) :
    (literals e.pieces).Sublist (literals (escaped e).pieces) := by
  simp [escaped, pieces]

theorem like_sublist (pattern : Pattern) (receiver argument : List Piece) :
    (literals receiver ++ literals argument).Sublist
      (literals (likePieces pattern receiver argument)) := by
  cases pattern <;> simp [likePieces]

end SqlExpr

open Piece

namespace Term

theorem textNames_sublist (term : Term) (n : Nat) :
    term.textNames.Sublist (literals (term.toText n).1.pieces) := by
  induction term with
  | field path type => exact SqlExpr.segments_sublist path
  | node path => exact SqlExpr.segments_sublist path
  | label path variants =>
    have segments := (SqlExpr.segments_sublist path).append (.refl (variants.map (·.label)))
    exact segments.trans (SqlExpr.labelOf_sublist ..)
  | lower inner ih => simpa [toText, textNames, SqlExpr.pieces] using ih
  | upper inner ih => simpa [toText, textNames, SqlExpr.pieces] using ih
  | constant v => exact List.nil_sublist _

/-- Every name and label of an operand is a literal of what it is translated to. -/
theorem names_sublist (comparand : Comparand) (term : Term) (n : Nat) :
    (term.names comparand).Sublist (literals (term.toSql comparand n).1.pieces) := by
  by_cases constant : ∃ v, term = .constant v
  · obtain ⟨v, rfl⟩ := constant
    exact List.nil_sublist _
  · have read : ∀ v, term ≠ .constant v := fun v h => constant ⟨v, h⟩
    have text := term.textNames_sublist n
    cases comparand with
    | typed type =>
      have same : term.names (.typed type) = term.textNames := by
        cases term <;> rfl
      rw [toSql_typed read, same]
      exact text.trans (SqlExpr.castTo_sublist ..)
    | label variants =>
      have same : term.names (.label variants) =
          term.textNames ++ (term.variantsOr []).map (·.label) := by
        cases term <;> rfl
      rw [toSql_label read, same]
      exact (text.append (.refl _)).trans (SqlExpr.labelOf_sublist ..)
    | code variants =>
      have same : term.names (.code variants) =
          if (term.variantsOr variants).isEmpty then []
          else term.textNames ++ (term.variantsOr variants).map (·.label) := by
        cases term <;> first | rfl | exact absurd rfl (read _)
      rw [toSql_code read, same]
      split
      · exact List.nil_sublist _
      · rename_i some_variant
        have some_variant := Bool.eq_false_iff.mpr some_variant
        exact (text.append (.refl _)).trans (SqlExpr.codeOf_sublist some_variant _)

end Term

namespace Check

theorem namesOfAll_sublist {cs : List Check}
    (each : ∀ c ∈ cs, ∀ n, c.names.Sublist (literals (c.toSql n).1.pieces)) (n : Nat) :
    (namesOfAll cs).Sublist ((SqlExpr.piecesOfAll (toSqlAll cs n).1).flatMap literals) := by
  induction cs generalizing n with
  | nil => exact .slnil
  | cons c rest ih =>
    obtain ⟨first, others⟩ := List.forall_mem_cons.mp each
    simp only [toSqlAll, Binding.bind_apply, Binding.pure_apply, namesOfAll, SqlExpr.piecesOfAll,
      List.flatMap_cons]
    exact (first n).append (ih others _)

theorem junction_sublist {joiner : String} {names : List String} {pss : List (List Piece)}
    (h : names.Sublist (pss.flatMap literals)) :
    names.Sublist (literals (SqlExpr.junctionPieces joiner pss)) := by
  simpa [SqlExpr.junctionPieces, literals_joined, List.flatMap_map] using h

/-- Every name and label of a check is a literal of the condition, in order. -/
theorem names_sublist (c : Check) (n : Nat) :
    c.names.Sublist (literals (c.toSql n).1.pieces) := by
  induction c generalizing n with
  | compare op comparand left right =>
    have sides := (left.names_sublist comparand n).append
      (right.names_sublist comparand (n + (left.toSql comparand n).2.length))
    simpa [toSql, names, SqlExpr.pieces] using sides
  | isNull term negated =>
    have natural : term.textNames.Sublist (literals (term.toNatural n).1.pieces) := by
      cases term with
      | constant v => exact List.nil_sublist _
      | _ => exact Term.textNames_sublist ..
    simpa [toSql, names, SqlExpr.pieces] using natural
  | search pattern receiver argument =>
    have texts := (receiver.textNames_sublist n).append
      (argument.textNames_sublist (n + (receiver.toText n).2.length))
    have escaped := (List.Sublist.refl (literals (receiver.toText n).1.pieces)).append
      (SqlExpr.escaped_sublist (argument.toText (n + (receiver.toText n).2.length)).1)
    exact (texts.trans escaped).trans (SqlExpr.like_sublist ..)
  | blank term =>
    have text := (term.textNames_sublist n).append (List.nil_sublist ["", SqlExpr.blankPattern])
    simpa [toSql, names, SqlExpr.pieces] using text
  | member path element comparand value =>
    have node := SqlExpr.literals_node path
    rw [names, toSql]
    split <;> simp [SqlExpr.pieces, node]
  | hasValue path => simpa [toSql, names, SqlExpr.pieces] using SqlExpr.segments_sublist path
  | flag path =>
    exact (SqlExpr.segments_sublist path).trans (SqlExpr.castTo_sublist .boolean _)
  | literal b => exact List.nil_sublist _
  | all operands ih =>
    have each := namesOfAll_sublist ih n
    cases operands with
    | nil => exact List.nil_sublist _
    | cons => exact junction_sublist each
  | any operands ih =>
    have each := namesOfAll_sublist ih n
    cases operands with
    | nil => exact List.nil_sublist _
    | cons => exact junction_sublist each
  | not operand ih => simpa [toSql, names, SqlExpr.pieces] using ih n

end Check

/-! ## Compiled filters -/

open SqlLexeme

/-- Whatever a schema's names and labels are, a filter that passes its checks has a text that ends
outside of literals, whose parentheses balance and which is inert; each name and label that it reads
is one of its literals.  Beside other conditions it is one condition, and they stay theirs. -/
theorem fragment_closed {filter : Filter} {schema : Schema} {check : Check}
    (passed : filter.check schema = .ok check) (first : Nat) :
    ∃ query ls, filter.compileFrom schema first = .ok query ∧
      lex query.fragment.toList = some ls ∧ depthAfter 0 ls = some 0 ∧ Inert ls ∧
      check.names.Sublist (SqlLexeme.literals ls) ∧
      (∃ clause, conditionsText (Statement.scanConditions (some query)) = " WHERE " ++ clause ∧
        conjuncts clause =
          some [Statement.ofPartition.text, liveText, "(" ++ query.fragment ++ ")"]) ∧
      ∃ clause, conditionsText (Statement.ofPartition :: Statement.filterConditions (some query)) =
          " WHERE " ++ clause ∧
        conjuncts clause = some [Statement.ofPartition.text, "(" ++ query.fragment ++ ")"] := by
  let query := check.compileFrom first
  have compiled : filter.compileFrom schema first = .ok query := by
    rw [Filter.compileFrom, passed]
    rfl
  have spaced := spaced_pieces query.condition
  have names : check.names.Sublist (SqlLexeme.literals (lexemesOf query.condition.pieces)) := by
    rw [literals_lexemesOf]
    exact check.names_sublist _
  refine ⟨query, _, compiled, query.condition.lex_text, balanced_pieces _ 0,
    inert_of_spaced spaced, names, ?_, ?_⟩
  · exact ⟨_, rfl, Condition.conjuncts_intercalate (List.cons_ne_nil _ _)⟩
  · exact ⟨_, rfl, Condition.conjuncts_intercalate (List.cons_ne_nil _ _)⟩

/-- A schema whose names and labels are written to break out of the text of a condition. -/
def hostileSchema : Schema :=
  (Schema.empty "Member").declare "it's); --" (.required (.scalar (.enumeration "/*" [⟨"';", 1⟩])))

def hostileFilter : Filter where
  predicate := .comparison .eq (.field ⟨["it's); --"]⟩) (.constant (.literal (.text "';")))
  captures := []

theorem fragment_closed_of_hostile :
    ∃ check, hostileFilter.check hostileSchema = .ok check ∧ check.names = ["it's); --", "';"] ∧
      ∃ query ls, hostileFilter.compileFrom hostileSchema 2 = .ok query ∧
        lex query.fragment.toList = some ls ∧ depthAfter 0 ls = some 0 ∧ Inert ls ∧
        check.names.Sublist (SqlLexeme.literals ls) := by
  obtain ⟨check, passed, names⟩ : ∃ check, hostileFilter.check hostileSchema = .ok check ∧
      check.names = ["it's); --", "';"] := ⟨_, rfl, by decide⟩
  obtain ⟨query, ls, compiled, read, balanced, inert, written, -⟩ := fragment_closed passed 2
  exact ⟨check, passed, names, query, ls, compiled, read, balanced, inert, written⟩

end DocStore
