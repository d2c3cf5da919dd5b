import DocStore.Proofs.Check.Enumerated
import DocStore.Proofs.Check.Texts
import DocStore.Proofs.Query.Operands

/-!
# Conditions with several forms

Some conditions can be written in several ways: equality of texts as a method, as a static method
and as an operator; an enumeration field compared with a label by its value and by its label; and
membership in an array as a text operation and as a test of its own.  The forms of a condition are
checked to the same, or to checks that are compiled to the same and have the same value.

* `Scope.check_comparison_of_equals`: equality of texts;
* `Check.compileFrom_label`, `Check.eval_label`: labels;
* `Scope.check_contains_of_array`: membership;
* `equivalent_forms_agree`: all of them, from the texts on.
-/

namespace DocStore

namespace Scope

variable {scope : Scope} {a b : Operand} {s : Term} {path : FieldPath} {field : Field}
  {name : String} {variants : List EnumVariant} {c : Constant} {op : CompareOp}

/-! ## Equality of texts -/

/-- A text is compared with a text as it is. -/
theorem Reads.fit_text (text : scope.Reads a (some ⟨s, .text⟩)) (op : CompareOp) :
    fit op (.typed .text) ⟨s, .text⟩ = .ok s := by
  have kind : s.HasType .text := text.hasType
  cases s with
  | constant value =>
    cases kind with
    | constant kind => cases value <;> cases kind; rfl
  | field | node | label | lower | upper => rfl

/-- Where the method for equality passes its check, so does the operator, and to the same. -/
theorem check_comparison_of_equals {check : Check}
    (passed : scope.check (.textual .equals a [b]) = .ok check) :
    scope.check (.comparison .eq a b) = .ok check := by
  cases takes_of_textual passed with
  | search _ _ sought => cases sought
  | equals text other =>
    exact comparison_eq_ok.mpr (.compare text other rfl (text.fit_text .eq) (other.fit_text .eq))

/-! ## Labels -/

/-- The text of a declared label names a variant of that label. -/
theorem under_label {v : EnumVariant} (declared : v ∈ variants) :
    (Value.text v.label).under (.label variants) = .ok (.text v.label) := by
  obtain ⟨w, found⟩ : ∃ w, variants.find? (·.label == v.label) = some w :=
    Option.isSome_iff_exists.mp (List.find?_isSome.mpr ⟨v, declared, beq_self_eq_true _⟩)
  have same : w.label = v.label := by simpa using List.find?_some found
  simp only [Value.under, Value.enumLabel, Value.variant?, found, same, Except.map]

/-- The check of a comparison of an enumeration field with a declared label. -/
theorem check_field_label (resolved : scope.schema.resolve path = .ok field)
    (enumerated : field.type = .scalar (.enumeration name variants)) {v : EnumVariant}
    (declared : v ∈ variants) (bound : scope.constant c = .ok (.text v.label))
    (equality : op.isEquality) :
    scope.check (.comparison op (.field path) (.constant c)) =
      .ok (.compare op (.label variants) (.field path (.enumeration name variants))
        (.constant (.text v.label))) := by
  have common : Comparand.of op (.enumeration name variants) .text = .ok (.label variants) := by
    show Except.ok (Comparand.ofVariants op variants) = _
    rw [Comparand.ofVariants, if_pos equality]
  have converted : fit op (.label variants) ⟨.constant (.text v.label), .text⟩ =
      .ok (.constant (.text v.label)) := by
    simp only [fit, under_label declared, Except.map]
  exact comparison_eq_ok.mpr
    (.compare (.field resolved enumerated) (.constant bound) common (fit_field ..) converted)

/-- The check of a comparison of the label of an enumeration field with a text. -/
theorem check_label_text (resolved : scope.schema.resolve path = .ok field)
    (enumerated : field.type = .scalar (.enumeration name variants)) {text : String}
    (bound : scope.constant c = .ok (.text text)) (op : CompareOp) :
    scope.check (.comparison op (.label path) (.constant c)) =
      .ok (.compare op (.typed .text) (.label path variants) (.constant (.text text))) :=
  comparison_eq_ok.mpr (.compare (.label resolved enumerated) (.constant bound) rfl rfl rfl)

/-! ## Arrays -/

/-- On an array the text operation is the test of membership. -/
theorem check_contains_of_array (resolved : scope.schema.resolve path = .ok field)
    {element : FieldType} (array : field.type = .array element) (c : Constant) :
    scope.check (.textual .contains (.field path) [.constant c]) = scope.check (.member path c) := by
  have found : scope.arrayField .contains (.field path) = .ok (some path) := by
    simp only [arrayField, resolved, bind, Except.bind, array]
    rfl
  have arity : ¬ [Operand.constant c].length ≠ TextOp.contains.arity := not_not_intro rfl
  show scope.textual .contains (.field path) [.constant c] = _
  rw [textual, if_neg arity, found]
  rfl

end Scope

namespace Check

variable {op : CompareOp} {path : FieldPath} {name : String} {variants : List EnumVariant}
  {label : String}

theorem compileFrom_label (equality : op.isEquality) :
    (compare op (.label variants) (.field path (.enumeration name variants))
      (.constant (.text label))).compileFrom =
    (compare op (.typed .text) (.label path variants) (.constant (.text label))).compileFrom := by
  funext first
  simp only [compileFrom, toSql, Term.toSql, Term.toText, Term.ownVariants?, equality]
  rfl

/-- A stored text means the same label under the comparison type and in the operand. -/
theorem eval_label (doc : Json) :
    (compare op (.label variants) (.field path (.enumeration name variants))
      (.constant (.text label))).eval doc =
    (compare op (.typed .text) (.label path variants) (.constant (.text label))).eval doc := by
  simp only [eval, Comparand.order?, Term.value?, Term.text?, Term.variantsOr, reduceCtorEq,
    if_false]
  cases path.extract? doc <;> rfl

end Check

/-- Filters whose checks are compiled to the same are compiled to the same. -/
theorem Filter.compileFrom_congr {filter filter' : Filter} {schema : Schema} {c c' : Check}
    (passed : filter.check schema = .ok c) (passed' : filter'.check schema = .ok c')
    (same : c.compileFrom = c'.compileFrom) :
    filter.compileFrom schema = filter'.compileFrom schema := by
  funext first
  rw [compileFrom, compileFrom, passed, passed', Except.map, Except.map, same]

/-- Of two operands, however they are written, equality is read as the same from the method and from
the static method, and where that passes its check the operator is checked and compiled to the same.
An enumeration field is compared with a declared label by its value and by its label to the same
effect, and on an array the text operation is the test of membership. -/
theorem equivalent_forms_agree {parameter : Option String}
    (named : ∀ v ∈ parameter, Token.isName v) {a b : String} {l r : Operand}
    (left : SpellsOperand parameter a l) (right : SpellsOperand parameter b r) (schema : Schema)
    (captures : Captures) :
    let read s := Predicate.ofText (underParameter parameter s)
    let check p := Filter.check ⟨p, captures⟩ schema
    let compile p := Filter.compileFrom ⟨p, captures⟩ schema
    (read (called "string" "Equals" (a ++ ", " ++ b)) = .ok (.textual .equals l [r]) ∧
      (IsReceiver a → read (called a "Equals" b) = .ok (.textual .equals l [r])) ∧
      (∀ op : CompareOp, op.isEquality →
        read (a ++ op.equalityText ++ b) = .ok (.comparison op l r) ∧
        ∀ path, l = .field path → IsReceiver a →
          read (called a "ToString" "" ++ op.equalityText ++ b) =
            .ok (.comparison op (.label path) r)) ∧
      ∀ c, check (.textual .equals l [r]) = .ok c → check (.comparison .eq l r) = .ok c ∧
        compile (.comparison .eq l r) = compile (.textual .equals l [r])) ∧
    (∀ path field name variants, schema.resolve path = .ok field →
      field.type = .scalar (.enumeration name variants) → ∀ v ∈ variants, ∀ c : Constant,
        Scope.constant ⟨schema, captures⟩ c = .ok (.text v.label) →
          ∀ op : CompareOp, op.isEquality → ∃ byValue byLabel,
            check (.comparison op (.field path) (.constant c)) = .ok byValue ∧
            check (.comparison op (.label path) (.constant c)) = .ok byLabel ∧
            compile (.comparison op (.field path) (.constant c)) =
              compile (.comparison op (.label path) (.constant c)) ∧
            ∀ doc, byValue.eval doc = byLabel.eval doc) ∧
    ∀ path field element, schema.resolve path = .ok field → field.type = .array element →
      ∀ c : Constant, check (.textual .contains (.field path) [.constant c]) =
        check (.member path c) := by
  intro read check compile
  refine ⟨⟨?_, ?_, ?_, ?_⟩, ?_, ?_⟩
  · exact SpellsPredicate.read named (left.staticEquals right)
  · intro receiver
    exact SpellsPredicate.read named (left.equals receiver right)
  · intro op equality
    refine ⟨SpellsPredicate.read named (left.equation right equality), ?_⟩
    rintro path rfl receiver
    exact SpellsPredicate.read named ((left.label receiver).equation right equality)
  · intro c passed
    have passed' : check (.comparison .eq l r) = .ok c := Scope.check_comparison_of_equals passed
    exact ⟨passed', Filter.compileFrom_congr passed' passed rfl⟩
  · intro path field name variants resolved enumerated v declared c bound op equality
    have byValue : check (.comparison op (.field path) (.constant c)) = .ok _ :=
      Scope.check_field_label resolved enumerated declared bound equality
    have byLabel : check (.comparison op (.label path) (.constant c)) = .ok _ :=
      Scope.check_label_text resolved enumerated bound op
    exact ⟨_, _, byValue, byLabel,
      Filter.compileFrom_congr byValue byLabel (Check.compileFrom_label equality), Check.eval_label⟩
  · intro path field element resolved array c
    exact Scope.check_contains_of_array resolved array c

/-- A comparison with a label, under a parameter. -/
theorem equivalent_forms_agree_of_grade :
    Predicate.ofText "x => x.grade.Equals(\"low\")" =
        Predicate.ofText "x => string.Equals(x.grade, \"low\")" ∧
      ∃ byValue byLabel,
        Predicate.ofText "x => x.grade != \"low\"" = .ok byValue ∧
        Predicate.ofText "x => x.grade.ToString() != \"low\"" = .ok byLabel ∧
        Filter.compileFrom ⟨byValue, []⟩ (gradeSchema [⟨"low", 1⟩, ⟨"high", 2⟩]) =
          Filter.compileFrom ⟨byLabel, []⟩ (gradeSchema [⟨"low", 1⟩, ⟨"high", 2⟩]) := by
  have scanned : Token.scan "x.grade" = .ok [⟨.ident "x", 0⟩, ⟨.dot, 1⟩, ⟨.ident "grade", 2⟩] := by
    cbv
  have left : SpellsOperand (some "x") "x.grade" (.field ⟨["grade"]⟩) :=
    ⟨_, _, scanned, .operand (.word fun same => absurd same (by decide)) (.member .done), rfl⟩
  have right : SpellsOperand (some "x") "\"low\"" (.constant (.literal (.text "low"))) :=
    ⟨[⟨.string "low", 0⟩], _, by cbv, .operand .string .done, rfl⟩
  have receiver : IsReceiver "x.grade" := by
    intro o same
    have tokens := Except.ok.inj (scanned.symm.trans same)
    simp at tokens
  have named : ∀ v ∈ some "x", Token.isName v := by
    rintro v ⟨⟩
    decide
  obtain ⟨⟨static, method, equation, -⟩, labels, -⟩ :=
    equivalent_forms_agree named left right (gradeSchema [⟨"low", 1⟩, ⟨"high", 2⟩]) []
  obtain ⟨byValue, byLabel⟩ := equation .ne rfl
  obtain ⟨_, _, -, -, same, -⟩ := labels ⟨["grade"]⟩ _ _ _ rfl rfl ⟨"low", 1⟩ (by decide)
    (.literal (.text "low")) rfl .ne rfl
  exact ⟨(method receiver).trans static.symm, _, _, byValue, byLabel _ rfl receiver, same⟩

end DocStore
