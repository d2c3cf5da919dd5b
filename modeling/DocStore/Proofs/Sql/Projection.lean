import DocStore.Proofs.Sql.Fragment

/-!
# Enumerations projected by the database

The texts of the label and of the code of a stored enumeration text, evaluated as the database reads
them.  Both compute what is computed in memory, whatever the labels are.

* `SqlExpr.caseOf_valueOfText?`: the value of the text of a case distinction;
* `case_texts_project`: the projections, and the operands that they are made of.
-/

namespace DocStore

open DocStore.Text

section

variable {engine : Engine} {row : Row}

namespace SqlExpr

open SqlOperand

variable {e : SqlExpr} {stored : Option String}

theorem valueOfText?_eq_some {v : Option Datum} :
    valueOfText? engine row e.text = some v ↔
      ∃ o, RendersWhole [none] (Piece.tokens e.pieces) o ∧ o.value? engine row.scope = v := by
  rw [valueOfText?, SqlOperand.ofText, ofText_text, Option.bind_some, Option.map_eq_some_iff]
  simp only [ofTokens_eq_some_iff]

/-- A case distinction on a text, evaluated as its text is read. -/
theorem caseOf_valueOfText? (documented : engine.Documented)
    (read : valueOfText? engine row e.text = some (stored.map .ofText))
    {arms : List (String × SqlConst)} (filled : arms ≠ []) (elseSubject : Bool) :
    valueOfText? engine row (caseOf e arms elseSubject).text =
      some (match stored.bind fun s => arms.lookup s with
        | some c => some c.datum
        | none => if elseSubject then stored.map .ofText else none) := by
  obtain ⟨o, renders, value⟩ := valueOfText?_eq_some.mp read
  apply valueOfText?_eq_some.mpr
  refine ⟨_, (renders_caseOf renders filled elseSubject).whole, ?_⟩
  exact caseOf_value? documented value arms elseSubject

theorem labelOf_valueOfText? (documented : engine.Documented) (variants : List EnumVariant)
    (read : valueOfText? engine row e.text = some (stored.map .ofText)) :
    valueOfText? engine row (labelOf variants e).text =
      some ((stored.map (labelOfText variants)).map .ofText) := by
  unfold labelOf
  split
  · rename_i none
    rw [List.isEmpty_iff.mp none, read]
    cases stored <;> rfl
  · rename_i filled
    rw [caseOf_valueOfText? documented read (by simpa using filled)]
    cases stored with
    | none => rfl
    | some s =>
      simp only [lookup_map_yield, Option.bind_some]
      cases found : variants.find? (·.codeText == s) <;>
        simp [found, labelOfText, SqlConst.datum]

theorem codeOf_valueOfText? (documented : engine.Documented) (variants : List EnumVariant)
    (read : valueOfText? engine row e.text = some (stored.map .ofText)) :
    valueOfText? engine row (codeOf variants e).text =
      some ((stored.bind (codeOfText? variants)).map fun i => .scalar (.int64 i)) := by
  unfold codeOf
  split
  · rename_i none
    have null : Means engine (fun _ => True) nullCode _ := .nullCode
    rw [List.isEmpty_iff.mp none, valueOfText?, null.ofText]
    cases stored <;> rfl
  · rename_i filled
    rw [caseOf_valueOfText? documented read (by simpa using filled)]
    cases stored with
    | none => rfl
    | some s =>
      simp only [List.lookup_append, lookup_map_yield, Option.bind_some, codeOfText?]
      cases variants.find? (·.label == s) with
      | some v => rfl
      | none => cases variants.find? (·.codeText == s) <;> rfl

end SqlExpr

/-! ## Operands of checks -/

/-- The text of an operand has the value of its expression. -/
theorem Term.toText_valueOfText? (documented : engine.Documented) (term : Term) (n : Nat) :
    SqlOperand.valueOfText? engine row (term.toText n).1.text =
      some ((term.toText n).1.value? engine row) := by
  obtain ⟨o, means⟩ : ∃ o, SqlExpr.Means engine (fun _ => True) (term.toText n).1 o :=
    term.toText_means documented n
  rw [SqlOperand.valueOfText?, means.ofText, Option.map_some, means.value row trivial]

/-- The texts of the projections of an enumeration compute what is computed in memory.  Whatever a
subject is stored as, the text of its label has the label of the stored text for its value, and the
text of its code has the code; both are null for null.  The variants may be any: none at all, or
several of one label or code.  The operand of every check is such a subject. -/
theorem case_texts_project (documented : engine.Documented) (row : Row)
    (variants : List EnumVariant) :
    (∀ (e : SqlExpr) (stored : Option String),
      SqlOperand.valueOfText? engine row e.text = some (stored.map .ofText) →
        SqlOperand.valueOfText? engine row (SqlExpr.labelOf variants e).text =
            some ((stored.map (labelOfText variants)).map .ofText) ∧
          SqlOperand.valueOfText? engine row (SqlExpr.codeOf variants e).text =
            some ((stored.bind (codeOfText? variants)).map fun i => .scalar (.int64 i))) ∧
      ∀ (term : Term) (n : Nat), term.IsText → row.Assigns (term.toText n).2 →
        SqlOperand.valueOfText? engine row (term.toText n).1.text =
          some ((term.text? row.document).map .ofText) := by
  refine ⟨fun e stored read => ⟨?_, ?_⟩, fun term n text assigned => ?_⟩
  · exact SqlExpr.labelOf_valueOfText? documented variants read
  · exact SqlExpr.codeOf_valueOfText? documented variants read
  · rw [← Term.toText_value? documented text n assigned]
    exact term.toText_valueOfText? documented n

end

/-- Grades whose labels have a quote, spell the code of another, or occur twice. -/
def gradeVariants : List EnumVariant := [⟨"it's", 1⟩, ⟨"2", -3⟩, ⟨"b", 2⟩, ⟨"b", 4⟩]

/-- A row with a grade that is one label and the code of another. -/
def gradeRow : Row where
  document := .object [("grade", .string "2")]
  parameter _ := .null
  element := none

theorem case_texts_project_of_grades :
    let grade := SqlExpr.leafText ⟨["grade"]⟩
    Engine.reference.Documented ∧
      (SqlExpr.labelOf gradeVariants grade).text =
        "(CASE (value ->> 'grade') WHEN '1' THEN 'it''s' WHEN '-3' THEN '2' WHEN '2' THEN 'b' " ++
          "WHEN '4' THEN 'b' ELSE (value ->> 'grade') END)" ∧
      SqlOperand.valueOfText? Engine.reference gradeRow grade.text = some (some (.ofText "2")) ∧
      SqlOperand.valueOfText? Engine.reference gradeRow (SqlExpr.labelOf gradeVariants grade).text =
        some (some (.ofText "b")) ∧
      SqlOperand.valueOfText? Engine.reference gradeRow (SqlExpr.codeOf gradeVariants grade).text =
        some (some (.scalar (.int64 (-3)))) := by
  intro grade
  have documented := Engine.reference_documented
  obtain ⟨projected, operands⟩ := case_texts_project documented gradeRow gradeVariants
  have read := operands (.field ⟨["grade"]⟩ .text) 0 trivial (by simp [Row.Assigns, Term.toText])
  obtain ⟨label, code⟩ := projected grade (some "2") read
  exact ⟨documented, by decide, read, label, code⟩

end DocStore
