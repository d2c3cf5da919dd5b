import DocStore.Proofs.Sql.Faithful

/-!
# Filters read back

The text that a check is translated to is read as a condition, and that has the value of the
translation wherever the parameters have the values they were bound to.

* `SqlExpr.IsText`, `Term.toText_isText`: operands that have a text or nothing for their value;
* `Term.toText_means`, `Term.toSql_means`: operands;
* `Check.toSql_judges`: a condition is true, false or null;
* `Check.toSql_means`, `Check.fragment_valueOfText?`: conditions, and the value of their text.
-/

namespace DocStore

open DocStore.Text

namespace SqlExpr

variable {engine : Engine} {rows : Row → Prop} {e : SqlExpr}

/-! ## Texts -/

theorem leafText_isText (path : FieldPath) : (leafText path).IsText engine :=
  fun _ => ⟨_, leafText_value? path⟩

theorem labelOf_isText (variants : List EnumVariant) (text : e.IsText engine) :
    (labelOf variants e).IsText engine := by
  intro row
  obtain ⟨s, value⟩ := text row
  exact ⟨_, labelOf_value? variants value⟩

theorem lower_isText (e : SqlExpr) : (lower e).IsText engine := by
  intro row
  refine ⟨((e.value? engine row).bind Datum.text?).map engine.lower, ?_⟩
  rw [value?, Option.map_map]
  rfl

theorem upper_isText (e : SqlExpr) : (upper e).IsText engine := by
  intro row
  refine ⟨((e.value? engine row).bind Datum.text?).map engine.upper, ?_⟩
  rw [value?, Option.map_map]
  rfl

theorem element_isText : element.IsText engine :=
  fun row => ⟨row.element, rfl⟩

/-! ## Projections and casts -/

namespace Means

variable {o : SqlOperand}

theorem labelOf (documented : engine.Documented) (means : Means engine rows e o)
    (text : e.IsText engine) (variants : List EnumVariant) :
    ∃ p, Means engine rows (labelOf variants e) p := by
  unfold SqlExpr.labelOf
  split
  · exact ⟨o, means⟩
  · rename_i filled
    exact ⟨_, means.caseOf documented text (by simpa using filled) true⟩

theorem codeOf (documented : engine.Documented) (means : Means engine rows e o)
    (text : e.IsText engine) (variants : List EnumVariant) :
    ∃ p, Means engine rows (codeOf variants e) p := by
  unfold SqlExpr.codeOf
  split
  · exact ⟨_, nullCode⟩
  · rename_i filled
    exact ⟨_, means.caseOf documented text (by simpa using filled) false⟩

theorem castTo (documented : engine.Documented) (means : Means engine rows e o)
    (text : e.IsText engine) (type : SqlType) : ∃ p, Means engine rows (castTo type e) p := by
  unfold SqlExpr.castTo
  split
  · exact ⟨o, means⟩
  · exact ⟨_, means.caseOf documented text (by decide) false⟩
  · exact ⟨_, means.cast text _⟩

end Means

end SqlExpr

/-! ## Operands -/

namespace Term

variable {engine : Engine} {rows : Row → Prop} {term : Term}

theorem toText_isText (read : ∀ v, term ≠ .constant v) (n : Nat) :
    (term.toText n).1.IsText engine := by
  cases term with
  | field path type => exact SqlExpr.leafText_isText path
  | node path => exact SqlExpr.leafText_isText path
  | label path variants => exact SqlExpr.labelOf_isText variants (SqlExpr.leafText_isText path)
  | lower inner => exact SqlExpr.lower_isText _
  | upper inner => exact SqlExpr.upper_isText _
  | constant v => exact absurd rfl (read v)

/-- The text of an operand is read as one that has its value. -/
theorem toText_means (documented : engine.Documented) (term : Term) (n : Nat) :
    ∃ o, SqlExpr.Means engine rows (term.toText n).1 o := by
  induction term with
  | field path type => exact SqlExpr.Means.leafText path
  | node path => exact SqlExpr.Means.leafText path
  | label path variants =>
    obtain ⟨o, means⟩ := SqlExpr.Means.leafText path
    exact means.labelOf documented (SqlExpr.leafText_isText path) variants
  | lower inner ih =>
    obtain ⟨o, means⟩ := ih
    exact ⟨_, means.lower⟩
  | upper inner ih =>
    obtain ⟨o, means⟩ := ih
    exact ⟨_, means.upper⟩
  | constant v => exact ⟨_, .placeholder _ _⟩

theorem toSql_means (documented : engine.Documented) (comparand : Comparand) (term : Term)
    (n : Nat) : ∃ o, SqlExpr.Means engine rows (term.toSql comparand n).1 o := by
  by_cases constant : ∃ v, term = .constant v
  · obtain ⟨v, rfl⟩ := constant
    exact ⟨_, .placeholder _ _⟩
  · have read : ∀ v, term ≠ .constant v := fun v same => constant ⟨v, same⟩
    have text : (term.toText n).1.IsText engine := toText_isText read n
    obtain ⟨o, means⟩ : ∃ o, SqlExpr.Means engine rows (term.toText n).1 o :=
      term.toText_means documented n
    cases comparand with
    | typed type =>
      rw [toSql_typed read]
      exact means.castTo documented text type
    | label variants =>
      rw [toSql_label read]
      exact means.labelOf documented text _
    | code variants =>
      rw [toSql_code read]
      exact means.codeOf documented text _

theorem toNatural_means (documented : engine.Documented) (term : Term) (n : Nat) :
    ∃ o, SqlExpr.Means engine rows (term.toNatural n).1 o := by
  cases term with
  | constant v => exact ⟨_, .placeholder _ _⟩
  | _ => exact toText_means documented _ n

end Term

/-! ## Conditions -/

namespace SqlExpr

variable {engine : Engine} {row : Row} {e : SqlExpr}

/-- What is a truth value or null is its own truth value. -/
theorem eq_truth? {t : Option Bool} (value : e.value? engine row = t.map .ofTruth) :
    e.value? engine row = (e.truth? engine row).map .ofTruth := by
  rw [truth?, value]
  cases t <;> rfl

/-- Whether an expression is true, false or null by its form. -/
def isCondition : SqlExpr → Bool
  | .compare .. => true
  | .isNull .. => true
  | .like .. => true
  | .blank _ => true
  | .containsElement .. => true
  | .anyElement .. => true
  | .all _ => true
  | .any _ => true
  | .not _ => true
  | _ => false

theorem judges_of_form {rows : Row → Prop} (form : e.isCondition) : e.Judges engine rows := by
  intro row _
  cases e with
  | compare op left right bytewise =>
    simp only [truth?, value?]
    cases left.value? engine row with
    | none => rfl
    | some l => cases right.value? engine row <;> rfl
  | isNull => rfl
  | like pattern receiver argument =>
    simp only [truth?, value?]
    cases (receiver.value? engine row).bind Datum.text? with
    | none => rfl
    | some s => cases (argument.value? engine row).bind Datum.text? <;> rfl
  | blank => rfl
  | containsElement base item =>
    simp only [truth?, value?]
    cases (base.value? engine row).bind Datum.json? with
    | none => rfl
    | some j => cases item.value? engine row <;> rfl
  | anyElement =>
    rw [truth?, value?]
    split <;> rfl
  | all operands => exact eq_truth? rfl
  | any operands => exact eq_truth? rfl
  | not operand =>
    have negated : (SqlExpr.not operand).value? engine row =
        (((operand.value? engine row).bind Datum.truth?).map (!·)).map .ofTruth := by
      rw [value?, Option.map_map]
      rfl
    exact eq_truth? negated
  | _ => cases form

end SqlExpr

/-- A flag has its truth value, and is null if it spells none. -/
theorem SqlExpr.flag_value? {engine : Engine} {row : Row} (path : FieldPath) :
    (castTo .boolean (leafText path)).value? engine row =
      ((Check.flag path).eval row.document).map .ofTruth := by
  rw [castTo_boolean_value? (leafText_value? path), Check.eval]
  cases path.extract? row.document with
  | none => rfl
  | some s =>
    simp only [Option.bind_some, Datum.read?, castText?]
    by_cases yes : s = "true"
    · simp [yes, Datum.ofTruth]
    · by_cases no : s = "false"
      · simp [no, Datum.ofTruth]
      · simp [yes, no]

namespace Check

variable {engine : Engine}

/-- A condition is true, false or null wherever it has its parameters. -/
theorem toSql_judges (c : Check) (n : Nat) :
    (c.toSql n).1.Judges engine fun row => row.Assigns (c.toSql n).2 := by
  cases c with
  | member path element comparand value =>
    cases scanned : element.isScanned
    · simp only [toSql, Binding.bind_apply, scanned]
      exact SqlExpr.judges_of_form rfl
    · simp only [toSql, Binding.bind_apply, scanned]
      exact SqlExpr.judges_of_form rfl
  | flag path => exact fun row _ => SqlExpr.eq_truth? (SqlExpr.flag_value? path)
  | literal b =>
    intro row assigned
    have bound := assigned ⟨Binding.indexAt n, .bool b, .boolean⟩ (List.mem_singleton_self _)
    simp only at bound
    simp [toSql, SqlExpr.truth?, SqlExpr.value?, bound, Datum.ofParameter?, Datum.ofTruth,
      Datum.truth?]
  | _ => exact SqlExpr.judges_of_form rfl

theorem member_means (documented : engine.Documented) {rows : Row → Prop} (path : FieldPath)
    (element : ScalarType) (comparand : Comparand) (value : Value) (n : Nat) :
    ∃ o, SqlExpr.Means engine rows ((member path element comparand value).toSql n).1 o := by
  obtain ⟨base, node⟩ : ∃ o, SqlExpr.Means engine rows (SqlExpr.node path) o :=
    SqlExpr.Means.node path
  cases scanned : element.isScanned
  · simp only [toSql, Binding.bind_apply, scanned]
    exact ⟨_, node.containsElement (.placeholder _ _)⟩
  · simp only [toSql, Binding.bind_apply, scanned]
    obtain ⟨o, cast⟩ := SqlExpr.Means.element.castTo documented SqlExpr.element_isText
      comparand.sqlType
    exact ⟨_, node.anyElement documented cast _ _⟩

/-- Conditions one after another, where they have the parameters of all of them. -/
theorem toSqlAll_means {cs : List Check}
    (each : ∀ c ∈ cs, ∀ n, ∃ o,
      SqlExpr.Means engine (fun row => row.Assigns (c.toSql n).2) (c.toSql n).1 o) (n : Nat) :
    ∀ e ∈ (toSqlAll cs n).1,
      (∃ o, SqlExpr.Means engine (fun row => row.Assigns (toSqlAll cs n).2) e o) ∧
        e.Judges engine fun row => row.Assigns (toSqlAll cs n).2 := by
  induction cs generalizing n with
  | nil => exact List.forall_mem_nil _
  | cons c rest ih =>
    obtain ⟨first, others⟩ := List.forall_mem_cons.mp each
    simp only [toSqlAll, Binding.bind_apply, Binding.pure_apply, List.append_nil]
    refine List.forall_mem_cons.mpr ⟨⟨?_, ?_⟩, fun e mem => ?_⟩
    · obtain ⟨o, means⟩ := first n
      exact ⟨o, means.mono fun row assigned => (assigns_append.mp assigned).1⟩
    · exact fun row assigned => c.toSql_judges n row (assigns_append.mp assigned).1
    · obtain ⟨⟨o, means⟩, judges⟩ := ih others _ e mem
      refine ⟨⟨o, means.mono fun row assigned => (assigns_append.mp assigned).2⟩, ?_⟩
      exact fun row assigned => judges row (assigns_append.mp assigned).2

/-- The text of a condition is read as one that has its value wherever it has its parameters. -/
theorem toSql_means (documented : engine.Documented) (c : Check) (n : Nat) :
    ∃ o, SqlExpr.Means engine (fun row => row.Assigns (c.toSql n).2) (c.toSql n).1 o := by
  induction c generalizing n with
  | compare op comparand left right =>
    obtain ⟨o, first⟩ := left.toSql_means documented comparand n
    obtain ⟨p, second⟩ := right.toSql_means documented comparand _
    exact ⟨_, first.compare op _ second⟩
  | isNull term negated =>
    obtain ⟨o, means⟩ := term.toNatural_means documented n
    exact ⟨_, means.isNull negated⟩
  | search pattern receiver argument =>
    obtain ⟨o, first⟩ := receiver.toText_means documented n
    obtain ⟨p, second⟩ := argument.toText_means documented _
    obtain ⟨q, escaped⟩ := second.escaped
    exact ⟨_, first.like pattern escaped⟩
  | blank term =>
    obtain ⟨o, means⟩ := term.toText_means documented n
    exact ⟨_, means.blank⟩
  | member path element comparand value =>
    exact member_means documented path element comparand value n
  | hasValue path =>
    obtain ⟨o, means⟩ := SqlExpr.Means.leafText path
    exact ⟨_, means.isNull true⟩
  | flag path =>
    obtain ⟨o, means⟩ := SqlExpr.Means.leafText path
    exact means.castTo documented (SqlExpr.leafText_isText path) .boolean
  | literal b => exact ⟨_, .placeholder _ _⟩
  | all operands ih =>
    have each := toSqlAll_means ih n
    simp only [toSql, Binding.bind_apply, Binding.pure_apply, List.append_nil]
    exact SqlExpr.Means.all (fun e mem => (each e mem).1) fun e mem => (each e mem).2
  | any operands ih =>
    have each := toSqlAll_means ih n
    simp only [toSql, Binding.bind_apply, Binding.pure_apply, List.append_nil]
    exact SqlExpr.Means.any (fun e mem => (each e mem).1) fun e mem => (each e mem).2
  | not operand ih =>
    obtain ⟨o, means⟩ := ih n
    simp only [toSql, Binding.bind_apply, Binding.pure_apply, List.append_nil]
    exact ⟨_, means.not⟩

/-- The text of a translated check has the value of the translation. -/
theorem fragment_valueOfText? (documented : engine.Documented) (c : Check) (first : Nat) {row : Row}
    (assigned : row.Assigns (c.compileFrom first).parameters) :
    SqlOperand.valueOfText? engine row (c.compileFrom first).fragment =
      some ((c.compileFrom first).condition.value? engine row) := by
  obtain ⟨o, means⟩ := c.toSql_means documented (Binding.firstPosition first)
  rw [SqlOperand.valueOfText?, CompiledQuery.fragment, compileFrom, means.ofText, Option.map_some,
    means.value row assigned]

end Check

end DocStore
