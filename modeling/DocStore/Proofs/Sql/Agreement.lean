import DocStore.Proofs.Numeric.Layout
import DocStore.Proofs.Sql.Fragment

/-!
# The database agrees with evaluation in memory

Where every cast succeeds and every number is one, the text that a filter is compiled to has in the
database the value that the checked filter has in memory, null included.

* `Check.isPlain`: checks without tests of membership and without searches that ignore case;
* `compare_value?`, `like_escaped`: comparisons and searches;
* `Check.toSql_value?`: a check and its condition have the same value;
* `condition_agrees`: so have a filter and the text that it is compiled to.
-/

namespace DocStore

open DocStore.Text

namespace Check

mutual

/-- Whether a check has neither a test of membership nor a search that ignores case. -/
def isPlain : Check → Bool
  | .member .. => false
  | .search pattern _ _ => pattern != .anywhereIgnoreCase
  | .all operands => arePlain operands
  | .any operands => arePlain operands
  | .not operand => isPlain operand
  | _ => true

def arePlain : List Check → Bool
  | [] => true
  | c :: rest => isPlain c && arePlain rest

end

theorem arePlain_iff {cs : List Check} : arePlain cs ↔ ∀ c ∈ cs, c.isPlain := by
  induction cs with
  | nil => simp [arePlain]
  | cons c rest ih => simp [arePlain, ih]

end Check

variable {engine : Engine} {row : Row}

/-! ## Comparisons -/

/-- Texts are compared by their bytes wherever more than equality is asked for. -/
theorem bytewise_of_text {op : CompareOp} {comparand : Comparand} {v : Value}
    (labels : ∀ variants, comparand = .label variants → op.isEquality)
    (admitted : comparand.sqlType.admits v) (text : v.scalarType? = some .text) :
    (comparand == .typed .text && !op.isEquality) = true ∨ op.isEquality := by
  obtain ⟨s, rfl⟩ := Value.eq_text_of_scalarType text
  by_cases equality : op.isEquality
  · exact .inr equality
  · cases comparand with
    | typed type => cases type <;> simp_all [Comparand.sqlType, SqlType.admits]
    | label variants => exact .inr (labels variants rfl)
    | code variants => cases admitted

theorem compare_value? (documented : engine.Documented) {op : CompareOp} {comparand : Comparand}
    {left right : Term} {l r : SqlExpr} (first : left.Fits comparand)
    (second : right.Fits comparand)
    (labels : ∀ variants, comparand = .label variants → op.isEquality)
    (hl : l.value? engine row = left.datum? comparand row.document)
    (hr : r.value? engine row = right.datum? comparand row.document)
    (ordinary : (SqlExpr.compare op l r (comparand == .typed .text && !op.isEquality)).Ordinary
      engine row) :
    (SqlExpr.compare op l r (comparand == .typed .text && !op.isEquality)).value? engine row =
      ((comparand.order? row.document left right).map op.holds).map .ofTruth := by
  have number {e : SqlExpr} {d : Datum} (inside : e = l ∨ e = r)
      (value : e.value? engine row = some d) : d.isNaN = false := by
    have part : e ∈ (SqlExpr.compare op l r
        (comparand == .typed .text && !op.isEquality)).parts := by
      rcases inside with rfl | rfl <;> simp [SqlExpr.parts, SqlExpr.mem_parts]
    simpa [value] using ordinary.numbers e part
  simp only [SqlExpr.value?, hl, hr]
  simp only [Term.datum?] at hl hr ⊢
  by_cases numeric : comparand = .typed .numeric
  · simp only [numeric, Comparand.order?]
    cases left.exactNumber? row.document <;> cases right.exactNumber? row.document <;>
      simp [documented.comparesNumbers]
  · simp only [if_neg numeric, Comparand.order?] at hl hr ⊢
    cases hv : left.value? comparand row.document with
    | none => rfl
    | some v =>
      cases hw : right.value? comparand row.document with
      | none => rfl
      | some w =>
        rw [hv] at hl
        rw [hw] at hr
        have other : comparand.sqlType ≠ .numeric := by
          cases comparand <;> simp_all [Comparand.sqlType]
        obtain ⟨order, ordered⟩ := SqlType.admits_comparable other (first.admits hv)
          (second.admits hw) (number (.inl rfl) hl) (number (.inr rfl) hr)
        have compared : engine.compares op (comparand == .typed .text && !op.isEquality) (.scalar v)
            (.scalar w) = op.holds order :=
          documented.compares ordered (bytewise_of_text labels (first.admits hv))
        simp [ordered, compared]

/-! ## Searches -/

theorem escaped_value? {e : SqlExpr} {text : Option String}
    (h : e.value? engine row = text.map .ofText) :
    e.escaped.value? engine row =
      (text.map fun s => String.ofList (likeEscaped s.toList)).map .ofText := by
  cases text with
  | none => simp [SqlExpr.escaped, SqlExpr.value?, h]
  | some s => simp [SqlExpr.escaped, SqlExpr.value?, h, replaceAll_thrice]

/-- An escaped text is found where the text itself occurs. -/
theorem like_escaped {pattern : Pattern} (exact : pattern ≠ .anywhereIgnoreCase) (s part : String) :
    engine.like pattern s (String.ofList (likeEscaped part.toList)) = pattern.holds s part := by
  cases pattern with
  | atStart => simp [Engine.like, Pattern.around, Pattern.holds, like_startsWith]
  | atEnd => simp [Engine.like, Pattern.around, Pattern.holds, like_endsWith]
  | anywhere => simp [Engine.like, Pattern.around, Pattern.holds, like_contains]
  | anywhereIgnoreCase => exact absurd rfl exact

/-! ## Conditions -/

/-- A parameter of an admitted value is never null. -/
theorem ofParameter?_isSome {type : SqlType} {v : Value} (h : type.admits v) :
    (Datum.ofParameter? type v).isSome := by
  by_cases numeric : type = .numeric
  · subst numeric
    have readable := SqlType.numeric_readable h
    cases v with
    | null => cases h
    | _ => simpa [Datum.ofParameter?] using readable
  · cases v with
    | null => cases type <;> cases h
    | _ => simp [Datum.ofParameter?, numeric]

/-- An operand that is tested for null is null in the database where it is null in memory. -/
theorem toNatural_isNone (documented : engine.Documented) {term : Term} {negated : Bool}
    (typed : (Check.isNull term negated).WellTyped) (n : Nat)
    (assigned : row.Assigns (term.toNatural n).2) :
    ((term.toNatural n).1.value? engine row).isNone = term.isNullIn row.document := by
  by_cases constant : ∃ v, term = .constant v
  · obtain ⟨v, rfl⟩ := constant
    cases typed with
    | isNull _ kind =>
      cases kind with
      | constant kind =>
        have bound := assigned _ (List.mem_singleton_self _)
        simp only [Term.toNatural, Binding.constant_apply, SqlExpr.value?, kind,
          Option.map_some, Option.getD_some] at bound ⊢
        rw [bound, Option.isNone_eq_false_iff.mpr (ofParameter?_isSome (Value.admits_own kind))]
        exact (Value.isNull_of_scalarType kind).symm
  · have read : ∀ v, term ≠ .constant v := fun v same => constant ⟨v, same⟩
    have natural : term.toNatural = term.toText := by
      cases term with
      | constant v => exact absurd rfl (read v)
      | _ => rfl
    have text : term.IsText := by
      cases typed with
      | nodeIsNull => trivial
      | isNull _ kind => exact kind.isText_of_read read
    rw [natural] at assigned ⊢
    rw [Term.toText_value? documented text n assigned]
    cases term with
    | constant v => exact absurd rfl (read v)
    | _ => simp [Term.isNullIn]

theorem truths_eq {cs : List Check} (n : Nat)
    (each : ∀ c ∈ cs, ∀ n, row.Assigns (c.toSql n).2 → (c.toSql n).1.Ordinary engine row →
      (c.toSql n).1.value? engine row = (c.eval row.document).map .ofTruth)
    (assigned : row.Assigns (Check.toSqlAll cs n).2)
    (ordinary : ∀ e ∈ (Check.toSqlAll cs n).1, e.Ordinary engine row) :
    SqlExpr.truths engine row (Check.toSqlAll cs n).1 = cs.map (Check.eval row.document) := by
  induction cs generalizing n with
  | nil => rfl
  | cons c rest ih =>
    simp only [Check.toSqlAll, Binding.bind_apply, Binding.pure_apply, List.append_nil,
      assigns_append, List.forall_mem_cons] at assigned ordinary ⊢
    have first := each c (List.mem_cons_self ..) n assigned.1 ordinary.1
    have others := ih _ (fun d hd => each d (List.mem_cons_of_mem _ hd)) assigned.2 ordinary.2
    rw [SqlExpr.truths, others, first, List.map_cons]
    cases c.eval row.document <;> rfl

/-- A check and the condition it is translated to have the same value. -/
theorem Check.toSql_value? (documented : engine.Documented) {c : Check} (typed : c.WellTyped)
    (plain : c.isPlain) (n : Nat) (assigned : row.Assigns (c.toSql n).2)
    (ordinary : (c.toSql n).1.Ordinary engine row) :
    (c.toSql n).1.value? engine row = (c.eval row.document).map .ofTruth := by
  induction c generalizing n with
  | compare op comparand left right =>
    cases typed with
    | compare first second labels =>
      simp only [toSql, Binding.bind_apply, Binding.pure_apply, List.append_nil,
        assigns_append] at assigned ordinary ⊢
      have hl := Term.toSql_value? documented first n assigned.1
        (ordinary.mono (by simp [SqlExpr.parts]))
      have hr := Term.toSql_value? documented second _ assigned.2
        (ordinary.mono (by simp [SqlExpr.parts]))
      exact compare_value? documented first second labels hl hr ordinary
  | isNull term negated =>
    simp only [toSql, Binding.bind_apply, Binding.pure_apply, List.append_nil] at assigned ⊢
    simp [SqlExpr.value?, eval, toNatural_isNone documented typed n assigned]
  | search pattern receiver argument =>
    cases typed with
    | search _ text part =>
      simp only [toSql, Binding.bind_apply, Binding.pure_apply, List.append_nil,
        assigns_append] at assigned ordinary ⊢
      have hs := Term.toText_value? documented text.isText n assigned.1
      have ht := escaped_value? (Term.toText_value? documented part.isText _ assigned.2)
      simp only [SqlExpr.value?, hs, ht, eval]
      cases receiver.text? row.document <;> cases argument.text? row.document <;>
        simp [like_escaped (bne_iff_ne.mp plain)]
  | blank term =>
    cases typed with
    | blank text =>
      simp only [toSql, Binding.bind_apply, Binding.pure_apply, List.append_nil] at assigned ⊢
      have value := Term.toText_value? documented text.isText n assigned
      simp only [SqlExpr.value?, value, documented.blank, eval]
      cases term.text? row.document <;> simp [allBlank]
  | member => cases plain
  | hasValue path =>
    simp only [toSql, Binding.pure_apply, SqlExpr.value?, SqlExpr.leafText_value?, eval]
    cases path.extract? row.document <;> rfl
  | flag path => exact SqlExpr.flag_value? path
  | literal b =>
    have bound := assigned ⟨Binding.indexAt n, .bool b, .boolean⟩ (by simp [toSql])
    simp only at bound
    simp [toSql, SqlExpr.value?, bound, Datum.ofParameter?, eval, Datum.ofTruth]
  | all operands ih =>
    cases typed with
    | all each =>
      simp only [toSql, Binding.bind_apply, Binding.pure_apply, List.append_nil]
        at assigned ordinary ⊢
      have plain := arePlain_iff.mp plain
      have values := truths_eq n (fun c hc m => ih c hc (each c hc) (plain c hc) m) assigned
        fun e he => ordinary.mono
          (List.Subset.trans (SqlExpr.parts_subset_of_mem he) (by simp [SqlExpr.parts]))
      rw [SqlExpr.value?, values, foldl_sqlAnd, eval, evalAll_eq_map]
  | any operands ih =>
    cases typed with
    | any each =>
      simp only [toSql, Binding.bind_apply, Binding.pure_apply, List.append_nil]
        at assigned ordinary ⊢
      have plain := arePlain_iff.mp plain
      have values := truths_eq n (fun c hc m => ih c hc (each c hc) (plain c hc) m) assigned
        fun e he => ordinary.mono
          (List.Subset.trans (SqlExpr.parts_subset_of_mem he) (by simp [SqlExpr.parts]))
      rw [SqlExpr.value?, values, foldl_sqlOr, eval, evalAll_eq_map]
  | not operand ih =>
    cases typed with
    | not inner =>
      simp only [toSql, Binding.bind_apply, Binding.pure_apply, List.append_nil]
        at assigned ordinary ⊢
      have value := ih inner plain n assigned (ordinary.mono (by simp [SqlExpr.parts]))
      simp only [SqlExpr.value?, value, eval]
      cases eval row.document operand <;> simp

/-- Every filter that passes its check and is plain is compiled to a text that has, in every row
where its condition is ordinary, the value in the database that the filter has in memory; so has the
condition of which it is the text. -/
theorem condition_agrees (documented : engine.Documented) {filter : Filter} {schema : Schema}
    {check : Check} (passed : filter.check schema = .ok check) (plain : check.isPlain)
    (first : Nat) :
    ∃ q, filter.compileFrom schema first = .ok q ∧
      ∀ row : Row, row.Assigns q.parameters → q.condition.Ordinary engine row →
        SqlOperand.valueOfText? engine row q.fragment =
            some ((check.eval row.document).map .ofTruth) ∧
          q.condition.value? engine row = (check.eval row.document).map .ofTruth := by
  refine ⟨check.compileFrom first, ?_, ?_⟩
  · rw [Filter.compileFrom, passed]
    rfl
  · intro row assigned ordinary
    have value : (check.compileFrom first).condition.value? engine row =
        (check.eval row.document).map .ofTruth :=
      check.toSql_value? documented (check_wellTyped passed) plain _ assigned ordinary
    refine ⟨?_, value⟩
    rw [check.fragment_valueOfText? documented first assigned, value]

/-! ## A filter on items -/

/-- A named item of some kind, with a price and a count that may be missing. -/
def itemSchema : Schema :=
  (((Schema.empty "Item").declare "name" (.required (.scalar .text))).declare "count"
    (.optional (.scalar .int32))).declare "kind"
      (.required (.scalar (.enumeration "Kind" [⟨"new", 1⟩, ⟨"used", 2⟩])))

/-- Used items whose name starts with `a_` and whose count is not below three. -/
def stockedFilter : Filter where
  predicate := .logical .and
    [.textual .startsWith (.lower (.field ⟨["name"]⟩)) [.constant (.captured "head")],
      .comparison .eq (.field ⟨["kind"]⟩) (.constant (.literal (.text "used"))),
      .logical .not [.comparison .lt (.field ⟨["count"]⟩) (.constant (.literal (.int16 3)))]]
  captures := [("head", .text "a_")]

def stockedCheck : Check :=
  .all [.search .atStart (.lower (.field ⟨["name"]⟩ .text)) (.constant (.text "a_")),
    .compare .eq (.label [⟨"new", 1⟩, ⟨"used", 2⟩])
      (.field ⟨["kind"]⟩ (.enumeration "Kind" [⟨"new", 1⟩, ⟨"used", 2⟩]))
      (.constant (.text "used")),
    .not (.compare .lt (.typed .integer) (.field ⟨["count"]⟩ .int32) (.constant (.int32 3)))]

/-- An item that stores the code of its kind. -/
def stockedRow : Row where
  document := .object [("count", .ofInt 7), ("kind", .ofInt 2), ("name", .string "A_b")]
  parameter index := [(4, .text "a_"), (5, .text "used"), (6, .int32 3)].lookup index |>.getD .null
  element := none

theorem condition_agrees_on_stocked :
    Engine.reference.Documented ∧ stockedFilter.check itemSchema = .ok stockedCheck ∧
      stockedCheck.isPlain ∧ stockedRow.Assigns (stockedCheck.compileFrom 4).parameters ∧
      (stockedCheck.compileFrom 4).condition.Ordinary Engine.reference stockedRow ∧
      (stockedCheck.compileFrom 4).fragment =
        "(((LOWER((value ->> 'name')) LIKE (replace(replace(replace($4::text, '\\', " ++
          "'\\\\'), '%', '\\%'), '_', '\\_') || '%'))) AND (((CASE (value ->> 'kind') " ++
          "WHEN '1' THEN 'new' WHEN '2' THEN 'used' ELSE (value ->> 'kind') END) = $5::text)) " ++
          "AND ((NOT ((CAST((value ->> 'count') AS integer) < $6::integer)))))" ∧
      SqlOperand.valueOfText? Engine.reference stockedRow (stockedCheck.compileFrom 4).fragment =
        some (some (.ofTruth true)) := by
  have passed : stockedFilter.check itemSchema = .ok stockedCheck := rfl
  have assigned : stockedRow.Assigns (stockedCheck.compileFrom 4).parameters := by
    unfold Row.Assigns
    decide
  have ordinary : (stockedCheck.compileFrom 4).condition.Ordinary Engine.reference stockedRow :=
    ⟨by decide, by decide⟩
  obtain ⟨q, compiled, agrees⟩ := condition_agrees Engine.reference_documented passed rfl 4
  have same : q = stockedCheck.compileFrom 4 := by
    cases compiled
    rfl
  subst same
  have value : stockedCheck.eval stockedRow.document = some true := by decide
  refine ⟨Engine.reference_documented, passed, rfl, assigned, ordinary, by decide +kernel, ?_⟩
  rw [(agrees stockedRow assigned ordinary).1, value]
  rfl

end DocStore
