import DocStore.Proofs.Sql.Binding
import DocStore.Proofs.Sql.Meaning

/-!
# Operands in the database

The expression of an operand has the value that the operand has in memory, as a text and under every
comparison type.

* `leafText_value?`: the text at a path;
* `labelOf_value?`, `codeOf_value?`: the label and the code of a stored enumeration text;
* `Term.toText_value?`, `Term.toSql_value?`: an operand as a text and under a comparison type.
-/

namespace DocStore

open DocStore.Text

theorem Json.descend?_append (xs ys : List String) (j : Json) :
    j.descend? (xs ++ ys) = (j.descend? xs).bind (Json.descend? ys) := by
  induction xs generalizing j with
  | nil => rfl
  | cons name rest ih =>
    simp only [List.cons_append, Json.descend?]
    cases j.member? name with
    | none => rfl
    | some inner => exact ih inner

namespace SqlExpr

attribute [local simp] value?

variable {engine : Engine} {row : Row}

/-! ## Paths -/

theorem member_value? {base : SqlExpr} {found : Option Json}
    (h : base.value? engine row = found.map .json) (name : String) :
    (member base name).value? engine row = (found.bind (Json.member? name)).map .json := by
  cases found <;> simp [h]

theorem members_value? (segments : List String) {base : SqlExpr} {found : Option Json}
    (h : base.value? engine row = found.map .json) :
    (segments.foldl member base).value? engine row =
      (found.bind (Json.descend? segments)).map .json := by
  induction segments generalizing base found with
  | nil =>
    rw [List.foldl_nil, h]
    cases found <;> rfl
  | cons name rest ih =>
    rw [List.foldl_cons, ih (member_value? h name)]
    cases found <;> rfl

theorem leafText_value? (path : FieldPath) :
    (leafText path).value? engine row = (path.extract? row.document).map .ofText := by
  have document : SqlExpr.document.value? engine row = (some row.document).map .json := rfl
  unfold leafText FieldPath.extract? FieldPath.node?
  cases last : path.segments.getLast? with
  | none =>
    rw [List.getLast?_eq_none_iff] at last
    simp [last, value?, Json.descend?]
  | some name =>
    have split := List.dropLast_append_getLast? name last
    have whole : row.document.descend? path.segments =
        (row.document.descend? path.segments.dropLast).bind (Json.member? name) := by
      rw [← split, Json.descend?_append, split]
      congr 1
      funext j
      cases found : j.member? name <;> simp [Json.descend?, found]
    have base := members_value? path.segments.dropLast document
    rw [Option.bind_some] at base
    simp only [value?, base, whole]
    cases row.document.descend? path.segments.dropLast with
    | none => rfl
    | some j => cases found : j.member? name <;> simp [found]

/-! ## Enumerations and types -/

theorem lookup_map_yield {α : Type} (vs : List α) (key : α → String) (yield : α → SqlConst)
    (s : String) :
    (vs.map fun v => (key v, yield v)).lookup s = (vs.find? (key · == s)).map yield := by
  induction vs with
  | nil => rfl
  | cons v rest ih =>
    rw [List.map_cons, List.lookup_cons, List.find?_cons]
    by_cases h : key v = s
    · simp [h]
    · have other : ¬ s = key v := fun same => h same.symm
      rw [beq_eq_false_iff_ne.mpr h, beq_eq_false_iff_ne.mpr other]
      exact ih

theorem labelOf_value? (variants : List EnumVariant) {e : SqlExpr} {text : Option String}
    (h : e.value? engine row = text.map .ofText) :
    (labelOf variants e).value? engine row = (text.map (labelOfText variants)).map .ofText := by
  unfold labelOf
  split
  · rename_i empty
    rw [List.isEmpty_iff.mp empty, h]
    cases text <;> rfl
  · cases text with
    | none => simp [h]
    | some s =>
      simp only [value?, h, lookup_map_yield]
      cases found : variants.find? (·.codeText == s) <;>
        simp [found, labelOfText, SqlConst.datum]

theorem codeOf_value? (variants : List EnumVariant) {e : SqlExpr} {text : Option String}
    (h : e.value? engine row = text.map .ofText) :
    (codeOf variants e).value? engine row =
      (text.bind (codeOfText? variants)).map fun i => .scalar (.int64 i) := by
  unfold codeOf
  split
  · rename_i empty
    rw [List.isEmpty_iff.mp empty]
    cases text <;> rfl
  · cases text with
    | none => simp [h]
    | some s =>
      simp only [value?, h, List.lookup_append, lookup_map_yield]
      cases label : variants.find? (·.label == s) with
      | some v => simp [label, codeOfText?, SqlConst.datum]
      | none =>
        cases code : variants.find? (·.codeText == s) <;>
          simp [label, code, codeOfText?, SqlConst.datum]

/-- Truth values are read from their two spellings. -/
theorem lookup_truth (s : String) :
    [("true", SqlConst.truth true), ("false", SqlConst.truth false)].lookup s =
      if s = "true" then some (.truth true) else if s = "false" then some (.truth false)
      else none := by
  by_cases yes : s = "true"
  · subst yes; rfl
  · by_cases no : s = "false"
    · subst no; rfl
    · rw [List.lookup_cons, beq_eq_false_iff_ne.mpr yes, if_neg yes]
      simp only [List.lookup_cons, beq_eq_false_iff_ne.mpr no, if_neg no, List.lookup_nil]

theorem castTo_boolean_value? {e : SqlExpr} {text : Option String}
    (h : e.value? engine row = text.map .ofText) :
    (castTo .boolean e).value? engine row = text.bind (Datum.read? .boolean) := by
  cases text with
  | none => simp [castTo, value?, h]
  | some s =>
    simp only [castTo, value?, h, lookup_truth]
    by_cases yes : s = "true"
    · simp [yes, Datum.read?, castText?, SqlConst.datum, Datum.ofTruth]
    · by_cases no : s = "false"
      · simp [no, Datum.read?, castText?, SqlConst.datum, Datum.ofTruth]
      · simp [yes, no, Datum.read?, castText?]

theorem castTo_value? (documented : engine.Documented) (type : SqlType) {e : SqlExpr}
    {text : Option String} (h : e.value? engine row = text.map .ofText)
    (ordinary : (castTo type e).Ordinary engine row) :
    (castTo type e).value? engine row = text.bind (Datum.read? type) := by
  by_cases boolean : type = .boolean
  · subst boolean
    exact castTo_boolean_value? h
  · by_cases same : type = .text
    · subst same
      rw [castTo, h]
      cases text <;> rfl
    · have cast : castTo type e = .cast e type := by cases type <;> simp_all [castTo]
      cases text with
      | none => simp [cast, value?, h]
      | some s =>
        have accepted : (Datum.read? type s).isSome := by
          simpa [cast, castSucceeds, h] using ordinary.casts _ (mem_parts _)
        obtain ⟨d, read⟩ := Option.isSome_iff_exists.mp accepted
        simp [cast, value?, h, read, documented.cast read]

end SqlExpr

namespace Term

variable {engine : Engine} {row : Row} {term : Term}

/-! ## Operands -/

/-- Whether an operand has a text, which of constants only texts have. -/
def IsText : Term → Prop
  | .constant v => v.scalarType? = some .text
  | .lower inner => inner.IsText
  | .upper inner => inner.IsText
  | _ => True

theorem HasType.isText (h : term.HasType .text) : term.IsText := by
  generalize text : ScalarType.text = type at h
  induction h with
  | field => trivial
  | label => trivial
  | lower _ ih => exact ih rfl
  | upper _ ih => exact ih rfl
  | constant kind => rw [← text] at kind; exact kind

theorem HasType.isText_of_read {type : ScalarType} (h : term.HasType type)
    (read : ∀ v, term ≠ .constant v) : term.IsText := by
  cases h with
  | field => trivial
  | label => trivial
  | lower text => exact text.isText
  | upper text => exact text.isText
  | constant => exact absurd rfl (read _)

theorem Fits.isText {comparand : Comparand} (fits : term.Fits comparand)
    (read : ∀ v, term ≠ .constant v) : term.IsText := by
  cases term with
  | constant v => exact absurd rfl (read v)
  | _ =>
    obtain ⟨_, kind⟩ := fits
    exact kind.isText_of_read read

theorem toText_value? (documented : engine.Documented) (text : term.IsText) (n : Nat)
    (assigned : row.Assigns (term.toText n).2) :
    (term.toText n).1.value? engine row = (term.text? row.document).map .ofText := by
  induction term with
  | field path type => exact SqlExpr.leafText_value? path
  | node path => exact SqlExpr.leafText_value? path
  | label path variants => exact SqlExpr.labelOf_value? variants (SqlExpr.leafText_value? path)
  | lower inner ih =>
    have value := ih text (by simpa [toText] using assigned)
    cases found : inner.text? row.document <;>
      simp [toText, SqlExpr.value?, text?, value, found, documented.lower]
  | upper inner ih =>
    have value := ih text (by simpa [toText] using assigned)
    cases found : inner.text? row.document <;>
      simp [toText, SqlExpr.value?, text?, value, found, documented.upper]
  | constant v =>
    obtain ⟨s, rfl⟩ := Value.eq_text_of_scalarType text
    have bound := assigned ⟨Binding.indexAt n, .text s, .text⟩ (by simp [toText])
    simp only at bound
    simp [toText, SqlExpr.value?, text?, bound, Datum.ofParameter?, Datum.ofText]

/-- The value of an operand under a comparison type. -/
def datum? (comparand : Comparand) (doc : Json) (term : Term) : Option Datum :=
  if comparand = .typed .numeric then (term.exactNumber? doc).map .number
  else (term.value? comparand doc).map .scalar

theorem datum?_typed (read : ∀ v, term ≠ .constant v) (type : SqlType) (doc : Json) :
    term.datum? (.typed type) doc = (term.text? doc).bind (Datum.read? type) := by
  unfold datum? Datum.read?
  by_cases numeric : type = .numeric
  · subst numeric
    simp only [if_true, exactNumber?_read read, Option.map_bind]
    rfl
  · simp only [Comparand.typed.injEq, numeric, if_false, value?_typed read, Option.map_bind]
    rfl

theorem datum?_label (read : ∀ v, term ≠ .constant v) (variants : List EnumVariant) (doc : Json) :
    term.datum? (.label variants) doc =
      (term.text? doc).map fun s => .ofText (labelOfText (term.variantsOr []) s) := by
  simp [datum?, value?_label read, Function.comp_def, Datum.ofText]

theorem datum?_code (read : ∀ v, term ≠ .constant v) (variants : List EnumVariant) (doc : Json) :
    term.datum? (.code variants) doc =
      ((term.text? doc).bind (codeOfText? (term.variantsOr variants))).map
        fun i => .scalar (.int64 i) := by
  simp [datum?, value?_code read, Function.comp_def]

theorem constant_value? {comparand : Comparand} {v : Value}
    (admitted : comparand.sqlType.admits v) :
    Datum.ofParameter? comparand.sqlType v = (Term.constant v).datum? comparand row.document := by
  have numeric : comparand.sqlType = .numeric ↔ comparand = .typed .numeric := by
    cases comparand <;> simp [Comparand.sqlType]
  cases v with
  | null => cases comparand with
    | typed type => cases type <;> cases admitted
    | label | code => cases admitted
  | _ => simp [Datum.ofParameter?, datum?, exactNumber?, value?, numeric]

theorem toSql_value? (documented : engine.Documented) {comparand : Comparand}
    (fits : term.Fits comparand) (n : Nat) (assigned : row.Assigns (term.toSql comparand n).2)
    (ordinary : (term.toSql comparand n).1.Ordinary engine row) :
    (term.toSql comparand n).1.value? engine row = term.datum? comparand row.document := by
  by_cases constant : ∃ v, term = .constant v
  · obtain ⟨v, rfl⟩ := constant
    have bound : row.parameter (Binding.indexAt n) = v :=
      assigned ⟨Binding.indexAt n, v, comparand.sqlType⟩ (by simp [toSql])
    rw [← constant_value? fits]
    simp [toSql, SqlExpr.value?, bound]
  · have read : ∀ v, term ≠ .constant v := fun v same => constant ⟨v, same⟩
    have text := fits.isText read
    cases comparand with
    | typed type =>
      rw [toSql_typed read] at assigned ordinary ⊢
      rw [SqlExpr.castTo_value? documented type (toText_value? documented text n assigned) ordinary,
        datum?_typed read]
    | label variants =>
      rw [toSql_label read] at assigned ⊢
      rw [SqlExpr.labelOf_value? _ (toText_value? documented text n assigned), datum?_label read,
        Option.map_map]
      rfl
    | code variants =>
      rw [toSql_code read] at assigned ⊢
      rw [SqlExpr.codeOf_value? _ (toText_value? documented text n assigned), datum?_code read]

end Term

end DocStore
