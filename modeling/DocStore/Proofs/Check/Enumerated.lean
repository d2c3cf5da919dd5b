import DocStore.Proofs.Check.Symmetry
import Mathlib.Data.List.Nodup

/-!
# Stored labels of enumerations

A document stores a variant of an enumeration as its label.  A comparison looks the stored text up
among the variants, and equality and order do so differently: equality takes a text that spells a
code for the variant of that code, order takes a text that is a label for the variant of that label.
Nothing keeps the label of one variant from spelling the code of another.

* `EnumVariant.atRest`: the variant that a stored label means under equality;
* `Value.Names`: the constants that name a variant, by label or by code;
* `stored_label_compares`: what a field that stores a declared label compares as.
-/

namespace DocStore

open DocStore.Text

/-! ## Looking up variants -/

/-- Among entries of different keys the first one of a key is the only one. -/
theorem find?_eq_some_of_nodup {α κ : Type} [DecidableEq κ] {key : α → κ} {xs : List α} {x : α}
    (nodup : (xs.map key).Nodup) (mem : x ∈ xs) : xs.find? (key · == key x) = some x := by
  cases found : xs.find? (key · == key x) with
  | none =>
    have different := List.find?_eq_none.mp found x mem
    exact absurd (beq_self_eq_true (key x)) different
  | some y =>
    have same : key y = key x := by simpa using List.find?_some found
    rw [List.inj_on_of_nodup_map nodup (List.mem_of_find?_eq_some found) mem same]

/-- The variants of an enumeration differ in their labels and in their codes. -/
structure EnumVariant.Distinct (variants : List EnumVariant) : Prop where
  labels : (variants.map (·.label)).Nodup
  codes : (variants.map (·.code)).Nodup

namespace EnumVariant

variable {variants : List EnumVariant} {u v w : EnumVariant}

/-- The variant that a stored label means under equality: one whose code the label spells, if there
is one, and its own otherwise. -/
def atRest (variants : List EnumVariant) (v : EnumVariant) : EnumVariant :=
  (variants.find? (·.codeText == v.label)).getD v

theorem Distinct.eq_of_label (distinct : Distinct variants) (hv : v ∈ variants) (hw : w ∈ variants)
    (same : v.label = w.label) : v = w :=
  List.inj_on_of_nodup_map distinct.labels hv hw same

theorem code_of_codeText (same : v.codeText = w.codeText) : v.code = w.code := by
  have first := readIntIn?_intText (IntRange.signed64_holds v.code)
  have second := readIntIn?_intText (IntRange.signed64_holds w.code)
  have text : intText v.code.toInt = intText w.code.toInt := same
  rw [text] at first
  exact Int64.toInt_inj.mp (Option.some.inj (first.symm.trans second))

theorem Distinct.eq_of_codeText (distinct : Distinct variants) (hv : v ∈ variants)
    (hw : w ∈ variants) (same : v.codeText = w.codeText) : v = w :=
  List.inj_on_of_nodup_map distinct.codes hv hw (code_of_codeText same)

theorem atRest_mem (declared : v ∈ variants) : v.atRest variants ∈ variants := by
  unfold atRest
  cases found : variants.find? (·.codeText == v.label) with
  | none => exact declared
  | some w => exact List.mem_of_find?_eq_some found

/-- A stored label means its own variant exactly if it spells the code of no other. -/
theorem Distinct.atRest_eq_iff (distinct : Distinct variants) :
    v.atRest variants = v ↔ ∀ w ∈ variants, w.codeText = v.label → w = v := by
  unfold atRest
  cases found : variants.find? (·.codeText == v.label) with
  | none =>
    refine iff_of_true rfl fun w mem same => ?_
    exact absurd same (by simpa using List.find?_eq_none.mp found w mem)
  | some z =>
    have spelled : z.codeText = v.label := by simpa using List.find?_some found
    have mem := List.mem_of_find?_eq_some found
    refine ⟨fun own w hw same => ?_, fun all => all z mem spelled⟩
    have meant : z = v := own
    exact distinct.eq_of_codeText hw (meant ▸ mem) (same.trans (meant ▸ spelled.symm))

end EnumVariant

section

variable {variants : List EnumVariant} {u v : EnumVariant}

theorem labelOfText_label (variants : List EnumVariant) (v : EnumVariant) :
    labelOfText variants v.label = (v.atRest variants).label := by
  unfold labelOfText EnumVariant.atRest
  cases variants.find? (·.codeText == v.label) <;> rfl

theorem EnumVariant.Distinct.codeOfText?_label (distinct : EnumVariant.Distinct variants)
    (declared : v ∈ variants) : codeOfText? variants v.label = some v.code := by
  rw [codeOfText?, find?_eq_some_of_nodup distinct.labels declared]
  rfl

/-! ## Constants that name a variant -/

/-- A constant that names a variant: its label, or its code as an integer of any width. -/
inductive Value.Names (u : EnumVariant) : Value → Prop
  | label : Names u (.text u.label)
  | code {c} (code : c.toInt64? = some u.code) : Names u c

theorem Value.Names.kind {c : Value} (names : c.Names u) :
    ∃ type, c.scalarType? = some type ∧ type.variants? = none ∧ type.namesVariants := by
  cases names with
  | label => exact ⟨.text, rfl, rfl, rfl⟩
  | code code => cases c <;> simp_all [Value.toInt64?, Value.scalarType?, ScalarType.variants?,
      ScalarType.namesVariants]

theorem EnumVariant.Distinct.variant? {c : Value} (distinct : EnumVariant.Distinct variants)
    (declared : u ∈ variants) (names : c.Names u) : c.variant? variants = some u := by
  cases names with
  | label => exact find?_eq_some_of_nodup distinct.labels declared
  | code code =>
    have found := find?_eq_some_of_nodup distinct.codes declared
    cases c <;> simp_all [Value.variant?, Value.toInt64?]

/-- A constant that names a variant is converted to its label under equality and to its code under
an order. -/
theorem EnumVariant.Distinct.under {c : Value} (distinct : EnumVariant.Distinct variants)
    (declared : u ∈ variants) (names : c.Names u) (op : CompareOp) :
    c.under (Comparand.ofVariants op variants) =
      .ok (if op.isEquality then .text u.label else .int64 u.code) := by
  have named := distinct.variant? declared names
  unfold Comparand.ofVariants
  cases op.isEquality
  · simp [Value.under, Value.enumCode, named, Except.map]
  · simp [Value.under, Value.enumLabel, named, Except.map]

end

/-! ## Comparisons -/

theorem CompareOp.holds_compare_text {op : CompareOp} (equality : op.isEquality) (s t : String) :
    op.holds (compare s t) = decide (op = .eq ↔ s = t) := by
  have same : (compare s t == .eq) = decide (s = t) := by
    rw [Bool.eq_iff_iff, beq_iff_eq, decide_eq_true_iff]
    exact Std.compare_eq_iff_eq
  cases op <;> cases equality
  · simp [holds, same]
  · simp [holds, bne, same]

namespace Scope

variable {scope : Scope} {path : FieldPath} {field : Field} {name : String}
  {variants : List EnumVariant} {u v : EnumVariant} {doc : Json}

/-- The check of a comparison of an enumeration field with a constant that names a variant. -/
theorem comparison_named (resolved : scope.schema.resolve path = .ok field)
    (enumerated : field.type = .scalar (.enumeration name variants))
    (distinct : EnumVariant.Distinct variants) (declared : u ∈ variants) {c : Constant}
    {value : Value} (bound : scope.constant c = .ok value) (names : value.Names u)
    (op : CompareOp) :
    scope.check (.comparison op (.field path) (.constant c)) =
      .ok (.compare op (.ofVariants op variants) (.field path (.enumeration name variants))
        (.constant (if op.isEquality then .text u.label else .int64 u.code))) := by
  obtain ⟨type, kind, plain, named⟩ := names.kind
  have common : Comparand.of op (.enumeration name variants) type =
      .ok (.ofVariants op variants) := by
    have side : (ScalarType.enumeration name variants).variants? = some variants := rfl
    rw [Comparand.of, Comparand.of?, side, plain]
    simp only [named, if_true]
  have read : scope.Reads (.constant c) (some ⟨.constant value, type⟩) := by
    have typed : typedConstant value = some ⟨.constant value, type⟩ := by
      rw [typedConstant, kind]
      rfl
    exact typed ▸ .constant bound
  have converted : fit op (.ofVariants op variants) ⟨.constant value, type⟩ =
      .ok (.constant (if op.isEquality then .text u.label else .int64 u.code)) := by
    simp only [fit, distinct.under declared names op]
    rfl
  exact comparison_eq_ok.mpr
    (.compare (.field resolved enumerated) read common (fit_field ..) converted)

end Scope

/-- Under equality a stored label is compared as the label of the variant that it means, under an
order as the code of its own. -/
theorem stored_label_eval {path : FieldPath} {name : String} {variants : List EnumVariant}
    {u v : EnumVariant} {doc : Json} (distinct : EnumVariant.Distinct variants)
    (declared : v ∈ variants) (named : u ∈ variants)
    (stored : path.node? doc = some (.string v.label)) (op : CompareOp) :
    (Check.compare op (.ofVariants op variants) (.field path (.enumeration name variants))
      (.constant (if op.isEquality then .text u.label else .int64 u.code))).eval doc =
      some (if op.isEquality then decide (op = .eq ↔ v.atRest variants = u)
        else op.holds (compare v.code.toInt u.code.toInt)) := by
  have read : ∀ c, Term.field path (.enumeration name variants) ≠ .constant c :=
    fun c same => by cases same
  have text : (Term.field path (.enumeration name variants)).text? doc = some v.label := by
    rw [Term.text?, FieldPath.extract?, stored]
    rfl
  unfold Comparand.ofVariants
  cases equality : op.isEquality with
  | true =>
    have value : (Term.field path (.enumeration name variants)).value? (.label variants) doc =
        some (.text (v.atRest variants).label) := by
      rw [Term.value?_label read, text, ← labelOfText_label]
      rfl
    have same : (v.atRest variants).label = u.label ↔ v.atRest variants = u :=
      ⟨distinct.eq_of_label (EnumVariant.atRest_mem declared) named, fun h => h ▸ rfl⟩
    simp only [Check.eval, Comparand.order?, reduceCtorEq, if_false, if_true, value]
    simp [Term.value?, Value.compare?, CompareOp.holds_compare_text equality, same]
  | false =>
    have value : (Term.field path (.enumeration name variants)).value? (.code variants) doc =
        some (.int64 v.code) := by
      rw [Term.value?_code read, text]
      simp [Term.variantsOr, distinct.codeOfText?_label declared]
    simp only [Check.eval, Comparand.order?, reduceCtorEq, if_false, Bool.false_eq_true, value]
    rfl

/-- A field that stores the label of a declared variant is compared by order as that variant, and by
equality as the variant that the label means at rest, which is the same exactly if the label spells
the code of no other variant. -/
theorem stored_label_compares {schema : Schema} {path : FieldPath} {field : Field} {name : String}
    {variants : List EnumVariant} (resolved : schema.resolve path = .ok field)
    (enumerated : field.type = .scalar (.enumeration name variants))
    (distinct : EnumVariant.Distinct variants) {v : EnumVariant} (declared : v ∈ variants)
    {doc : Json} (stored : path.node? doc = some (.string v.label)) (captures : Captures) :
    (v.atRest variants = v ↔ ∀ w ∈ variants, w.codeText = v.label → w = v) ∧
    ∀ u ∈ variants, ∀ c value, Scope.constant ⟨schema, captures⟩ c = .ok value → value.Names u →
      ∀ op, ∃ check,
        Filter.check ⟨.comparison op (.field path) (.constant c), captures⟩ schema = .ok check ∧
        check.eval doc = some (if op.isEquality then decide (op = .eq ↔ v.atRest variants = u)
          else op.holds (compare v.code.toInt u.code.toInt)) := by
  refine ⟨distinct.atRest_eq_iff, fun u named c value bound names op => ?_⟩
  exact ⟨_, Scope.comparison_named resolved enumerated distinct named bound names op,
    stored_label_eval distinct declared named stored op⟩

/-- Members with a grade. -/
def gradeSchema (variants : List EnumVariant) : Schema :=
  (Schema.empty "Member").declare "grade" (.required (.scalar (.enumeration "Grade" variants)))

theorem stored_label_compares_of_grade :
    EnumVariant.Distinct [⟨"low", 1⟩, ⟨"high", 2⟩] ∧
      ∃ check, Filter.check ⟨.comparison .eq (.field ⟨["grade"]⟩) (.constant (.captured "g")),
          [("g", .int16 2)]⟩ (gradeSchema [⟨"low", 1⟩, ⟨"high", 2⟩]) = .ok check ∧
        check.eval (.object [("grade", .string "high")]) = some true := by
  have distinct : EnumVariant.Distinct [⟨"low", 1⟩, ⟨"high", 2⟩] := ⟨by decide, by decide⟩
  have declared : (⟨"high", 2⟩ : EnumVariant) ∈ [⟨"low", 1⟩, ⟨"high", 2⟩] := by decide
  have stored : (FieldPath.mk ["grade"]).node? (.object [("grade", .string "high")]) =
      some (.string "high") := rfl
  have resolved : (gradeSchema [⟨"low", 1⟩, ⟨"high", 2⟩]).resolve ⟨["grade"]⟩ =
      .ok (.required (.scalar (.enumeration "Grade" [⟨"low", 1⟩, ⟨"high", 2⟩]))) := rfl
  obtain ⟨own, all⟩ := stored_label_compares resolved rfl distinct declared stored
    [("g", .int16 2)]
  obtain ⟨check, passed, value⟩ := all _ declared (.captured "g") (.int16 2) rfl (.code rfl) .eq
  have plain : EnumVariant.atRest [⟨"low", 1⟩, ⟨"high", 2⟩] ⟨"high", 2⟩ = ⟨"high", 2⟩ :=
    own.mpr (by decide)
  rw [plain] at value
  exact ⟨distinct, check, passed, value⟩

/-- A variant whose label spells the code of another is not equal to itself at rest, though it is
neither before nor after itself. -/
theorem stored_label_misread :
    EnumVariant.Distinct [⟨"1", 0⟩, ⟨"x", 1⟩] ∧
      ∃ equal below above,
        Filter.check ⟨.comparison .eq (.field ⟨["grade"]⟩) (.constant (.literal (.text "1"))), []⟩
          (gradeSchema [⟨"1", 0⟩, ⟨"x", 1⟩]) = .ok equal ∧
        Filter.check ⟨.comparison .le (.field ⟨["grade"]⟩) (.constant (.literal (.text "1"))), []⟩
          (gradeSchema [⟨"1", 0⟩, ⟨"x", 1⟩]) = .ok below ∧
        Filter.check ⟨.comparison .ge (.field ⟨["grade"]⟩) (.constant (.literal (.text "1"))), []⟩
          (gradeSchema [⟨"1", 0⟩, ⟨"x", 1⟩]) = .ok above ∧
        equal.eval (.object [("grade", .string "1")]) = some false ∧
        below.eval (.object [("grade", .string "1")]) = some true ∧
        above.eval (.object [("grade", .string "1")]) = some true :=
  ⟨⟨by decide, by decide⟩, _, _, _, rfl, rfl, rfl, by decide, by decide, by decide⟩

end DocStore
