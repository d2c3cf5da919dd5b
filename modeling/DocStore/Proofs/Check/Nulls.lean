import DocStore.Proofs.Check.Alike
import DocStore.Proofs.Check.Locality
import DocStore.Proofs.Sql.Agreement

/-!
# Where a comparison is null

The two operands of a checked comparison never have values of different kinds.  So a comparison is
null for want of a value on one side, or because of a not-a-number, and for no other reason.

* `Check.parts`: a check with all checks inside it;
* `Datum.SameKind`, `Term.Fits.sameKind`: the operands of a comparison have values of one kind;
* `Term.Lacks`, `Term.Fits.datum?_eq_none_iff`: what it takes for an operand to have no value;
* `comparison_null_iff`: where a comparison within a checked filter is null.
-/

namespace DocStore

/-! ## Parts of a check -/

namespace Check

mutual

/-- A check with all checks inside it. -/
def parts : Check → List Check
  | .all operands => .all operands :: partsOfAll operands
  | .any operands => .any operands :: partsOfAll operands
  | .not operand => .not operand :: parts operand
  | .compare op comparand left right => [.compare op comparand left right]
  | .isNull term negated => [.isNull term negated]
  | .search pattern receiver argument => [.search pattern receiver argument]
  | .blank term => [.blank term]
  | .member path element comparand value => [.member path element comparand value]
  | .hasValue path => [.hasValue path]
  | .flag path => [.flag path]
  | .literal b => [.literal b]

def partsOfAll : List Check → List Check
  | [] => []
  | c :: rest => parts c ++ partsOfAll rest

end

theorem partsOfAll_eq (cs : List Check) : partsOfAll cs = cs.flatMap parts := by
  induction cs with
  | nil => rfl
  | cons c rest ih => rw [partsOfAll, ih, List.flatMap_cons]

theorem WellTyped.of_part {c part : Check} (typed : c.WellTyped) (h : part ∈ c.parts) :
    part.WellTyped := by
  have inside {cs : List Check} (each : ∀ c ∈ cs, c.WellTyped)
      (ih : ∀ c ∈ cs, c.WellTyped → part ∈ c.parts → part.WellTyped)
      (h : part ∈ partsOfAll cs) : part.WellTyped := by
    rw [partsOfAll_eq] at h
    obtain ⟨c, mem, h⟩ := List.mem_flatMap.mp h
    exact ih c mem (each c mem) h
  induction c with
  | all operands ih =>
    rcases List.mem_cons.mp h with rfl | h
    · exact typed
    · cases typed with
      | all each => exact inside each ih h
  | any operands ih =>
    rcases List.mem_cons.mp h with rfl | h
    · exact typed
    · cases typed with
      | any each => exact inside each ih h
  | not operand ih =>
    rcases List.mem_cons.mp h with rfl | h
    · exact typed
    · cases typed with
      | not inner => exact ih inner h
  | _ =>
    rw [parts, List.mem_singleton] at h
    exact h ▸ typed

end Check

/-! ## Values of one kind -/

namespace Datum

/-- Whether two values of comparison are of one kind: both exact numbers, or both constants of one
type. -/
inductive SameKind : Datum → Datum → Prop
  | number (x y) : SameKind (.number x) (.number y)
  | scalar {v w} (typed : v.scalarType?.isSome) (same : v.SameKind w) :
      SameKind (.scalar v) (.scalar w)

/-- The order of two values of comparison. -/
def order? : Datum → Datum → Option Ordering
  | .number x, .number y => some (x.order y)
  | .scalar v, .scalar w => v.compare? w
  | _, _ => none

end Datum

theorem Floating.compare?_eq_none_iff {f : Format} {x y : Floating f} :
    x.compare? y = none ↔ x.isNaN ∨ y.isNaN := by
  constructor
  · intro unordered
    by_contra numbers
    obtain ⟨hx, hy⟩ := not_or.mp numbers
    obtain ⟨order, ordered⟩ := compare?_of_not_nan (eq_false_of_ne_true hx) (eq_false_of_ne_true hy)
    cases unordered.symm.trans ordered
  · rintro (hx | hy)
    · cases x <;> cases hx
      rfl
    · cases y <;> cases hy
      unfold compare?
      cases x.place? <;> rfl

/-- Two values of one database type are of one kind, and are ordered unless one is not a number. -/
theorem SqlType.admits_sameKind {type : SqlType} {v w : Value} (other : type ≠ .numeric)
    (first : type.admits v) (second : type.admits w) :
    (Datum.scalar v).SameKind (.scalar w) ∧ (v.compare? w = none ↔ v.isNaN ∨ w.isNaN) := by
  cases type with
  | numeric => exact absurd rfl other
  | real | doublePrecision =>
    cases v <;> cases first
    cases w <;> cases second
    exact ⟨.scalar rfl rfl, Floating.compare?_eq_none_iff⟩
  | _ =>
    cases v <;> cases first
    cases w <;> cases second
    exact ⟨.scalar rfl rfl, by simp [Value.compare?, Value.isNaN]⟩

variable {comparand : Comparand} {doc : Json} {left right term : Term}

/-- The values of two operands under one comparison type are of one kind, and are ordered unless one
is not a number. -/
theorem Term.Fits.sameKind (first : left.Fits comparand) (second : right.Fits comparand)
    {d e : Datum} (hl : left.datum? comparand doc = some d)
    (hr : right.datum? comparand doc = some e) :
    d.SameKind e ∧ (d.order? e = none ↔ d.isNaN ∨ e.isNaN) := by
  unfold datum? at hl hr
  by_cases numeric : comparand = .typed .numeric
  · rw [if_pos numeric] at hl hr
    obtain ⟨x, -, rfl⟩ := Option.map_eq_some_iff.mp hl
    obtain ⟨y, -, rfl⟩ := Option.map_eq_some_iff.mp hr
    exact ⟨.number x y, by simp [Datum.order?, Datum.isNaN]⟩
  · rw [if_neg numeric] at hl hr
    obtain ⟨v, hv, rfl⟩ := Option.map_eq_some_iff.mp hl
    obtain ⟨w, hw, rfl⟩ := Option.map_eq_some_iff.mp hr
    have other : comparand.sqlType ≠ .numeric := by
      cases comparand <;> simp_all [Comparand.sqlType]
    exact SqlType.admits_sameKind other (first.admits hv) (second.admits hw)

/-- A comparison orders the values of its operands. -/
theorem Comparand.order?_eq (comparand : Comparand) (doc : Json) (left right : Term) :
    comparand.order? doc left right =
      (left.datum? comparand doc).bind fun d => (right.datum? comparand doc).bind d.order? := by
  unfold order? Term.datum?
  split
  · cases left.exactNumber? doc <;> cases right.exactNumber? doc <;> rfl
  · cases left.value? comparand doc <;> cases right.value? comparand doc <;> rfl

/-! ## Operands without a value -/

/-- What it takes for an operand to have no value under a comparison type: a path that it reads
leads nowhere or to null, or its text spells no value of the type, or its text is neither a label
nor a code where codes are compared.  A constant never lacks a value. -/
inductive Term.Lacks (comparand : Comparand) (doc : Json) (term : Term) : Prop
  | absent {path} (read : path ∈ term.paths)
      (absent : path.node? doc = none ∨ path.node? doc = some .null)
  | unspelled {s type} (read : ∀ v, term ≠ .constant v) (text : term.text? doc = some s)
      (typed : comparand = .typed type) (unspelled : Datum.read? type s = none)
  | undeclared {s variants} (read : ∀ v, term ≠ .constant v) (text : term.text? doc = some s)
      (coded : comparand = .code variants)
      (undeclared : ∀ v ∈ term.variantsOr variants, v.label ≠ s ∧ v.codeText ≠ s)

theorem FieldPath.extract?_eq_none_iff {path : FieldPath} :
    path.extract? doc = none ↔ path.node? doc = none ∨ path.node? doc = some .null := by
  unfold extract?
  cases path.node? doc with
  | none => simp
  | some j => cases j <;> simp [Json.extracted?]

theorem codeOfText?_eq_none_iff {variants : List EnumVariant} {s : String} :
    codeOfText? variants s = none ↔ ∀ v ∈ variants, v.label ≠ s ∧ v.codeText ≠ s := by
  simp [codeOfText?, List.find?_eq_none, forall_and]

namespace Term

/-- An operand has no text exactly where a path that it reads leads nowhere or to null. -/
theorem text?_eq_none_iff (text : term.IsText) :
    term.text? doc = none ↔
      ∃ path ∈ term.paths, path.node? doc = none ∨ path.node? doc = some .null := by
  induction term with
  | field path type => simp [text?, paths, FieldPath.extract?_eq_none_iff]
  | node path => simp [text?, paths, FieldPath.extract?_eq_none_iff]
  | label path variants => simp [text?, paths, FieldPath.extract?_eq_none_iff]
  | lower inner ih => simpa [text?, paths] using ih text
  | upper inner ih => simpa [text?, paths] using ih text
  | constant v =>
    obtain ⟨s, rfl⟩ := Value.eq_text_of_scalarType text
    simp [text?, paths]

theorem not_lacks_constant (v : Value) : ¬ (constant v).Lacks comparand doc := by
  rintro (⟨read, -⟩ | ⟨read, -⟩ | ⟨read, -⟩)
  · cases read
  · exact read v rfl
  · exact read v rfl

/-- A constant has a value on every document, which is not a number only if the constant is not. -/
theorem Fits.constant_value {v : Value} (fits : (constant v).Fits comparand) :
    ∃ d, (constant v).datum? comparand doc = some d ∧ d.isNaN = v.isNaN := by
  have bound : Datum.ofParameter? comparand.sqlType v =
      (constant v).datum? comparand (Row.mk doc (fun _ => v) none).document := constant_value? fits
  obtain ⟨d, value⟩ : ∃ d, (constant v).datum? comparand doc = some d :=
    Option.isSome_iff_exists.mp (bound ▸ ofParameter?_isSome fits)
  refine ⟨d, value, ?_⟩
  unfold datum? at value
  by_cases numeric : comparand = .typed .numeric
  · rw [if_pos numeric] at value
    obtain ⟨n, number, rfl⟩ := Option.map_eq_some_iff.mp value
    subst numeric
    -- not-a-numbers are not admitted under `numeric`
    have admitted : SqlType.numeric.admits v := fits
    cases v with
    | float32 x => cases x <;> first | rfl | cases admitted
    | float64 x => cases x <;> first | rfl | cases admitted
    | _ => rfl
  · rw [if_neg numeric] at value
    obtain ⟨w, same, rfl⟩ := Option.map_eq_some_iff.mp value
    cases v <;> cases same <;> rfl

/-- An operand that has a text lacks a value only if the text does not convert. -/
theorem lacks_iff_of_text {s : String} (text : term.IsText) (read : ∀ v, term ≠ .constant v)
    (found : term.text? doc = some s) :
    term.Lacks comparand doc ↔ match comparand with
      | .typed type => Datum.read? type s = none
      | .label _ => False
      | .code variants => ∀ v ∈ term.variantsOr variants, v.label ≠ s ∧ v.codeText ≠ s := by
  constructor
  · rintro (⟨mem, absent⟩ | ⟨_, same, rfl, unspelled⟩ | ⟨_, same, rfl, undeclared⟩)
    · have missing := (text?_eq_none_iff text).mpr ⟨_, mem, absent⟩
      cases found.symm.trans missing
    · cases found.symm.trans same
      exact unspelled
    · cases found.symm.trans same
      exact undeclared
  · intro unconverted
    cases comparand with
    | typed type => exact .unspelled read found rfl unconverted
    | label variants => exact unconverted.elim
    | code variants => exact .undeclared read found rfl unconverted

theorem Fits.datum?_eq_none_iff (fits : term.Fits comparand) :
    term.datum? comparand doc = none ↔ term.Lacks comparand doc := by
  by_cases constant : ∃ v, term = .constant v
  · obtain ⟨v, rfl⟩ := constant
    obtain ⟨d, value, -⟩ : ∃ d, (constant v).datum? comparand doc = some d ∧ _ :=
      fits.constant_value
    simp [value, not_lacks_constant]
  · have read : ∀ v, term ≠ .constant v := fun v same => constant ⟨v, same⟩
    have text := fits.isText read
    cases found : term.text? doc with
    | none =>
      obtain ⟨path, mem, absent⟩ := (text?_eq_none_iff text).mp found
      have lacks : term.Lacks comparand doc := .absent mem absent
      have nothing : term.datum? comparand doc = none := by
        cases comparand <;> simp [datum?_typed, datum?_label, datum?_code, read, found]
      exact iff_of_true nothing lacks
    | some s =>
      rw [lacks_iff_of_text text read found]
      cases comparand <;> simp [datum?_typed, datum?_label, datum?_code, read, found,
        codeOfText?_eq_none_iff]

end Term

/-- The operands of a comparison within a checked filter never have values of different kinds.  So
the comparison is null exactly where an operand lacks a value or its value is not a number, and a
constant is the cause only if it is not a number. -/
theorem comparison_null_iff {filter : Filter} {schema : Schema} {check : Check}
    (passed : filter.check schema = .ok check) {op : CompareOp}
    (inside : .compare op comparand left right ∈ check.parts) (doc : Json) :
    (∀ d e, left.datum? comparand doc = some d → right.datum? comparand doc = some e →
      d.SameKind e) ∧
    ((Check.compare op comparand left right).eval doc = none ↔
      left.Lacks comparand doc ∨ right.Lacks comparand doc ∨
        ∃ term ∈ [left, right], ∃ d, term.datum? comparand doc = some d ∧ d.isNaN) ∧
    ∀ v, .constant v ∈ [left, right] → ¬ (Term.constant v).Lacks comparand doc ∧
      ∃ d, (Term.constant v).datum? comparand doc = some d ∧ d.isNaN = v.isNaN := by
  obtain ⟨first, second⟩ : left.Fits comparand ∧ right.Fits comparand := by
    cases (check_wellTyped passed).of_part inside with
    | compare first second => exact ⟨first, second⟩
  refine ⟨fun d e hl hr => (first.sameKind second hl hr).1, ?_, fun v mem => ?_⟩
  · rw [Check.eval, Option.map_eq_none_iff, Comparand.order?_eq, ← first.datum?_eq_none_iff,
      ← second.datum?_eq_none_iff]
    cases hl : left.datum? comparand doc with
    | none => simp
    | some d =>
      cases hr : right.datum? comparand doc with
      | none => simp
      | some e => simpa [hl, hr] using (first.sameKind second hl hr).2
  · have fits : (Term.constant v).Fits comparand := by
      rcases List.mem_pair.mp mem with same | same
      · exact same ▸ first
      · exact same ▸ second
    exact ⟨Term.not_lacks_constant v, fits.constant_value⟩

/-- Items whose kind does not come after the first. -/
def earliestFilter : Filter where
  predicate := .logical .not [.comparison .gt (.field ⟨["kind"]⟩) (.constant (.captured "first"))]
  captures := [("first", .int16 1)]

def laterKind : Check :=
  .compare .gt (.code [⟨"new", 1⟩, ⟨"used", 2⟩])
    (.field ⟨["kind"]⟩ (.enumeration "Kind" [⟨"new", 1⟩, ⟨"used", 2⟩])) (.constant (.int64 1))

/-- Of an item whose kind is not declared it is null whether that comes after the first. -/
theorem comparison_null_iff_of_undeclared :
    earliestFilter.check itemSchema = .ok (.not laterKind) ∧
      laterKind.eval (.object [("kind", .string "old")]) = none := by
  have passed : earliestFilter.check itemSchema = .ok (.not laterKind) := rfl
  obtain ⟨-, null, -⟩ := comparison_null_iff passed (.tail _ (.head _))
    (.object [("kind", .string "old")])
  have undeclared : Term.Lacks (.code [⟨"new", 1⟩, ⟨"used", 2⟩]) (.object [("kind", .string "old")])
      (.field ⟨["kind"]⟩ (.enumeration "Kind" [⟨"new", 1⟩, ⟨"used", 2⟩])) :=
    .undeclared (fun v same => by cases same) rfl rfl (by decide)
  exact ⟨passed, null.mpr (.inl undeclared)⟩

end DocStore
