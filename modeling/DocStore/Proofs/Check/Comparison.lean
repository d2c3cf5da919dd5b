import DocStore.Proofs.Check.Exact

/-!
# Comparisons of integers and decimals

A comparison of integers and decimals, fields or constants of any width, always passes its check.
On a document that holds what its schema declares it compares the numbers themselves, and where a
compared field is missing or null it is null.

* `Scope.Exact`: the operands that are integers or decimals;
* `Scope.Stores`, `Scope.Worth`, `Operand.Lacks`: what a document says of an operand;
* `exact_comparison`: what the comparison evaluates to, whatever the widths.
-/

namespace DocStore

/-! ## Operators -/

/-- Whether an operator holds of two numbers. -/
def CompareOp.relates (op : CompareOp) (p q : ℚ) : Bool :=
  match op with
  | .eq => p = q
  | .ne => p ≠ q
  | .lt => p < q
  | .le => p ≤ q
  | .gt => q < p
  | .ge => q ≤ p

theorem CompareOp.holds_compare (op : CompareOp) (p q : ℚ) :
    op.holds (compare p q) = op.relates p q := by
  rcases lt_trichotomy p q with less | rfl | greater
  · rw [compare_lt_iff_lt.mpr less]
    cases op <;> simp [holds, relates, less, less.le, less.ne, less.not_gt, less.not_ge]
  · rw [compare_eq_iff_eq.mpr rfl]
    cases op <;> simp [holds, relates]
  · rw [compare_gt_iff_gt.mpr greater]
    cases op <;>
      simp [holds, relates, greater, greater.le, greater.ne', greater.not_gt, greater.not_ge]

/-! ## Operands of exact types -/

/-- An operand that is a field or a constant of an exact type. -/
inductive Scope.Exact (scope : Scope) : Operand → ScalarType → Prop
  | field {path field type} (resolved : scope.schema.resolve path = .ok field)
      (leaf : field.type = .scalar type) (exact : type.isExact) : Exact scope (.field path) type
  | constant {c value type} (found : scope.constant c = .ok value)
      (kind : value.scalarType? = some type) (exact : type.isExact) : Exact scope (.constant c) type

/-- A document that holds under a field what its schema declares there. -/
inductive Scope.Stores (scope : Scope) (doc : Json) : Operand → Prop
  | field {path field type j} (resolved : scope.schema.resolve path = .ok field)
      (leaf : field.type = .scalar type) (found : path.node? doc = some j)
      (stored : type.Stores j) : Stores scope doc (.field path)
  | constant (c) : Stores scope doc (.constant c)

/-- The number that an operand is on a document. -/
inductive Scope.Worth (scope : Scope) (doc : Json) : Operand → ℚ → Prop
  | field {path j q} (found : path.node? doc = some j) (worth : j.Worth q) :
      Worth scope doc (.field path) q
  | constant {c value q} (found : scope.constant c = .ok value)
      (rational : value.rational? = some q) : Worth scope doc (.constant c) q

/-- A field that is missing or null in a document. -/
inductive Operand.Lacks (doc : Json) : Operand → Prop
  | missing {path} (missing : path.node? doc = none) : Lacks doc (.field path)
  | null {path} (null : path.node? doc = some .null) : Lacks doc (.field path)

/-- One operand in two filters on a schema: one field, or constants that are one number and may
differ in width. -/
inductive Scope.SameNumber (scope other : Scope) : Operand → Operand → Prop
  | field (path) : SameNumber scope other (.field path) (.field path)
  | constant {c d v w q} (found : scope.constant c = .ok v) (rational : v.rational? = some q)
      (foundOther : other.constant d = .ok w) (rationalOther : w.rational? = some q) :
      SameNumber scope other (.constant c) (.constant d)

namespace Scope

variable {scope other : Scope} {o o' left right : Operand} {a b : ScalarType} {op : CompareOp}
  {type : SqlType} {doc : Json} {p q : ℚ}

/-- What a document holds under an operand is one number. -/
theorem worth_unique (exact : scope.Exact o a) (stored : scope.Stores doc o) :
    ∃! q, scope.Worth doc o q := by
  cases exact with
  | field =>
    cases stored with
    | field _ _ found stored =>
      obtain ⟨s, x, -, -, value⟩ := stored.read
      refine ⟨x.value, .field found ((value _).mpr rfl), ?_⟩
      rintro q ⟨found', worth⟩
      cases found.symm.trans found'
      exact (value q).mp worth
  | constant found kind exact =>
    obtain ⟨q, rational⟩ := Value.rational?_of_isExact kind exact
    refine ⟨q, .constant found rational, ?_⟩
    rintro q' ⟨⟩
    rename_i found' rational'
    cases found.symm.trans found'
    exact Option.some.inj (rational'.symm.trans rational)

theorem operand_field {path : FieldPath} {field : Field}
    (resolved : scope.schema.resolve path = .ok field) (leaf : field.type = .scalar a) :
    scope.operand (.field path) = .ok (some ⟨.field path a, a⟩) := by
  simp only [operand, Scope.leaf, map_eq_ok, bind_eq_ok]
  exact ⟨_, ⟨field, resolved, by rw [leaf]; rfl⟩, rfl⟩

theorem operand_constant {c : Constant} {v : Value} (found : scope.constant c = .ok v)
    (kind : v.scalarType? = some a) :
    scope.operand (.constant c) = .ok (some ⟨.constant v, a⟩) := by
  rw [operand, found, Except.map, typedConstant, kind]
  rfl

/-- A field that is missing or null has no text. -/
theorem text?_of_lacks {path : FieldPath} (lacks : (Operand.field path).Lacks doc) :
    path.extract? doc = none := by
  cases lacks with
  | missing missing => rw [FieldPath.extract?, missing]; rfl
  | null null => rw [FieldPath.extract?, null]; rfl

/-- An operand of an exact type fits every type that covers its own.  There it is worth its number,
or nothing where it is missing or null. -/
theorem fit_exact (op : CompareOp) (exact : scope.Exact o a) (covers : type.covers a) :
    ∃ typed term, scope.operand o = .ok (some typed) ∧ typed.type = a ∧
      fit op (.typed type) typed = .ok term ∧
      (∀ doc q, scope.Stores doc o → scope.Worth doc o q → term.Exactly type doc q) ∧
      ∀ doc, o.Lacks doc →
        term.exactNumber? doc = none ∧ term.value? (.typed type) doc = none := by
  cases exact with
  | @field path _ _ resolved leaf =>
    refine ⟨_, _, operand_field resolved leaf, rfl, rfl, ?_, ?_⟩
    · intro doc q stored worth
      cases stored with
      | field resolved' leaf' found stored =>
        cases resolved.symm.trans resolved'
        cases leaf.symm.trans leaf'
        cases worth with
        | field found' worth =>
          cases found.symm.trans found'
          exact exactly_field covers found stored worth
    · intro doc lacks
      have missing : (Term.field path a).text? doc = none := text?_of_lacks lacks
      have read : ∀ v, Term.field path a ≠ .constant v := nofun
      exact ⟨(Term.exactNumber?_read read).trans (by rw [missing]; rfl),
        (Term.value?_typed read type).trans (by rw [missing]; rfl)⟩
  | @constant c v _ found kind exact =>
    obtain ⟨q, rational⟩ := Value.rational?_of_isExact kind exact
    obtain ⟨w, converted, worth⟩ := exactly_constant kind covers rational
    refine ⟨_, .constant w, operand_constant found kind, rfl, ?_, ?_, ?_⟩
    · simp only [fit, Value.under, Value.coerce, converted]
      rfl
    · rintro doc q' - ⟨⟩
      rename_i found' rational'
      cases found.symm.trans found'
      cases rational.symm.trans rational'
      exact worth doc
    · rintro doc ⟨⟩

theorem comparand_exact (exactA : a.isExact) (exactB : b.isExact) (op : CompareOp) :
    ∃ type, Comparand.of op a b = .ok (.typed type) ∧ type.covers a ∧ type.covers b := by
  obtain ⟨type, widened, coversA, coversB⟩ := widen?_covers exactA exactB
  have plain {c : ScalarType} (exact : c.isExact) : c.variants? = none := by
    cases c <;> first | rfl | cases exact
  refine ⟨type, ?_, coversA, coversB⟩
  rw [Comparand.of, Comparand.of?, plain exactA, plain exactB]
  simp only [widened]

theorem Exact.isExact (exact : scope.Exact o a) : a.isExact := by
  cases exact <;> assumption

/-- A comparison of exact operands passes its check.  It compares the numbers that the operands are,
and is null where one of them is missing or null. -/
theorem comparison_exact (exactLeft : scope.Exact left a) (exactRight : scope.Exact right b)
    (op : CompareOp) :
    ∃ check, scope.comparison op left right = .ok check ∧
      (∀ doc p q, scope.Stores doc left → scope.Stores doc right → scope.Worth doc left p →
        scope.Worth doc right q → check.eval doc = some (op.relates p q)) ∧
      ∀ doc, left.Lacks doc ∨ right.Lacks doc → check.eval doc = none := by
  obtain ⟨type, common, coversA, coversB⟩ := comparand_exact exactLeft.isExact exactRight.isExact op
  obtain ⟨l, l', readLeft, rfl, fitLeft, worthLeft, lackLeft⟩ := fit_exact op exactLeft coversA
  obtain ⟨r, r', readRight, rfl, fitRight, worthRight, lackRight⟩ :=
    fit_exact op exactRight coversB
  refine ⟨.compare op (.typed type) l' r', ?_, ?_, ?_⟩
  · simp only [comparison, readLeft, readRight, bind, Except.bind, common, fitLeft, fitRight]
    rfl
  · intro doc p q storesLeft storesRight p_worth q_worth
    rw [Check.eval, order?_exactly (worthLeft doc p storesLeft p_worth)
      (worthRight doc q storesRight q_worth), ← op.holds_compare]
    rfl
  · intro doc lacks
    have unordered : (Comparand.typed type).order? doc l' r' = none := by
      unfold Comparand.order?
      rcases lacks with lacks | lacks
      · obtain ⟨noNumber, noValue⟩ := lackLeft doc lacks
        rw [noNumber, noValue]
        split <;> rfl
      · obtain ⟨noNumber, noValue⟩ := lackRight doc lacks
        rw [noNumber, noValue]
        split
        · cases l'.exactNumber? doc <;> rfl
        · cases l'.value? (.typed type) doc <;> rfl
    rw [Check.eval, unordered]
    rfl

/-! ## Widths -/

/-- What two filters on a schema say of one number. -/
theorem SameNumber.transfer {schema : Schema} {captures others : Captures}
    (same : SameNumber ⟨schema, captures⟩ ⟨schema, others⟩ o o')
    (exact : Scope.Exact ⟨schema, captures⟩ o a) :
    (∃ b, Scope.Exact ⟨schema, others⟩ o' b) ∧ ∀ doc, (o.Lacks doc → o'.Lacks doc) ∧
      (Scope.Stores ⟨schema, captures⟩ doc o → Scope.Stores ⟨schema, others⟩ doc o') ∧
      ∀ q, Scope.Worth ⟨schema, captures⟩ doc o q → Scope.Worth ⟨schema, others⟩ doc o' q := by
  cases same with
  | field path =>
    refine ⟨?_, fun doc => ⟨id, ?_, ?_⟩⟩
    · cases exact with
      | field resolved leaf exact => exact ⟨_, .field resolved leaf exact⟩
    · intro stored
      cases stored with
      | field resolved leaf found stored => exact .field resolved leaf found stored
    · rintro q ⟨found, worth⟩
      exact .field found worth
  | constant found rational foundOther rationalOther =>
    refine ⟨?_, fun doc => ⟨nofun, fun _ => .constant _, ?_⟩⟩
    · obtain ⟨type, kind, exact⟩ := Value.isExact_of_rational? rationalOther
      exact ⟨type, .constant foundOther kind exact⟩
    · rintro q ⟨⟩
      rename_i found' rational'
      cases found.symm.trans found'
      cases rational.symm.trans rational'
      exact .constant foundOther rationalOther

end Scope

/-- A comparison of integers and decimals passes its check.  On a document that holds what the
schema declares it is the operator applied to the numbers themselves, it is null where a compared
field is missing or null, and it does not depend on the width that a constant is given in. -/
theorem exact_comparison {schema : Schema} {captures : Captures} {left right : Operand}
    {a b : ScalarType} (exactLeft : Scope.Exact ⟨schema, captures⟩ left a)
    (exactRight : Scope.Exact ⟨schema, captures⟩ right b) (op : CompareOp) :
    ∃ check, Filter.check ⟨.comparison op left right, captures⟩ schema = .ok check ∧
      (∀ doc, Scope.Stores ⟨schema, captures⟩ doc left → Scope.Stores ⟨schema, captures⟩ doc right →
        ∃ p q, (∀ p', Scope.Worth ⟨schema, captures⟩ doc left p' ↔ p' = p) ∧
          (∀ q', Scope.Worth ⟨schema, captures⟩ doc right q' ↔ q' = q) ∧
          check.eval doc = some (op.relates p q)) ∧
      (∀ doc, left.Lacks doc ∨ right.Lacks doc → check.eval doc = none) ∧
      ∀ others left' right',
        Scope.SameNumber ⟨schema, captures⟩ ⟨schema, others⟩ left left' →
        Scope.SameNumber ⟨schema, captures⟩ ⟨schema, others⟩ right right' →
        ∃ check', Filter.check ⟨.comparison op left' right', others⟩ schema = .ok check' ∧
          ∀ doc, left.Lacks doc ∨ right.Lacks doc ∨ Scope.Stores ⟨schema, captures⟩ doc left ∧
              Scope.Stores ⟨schema, captures⟩ doc right →
            check'.eval doc = check.eval doc := by
  obtain ⟨check, checked, value, null⟩ := Scope.comparison_exact exactLeft exactRight op
  refine ⟨check, checked, ?_, null, ?_⟩
  · intro doc storesLeft storesRight
    obtain ⟨p, worthP, onlyP⟩ := Scope.worth_unique exactLeft storesLeft
    obtain ⟨q, worthQ, onlyQ⟩ := Scope.worth_unique exactRight storesRight
    exact ⟨p, q, fun p' => ⟨onlyP p', fun same => same ▸ worthP⟩,
      fun q' => ⟨onlyQ q', fun same => same ▸ worthQ⟩,
      value doc p q storesLeft storesRight worthP worthQ⟩
  · intro others left' right' sameLeft sameRight
    obtain ⟨⟨a', exactLeft'⟩, transferLeft⟩ := sameLeft.transfer exactLeft
    obtain ⟨⟨b', exactRight'⟩, transferRight⟩ := sameRight.transfer exactRight
    obtain ⟨check', checked', value', null'⟩ := Scope.comparison_exact exactLeft' exactRight' op
    refine ⟨check', checked', fun doc known => ?_⟩
    obtain ⟨lacksLeft, storesLeft', worthLeft⟩ := transferLeft doc
    obtain ⟨lacksRight, storesRight', worthRight⟩ := transferRight doc
    rcases known with lacks | lacks | ⟨storesLeft, storesRight⟩
    · rw [null doc (.inl lacks), null' doc (.inl (lacksLeft lacks))]
    · rw [null doc (.inr lacks), null' doc (.inr (lacksRight lacks))]
    · obtain ⟨p, worthP, -⟩ := Scope.worth_unique exactLeft storesLeft
      obtain ⟨q, worthQ, -⟩ := Scope.worth_unique exactRight storesRight
      rw [value doc p q storesLeft storesRight worthP worthQ,
        value' doc p q (storesLeft' storesLeft) (storesRight' storesRight) (worthLeft p worthP)
          (worthRight q worthQ)]

/-- A field of 16 bits that need not be there. -/
def ranked : Schema := ⟨"Entry", none, [("rank", .optional (.scalar .int16))]⟩

theorem exact_comparison_of_rank :
    ∃ check, Filter.check ⟨.comparison .gt (.field ⟨["rank"]⟩) (.constant (.captured "least")),
        [("least", .int64 2)]⟩ ranked = .ok check ∧
      check.eval (.object [("rank", .number (.whole 3))]) = some true ∧
      check.eval (.object [("rank", .null)]) = none := by
  have exactLeft : Scope.Exact ⟨ranked, [("least", .int64 2)]⟩ (.field ⟨["rank"]⟩) .int16 :=
    .field rfl rfl rfl
  have exactRight :
      Scope.Exact ⟨ranked, [("least", .int64 2)]⟩ (.constant (.captured "least")) .int64 :=
    .constant rfl rfl rfl
  obtain ⟨check, checked, value, null, -⟩ := exact_comparison exactLeft exactRight .gt
  obtain ⟨p, q, worthP, worthQ, eval⟩ := value (.object [("rank", .number (.whole 3))])
    (.field rfl rfl rfl (.integer rfl (by decide))) (.constant _)
  have three := (worthP _).mp (.field rfl (.whole 3))
  have two := (worthQ _).mp (.constant rfl rfl)
  refine ⟨check, checked, ?_, null _ (.inl (.null rfl))⟩
  rw [eval, ← three, ← two]
  rfl

end DocStore
