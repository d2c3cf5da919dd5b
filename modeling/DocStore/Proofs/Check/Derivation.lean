import DocStore.Proofs.Trees
import Mathlib.Data.List.Forall2

/-!
# How a predicate is checked

The rules by which a successful check comes about, one for each way that a part of a predicate may
be taken.

* `Scope.Reads`: what an operand is read as;
* `Scope.Takes`: what a predicate that is no connective is checked to;
* `Scope.check_induction`: what holds of every rule holds of every predicate that passes its check.
-/

namespace DocStore

/-- A sequence succeeds where both of its parts do. -/
theorem bind_eq_ok {ε α β : Type} {x : Except ε α} {f : α → Except ε β} {b : β} :
    (x >>= f) = .ok b ↔ ∃ a, x = .ok a ∧ f a = .ok b := by
  cases x <;> simp [bind, Except.bind]

theorem map_eq_ok {ε α β : Type} {x : Except ε α} {f : α → β} {b : β} :
    x.map f = .ok b ↔ ∃ a, x = .ok a ∧ f a = b := by
  cases x <;> simp [Except.map]

theorem pure_eq_ok {ε α : Type} {a b : α} : (pure a : Except ε α) = .ok b ↔ a = b := by
  simp [pure, Except.pure]

namespace Scope

variable {scope : Scope}

theorem refuse_ne_ok {α : Type} {cause : Unsupported} {a : α} : ¬ refuse cause = .ok a := by
  simp [refuse]

/-! ## Operands -/

/-- What an operand is read as: a typed term, or nothing where it is the null constant. -/
inductive Reads (scope : Scope) : Operand → Option TypedTerm → Prop
  | field {path field type} (resolved : scope.schema.resolve path = .ok field)
      (leaf : field.type = .scalar type) : Reads scope (.field path) (some ⟨.field path type, type⟩)
  | constant {c value} (found : scope.constant c = .ok value) :
      Reads scope (.constant c) (typedConstant value)
  | label {path field name variants} (resolved : scope.schema.resolve path = .ok field)
      (enumerated : field.type = .scalar (.enumeration name variants)) :
      Reads scope (.label path) (some ⟨.label path variants, .text⟩)
  | lower {inner term} (text : Reads scope inner (some ⟨term, .text⟩)) :
      Reads scope (.lower inner) (some ⟨.lower term, .text⟩)
  | upper {inner term} (text : Reads scope inner (some ⟨term, .text⟩)) :
      Reads scope (.upper inner) (some ⟨.upper term, .text⟩)

theorem asText_eq_ok {method : String} {typed : Option TypedTerm} {term : Term} :
    asText method typed = .ok term ↔ typed = some ⟨term, .text⟩ := by
  unfold asText
  split <;> simp_all [refuse]

theorem reads_of_operand {o : Operand} {typed : Option TypedTerm}
    (h : scope.operand o = .ok typed) : scope.Reads o typed := by
  induction o generalizing typed with
  | field path =>
    simp only [operand, leaf, map_eq_ok, bind_eq_ok] at h
    obtain ⟨t, ⟨field, resolved, h⟩, rfl⟩ := h
    cases leaf : field.type with
    | scalar type =>
      simp only [leaf, FieldType.scalar?, pure_eq_ok] at h
      subst h
      exact .field resolved leaf
    | object | array => simp [leaf, FieldType.scalar?, refuse] at h
  | constant c =>
    simp only [operand, map_eq_ok] at h
    obtain ⟨value, found, rfl⟩ := h
    exact .constant found
  | label path =>
    simp only [operand, label, map_eq_ok, bind_eq_ok] at h
    obtain ⟨t, ⟨field, resolved, h⟩, rfl⟩ := h
    split at h
    · rename_i enumerated
      cases h
      exact .label resolved enumerated
    · exact absurd h refuse_ne_ok
  | lower inner ih =>
    simp only [operand, bind_eq_ok, asText_eq_ok, pure_eq_ok] at h
    obtain ⟨_, read, term, rfl, rfl⟩ := h
    exact .lower (ih read)
  | upper inner ih =>
    simp only [operand, bind_eq_ok, asText_eq_ok, pure_eq_ok] at h
    obtain ⟨_, read, term, rfl, rfl⟩ := h
    exact .upper (ih read)

theorem reads_of_textOperand {op : TextOp} {o : Operand} {term : Term}
    (h : scope.textOperand op o = .ok term) : scope.Reads o (some ⟨term, .text⟩) := by
  simp only [textOperand, bind_eq_ok, asText_eq_ok] at h
  obtain ⟨_, read, rfl⟩ := h
  exact reads_of_operand read

/-! ## Conditions -/

/-- Membership of a constant in an array of scalars, with the constant brought to the comparison
type. -/
structure Belongs (scope : Scope) (path : FieldPath) (value : Value) (element : ScalarType)
    (comparand : Comparand) (bound : Value) : Prop where
  array : ∃ field, scope.schema.resolve path = .ok field ∧ field.type = .array (.scalar element)
  comparable : ∃ type, value.scalarType? = some type ∧ Comparand.of .eq element type = .ok comparand
  converted : value.under comparand = .ok bound

/-- What a predicate that is no connective is checked to. -/
inductive Takes (scope : Scope) : Predicate → Check → Prop
  | nullLeft {op left right typed} (null : scope.Reads left none)
      (other : scope.Reads right (some typed)) (equality : op.isEquality) :
      Takes scope (.comparison op left right) (.isNull (nullTerm right typed) (op == .ne))
  | nullRight {op left right typed} (other : scope.Reads left (some typed))
      (null : scope.Reads right none) (equality : op.isEquality) :
      Takes scope (.comparison op left right) (.isNull (nullTerm left typed) (op == .ne))
  | compare {op left right l r comparand l' r'} (first : scope.Reads left (some l))
      (second : scope.Reads right (some r)) (common : Comparand.of op l.type r.type = .ok comparand)
      (fitFirst : fit op comparand l = .ok l') (fitSecond : fit op comparand r = .ok r') :
      Takes scope (.comparison op left right) (.compare op comparand l' r')
  | blank {op receiver term} (text : scope.Reads receiver (some ⟨term, .text⟩))
      (blank : op = .isNullOrWhiteSpace) : Takes scope (.textual op receiver []) (.blank term)
  | search {op receiver argument s t pattern} (text : scope.Reads receiver (some ⟨s, .text⟩))
      (part : scope.Reads argument (some ⟨t, .text⟩)) (sought : patternOf op = some pattern) :
      Takes scope (.textual op receiver [argument]) (.search pattern s t)
  | equals {op receiver argument s t} (text : scope.Reads receiver (some ⟨s, .text⟩))
      (other : scope.Reads argument (some ⟨t, .text⟩)) (equals : op = .equals) :
      Takes scope (.textual op receiver [argument]) (.compare .eq (.typed .text) s t)
  | arrayContains {path c value element comparand bound} (found : scope.constant c = .ok value)
      (belongs : scope.Belongs path value element comparand bound) :
      Takes scope (.textual .contains (.field path) [.constant c])
        (.member path element comparand bound)
  | member {path c value element comparand bound} (found : scope.constant c = .ok value)
      (belongs : scope.Belongs path value element comparand bound) :
      Takes scope (.member path c) (.member path element comparand bound)
  | hasValue {path field} (resolved : scope.schema.resolve path = .ok field)
      (nullable : field.nullable) : Takes scope (.hasValue path) (.hasValue path)
  | flag {path field} (resolved : scope.schema.resolve path = .ok field)
      (truth : field.type = .scalar .bool) : Takes scope (.flag path) (.flag path)
  | literal {c b} (found : scope.constant c = .ok (.bool b)) :
      Takes scope (.constant c) (.literal b)

theorem takes_of_comparison {op : CompareOp} {left right : Operand} {c : Check}
    (h : scope.comparison op left right = .ok c) : scope.Takes (.comparison op left right) c := by
  simp only [comparison, bind_eq_ok] at h
  obtain ⟨l, hl, r, hr, h⟩ := h
  have first := reads_of_operand hl
  have second := reads_of_operand hr
  match l, r with
  | none, none => exact absurd h refuse_ne_ok
  | none, some typed =>
    cases equality : op.isEquality <;> simp only [equality] at h
    · exact absurd h refuse_ne_ok
    · cases h
      exact .nullLeft first second equality
  | some typed, none =>
    cases equality : op.isEquality <;> simp only [equality] at h
    · exact absurd h refuse_ne_ok
    · cases h
      exact .nullRight first second equality
  | some l, some r =>
    simp only [bind_eq_ok, pure_eq_ok] at h
    obtain ⟨comparand, common, l', fitFirst, r', fitSecond, rfl⟩ := h
    exact .compare first second common fitFirst fitSecond

theorem membership_eq_ok {path : FieldPath} {value : Value} {c : Check}
    (h : scope.membership path value = .ok c) :
    ∃ element comparand bound, scope.Belongs path value element comparand bound ∧
      c = .member path element comparand bound := by
  simp only [membership, bind_eq_ok] at h
  obtain ⟨field, resolved, h⟩ := h
  split at h
  · rename_i element array
    split at h
    · exact absurd h refuse_ne_ok
    · rename_i type kind
      simp only [bind_eq_ok, pure_eq_ok] at h
      obtain ⟨comparand, common, bound, converted, rfl⟩ := h
      exact ⟨element, comparand, bound, ⟨⟨field, resolved, array⟩, ⟨type, kind, common⟩, converted⟩,
        rfl⟩
  · exact absurd h refuse_ne_ok
  · exact absurd h refuse_ne_ok

theorem takes_of_textCheck {op : TextOp} {receiver : Operand} {args : List Operand} {c : Check}
    (arity : args.length = op.arity) (h : scope.textCheck op receiver args = .ok c) :
    scope.Takes (.textual op receiver args) c := by
  simp only [textCheck, bind_eq_ok] at h
  obtain ⟨s, read, h⟩ := h
  have text := reads_of_textOperand read
  match args with
  | [] =>
    cases h
    exact .blank text (by cases op <;> simp [TextOp.arity] at arity ⊢)
  | [argument] =>
    simp only [bind_eq_ok] at h
    obtain ⟨t, readArgument, h⟩ := h
    have other := reads_of_textOperand readArgument
    split at h
    · rename_i pattern sought
      cases h
      exact .search text other sought
    · cases h
      exact .equals text other (by cases op <;> simp [TextOp.arity, patternOf] at *)
  | _ :: _ :: _ => cases op <;> simp [TextOp.arity] at arity

theorem arrayField_eq_some {op : TextOp} {receiver : Operand} {path : FieldPath}
    (h : scope.arrayField op receiver = .ok (some path)) :
    op = .contains ∧ receiver = .field path := by
  unfold arrayField at h
  split at h
  · simp only [bind_eq_ok] at h
    obtain ⟨field, _, h⟩ := h
    split at h <;> cases h
    exact ⟨rfl, rfl⟩
  · cases h

theorem takes_of_textual {op : TextOp} {receiver : Operand} {args : List Operand} {c : Check}
    (h : scope.textual op receiver args = .ok c) : scope.Takes (.textual op receiver args) c := by
  simp only [textual] at h
  split at h
  · exact absurd h refuse_ne_ok
  · rename_i arity
    simp only [bind_eq_ok] at h
    obtain ⟨array, found, h⟩ := h
    cases array with
    | none => exact takes_of_textCheck (by omega) h
    | some path =>
      obtain ⟨rfl, rfl⟩ := arrayField_eq_some found
      simp only at h
      split at h
      · simp only [bind_eq_ok] at h
        obtain ⟨value, found, h⟩ := h
        obtain ⟨element, comparand, bound, belongs, rfl⟩ := membership_eq_ok h
        exact .arrayContains found belongs
      · exact absurd h refuse_ne_ok

/-! ## Predicates -/

theorem checkAll_eq_ok {ps : List Predicate} {cs : List Check} :
    scope.checkAll ps = .ok cs ↔ List.Forall₂ (fun p c => scope.check p = .ok c) ps cs := by
  induction ps generalizing cs with
  | nil => cases cs <;> simp [checkAll]
  | cons p rest ih =>
    simp only [checkAll, bind_eq_ok, pure_eq_ok, ih]
    cases cs with
    | nil => simp
    | cons c cs => simp [and_left_comm]

theorem check_logical_eq_ok {connective : Connective} {ps : List Predicate} {c : Check} :
    scope.check (.logical connective ps) = .ok c ↔
      ∃ cs, List.Forall₂ (fun p c => scope.check p = .ok c) ps cs ∧
        logical connective cs = .ok c := by
  simp only [check, bind_eq_ok, checkAll_eq_ok]

theorem check_neg (p : Predicate) : scope.check p.neg = (scope.check p).map Check.not := by
  rw [Predicate.neg, check, checkAll]
  cases scope.check p <;> rfl

/-- What holds of every rule, and of a connective whenever it holds of the operands, holds of every
predicate that passes its check. -/
theorem check_induction {motive : Predicate → Check → Prop}
    (takes : ∀ {p c}, scope.Takes p c → motive p c)
    (and : ∀ {ps cs}, List.Forall₂ motive ps cs → motive (.logical .and ps) (.all cs))
    (or : ∀ {ps cs}, List.Forall₂ motive ps cs → motive (.logical .or ps) (.any cs))
    (not : ∀ {p c}, motive p c → motive (.logical .not [p]) (.not c))
    {p : Predicate} {c : Check} (h : scope.check p = .ok c) : motive p c := by
  induction p generalizing c with
  | comparison op left right => exact takes (takes_of_comparison h)
  | logical connective ps ih =>
    obtain ⟨cs, all, joined⟩ := check_logical_eq_ok.mp h
    have each : List.Forall₂ motive ps cs := by
      clear h joined
      induction all with
      | nil => exact .nil
      | cons first _ rest =>
        exact .cons (ih _ (List.mem_cons_self ..) first)
          (rest fun p hp => ih p (List.mem_cons_of_mem _ hp))
    cases connective with
    | and => cases joined; exact and each
    | or => cases joined; exact or each
    | not =>
      match each with
      | .nil => exact absurd joined refuse_ne_ok
      | .cons first .nil => cases joined; exact not first
      | .cons _ (.cons _ _) => exact absurd joined refuse_ne_ok
  | textual op receiver args => exact takes (takes_of_textual h)
  | member path value =>
    simp only [check, bind_eq_ok] at h
    obtain ⟨v, found, h⟩ := h
    obtain ⟨element, comparand, bound, belongs, rfl⟩ := membership_eq_ok h
    exact takes (.member found belongs)
  | hasValue path =>
    simp only [check, bind_eq_ok] at h
    obtain ⟨field, resolved, h⟩ := h
    split at h
    · rename_i nullable
      cases h
      exact takes (.hasValue resolved nullable)
    · exact absurd h refuse_ne_ok
  | flag path =>
    simp only [check, bind_eq_ok] at h
    obtain ⟨field, resolved, h⟩ := h
    split at h
    · rename_i truth
      cases h
      exact takes (.flag resolved truth)
    · exact absurd h refuse_ne_ok
  | constant c =>
    simp only [check, bind_eq_ok] at h
    obtain ⟨v, found, h⟩ := h
    split at h
    · cases h
      exact takes (.literal found)
    · exact absurd h refuse_ne_ok

end Scope

end DocStore
