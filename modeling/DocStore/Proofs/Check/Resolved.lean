import DocStore.Proofs.Trees

/-!
# Captures as literals

A predicate with the values of its captures written in their places.

* `Filter.resolved`: the predicate of a filter, every capture that has a value replaced by it;
* `check_resolved`: a filter is checked as its resolved predicate is without captures.
-/

namespace DocStore

/-- The constant, or its value if it is a capture that has one. -/
def Constant.resolve (captures : Captures) : Constant → Constant
  | .literal v => .literal v
  | .captured name =>
    match KeyList.find? name captures with
    | some v => .literal v
    | none => .captured name

def Operand.resolve (captures : Captures) : Operand → Operand
  | .field path => .field path
  | .constant c => .constant (c.resolve captures)
  | .label path => .label path
  | .lower inner => .lower (resolve captures inner)
  | .upper inner => .upper (resolve captures inner)

namespace Predicate

mutual

def resolve (captures : Captures) : Predicate → Predicate
  | .comparison op left right => .comparison op (left.resolve captures) (right.resolve captures)
  | .logical connective operands => .logical connective (resolveAll captures operands)
  | .textual op receiver args =>
    .textual op (receiver.resolve captures) (args.map (Operand.resolve captures))
  | .member path value => .member path (value.resolve captures)
  | .hasValue path => .hasValue path
  | .flag path => .flag path
  | .constant value => .constant (value.resolve captures)

def resolveAll (captures : Captures) : List Predicate → List Predicate
  | [] => []
  | p :: rest => resolve captures p :: resolveAll captures rest

end

end Predicate

/-- The predicate with every capture that has a value replaced by it. -/
def Filter.resolved (filter : Filter) : Predicate := filter.predicate.resolve filter.captures

namespace Scope

variable {schema : Schema} {captures : Captures}

theorem constant_resolve (c : Constant) :
    constant ⟨schema, []⟩ (c.resolve captures) = constant ⟨schema, captures⟩ c := by
  cases c with
  | literal v => rfl
  | captured name =>
    cases found : KeyList.find? name captures with
    | some v => simp only [Constant.resolve, constant, found]
    | none =>
      have empty : KeyList.find? name ([] : Captures) = none := rfl
      simp only [Constant.resolve, constant, found, empty]

theorem operand_resolve (o : Operand) :
    operand ⟨schema, []⟩ (o.resolve captures) = operand ⟨schema, captures⟩ o := by
  induction o with
  | field path => rfl
  | constant c => simp only [Operand.resolve, operand, constant_resolve]
  | label path => rfl
  | lower inner ih => simp only [Operand.resolve, operand, ih]
  | upper inner ih => simp only [Operand.resolve, operand, ih]

theorem nullTerm_resolve (o : Operand) (typed : TypedTerm) :
    nullTerm (o.resolve captures) typed = nullTerm o typed := by
  cases o <;> rfl

theorem comparison_resolve (op : CompareOp) (left right : Operand) :
    comparison ⟨schema, []⟩ op (left.resolve captures) (right.resolve captures) =
      comparison ⟨schema, captures⟩ op left right := by
  simp only [comparison, operand_resolve, nullTerm_resolve]

theorem arrayField_resolve (op : TextOp) (receiver : Operand) :
    arrayField ⟨schema, []⟩ op (receiver.resolve captures) =
      arrayField ⟨schema, captures⟩ op receiver := by
  cases op <;> cases receiver <;> rfl

theorem textCheck_resolve (op : TextOp) (receiver : Operand) (args : List Operand) :
    textCheck ⟨schema, []⟩ op (receiver.resolve captures) (args.map (Operand.resolve captures)) =
      textCheck ⟨schema, captures⟩ op receiver args := by
  cases args <;> simp only [textCheck, textOperand, operand_resolve, List.map_nil, List.map_cons]

theorem textual_resolve (op : TextOp) (receiver : Operand) (args : List Operand) :
    textual ⟨schema, []⟩ op (receiver.resolve captures) (args.map (Operand.resolve captures)) =
      textual ⟨schema, captures⟩ op receiver args := by
  have membership (path : FieldPath) (value : Value) :
      membership ⟨schema, []⟩ path value = Scope.membership ⟨schema, captures⟩ path value := rfl
  simp only [textual, List.length_map, arrayField_resolve, textCheck_resolve]
  match args with
  | [] => rfl
  | [.constant c] =>
    simp only [List.map_cons, List.map_nil, Operand.resolve, constant_resolve, membership]
  | [.field _] | [.label _] | [.lower _] | [.upper _] => rfl
  | first :: _ :: _ => cases first <;> rfl

theorem checkAll_resolve {ps : List Predicate}
    (each : ∀ p ∈ ps, check ⟨schema, []⟩ (p.resolve captures) = check ⟨schema, captures⟩ p) :
    checkAll ⟨schema, []⟩ (Predicate.resolveAll captures ps) = checkAll ⟨schema, captures⟩ ps := by
  induction ps with
  | nil => rfl
  | cons p rest ih =>
    rw [Predicate.resolveAll, checkAll, checkAll, each p (List.mem_cons_self ..),
      ih fun q hq => each q (List.mem_cons_of_mem _ hq)]

theorem check_resolve (p : Predicate) :
    check ⟨schema, []⟩ (p.resolve captures) = check ⟨schema, captures⟩ p := by
  induction p with
  | comparison op left right => exact comparison_resolve op left right
  | logical connective operands ih =>
    simp only [Predicate.resolve, check, checkAll_resolve ih]
  | textual op receiver args => exact textual_resolve op receiver args
  | member path value =>
    simp only [Predicate.resolve, check, constant_resolve]
    rfl
  | hasValue path => rfl
  | flag path => rfl
  | constant value => simp only [Predicate.resolve, check, constant_resolve]

end Scope

/-- A filter is checked as its resolved predicate is without captures. -/
theorem check_resolved (filter : Filter) (schema : Schema) :
    filter.check schema = Filter.check ⟨filter.resolved, []⟩ schema :=
  (Scope.check_resolve filter.predicate).symm

end DocStore
