import DocStore.Proofs.Check.Resolved
import DocStore.Proofs.Check.Typing

/-!
# Constants in their places

The constants of a predicate from left to right, and what the place of each makes of it: in a
comparison and in a test of membership it is brought to the comparison type, and anywhere else it
stays as it is.

* `Predicate.constants`: the literals other than null, in order;
* `Predicate.places`: the same constants, each with the demand of its place;
* `Check.bound`: the constants that are left in a checked predicate, each with its database type;
* `check_bound`: these are the constants of the predicate, converted as their places demand.
-/

namespace DocStore

/-! ## Constants in order -/

/-- The value that a constant stands for, unless it is null. -/
def Constant.values : Constant → List Value
  | .literal .null => []
  | .literal value => [value]
  | .captured _ => []

theorem Constant.values_of_typed {value : Value} {type : ScalarType}
    (h : value.scalarType? = some type) : (literal value).values = [value] := by
  cases value <;> first | rfl | cases h

def Operand.constants : Operand → List Value
  | .field _ => []
  | .constant c => c.values
  | .label _ => []
  | .lower inner => inner.constants
  | .upper inner => inner.constants

namespace Predicate

mutual

/-- The literals of a predicate other than null, from left to right, repeats kept. -/
def constants : Predicate → List Value
  | .comparison _ left right => left.constants ++ right.constants
  | .logical _ operands => constantsOfAll operands
  | .textual _ receiver args => receiver.constants ++ args.flatMap Operand.constants
  | .member _ value => value.values
  | .hasValue _ => []
  | .flag _ => []
  | .constant value => value.values

def constantsOfAll : List Predicate → List Value
  | [] => []
  | p :: rest => constants p ++ constantsOfAll rest

end

end Predicate

/-! ## What a place demands -/

/-- What the place of a constant makes of it. -/
inductive Demand where
  /-- The constant as it is. -/
  | kept
  /-- The constant brought to a comparison type. -/
  | under (comparand : Comparand)
deriving DecidableEq, Repr

namespace Demand

/-- What is made of a constant. -/
def convert (demand : Demand) (value : Value) : Except QueryError Value :=
  match demand with
  | .kept => .ok value
  | .under comparand => value.under comparand

/-- The demand of a comparison of two types.  Nothing is compared with what has no type. -/
def ofTypes (op : CompareOp) (left right : Option ScalarType) : Demand :=
  match left, right with
  | some left, some right => ((Comparand.of? op left right).map under).getD kept
  | _, _ => kept

@[simp] theorem ofTypes_none_left (op : CompareOp) (right : Option ScalarType) :
    ofTypes op none right = kept := rfl

@[simp] theorem ofTypes_none_right (op : CompareOp) (left : Option ScalarType) :
    ofTypes op left none = kept := by
  cases left <;> rfl

theorem ofTypes_of {op : CompareOp} {left right : ScalarType} {comparand : Comparand}
    (h : Comparand.of op left right = .ok comparand) :
    ofTypes op (some left) (some right) = under comparand := by
  unfold Comparand.of at h
  split at h
  · rename_i found
    cases h
    simp [ofTypes, found]
  · cases h

end Demand

/-- A constant with the demand of its place. -/
structure Place where
  constant : Value
  demand : Demand
deriving DecidableEq, Repr

/-- What is bound for a constant in its place. -/
def Place.converted (place : Place) : Except QueryError Value := place.demand.convert place.constant

/-- The scalar type of the elements of an array field. -/
def Schema.elementType? (schema : Schema) (path : FieldPath) : Option ScalarType :=
  match schema.resolve path with
  | .ok ⟨.array (.scalar element), _⟩ => some element
  | _ => none

def Constant.type? : Constant → Option ScalarType
  | .literal value => value.scalarType?
  | .captured _ => none

/-- The scalar type of an operand.  Null has none. -/
def Operand.type? (schema : Schema) : Operand → Option ScalarType
  | .field path => (schema.resolve path).toOption.bind fun field => field.type.scalar?
  | .constant c => c.type?
  | .label _ => some .text
  | .lower _ => some .text
  | .upper _ => some .text

def Constant.places (demand : Demand) (c : Constant) : List Place :=
  c.values.map fun value => ⟨value, demand⟩

/-- The constants of an operand.  A constant whose case is folded stays as it is, whatever is demanded
of the operand. -/
def Operand.places (demand : Demand) : Operand → List Place
  | .constant c => c.places demand
  | o => o.constants.map fun value => ⟨value, .kept⟩

/-- The demand on the argument of a text operation: on an array field it is a test of membership. -/
def argumentDemand (schema : Schema) (op : TextOp) (receiver argument : Operand) : Demand :=
  match op, receiver with
  | .contains, .field path => .ofTypes .eq (schema.elementType? path) (argument.type? schema)
  | _, _ => .kept

namespace Predicate

mutual

/-- The constants of a predicate from left to right, each with the demand of its place. -/
def places (schema : Schema) : Predicate → List Place
  | .comparison op left right =>
    let demand := Demand.ofTypes op (left.type? schema) (right.type? schema)
    left.places demand ++ right.places demand
  | .logical _ operands => placesOfAll schema operands
  | .textual op receiver args =>
    receiver.places .kept ++
      args.flatMap fun argument => argument.places (argumentDemand schema op receiver argument)
  | .member path value => value.places (.ofTypes .eq (schema.elementType? path) value.type?)
  | .hasValue _ => []
  | .flag _ => []
  | .constant value => value.places .kept

def placesOfAll (schema : Schema) : List Predicate → List Place
  | [] => []
  | p :: rest => places schema p ++ placesOfAll schema rest

end

end Predicate

@[simp] theorem Constant.constant_places (demand : Demand) (c : Constant) :
    (c.places demand).map Place.constant = c.values := by
  simp [places, Function.comp_def]

@[simp] theorem Operand.constant_places (demand : Demand) (o : Operand) :
    (o.places demand).map Place.constant = o.constants := by
  cases o with
  | constant c => exact c.constant_places demand
  | _ => simp [places, Function.comp_def]

/-- The places of a predicate hold its constants, in order. -/
theorem Predicate.constant_places (schema : Schema) (p : Predicate) :
    (p.places schema).map Place.constant = p.constants := by
  induction p with
  | comparison op left right => simp [places, constants]
  | logical connective operands ih =>
    simp only [places, constants]
    induction operands with
    | nil => rfl
    | cons p rest step =>
      obtain ⟨first, others⟩ := List.forall_mem_cons.mp ih
      rw [placesOfAll, constantsOfAll, List.map_append, first, step others]
  | textual op receiver args => simp [places, constants, List.map_flatMap]
  | member path value => exact value.constant_places _
  | hasValue path => rfl
  | flag path => rfl
  | constant value => exact value.constant_places _

/-! ## Constants of a checked predicate -/

/-- A constant with the database type that it is bound under. -/
abbrev Bound := Value × SqlType

namespace Term

/-- The constants of an operand as a text. -/
def boundText : Term → List Bound
  | .lower inner => inner.boundText
  | .upper inner => inner.boundText
  | .constant value => [(value, .text)]
  | _ => []

/-- The constants of an operand under a comparison type. -/
def bound (comparand : Comparand) : Term → List Bound
  | .constant value => [(value, comparand.sqlType)]
  | term => term.boundText

/-- The constants of an operand that is tested for null, each of its own type. -/
def boundNatural : Term → List Bound
  | .constant value => [(value, (value.scalarType?.map ScalarType.sqlType).getD .text)]
  | term => term.boundText

theorem value_boundNatural (term : Term) :
    term.boundNatural.map Prod.fst = term.boundText.map Prod.fst := by
  cases term <;> rfl

theorem bound_read {term : Term} (read : ∀ v, term ≠ .constant v) (comparand : Comparand) :
    term.bound comparand = term.boundText := by
  cases term with
  | constant v => exact absurd rfl (read v)
  | _ => rfl

end Term

namespace Check

mutual

/-- The constants of a checked predicate from left to right. -/
def bound : Check → List Bound
  | .compare _ comparand left right => left.bound comparand ++ right.bound comparand
  | .isNull term _ => term.boundNatural
  | .search _ receiver argument => receiver.boundText ++ argument.boundText
  | .blank term => term.boundText
  | .member _ _ comparand value => [(value, comparand.sqlType)]
  | .hasValue _ => []
  | .flag _ => []
  | .literal b => [(.bool b, .boolean)]
  | .all operands => boundInAll operands
  | .any operands => boundInAll operands
  | .not operand => bound operand

def boundInAll : List Check → List Bound
  | [] => []
  | c :: rest => bound c ++ boundInAll rest

end

end Check

/-- Whether what is bound are the constants of some places, one for each and in order, converted as
the places demand. -/
def Converted (places : List Place) (bound : List Bound) : Prop :=
  List.Forall₂ (fun place b => place.converted = .ok b.1) places bound

namespace Converted

theorem append {ps qs : List Place} {bs cs : List Bound} (first : Converted ps bs)
    (second : Converted qs cs) : Converted (ps ++ qs) (bs ++ cs) :=
  List.rel_append first second

/-- Constants that are kept are bound as they are. -/
theorem kept {values : List Value} {bs : List Bound} (h : bs.map Prod.fst = values) :
    Converted (values.map fun value => ⟨value, .kept⟩) bs := by
  subst h
  induction bs with
  | nil => exact .nil
  | cons b rest ih => exact .cons rfl ih

end Converted

namespace Scope

variable {schema : Schema}

/-- The literal that a constant is, where captures have been replaced. -/
theorem constant_eq_ok {c : Constant} {value : Value}
    (h : constant ⟨schema, []⟩ c = .ok value) : c = .literal value := by
  cases c with
  | literal v =>
    cases h
    rfl
  | captured name => cases h

theorem Reads.type? {o : Operand} {typed : Option TypedTerm}
    (h : Reads ⟨schema, []⟩ o typed) : o.type? schema = typed.map TypedTerm.type := by
  cases h with
  | field resolved leaf =>
    have found : schema.resolve _ = .ok _ := resolved
    simp [Operand.type?, found, Except.toOption, leaf, FieldType.scalar?]
  | @constant c value found =>
    obtain rfl := constant_eq_ok found
    simp [Operand.type?, Constant.type?, typedConstant, Function.comp_def]
  | label | lower | upper => rfl

/-- An operand that is read holds the constants that it is read with. -/
theorem Reads.boundText {o : Operand} {typed : TypedTerm}
    (h : Reads ⟨schema, []⟩ o (some typed)) :
    typed.term.boundText.map Prod.fst = o.constants := by
  generalize same : some typed = result at h
  induction h generalizing typed with
  | field | label =>
    cases same
    rfl
  | @constant c value found =>
    obtain rfl := constant_eq_ok found
    obtain ⟨type, kind, rfl⟩ := Option.map_eq_some_iff.mp same.symm
    exact (Constant.values_of_typed kind).symm
  | lower _ ih =>
    cases same
    have inside := ih rfl
    exact inside
  | upper _ ih =>
    cases same
    have inside := ih rfl
    exact inside

/-- Null has no constants to be bound. -/
theorem Reads.constants_of_null {o : Operand} (h : Reads ⟨schema, []⟩ o none) :
    o.constants = [] := by
  generalize same : none = result at h
  cases h with
  | @constant c value found =>
    obtain rfl := constant_eq_ok found
    have null : value.scalarType? = none := Option.map_eq_none_iff.mp same.symm
    cases value <;> first | rfl | cases null
  | field | label | lower | upper => cases same

/-- What is read as a constant is a constant. -/
theorem Reads.constant_iff {o : Operand} {typed : TypedTerm}
    (h : Reads ⟨schema, []⟩ o (some typed)) (v : Value) :
    typed.term = .constant v ↔ o = .constant (.literal v) := by
  generalize same : some typed = result at h
  cases h with
  | @constant c value found =>
    obtain rfl := constant_eq_ok found
    obtain ⟨type, kind, rfl⟩ := Option.map_eq_some_iff.mp same.symm
    simp
  | field | label | lower | upper =>
    cases same
    simp

/-- Where nothing is demanded, constants stay as they are. -/
theorem places_kept (o : Operand) :
    o.places .kept = o.constants.map fun value => ⟨value, .kept⟩ := by
  cases o <;> rfl

theorem Reads.kept {o : Operand} {typed : TypedTerm} (h : Reads ⟨schema, []⟩ o (some typed)) :
    Converted (o.places .kept) typed.term.boundText := by
  rw [places_kept]
  exact .kept h.boundText

theorem Reads.nothing {o : Operand} (h : Reads ⟨schema, []⟩ o none) : o.places .kept = [] := by
  rw [places_kept, h.constants_of_null]
  rfl

/-- An operand that is tested for null holds its constants as they are. -/
theorem Reads.tested {o : Operand} {typed : TypedTerm} (h : Reads ⟨schema, []⟩ o (some typed)) :
    Converted (o.places .kept) (nullTerm o typed).boundNatural := by
  cases o with
  | field path => exact .nil
  | _ =>
    rw [places_kept]
    exact .kept ((Term.value_boundNatural _).trans h.boundText)

/-- What an operand is brought to holds the constants of the operand, converted if the operand is one
itself. -/
theorem Reads.fitted {op : CompareOp} {comparand : Comparand} {o : Operand} {typed : TypedTerm}
    {term : Term} (h : Reads ⟨schema, []⟩ o (some typed)) (fits : fit op comparand typed = .ok term) :
    Converted (o.places (.under comparand)) (term.bound comparand) := by
  rcases fit_eq_ok fits with ⟨v, w, constant, converted, rfl⟩ | ⟨other, rfl⟩
  · have held := h.boundText
    rw [constant] at held
    obtain rfl := (h.constant_iff v).mp constant
    have values : [v] = (Constant.literal v).values := held
    simp only [Operand.places, Constant.places, ← values]
    exact .cons converted .nil
  · have places : o.places (.under comparand) = o.places .kept := by
      cases o with
      | constant c =>
        cases c with
        | literal v => exact absurd ((h.constant_iff v).mpr rfl) (other v)
        | captured name => rfl
      | _ => rfl
    rw [Term.bound_read other, places]
    exact h.kept

theorem Belongs.demand {path : FieldPath} {value bound : Value} {element : ScalarType}
    {comparand : Comparand} (h : Belongs ⟨schema, []⟩ path value element comparand bound) :
    Demand.ofTypes .eq (schema.elementType? path) value.scalarType? = .under comparand := by
  obtain ⟨⟨type, nullable⟩, resolved, array⟩ := h.array
  obtain ⟨kind, typed, common⟩ := h.comparable
  have resolved : schema.resolve path = .ok ⟨type, nullable⟩ := resolved
  have element : schema.elementType? path = some element := by
    cases array
    simp [Schema.elementType?, resolved]
  rw [element, typed]
  exact Demand.ofTypes_of common

/-- A text is searched as a text even where an array would be tested. -/
theorem Reads.argumentDemand {receiver : Operand} {typed : TypedTerm}
    (h : Reads ⟨schema, []⟩ receiver (some typed)) (op : TextOp) (argument : Operand) :
    argumentDemand schema op receiver argument = .kept := by
  generalize same : some typed = result at h
  cases h with
  | @field path field type resolved leaf =>
    have resolved : schema.resolve path = .ok field := resolved
    have noArray : schema.elementType? path = none := by
      obtain ⟨fieldType, nullable⟩ := field
      cases leaf
      simp [Schema.elementType?, resolved]
    cases op <;> simp [DocStore.argumentDemand, noArray]
  | _ => cases op <;> rfl

/-- A member of an array is converted for the comparison with its elements. -/
theorem Belongs.converted_places {path : FieldPath} {c : Constant} {value bound : Value}
    {element : ScalarType} {comparand : Comparand} (found : constant ⟨schema, []⟩ c = .ok value)
    (h : Belongs ⟨schema, []⟩ path value element comparand bound) :
    Converted (c.places (.ofTypes .eq (schema.elementType? path) c.type?))
      [(bound, comparand.sqlType)] := by
  obtain rfl := constant_eq_ok found
  obtain ⟨kind, typed, _⟩ := h.comparable
  have demand : Demand.ofTypes .eq (schema.elementType? path) (Constant.literal value).type? =
      .under comparand := h.demand
  rw [demand, Constant.places, Constant.values_of_typed typed]
  exact .cons h.converted .nil

theorem Takes.converted {p : Predicate} {c : Check} (h : Takes ⟨schema, []⟩ p c) :
    Converted (p.places schema) c.bound := by
  cases h with
  | nullLeft null other equality =>
    rw [Predicate.places, null.type?, Option.map_none, Demand.ofTypes_none_left, null.nothing]
    exact other.tested
  | nullRight other null equality =>
    rw [Predicate.places, null.type?, Option.map_none, Demand.ofTypes_none_right, null.nothing,
      List.append_nil]
    exact other.tested
  | compare first second common fitFirst fitSecond =>
    rw [Predicate.places, first.type?, second.type?, Option.map_some, Option.map_some,
      Demand.ofTypes_of common]
    exact (first.fitted fitFirst).append (second.fitted fitSecond)
  | blank text blank =>
    rw [Predicate.places, List.flatMap_nil, List.append_nil]
    exact text.kept
  | search text part sought =>
    rw [Predicate.places, List.flatMap_singleton, text.argumentDemand]
    exact text.kept.append part.kept
  | equals text other equals =>
    rw [Predicate.places, List.flatMap_singleton, text.argumentDemand]
    have bound (term : Term) : term.bound (.typed .text) = term.boundText := by
      cases term <;> rfl
    rw [Check.bound, bound, bound]
    exact text.kept.append other.kept
  | arrayContains found belongs =>
    rw [Predicate.places, List.flatMap_singleton]
    exact belongs.converted_places found
  | member found belongs => exact belongs.converted_places found
  | hasValue => exact .nil
  | flag => exact .nil
  | literal found =>
    obtain rfl := constant_eq_ok found
    exact .cons rfl .nil

end Scope

/-- What a checked filter binds are the constants of its predicate, captures replaced by their values,
one for each and in order, converted as their places demand. -/
theorem check_bound {filter : Filter} {schema : Schema} {c : Check}
    (h : filter.check schema = .ok c) : Converted (filter.resolved.places schema) c.bound := by
  have each {ps : List Predicate} {cs : List Check}
      (all : List.Forall₂ (fun p c => Converted (p.places schema) c.bound) ps cs) :
      Converted (Predicate.placesOfAll schema ps) (Check.boundInAll cs) := by
    induction all with
    | nil => exact .nil
    | cons first _ rest => exact first.append rest
  have single {p : Predicate} {c : Check} (inner : Converted (p.places schema) c.bound) :
      Converted (Predicate.placesOfAll schema [p]) c.bound := by
    simpa [Predicate.placesOfAll] using inner
  rw [check_resolved] at h
  exact Scope.check_induction (motive := fun p c => Converted (p.places schema) c.bound)
    Scope.Takes.converted each each single h

end DocStore
