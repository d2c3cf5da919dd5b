import DocStore.Proofs.Check.Derivation
import DocStore.Proofs.Check.Resolved
import DocStore.Sql.Compile

/-!
# Captures stand for their values

A filter says the same as its predicate with the value of every capture in its place.  Only the
captures that occur matter; and where one of them has no value the filter is refused, for want of
the first such capture unless something before it is wrong.

* `Predicate.resolve_captureNames`: no capture is left once all have their values;
* `Predicate.resolve_congr`: captures that do not occur make no difference;
* `Scope.Seeks`: the captures that some part of a check looks up in turn;
* `Scope.check_seeks`: a check looks up the captures of its predicate in the order they occur;
* `captures_substituted`: captures are substitution.
-/

namespace DocStore

/-- Whether there is no value for a name. -/
def Captures.lacks (captures : Captures) (name : String) : Bool :=
  (KeyList.find? name captures).isNone

/-- Whether two collections of captures have the same values for some names. -/
def Captures.AgreeOn (names : List String) (a b : Captures) : Prop :=
  ∀ name ∈ names, KeyList.find? name a = KeyList.find? name b

theorem Captures.AgreeOn.mono {names more : List String} {a b : Captures}
    (agree : AgreeOn more a b) (among : ∀ name ∈ names, name ∈ more) : AgreeOn names a b :=
  fun name mem => agree name (among name mem)

/-! ## Values in the places of captures -/

theorem Constant.resolve_captureNames {captures : Captures} {c : Constant}
    (bound : ∀ name ∈ c.captureNames, captures.lacks name = false) :
    (c.resolve captures).captureNames = [] := by
  cases c with
  | literal v => rfl
  | captured name =>
    have found := bound name (List.mem_singleton_self name)
    cases value : KeyList.find? name captures with
    | none => simp [Captures.lacks, value] at found
    | some v => simp only [resolve, value, captureNames]

theorem Operand.resolve_captureNames {captures : Captures} {o : Operand}
    (bound : ∀ name ∈ o.captureNames, captures.lacks name = false) :
    (o.resolve captures).captureNames = [] := by
  induction o with
  | field path => rfl
  | constant c => exact Constant.resolve_captureNames bound
  | label path => rfl
  | lower inner ih => exact ih bound
  | upper inner ih => exact ih bound

theorem Constant.resolve_congr {a b : Captures} {c : Constant}
    (agree : Captures.AgreeOn c.captureNames a b) : c.resolve a = c.resolve b := by
  cases c with
  | literal v => rfl
  | captured name => simp only [resolve, agree name (List.mem_singleton_self name)]

theorem Operand.resolve_congr {a b : Captures} {o : Operand}
    (agree : Captures.AgreeOn o.captureNames a b) : o.resolve a = o.resolve b := by
  induction o with
  | field path => rfl
  | constant c => exact congrArg Operand.constant (Constant.resolve_congr agree)
  | label path => rfl
  | lower inner ih => exact congrArg Operand.lower (ih agree)
  | upper inner ih => exact congrArg Operand.upper (ih agree)

namespace Predicate

theorem captureNamesOfAll_eq (ps : List Predicate) :
    captureNamesOfAll ps = ps.flatMap captureNames := by
  induction ps with
  | nil => rfl
  | cons p rest ih => rw [captureNamesOfAll, ih, List.flatMap_cons]

theorem resolveAll_eq (captures : Captures) (ps : List Predicate) :
    resolveAll captures ps = ps.map (resolve captures) := by
  induction ps with
  | nil => rfl
  | cons p rest ih => rw [resolveAll, ih, List.map_cons]

/-- No capture is left once all have their values. -/
theorem resolve_captureNames {captures : Captures} {p : Predicate}
    (bound : ∀ name ∈ p.captureNames, captures.lacks name = false) :
    (p.resolve captures).captureNames = [] := by
  induction p with
  | comparison op left right =>
    obtain ⟨onLeft, onRight⟩ := List.forall_mem_append.mp bound
    simp only [resolve, captureNames, Operand.resolve_captureNames onLeft,
      Operand.resolve_captureNames onRight, List.append_nil]
  | logical connective operands ih =>
    simp only [captureNames, captureNamesOfAll_eq] at bound
    simp only [resolve, captureNames, captureNamesOfAll_eq, resolveAll_eq, List.flatMap_eq_nil_iff,
      List.forall_mem_map]
    intro p mem
    exact ih p mem fun name used => bound name (List.mem_flatMap.mpr ⟨p, mem, used⟩)
  | textual op receiver args =>
    obtain ⟨onReceiver, onArgs⟩ := List.forall_mem_append.mp bound
    simp only [resolve, captureNames, Operand.resolve_captureNames onReceiver, List.nil_append,
      List.flatMap_eq_nil_iff, List.forall_mem_map]
    intro o mem
    exact Operand.resolve_captureNames fun name used =>
      onArgs name (List.mem_flatMap.mpr ⟨o, mem, used⟩)
  | member path value => exact Constant.resolve_captureNames bound
  | hasValue path => rfl
  | flag path => rfl
  | constant value => exact Constant.resolve_captureNames bound

/-- Captures that do not occur make no difference. -/
theorem resolve_congr {a b : Captures} {p : Predicate}
    (agree : Captures.AgreeOn p.captureNames a b) : p.resolve a = p.resolve b := by
  induction p with
  | comparison op left right =>
    obtain ⟨onLeft, onRight⟩ := List.forall_mem_append.mp agree
    simp only [resolve, Operand.resolve_congr onLeft, Operand.resolve_congr onRight]
  | logical connective operands ih =>
    simp only [captureNames, captureNamesOfAll_eq] at agree
    simp only [resolve, resolveAll_eq]
    congr 1
    apply List.map_congr_left
    intro p mem
    exact ih p mem (agree.mono fun name used => List.mem_flatMap.mpr ⟨p, mem, used⟩)
  | textual op receiver args =>
    obtain ⟨onReceiver, onArgs⟩ := List.forall_mem_append.mp agree
    simp only [resolve, Operand.resolve_congr onReceiver]
    congr 1
    apply List.map_congr_left
    intro o mem
    exact Operand.resolve_congr fun name used => onArgs name (List.mem_flatMap.mpr ⟨o, mem, used⟩)
  | member path value => exact congrArg (Predicate.member path) (Constant.resolve_congr agree)
  | hasValue path => rfl
  | flag path => rfl
  | constant value => exact congrArg Predicate.constant (Constant.resolve_congr agree)

end Predicate

/-! ## Looking captures up -/

namespace Scope

variable {scope : Scope} {α β : Type}

/-- Whether a result comes of looking some captures up in turn: there is one only if all of them
have values, and it fails for want of a capture only if that is the first without a value. -/
structure Seeks (scope : Scope) (names : List String) (result : Except QueryError α) : Prop where
  found : ∀ a, result = .ok a → ∀ name ∈ names, scope.captures.lacks name = false
  first : ∀ name, result = .error (.unbound name) →
    names.find? scope.captures.lacks = some name

theorem Seeks.ok {a : α} : scope.Seeks [] (.ok a : Except QueryError α) where
  found _ _ _ mem := nomatch mem
  first _ failed := nomatch failed

/-- What is refused for another cause need not have looked anything up. -/
theorem Seeks.refused {names : List String} {cause : Unsupported} :
    scope.Seeks names (.error (.unsupported cause) : Except QueryError α) where
  found _ passed := nomatch passed
  first _ failed := nomatch failed

theorem Seeks.bind {names more : List String} {x : Except QueryError α}
    {f : α → Except QueryError β} (seeks : scope.Seeks names x)
    (next : ∀ a, x = .ok a → scope.Seeks more (f a)) : scope.Seeks (names ++ more) (x >>= f) := by
  cases x with
  | error e =>
    refine ⟨fun _ passed => (nomatch passed), fun name failed => ?_⟩
    have failed : (.error e : Except QueryError α) = .error (.unbound name) := by
      cases failed
      rfl
    rw [List.find?_append, seeks.first name failed, Option.some_or]
  | ok a =>
    have before := seeks.found a rfl
    refine ⟨fun b passed => ?_, fun name failed => ?_⟩
    · exact List.forall_mem_append.mpr ⟨before, (next a rfl).found b passed⟩
    · have none : names.find? scope.captures.lacks = none :=
        List.find?_eq_none.mpr fun name mem => by simp [before name mem]
      rw [List.find?_append, none, Option.none_or]
      exact (next a rfl).first name failed

/-- A step that looks nothing up. -/
theorem Seeks.after {names : List String} {x : Except QueryError α} {f : α → Except QueryError β}
    (seeks : scope.Seeks [] x) (next : ∀ a, x = .ok a → scope.Seeks names (f a)) :
    scope.Seeks names (x >>= f) :=
  seeks.bind next

/-- Steps after the last that looks anything up. -/
theorem Seeks.before {names : List String} {x : Except QueryError α} {f : α → Except QueryError β}
    (seeks : scope.Seeks names x) (next : ∀ a, x = .ok a → scope.Seeks [] (f a)) :
    scope.Seeks names (x >>= f) :=
  List.append_nil names ▸ seeks.bind next

theorem Seeks.map {names : List String} {x : Except QueryError α} (seeks : scope.Seeks names x)
    (f : α → β) : scope.Seeks names (x.map f) :=
  seeks.before fun _ _ => .ok

/-! ### Parts of a check that look nothing up -/

theorem resolveFrom_seeks (schema : Schema) (path : FieldPath) (depth : Nat) (fields : Fields)
    (segments : List String) :
    scope.Seeks [] (schema.resolveFrom path depth fields segments) := by
  fun_induction schema.resolveFrom path depth fields segments with
  | case1 => exact .refused
  | case2 => exact .refused
  | case3 => exact .ok
  | case4 _ _ _ _ _ _ _ _ _ ih => exact ih
  | case5 => exact .refused

theorem resolve_seeks (path : FieldPath) : scope.Seeks [] (scope.schema.resolve path) :=
  resolveFrom_seeks ..

theorem comparand_seeks (op : CompareOp) (left right : ScalarType) :
    scope.Seeks [] (Comparand.of op left right) := by
  unfold Comparand.of
  split
  · exact .ok
  · exact .refused

theorem under_seeks (value : Value) (comparand : Comparand) :
    scope.Seeks [] (value.under comparand) := by
  cases comparand with
  | typed type =>
    simp only [Value.under, Value.coerce]
    split
    · exact .ok
    · exact .refused
  | label variants =>
    simp only [Value.under, Value.enumLabel]
    split
    · exact .ok
    · exact .refused
  | code variants =>
    simp only [Value.under, Value.enumCode]
    split
    · exact .ok
    · exact .refused

theorem fit_seeks (op : CompareOp) (comparand : Comparand) (typed : TypedTerm) :
    scope.Seeks [] (fit op comparand typed) := by
  unfold fit
  split
  · exact (under_seeks _ _).map _
  · exact .ok
  · split
    · exact .ok
    · exact .ok
    · exact .refused

theorem asText_seeks (method : String) (typed : Option TypedTerm) :
    scope.Seeks [] (asText method typed) := by
  unfold asText
  split
  · exact .ok
  · exact .refused

theorem membership_seeks (path : FieldPath) (value : Value) :
    scope.Seeks [] (scope.membership path value) := by
  refine (resolve_seeks path).after fun field _ => ?_
  split
  · split
    · exact .refused
    · exact (comparand_seeks _ _ _).after fun _ _ => (under_seeks _ _).after fun _ _ => .ok
  · exact .refused
  · exact .refused

theorem arrayField_seeks (op : TextOp) (receiver : Operand) :
    scope.Seeks [] (scope.arrayField op receiver) := by
  unfold arrayField
  split
  · refine (resolve_seeks _).after fun field _ => ?_
    split <;> exact .ok
  · exact .ok

theorem logical_seeks (connective : Connective) (operands : List Check) :
    scope.Seeks [] (logical connective operands) := by
  unfold logical
  split
  · exact .ok
  · exact .ok
  · exact .ok
  · exact .refused

/-! ### Operands and predicates -/

theorem constant_seeks (c : Constant) : scope.Seeks c.captureNames (scope.constant c) := by
  cases c with
  | literal v => exact .ok
  | captured name =>
    cases found : KeyList.find? name scope.captures with
    | some v =>
      simp only [constant, found]
      constructor
      · intro _ _
        simp [Constant.captureNames, Captures.lacks, found]
      · intro _ failed
        cases failed
    | none =>
      simp only [constant, found]
      constructor
      · intro _ passed
        cases passed
      · intro _ failed
        cases failed
        simp [Constant.captureNames, Captures.lacks, found]

theorem operand_seeks (o : Operand) : scope.Seeks o.captureNames (scope.operand o) := by
  induction o with
  | field path =>
    refine Seeks.map ((resolve_seeks path).after fun field _ => ?_) _
    split
    · exact .ok
    · exact .refused
  | constant c => exact (constant_seeks c).map _
  | label path =>
    refine Seeks.map ((resolve_seeks path).after fun field _ => ?_) _
    split
    · exact .ok
    · exact .refused
  | lower inner ih => exact ih.before fun _ _ => (asText_seeks _ _).after fun _ _ => .ok
  | upper inner ih => exact ih.before fun _ _ => (asText_seeks _ _).after fun _ _ => .ok

theorem textOperand_seeks (op : TextOp) (o : Operand) :
    scope.Seeks o.captureNames (scope.textOperand op o) :=
  (operand_seeks o).before fun _ _ => asText_seeks _ _

theorem comparison_seeks (op : CompareOp) (left right : Operand) :
    scope.Seeks (left.captureNames ++ right.captureNames) (scope.comparison op left right) := by
  refine (operand_seeks left).bind fun l _ => (operand_seeks right).before fun r _ => ?_
  split
  · exact .refused
  · split
    · exact .ok
    · exact .refused
  · split
    · exact .ok
    · exact .refused
  · exact (comparand_seeks _ _ _).after fun _ _ => (fit_seeks _ _ _).after fun _ _ =>
      (fit_seeks _ _ _).after fun _ _ => .ok

theorem textCheck_seeks (op : TextOp) (receiver : Operand) {args : List Operand}
    (few : args.length ≤ 1) :
    scope.Seeks (receiver.captureNames ++ args.flatMap Operand.captureNames)
      (scope.textCheck op receiver args) := by
  refine (textOperand_seeks op receiver).bind fun _ _ => ?_
  match args, few with
  | [], _ => exact .ok
  | [argument], _ =>
    simp only [List.flatMap_cons, List.flatMap_nil, List.append_nil]
    refine (textOperand_seeks op argument).before fun _ _ => ?_
    split <;> exact .ok

theorem textual_seeks (op : TextOp) (receiver : Operand) (args : List Operand) :
    scope.Seeks (receiver.captureNames ++ args.flatMap Operand.captureNames)
      (scope.textual op receiver args) := by
  unfold textual
  split
  · exact .refused
  · rename_i arity
    have few : args.length ≤ 1 := by
      rw [not_not.mp arity]
      cases op <;> decide
    refine (arrayField_seeks op receiver).after fun array found => ?_
    cases array with
    | none => exact textCheck_seeks op receiver few
    | some path =>
      -- The receiver is a field, so all that is looked up is in the argument.
      obtain ⟨rfl, rfl⟩ := arrayField_eq_some found
      simp only
      split
      · simp only [Operand.captureNames, List.nil_append, List.flatMap_cons, List.flatMap_nil]
        exact (constant_seeks _).bind fun _ _ => membership_seeks _ _
      · exact .refused

theorem checkAll_seeks {ps : List Predicate}
    (each : ∀ p ∈ ps, scope.Seeks p.captureNames (scope.check p)) :
    scope.Seeks (Predicate.captureNamesOfAll ps) (scope.checkAll ps) := by
  induction ps with
  | nil => exact .ok
  | cons p rest ih =>
    obtain ⟨first, others⟩ := List.forall_mem_cons.mp each
    exact first.bind fun _ _ => (ih others).before fun _ _ => .ok

/-- A check looks up the captures of its predicate in the order they occur. -/
theorem check_seeks (p : Predicate) : scope.Seeks p.captureNames (scope.check p) := by
  induction p with
  | comparison op left right => exact comparison_seeks op left right
  | logical connective operands ih =>
    exact (checkAll_seeks ih).before fun _ _ => logical_seeks _ _
  | textual op receiver args => exact textual_seeks op receiver args
  | member path value => exact (constant_seeks value).before fun _ _ => membership_seeks _ _
  | hasValue path =>
    refine (resolve_seeks path).after fun field _ => ?_
    split
    · exact .ok
    · exact .refused
  | flag path =>
    refine (resolve_seeks path).after fun field _ => ?_
    split
    · exact .ok
    · exact .refused
  | constant value =>
    refine (constant_seeks value).before fun v _ => ?_
    split
    · exact .ok
    · exact .refused

end Scope

/-! ## Filters -/

/-- What a filter says of each document, or why it is refused. -/
def Filter.evaluator (filter : Filter) (schema : Schema) :
    Except QueryError (Json → Option Bool) :=
  (filter.check schema).map fun check doc => check.eval doc

/-- Whether two filters come to the same: the same condition of the database with the same
parameters, the same value on every document, or the same error. -/
structure Filter.SameOutcome (a b : Filter) (schema : Schema) (first : Nat) : Prop where
  compiled : a.compileFrom schema first = b.compileFrom schema first
  evaluated : a.evaluator schema = b.evaluator schema

theorem Filter.sameOutcome_of_check {a b : Filter} {schema : Schema}
    (same : a.check schema = b.check schema) (first : Nat) : a.SameOutcome b schema first where
  compiled := by rw [compileFrom, compileFrom, same]
  evaluated := by rw [evaluator, evaluator, same]

/-- Captures are substitution.  If all that occur have values, the filter comes to the same as its
predicate with these values in their places and no captures.  Captures that do not occur make no
difference.  If one that occurs has no value, the filter is refused, and if for want of a capture,
then of the first without a value. -/
theorem captures_substituted (predicate : Predicate) (schema : Schema) (first : Nat)
    (captures : Captures) :
    ((∀ name ∈ predicate.captureNames, captures.lacks name = false) →
        (predicate.resolve captures).captureNames = [] ∧
        Filter.SameOutcome ⟨predicate, captures⟩ ⟨predicate.resolve captures, []⟩ schema first) ∧
      (∀ other : Captures, Captures.AgreeOn predicate.captureNames captures other →
        Filter.SameOutcome ⟨predicate, captures⟩ ⟨predicate, other⟩ schema first) ∧
      ((∃ name ∈ predicate.captureNames, captures.lacks name) →
        ∃ e, Filter.compileFrom ⟨predicate, captures⟩ schema first = .error e ∧
          Filter.evaluator ⟨predicate, captures⟩ schema = .error e ∧
          ∀ name, e = .unbound name →
            predicate.captureNames.find? captures.lacks = some name) := by
  refine ⟨fun bound => ⟨?_, ?_⟩, fun other agree => ?_, ?_⟩
  · exact Predicate.resolve_captureNames bound
  · exact Filter.sameOutcome_of_check (check_resolved ⟨predicate, captures⟩ schema) first
  · apply Filter.sameOutcome_of_check
    rw [check_resolved ⟨predicate, captures⟩, check_resolved ⟨predicate, other⟩]
    simp only [Filter.resolved, Predicate.resolve_congr agree]
  · rintro ⟨name, used, lacking⟩
    have seeks : Scope.Seeks ⟨schema, captures⟩ predicate.captureNames
        (Filter.check ⟨predicate, captures⟩ schema) :=
      Scope.check_seeks predicate
    cases checked : Filter.check ⟨predicate, captures⟩ schema with
    | ok check => simp [seeks.found check checked name used] at lacking
    | error e =>
      refine ⟨e, ?_, ?_, ?_⟩
      · rw [Filter.compileFrom, checked, Except.map]
      · rw [Filter.evaluator, checked, Except.map]
      · rintro missing rfl
        exact seeks.first missing checked

/-- Named items with tags and perhaps a note. -/
def notedSchema : Schema :=
  ((((Schema.empty "Item").declare "name" (.required (.scalar .text))).declare "note"
    (.optional (.scalar .text))).declare "tags" (.required (.array (.scalar .text))))

/-- A predicate with a capture in every kind of place. -/
def notedPredicate : Predicate := .logical .or
  [.textual .startsWith (.field ⟨["name"]⟩) [.lower (.constant (.captured "head"))],
    .comparison .ne (.constant (.captured "nothing")) (.field ⟨["note"]⟩),
    .textual .contains (.field ⟨["tags"]⟩) [.constant (.captured "tag")],
    .logical .not [.member ⟨["tags"]⟩ (.captured "head")],
    .constant (.captured "always")]

/-- The captures of the predicate and one more; the last that it needs may be left out. -/
def notedCaptures (last : Captures) : Captures :=
  last ++ [("extra", .int32 1), ("head", .text "A"), ("nothing", .null), ("tag", .text "x")]

theorem captures_substituted_of_notes :
    let captures := notedCaptures [("always", .bool false)]
    (∀ name ∈ notedPredicate.captureNames, captures.lacks name = false) ∧
      Filter.SameOutcome ⟨notedPredicate, captures⟩ ⟨notedPredicate.resolve captures, []⟩
        notedSchema 2 ∧
      Filter.SameOutcome ⟨notedPredicate, captures⟩
        ⟨notedPredicate, captures.filter fun entry => entry.1 != "extra"⟩ notedSchema 2 ∧
      (∃ q, Filter.compileFrom ⟨notedPredicate, captures⟩ notedSchema 2 = .ok q) ∧
      Filter.compileFrom ⟨notedPredicate, notedCaptures []⟩ notedSchema 2 =
        .error (.unbound "always") ∧
      notedPredicate.captureNames.find? (notedCaptures []).lacks = some "always" := by
  intro captures
  have bound : ∀ name ∈ notedPredicate.captureNames, captures.lacks name = false := by decide
  have agree : Captures.AgreeOn notedPredicate.captureNames captures
      (captures.filter fun entry => entry.1 != "extra") := by
    unfold Captures.AgreeOn
    decide
  obtain ⟨substituted, irrelevant, -⟩ :=
    captures_substituted notedPredicate notedSchema 2 captures
  obtain ⟨-, -, lacking⟩ :=
    captures_substituted notedPredicate notedSchema 2 (notedCaptures [])
  obtain ⟨e, refused, -, first⟩ := lacking ⟨"always", by decide, by decide⟩
  have missing : Filter.compileFrom ⟨notedPredicate, notedCaptures []⟩ notedSchema 2 =
      .error (.unbound "always") :=
    rfl
  refine ⟨bound, (substituted bound).2, irrelevant _ agree, ⟨_, rfl⟩, missing, ?_⟩
  exact first "always" (Except.error.inj (refused.symm.trans missing))

end DocStore
