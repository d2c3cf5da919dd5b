import DocStore.Proofs.Check.Captures

/-!
# A filter depends on the paths that it mentions

Nothing else of a schema or of a document matters to a filter: not what else a schema declares, nor
what an object holds that the filter only asks for as a whole, nor the rest of a document.

* `Predicate.paths`: the paths that a predicate mentions;
* `Schema.EvolvesAt`: a schema that declares the same at a path, but for the fields of objects;
* `Scope.check_kept`: a check is the same under such a schema;
* `Check.eval_congr`: the value of a check, from the paths that it reads;
* `Scope.check_paths`: a check reads only paths that its predicate mentions;
* `filter_local`: a filter depends only on these.
-/

namespace DocStore

/-! ## Mentioned paths -/

def Operand.paths : Operand → List FieldPath
  | .field path => [path]
  | .constant _ => []
  | .label path => [path]
  | .lower inner => inner.paths
  | .upper inner => inner.paths

namespace Predicate

mutual

/-- The paths that a predicate mentions, in the order they occur, repeats kept. -/
def paths : Predicate → List FieldPath
  | .comparison _ left right => left.paths ++ right.paths
  | .logical _ operands => pathsOfAll operands
  | .textual _ receiver args => receiver.paths ++ args.flatMap Operand.paths
  | .member path _ => [path]
  | .hasValue path => [path]
  | .flag path => [path]
  | .constant _ => []

def pathsOfAll : List Predicate → List FieldPath
  | [] => []
  | p :: rest => paths p ++ pathsOfAll rest

end

theorem pathsOfAll_eq (ps : List Predicate) : pathsOfAll ps = ps.flatMap paths := by
  induction ps with
  | nil => rfl
  | cons p rest ih => rw [pathsOfAll, ih, List.flatMap_cons]

theorem forall_paths_logical {connective : Connective} {operands : List Predicate}
    {motive : FieldPath → Prop} :
    (∀ path ∈ (logical connective operands).paths, motive path) ↔
      ∀ p ∈ operands, ∀ path ∈ p.paths, motive path := by
  simp only [paths, pathsOfAll_eq, List.mem_flatMap]
  exact ⟨fun h p mem path inside => h path ⟨p, mem, inside⟩,
    fun h path ⟨p, mem, inside⟩ => h p mem path inside⟩

end Predicate

/-! ## Schemas that declare the same at a path -/

/-- Whether a type is another, but for the fields of objects. -/
inductive FieldType.Evolves : FieldType → FieldType → Prop
  | same (type : FieldType) : Evolves type type
  | object (fields later : Fields) : Evolves (.object fields) (.object later)
  | array {element later : FieldType} (elements : Evolves element later) :
      Evolves (.array element) (.array later)

/-- Whether what a schema declares at a path is declared there by another schema too, as nullable as
before and of the same type but for the fields of objects. -/
def Schema.EvolvesAt (schema other : Schema) (path : FieldPath) : Prop :=
  ∀ field, schema.resolve path = .ok field →
    ∃ later, other.resolve path = .ok later ∧ later.nullable = field.nullable ∧
      field.type.Evolves later.type

namespace FieldType.Evolves

theorem of_scalar {type : ScalarType} {later : FieldType}
    (h : (FieldType.scalar type).Evolves later) : later = .scalar type := by
  cases h
  rfl

theorem of_object {fields : Fields} {later : FieldType}
    (h : (FieldType.object fields).Evolves later) : ∃ next, later = .object next := by
  cases h with
  | same => exact ⟨fields, rfl⟩
  | object _ next => exact ⟨next, rfl⟩

theorem of_array {element later : FieldType} (h : (FieldType.array element).Evolves later) :
    ∃ next, later = .array next ∧ element.Evolves next := by
  cases h with
  | same => exact ⟨element, rfl, .same element⟩
  | array elements => exact ⟨_, rfl, elements⟩

end FieldType.Evolves

/-! ## Checks under another schema -/

namespace Scope

variable {schema other : Schema} {captures : Captures}

theorem leaf_kept {path : FieldPath} (evolves : schema.EvolvesAt other path) {typed : TypedTerm}
    (h : leaf ⟨schema, captures⟩ path = .ok typed) : leaf ⟨other, captures⟩ path = .ok typed := by
  simp only [leaf, bind_eq_ok] at h ⊢
  obtain ⟨field, resolved, h⟩ := h
  obtain ⟨later, found, -, alike⟩ := evolves field resolved
  refine ⟨later, found, ?_⟩
  cases leaf : field.type with
  | scalar type =>
    rw [leaf] at h alike
    rwa [alike.of_scalar]
  | object | array => simp [leaf, FieldType.scalar?, refuse] at h

theorem label_kept {path : FieldPath} (evolves : schema.EvolvesAt other path) {typed : TypedTerm}
    (h : label ⟨schema, captures⟩ path = .ok typed) : label ⟨other, captures⟩ path = .ok typed := by
  simp only [label, bind_eq_ok] at h ⊢
  obtain ⟨field, resolved, h⟩ := h
  obtain ⟨later, found, -, alike⟩ := evolves field resolved
  refine ⟨later, found, ?_⟩
  split at h
  · rename_i enumerated
    rw [enumerated] at alike
    rwa [alike.of_scalar]
  · exact absurd h refuse_ne_ok

theorem operand_kept {o : Operand} (evolves : ∀ path ∈ o.paths, schema.EvolvesAt other path)
    {typed : Option TypedTerm} (h : operand ⟨schema, captures⟩ o = .ok typed) :
    operand ⟨other, captures⟩ o = .ok typed := by
  induction o generalizing typed with
  | field path =>
    simp only [operand, map_eq_ok] at h ⊢
    obtain ⟨t, read, rfl⟩ := h
    exact ⟨t, leaf_kept (evolves path (List.mem_singleton_self path)) read, rfl⟩
  | constant c => exact h
  | label path =>
    simp only [operand, map_eq_ok] at h ⊢
    obtain ⟨t, read, rfl⟩ := h
    exact ⟨t, label_kept (evolves path (List.mem_singleton_self path)) read, rfl⟩
  | lower inner ih =>
    simp only [operand, bind_eq_ok] at h ⊢
    obtain ⟨t, read, h⟩ := h
    exact ⟨t, ih evolves read, h⟩
  | upper inner ih =>
    simp only [operand, bind_eq_ok] at h ⊢
    obtain ⟨t, read, h⟩ := h
    exact ⟨t, ih evolves read, h⟩

theorem textOperand_kept {op : TextOp} {o : Operand}
    (evolves : ∀ path ∈ o.paths, schema.EvolvesAt other path) {term : Term}
    (h : textOperand ⟨schema, captures⟩ op o = .ok term) :
    textOperand ⟨other, captures⟩ op o = .ok term := by
  simp only [textOperand, bind_eq_ok] at h ⊢
  obtain ⟨typed, read, h⟩ := h
  exact ⟨typed, operand_kept evolves read, h⟩

theorem comparison_kept {op : CompareOp} {left right : Operand}
    (evolves : ∀ path ∈ left.paths ++ right.paths, schema.EvolvesAt other path) {c : Check}
    (h : comparison ⟨schema, captures⟩ op left right = .ok c) :
    comparison ⟨other, captures⟩ op left right = .ok c := by
  obtain ⟨onLeft, onRight⟩ := List.forall_mem_append.mp evolves
  simp only [comparison, bind_eq_ok] at h ⊢
  obtain ⟨l, first, r, second, h⟩ := h
  exact ⟨l, operand_kept onLeft first, r, operand_kept onRight second, h⟩

theorem membership_kept {path : FieldPath} {value : Value}
    (evolves : schema.EvolvesAt other path) {c : Check}
    (h : membership ⟨schema, captures⟩ path value = .ok c) :
    membership ⟨other, captures⟩ path value = .ok c := by
  simp only [membership, bind_eq_ok] at h ⊢
  obtain ⟨field, resolved, h⟩ := h
  obtain ⟨later, found, -, alike⟩ := evolves field resolved
  refine ⟨later, found, ?_⟩
  split at h
  · rename_i element array
    rw [array] at alike
    obtain ⟨next, array, elements⟩ := alike.of_array
    rw [array, elements.of_scalar]
    exact h
  · exact absurd h refuse_ne_ok
  · exact absurd h refuse_ne_ok

/-- Whether an operand names an array is the same, as an array stays one and nothing becomes one. -/
theorem arrayField_kept {op : TextOp} {receiver : Operand}
    (evolves : ∀ path ∈ receiver.paths, schema.EvolvesAt other path) {array : Option FieldPath}
    (h : arrayField ⟨schema, captures⟩ op receiver = .ok array) :
    arrayField ⟨other, captures⟩ op receiver = .ok array := by
  unfold arrayField at h ⊢
  split at h
  · rename_i path
    simp only [bind_eq_ok] at h ⊢
    obtain ⟨field, resolved, h⟩ := h
    obtain ⟨later, found, -, alike⟩ := evolves path (List.mem_singleton_self path) field resolved
    refine ⟨later, found, ?_⟩
    cases type : field.type with
    | scalar =>
      rw [type] at h alike
      rwa [alike.of_scalar]
    | object =>
      rw [type] at h alike
      obtain ⟨next, object⟩ := alike.of_object
      rwa [object]
    | array =>
      rw [type] at h alike
      obtain ⟨next, array, -⟩ := alike.of_array
      rwa [array]
  · exact h

theorem textCheck_kept {op : TextOp} {receiver : Operand} {args : List Operand}
    (evolves : ∀ path ∈ receiver.paths ++ args.flatMap Operand.paths, schema.EvolvesAt other path)
    {c : Check} (h : textCheck ⟨schema, captures⟩ op receiver args = .ok c) :
    textCheck ⟨other, captures⟩ op receiver args = .ok c := by
  obtain ⟨onReceiver, onArgs⟩ := List.forall_mem_append.mp evolves
  simp only [textCheck, bind_eq_ok] at h ⊢
  obtain ⟨term, read, h⟩ := h
  refine ⟨term, textOperand_kept onReceiver read, ?_⟩
  cases args with
  | nil => exact h
  | cons argument others =>
    rw [List.flatMap_cons] at onArgs
    simp only [bind_eq_ok] at h ⊢
    obtain ⟨part, read, h⟩ := h
    exact ⟨part, textOperand_kept (List.forall_mem_append.mp onArgs).1 read, h⟩

theorem textual_kept {op : TextOp} {receiver : Operand} {args : List Operand}
    (evolves : ∀ path ∈ receiver.paths ++ args.flatMap Operand.paths, schema.EvolvesAt other path)
    {c : Check} (h : textual ⟨schema, captures⟩ op receiver args = .ok c) :
    textual ⟨other, captures⟩ op receiver args = .ok c := by
  obtain ⟨onReceiver, -⟩ := List.forall_mem_append.mp evolves
  simp only [textual] at h ⊢
  split at h
  · exact absurd h refuse_ne_ok
  · rename_i arity
    rw [if_neg arity]
    simp only [bind_eq_ok] at h ⊢
    obtain ⟨array, found, h⟩ := h
    refine ⟨array, arrayField_kept onReceiver found, ?_⟩
    cases array with
    | none => exact textCheck_kept evolves h
    | some path =>
      obtain ⟨-, rfl⟩ := arrayField_eq_some found
      simp only at h ⊢
      split at h
      · simp only [bind_eq_ok] at h ⊢
        obtain ⟨value, bound, h⟩ := h
        have mentioned := onReceiver path (List.mem_singleton_self path)
        exact ⟨value, bound, membership_kept mentioned h⟩
      · exact absurd h refuse_ne_ok

/-- A check is the same under a schema that declares the same at the mentioned paths. -/
theorem check_kept {p : Predicate} (evolves : ∀ path ∈ p.paths, schema.EvolvesAt other path)
    {c : Check} (h : check ⟨schema, captures⟩ p = .ok c) :
    check ⟨other, captures⟩ p = .ok c := by
  induction p generalizing c with
  | comparison op left right => exact comparison_kept evolves h
  | logical connective operands ih =>
    rw [check_logical_eq_ok] at h ⊢
    obtain ⟨cs, each, joined⟩ := h
    have inside := Predicate.forall_paths_logical.mp evolves
    refine ⟨cs, ?_, joined⟩
    clear evolves joined
    induction each with
    | nil => exact .nil
    | cons first _ rest =>
      obtain ⟨here, others⟩ := List.forall_mem_cons.mp inside
      obtain ⟨kept, later⟩ := List.forall_mem_cons.mp ih
      exact .cons (kept here first) (rest later others)
  | textual op receiver args => exact textual_kept evolves h
  | member path value =>
    simp only [check, bind_eq_ok] at h ⊢
    obtain ⟨v, found, h⟩ := h
    exact ⟨v, found, membership_kept (evolves path (List.mem_singleton_self path)) h⟩
  | hasValue path =>
    simp only [check, bind_eq_ok] at h ⊢
    obtain ⟨field, resolved, h⟩ := h
    obtain ⟨later, found, nullable, -⟩ :=
      evolves path (List.mem_singleton_self path) field resolved
    exact ⟨later, found, by rwa [nullable]⟩
  | flag path =>
    simp only [check, bind_eq_ok] at h ⊢
    obtain ⟨field, resolved, h⟩ := h
    obtain ⟨later, found, -, alike⟩ := evolves path (List.mem_singleton_self path) field resolved
    refine ⟨later, found, ?_⟩
    split at h
    · rename_i truth
      rw [truth] at alike
      rwa [alike.of_scalar]
    · exact absurd h refuse_ne_ok
  | constant c => exact h

end Scope

/-! ## Documents that agree at the paths of a check -/

/-- Whether two documents are the same at some paths: there are equal values, or none in either. -/
def Json.AgreeAt (paths : List FieldPath) (a b : Json) : Prop :=
  ∀ path ∈ paths, path.node? a = path.node? b

theorem Json.AgreeAt.mono {paths more : List FieldPath} {a b : Json} (agree : AgreeAt more a b)
    (among : paths ⊆ more) : AgreeAt paths a b :=
  fun path mem => agree path (among mem)

namespace Term

/-- The paths that a term reads. -/
def paths : Term → List FieldPath
  | .field path _ => [path]
  | .node path => [path]
  | .label path _ => [path]
  | .lower inner => inner.paths
  | .upper inner => inner.paths
  | .constant _ => []

variable {a b : Json} {t : Term}

theorem text?_congr (agree : Json.AgreeAt t.paths a b) : t.text? a = t.text? b := by
  induction t with
  | field path _ | node path | label path _ =>
    have same := agree path (List.mem_singleton_self path)
    simp only [text?, FieldPath.extract?, same]
  | lower inner ih | upper inner ih => simp only [text?, ih agree]
  | constant value => cases value <;> rfl

theorem value?_congr (comparand : Comparand) (agree : Json.AgreeAt t.paths a b) :
    t.value? comparand a = t.value? comparand b := by
  have same := text?_congr agree
  cases t with
  | constant value => cases value <;> rfl
  | _ => cases comparand <;> simp only [value?, same]

theorem exactNumber?_congr (agree : Json.AgreeAt t.paths a b) :
    t.exactNumber? a = t.exactNumber? b := by
  have same := text?_congr agree
  cases t with
  | constant value => rfl
  | _ => simp only [exactNumber?, same]

theorem isNullIn_congr (agree : Json.AgreeAt t.paths a b) : t.isNullIn a = t.isNullIn b := by
  have same := text?_congr agree
  cases t with
  | constant value => rfl
  | _ => simp only [isNullIn, same]

end Term

namespace Check

mutual

/-- The paths that a check reads. -/
def paths : Check → List FieldPath
  | .compare _ _ left right => left.paths ++ right.paths
  | .isNull term _ => term.paths
  | .search _ receiver argument => receiver.paths ++ argument.paths
  | .blank term => term.paths
  | .member path _ _ _ => [path]
  | .hasValue path => [path]
  | .flag path => [path]
  | .literal _ => []
  | .all operands => pathsOfAll operands
  | .any operands => pathsOfAll operands
  | .not operand => paths operand

def pathsOfAll : List Check → List FieldPath
  | [] => []
  | c :: rest => paths c ++ pathsOfAll rest

end

theorem pathsOfAll_eq (cs : List Check) : pathsOfAll cs = cs.flatMap paths := by
  induction cs with
  | nil => rfl
  | cons c rest ih => rw [pathsOfAll, ih, List.flatMap_cons]

variable {a b : Json}

theorem evalAll_congr {cs : List Check}
    (each : ∀ c ∈ cs, Json.AgreeAt c.paths a b → c.eval a = c.eval b)
    (agree : Json.AgreeAt (pathsOfAll cs) a b) : evalAll a cs = evalAll b cs := by
  rw [evalAll_eq_map, evalAll_eq_map]
  refine List.map_congr_left fun c mem => each c mem (agree.mono fun path inside => ?_)
  rw [pathsOfAll_eq]
  exact List.mem_flatMap.mpr ⟨c, mem, inside⟩

/-- The value of a check is the same on documents that agree at the paths that it reads. -/
theorem eval_congr {c : Check} (agree : Json.AgreeAt c.paths a b) : c.eval a = c.eval b := by
  induction c with
  | compare op comparand left right =>
    obtain ⟨first, second⟩ := List.forall_mem_append.mp agree
    have order : comparand.order? a left right = comparand.order? b left right := by
      simp only [Comparand.order?, Term.exactNumber?_congr first, Term.exactNumber?_congr second,
        Term.value?_congr comparand first, Term.value?_congr comparand second]
    rw [eval, eval, order]
  | isNull term negated => rw [eval, eval, Term.isNullIn_congr agree]
  | search pattern receiver argument =>
    obtain ⟨first, second⟩ := List.forall_mem_append.mp agree
    rw [eval, eval, Term.text?_congr first, Term.text?_congr second]
  | blank term => rw [eval, eval, Term.text?_congr agree]
  | member path element comparand value =>
    have same := agree path (List.mem_singleton_self path)
    rw [eval, eval, memberIn, memberIn, same]
  | hasValue path =>
    have same := agree path (List.mem_singleton_self path)
    rw [eval, eval, FieldPath.extract?, FieldPath.extract?, same]
  | flag path =>
    have same := agree path (List.mem_singleton_self path)
    rw [eval, eval, FieldPath.extract?, FieldPath.extract?, same]
  | literal b => rfl
  | all operands ih => rw [eval, eval, evalAll_congr ih agree]
  | any operands ih => rw [eval, eval, evalAll_congr ih agree]
  | not operand ih => rw [eval, eval, ih agree]

end Check

/-! ## The paths of a check are mentioned -/

theorem append_subset_append {α : Type} {a b c d : List α} (first : a ⊆ c) (second : b ⊆ d) :
    a ++ b ⊆ c ++ d :=
  List.append_subset_of_subset_of_subset (List.subset_append_of_subset_left d first)
    (List.subset_append_of_subset_right c second)

namespace Scope

variable {scope : Scope}

theorem Reads.paths_subset {o : Operand} {typed : Option TypedTerm} (h : scope.Reads o typed) :
    ∀ t, typed = some t → t.term.paths ⊆ o.paths := by
  induction h with
  | field | label =>
    rintro _ ⟨⟩
    exact List.Subset.refl _
  | constant found =>
    intro t same
    obtain ⟨type, -, rfl⟩ := Option.map_eq_some_iff.mp same
    exact List.nil_subset _
  | lower _ ih | upper _ ih =>
    rintro _ ⟨⟩
    have inner := ih _ rfl
    exact inner

/-- What is compared reads no more than before it was fitted, as only constants change. -/
theorem fit_paths_subset {op : CompareOp} {comparand : Comparand} {typed : TypedTerm} {t : Term}
    (h : fit op comparand typed = .ok t) : t.paths ⊆ typed.term.paths := by
  unfold fit at h
  split at h
  · obtain ⟨value, -, rfl⟩ := map_eq_ok.mp h
    exact List.nil_subset _
  · cases h
    exact List.Subset.refl _
  · split at h
    · cases h
      exact List.Subset.refl _
    · cases h
      exact List.Subset.refl _
    · exact absurd h refuse_ne_ok

theorem nullTerm_paths_subset {o : Operand} {typed : TypedTerm}
    (read : typed.term.paths ⊆ o.paths) : (nullTerm o typed).paths ⊆ o.paths := by
  cases o with
  | field path => exact List.Subset.refl _
  | _ => exact read

theorem Takes.paths_subset {p : Predicate} {c : Check} (h : scope.Takes p c) :
    c.paths ⊆ p.paths := by
  cases h with
  | nullLeft _ other _ =>
    have read := nullTerm_paths_subset (other.paths_subset _ rfl)
    exact List.subset_append_of_subset_right _ read
  | nullRight other _ _ =>
    have read := nullTerm_paths_subset (other.paths_subset _ rfl)
    exact List.subset_append_of_subset_left _ read
  | compare first second _ fitFirst fitSecond =>
    have onLeft := List.Subset.trans (fit_paths_subset fitFirst) (first.paths_subset _ rfl)
    have onRight := List.Subset.trans (fit_paths_subset fitSecond) (second.paths_subset _ rfl)
    exact append_subset_append onLeft onRight
  | blank text _ => exact List.subset_append_of_subset_left _ (text.paths_subset _ rfl)
  | search text part _ | equals text part _ =>
    simp only [Predicate.paths, List.flatMap_singleton]
    exact append_subset_append (text.paths_subset _ rfl) (part.paths_subset _ rfl)
  | arrayContains => exact List.subset_append_of_subset_left _ (List.Subset.refl _)
  | member | hasValue | flag | literal => exact List.Subset.refl _

/-- A check reads only paths that its predicate mentions. -/
theorem check_paths {p : Predicate} {c : Check} (h : scope.check p = .ok c) :
    c.paths ⊆ p.paths := by
  have joined {ps : List Predicate} {cs : List Check}
      (each : List.Forall₂ (fun p c => c.paths ⊆ p.paths) ps cs) :
      Check.pathsOfAll cs ⊆ Predicate.pathsOfAll ps := by
    induction each with
    | nil => exact List.Subset.refl _
    | cons first _ rest => exact append_subset_append first rest
  refine check_induction Takes.paths_subset joined joined (fun operand => ?_) h
  exact List.subset_append_of_subset_left _ operand

end Scope

/-! ## Filters -/

/-- A filter that compiles depends only on the paths that it mentions.  Under another schema that
declares the same at these, but for the fields of objects, it comes to the same; and on documents
that agree at these it has the same value. -/
theorem filter_local {filter : Filter} {schema : Schema} {first : Nat} {query : CompiledQuery}
    (compiled : filter.compileFrom schema first = .ok query) :
    (∀ other : Schema, (∀ path ∈ filter.predicate.paths, schema.EvolvesAt other path) →
        filter.compileFrom other first = .ok query ∧
        filter.evaluator other = filter.evaluator schema) ∧
      ∃ evaluate, filter.evaluator schema = .ok evaluate ∧
        ∀ a b, Json.AgreeAt filter.predicate.paths a b → evaluate a = evaluate b := by
  obtain ⟨check, passed, rfl⟩ := map_eq_ok.mp compiled
  constructor
  · intro other evolves
    have kept : filter.check other = .ok check := Scope.check_kept evolves passed
    constructor
    · rw [Filter.compileFrom, kept, Except.map]
    · rw [Filter.evaluator, Filter.evaluator, kept, passed]
  · refine ⟨fun document => check.eval document, ?_, fun a b agree => ?_⟩
    · rw [Filter.evaluator, passed, Except.map]
    · exact Check.eval_congr (agree.mono (Scope.check_paths passed))

/-- People with a home, of which the schema has since come to know more. -/
def homeSchema (later : Fields) : Schema :=
  (((Schema.empty "Person").declare "age" (.optional (.scalar .int32))).declare "home"
    (.optional (.object (("city", .required (.scalar .text)) :: later)))).declare "tags"
      (.required (.array (.scalar .text)))

/-- A filter that asks for an object, for a member of it, for an array and for a nullable field. -/
def homeFilter : Filter where
  predicate := .logical .and
    [.hasValue ⟨["home"]⟩,
      .textual .startsWith (.lower (.field ⟨["home", "city"]⟩)) [.constant (.literal (.text "b"))],
      .logical .or
        [.textual .contains (.field ⟨["tags"]⟩) [.constant (.captured "tag")],
          .comparison .eq (.field ⟨["age"]⟩) (.constant (.literal .null))]]
  captures := [("tag", .text "x")]

/-- A document of a person, with whatever else it holds. -/
def homeDocument (other : List (String × Json)) : Json :=
  .object (("home", .object [("city", .string "Bonn")]) :: ("tags", .array []) :: other)

theorem filter_local_of_home :
    let later := homeSchema
      [("street", .optional (.object [("number", .required (.scalar .int32))]))]
    ∃ query evaluate, homeFilter.compileFrom (homeSchema []) 2 = .ok query ∧
      homeFilter.compileFrom later 2 = .ok query ∧
      homeFilter.evaluator later = .ok evaluate ∧
      evaluate (homeDocument []) = some true ∧
      evaluate (homeDocument [("note", .string "new"), ("page", .null)]) =
        evaluate (homeDocument []) := by
  intro later
  obtain ⟨query, compiled⟩ : ∃ query, homeFilter.compileFrom (homeSchema []) 2 = .ok query :=
    ⟨_, rfl⟩
  have mentioned : homeFilter.predicate.paths =
      [⟨["home"]⟩, ⟨["home", "city"]⟩, ⟨["tags"]⟩, ⟨["age"]⟩] := rfl
  have evolves : ∀ path ∈ homeFilter.predicate.paths, (homeSchema []).EvolvesAt later path := by
    rw [mentioned]
    simp only [List.forall_mem_cons]
    refine ⟨?home, ?city, ?tags, ?age, nofun⟩
    case home =>
      rintro field ⟨⟩
      exact ⟨_, rfl, rfl, .object _ _⟩
    all_goals
      rintro field ⟨⟩
      exact ⟨_, rfl, rfl, .same _⟩
  have agree : Json.AgreeAt homeFilter.predicate.paths
      (homeDocument [("note", .string "new"), ("page", .null)]) (homeDocument []) := by
    rw [mentioned, Json.AgreeAt]
    simp only [List.forall_mem_cons]
    exact ⟨rfl, rfl, rfl, rfl, nofun⟩
  obtain ⟨kept, evaluate, evaluates, same⟩ := filter_local compiled
  obtain ⟨again, evaluator⟩ := kept later evolves
  refine ⟨query, evaluate, compiled, again, evaluator.trans evaluates, ?_, same _ _ agree⟩
  cases evaluates
  decide

end DocStore
