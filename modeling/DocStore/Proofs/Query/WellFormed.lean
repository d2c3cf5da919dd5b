import DocStore.Proofs.Check.Locality
import DocStore.Proofs.Query.Origins

/-!
# Predicates of texts are well formed

What a text is read as has no path without segments, no chain of one operand, and no negation of
several; it tests no membership, and asks for blankness of one operand only.  So two of the ways in
which a predicate may be refused are closed to texts.

* `Predicate.WellFormed`: predicates of such a form;
* `Expr.Formed.toPredicate`: the predicate of an expression whose chains have two operands;
* `Scope.check_proper`: a predicate of such a form is refused neither for a path nor for a negation;
* `text_well_formed`: what a text is read as.
-/

namespace DocStore

/-! ## Forms -/

/-- Predicates as texts spell them. -/
inductive Predicate.WellFormed : Predicate → Prop
  | comparison {op left right} : WellFormed (.comparison op left right)
  | textual {op receiver args} (blank : op = .isNullOrWhiteSpace → args = []) :
      WellFormed (.textual op receiver args)
  | negation {p} (inner : WellFormed p) : WellFormed (.logical .not [p])
  | junction {connective operands} (other : connective ≠ .not) (several : 2 ≤ operands.length)
      (each : ∀ p ∈ operands, WellFormed p) : WellFormed (.logical connective operands)
  | hasValue {path} : WellFormed (.hasValue path)
  | flag {path} : WellFormed (.flag path)
  | constant {value} : WellFormed (.constant value)

/-- What is named by a part of an expression: paths with segments, and captures, of some kind. -/
structure Names (path : List String → Prop) (capture : String → Prop) (paths : List FieldPath)
    (captures : List String) : Prop where
  paths : ∀ p ∈ paths, p.segments ≠ [] ∧ path p.segments
  captures : ∀ name ∈ captures, capture name

section

variable {path : List String → Prop} {capture : String → Prop}

namespace Names

theorem nil : Names path capture [] [] := ⟨List.forall_mem_nil _, List.forall_mem_nil _⟩

theorem of_path {p : FieldPath} (filled : p.segments ≠ []) (written : path p.segments) :
    Names path capture [p] [] :=
  ⟨List.forall_mem_singleton.mpr ⟨filled, written⟩, List.forall_mem_nil _⟩

theorem of_capture {name : String} (written : capture name) : Names path capture [] [name] :=
  ⟨List.forall_mem_nil _, List.forall_mem_singleton.mpr written⟩

theorem append {paths more : List FieldPath} {captures further : List String}
    (first : Names path capture paths captures) (second : Names path capture more further) :
    Names path capture (paths ++ more) (captures ++ further) :=
  ⟨List.forall_mem_append.mpr ⟨first.paths, second.paths⟩,
    List.forall_mem_append.mpr ⟨first.captures, second.captures⟩⟩

theorem field {segments : List String} {o : Nat} {p : FieldPath} (written : path segments)
    (found : Expr.fieldPath segments o = .ok p) : Names path capture [p] [] := by
  unfold Expr.fieldPath at found
  split at found
  · cases found
  · rename_i filled
    cases found
    have nonempty : segments ≠ [] := fun empty => filled (List.isEmpty_iff.mpr empty)
    exact of_path nonempty written

end Names

/-! ## Operands -/

theorem Expr.Formed.toOperand {e : Expr} {o : Operand} (formed : e.Formed path capture)
    (read : e.toOperand = .ok o) : Names path capture o.paths o.captureNames := by
  induction formed generalizing o with
  | path written =>
    obtain ⟨p, found, rfl⟩ := map_eq_ok.mp read
    exact .field written found
  | literal =>
    cases read
    exact .nil
  | capture written =>
    cases read
    exact .of_capture written
  | call inner _ ih =>
    unfold Expr.toOperand at read
    split at read
    · cases read
    split at read
    · obtain ⟨inside, found, rfl⟩ := map_eq_ok.mp read
      have names := ih found
      exact names
    · obtain ⟨inside, found, rfl⟩ := map_eq_ok.mp read
      have names := ih found
      exact names
    · split at read
      · obtain ⟨p, found, rfl⟩ := map_eq_ok.mp read
        cases inner with
        | path written => exact .field written found
      · cases read
    · cases read
  | static | hasValue | compare | and | or | not => cases read

theorem Expr.Formed.toOperands {es : List Expr} {os : List Operand}
    (each : ∀ e ∈ es, e.Formed path capture) (read : es.mapM Expr.toOperand = .ok os) :
    Names path capture (os.flatMap Operand.paths) (os.flatMap Operand.captureNames) := by
  induction es generalizing os with
  | nil =>
    cases read
    exact .nil
  | cons e es ih =>
    obtain ⟨first, others⟩ := List.forall_mem_cons.mp each
    rw [List.mapM_cons] at read
    obtain ⟨o, found, read⟩ := bind_eq_ok.mp read
    obtain ⟨os, further, read⟩ := bind_eq_ok.mp read
    cases pure_eq_ok.mp read
    exact (first.toOperand found).append (ih others further)

/-! ## Predicates -/

/-- A predicate of such a form that names paths and captures of some kind. -/
structure Predicate.Formed (path : List String → Prop) (capture : String → Prop)
    (p : Predicate) : Prop where
  wellFormed : p.WellFormed
  names : Names path capture p.paths p.captureNames

theorem Expr.ne_blank_of_textOp {method : String} {o : Nat} {op : TextOp}
    (found : textOp method o = .ok op) : op ≠ .isNullOrWhiteSpace := by
  unfold textOp at found
  split at found <;> cases found <;> nofun

/-- A static call has as many arguments as its operation takes. -/
theorem Names.staticPredicate {op : TextOp} {method : String} {os : List Operand} {p : Predicate}
    (names : Names path capture (os.flatMap Operand.paths) (os.flatMap Operand.captureNames))
    (read : Expr.staticPredicate op method os = .ok p) : p.Formed path capture := by
  unfold Expr.staticPredicate at read
  split at read
  · split at read
    · rename_i arity
      cases read
      refine ⟨.textual ?_, names⟩
      rintro rfl
      exact List.length_eq_zero_iff.mp arity
    · cases read
  · cases read

theorem Predicate.Formed.logical {connective : Connective} {ps : List Predicate}
    (form : (Predicate.logical connective ps).WellFormed) (each : ∀ p ∈ ps, p.Formed path capture) :
    (Predicate.logical connective ps).Formed path capture where
  wellFormed := form
  names := by
    simp only [paths, pathsOfAll_eq, captureNames, captureNamesOfAll_eq]
    constructor
    · intro q mem
      obtain ⟨p, inside, mem⟩ := List.mem_flatMap.mp mem
      exact (each p inside).names.paths q mem
    · intro name mem
      obtain ⟨p, inside, mem⟩ := List.mem_flatMap.mp mem
      exact (each p inside).names.captures name mem

theorem Expr.length_toPredicates {es : List Expr} {ps : List Predicate}
    (read : toPredicates es = .ok ps) : ps.length = es.length := by
  induction es generalizing ps with
  | nil =>
    cases read
    rfl
  | cons e es ih =>
    obtain ⟨p, -, read⟩ := bind_eq_ok.mp read
    obtain ⟨ps, others, read⟩ := bind_eq_ok.mp read
    cases pure_eq_ok.mp read
    rw [List.length_cons, List.length_cons, ih others]

theorem Expr.forall_toPredicates {es : List Expr} {ps : List Predicate}
    (each : ∀ e ∈ es, ∀ {p}, e.toPredicate = .ok p → p.Formed path capture)
    (read : toPredicates es = .ok ps) : ∀ p ∈ ps, p.Formed path capture := by
  induction es generalizing ps with
  | nil =>
    cases read
    exact nofun
  | cons e es ih =>
    obtain ⟨first, others⟩ := List.forall_mem_cons.mp each
    obtain ⟨p, found, read⟩ := bind_eq_ok.mp read
    obtain ⟨ps, further, read⟩ := bind_eq_ok.mp read
    cases pure_eq_ok.mp read
    exact List.forall_mem_cons.mpr ⟨first found, ih others further⟩

/-- The predicate of an expression whose chains have two operands at least. -/
theorem Expr.Formed.toPredicate {e : Expr} {p : Predicate} (formed : e.Formed path capture)
    (read : e.toPredicate = .ok p) : p.Formed path capture := by
  induction formed generalizing p with
  | path written =>
    obtain ⟨q, found, rfl⟩ := map_eq_ok.mp read
    exact ⟨.flag, .field written found⟩
  | literal =>
    cases read
    exact ⟨.constant, .nil⟩
  | capture written =>
    cases read
    exact ⟨.constant, .of_capture written⟩
  | call inner each =>
    obtain ⟨op, method, read⟩ := bind_eq_ok.mp read
    obtain ⟨o, found, read⟩ := bind_eq_ok.mp read
    obtain ⟨os, further, read⟩ := bind_eq_ok.mp read
    cases pure_eq_ok.mp read
    exact ⟨.textual fun blank => absurd blank (ne_blank_of_textOp method),
      (inner.toOperand found).append (Formed.toOperands each further)⟩
  | static each =>
    obtain ⟨op, -, read⟩ := bind_eq_ok.mp read
    obtain ⟨os, found, read⟩ := bind_eq_ok.mp read
    exact (Formed.toOperands each found).staticPredicate read
  | @hasValue receiver _ inner =>
    unfold Expr.toPredicate at read
    split at read
    · cases read
      cases inner with
      | path written =>
        exact ⟨.hasValue, .of_path (List.cons_ne_nil _ _) written⟩
    · cases read
  | compare first second =>
    obtain ⟨l, left, read⟩ := bind_eq_ok.mp read
    obtain ⟨r, right, read⟩ := bind_eq_ok.mp read
    cases pure_eq_ok.mp read
    exact ⟨.comparison, (first.toOperand left).append (second.toOperand right)⟩
  | and several _ ih | or several _ ih =>
    obtain ⟨ps, found, rfl⟩ := map_eq_ok.mp read
    have each := forall_toPredicates (fun e mem {p} => ih e mem) found
    exact .logical (.junction (by decide) (length_toPredicates found ▸ several)
      fun p mem => (each p mem).wellFormed) each
  | not _ ih =>
    obtain ⟨q, found, rfl⟩ := map_eq_ok.mp read
    have inner := ih found
    exact .logical (.negation inner.wellFormed) (List.forall_mem_singleton.mpr inner)

end

/-! ## Refusals -/

/-- Whether a predicate is refused for a path without segments or for a negation of other than one
operand. -/
def Unsupported.isDegenerate : Unsupported → Bool
  | .emptyPath => true
  | .notArity _ => true
  | _ => false

namespace Scope

variable {scope : Scope} {α β : Type}

/-- Whether nothing is refused for the like. -/
def Proper (result : Except QueryError α) : Prop :=
  ∀ cause, result = .error (.unsupported cause) → cause.isDegenerate = false

theorem Proper.ok {a : α} : Proper (.ok a : Except QueryError α) := nofun

theorem Proper.refused {cause : Unsupported} (other : cause.isDegenerate = false) :
    Proper (.error (.unsupported cause) : Except QueryError α) := by
  rintro _ ⟨⟩
  exact other

theorem Proper.bind {x : Except QueryError α} {f : α → Except QueryError β} (proper : Proper x)
    (next : ∀ a, x = .ok a → Proper (f a)) : Proper (x >>= f) := by
  cases x with
  | error e =>
    intro cause failed
    apply proper cause
    cases failed
    rfl
  | ok a => exact next a rfl

theorem Proper.map {x : Except QueryError α} (proper : Proper x) (f : α → β) : Proper (x.map f) :=
  proper.bind fun _ _ => .ok

/-! ### Parts of a check -/

theorem resolveFrom_proper (schema : Schema) (path : FieldPath) (depth : Nat) (fields : Fields)
    {segments : List String} (filled : segments ≠ []) :
    Proper (schema.resolveFrom path depth fields segments) := by
  fun_induction schema.resolveFrom path depth fields segments with
  | case1 => exact absurd rfl filled
  | case2 => exact .refused rfl
  | case3 => exact .ok
  | case4 _ _ _ _ _ _ further _ _ ih => exact ih fun none => further (List.isEmpty_iff.mpr none)
  | case5 => exact .refused rfl

theorem resolve_proper {path : FieldPath} (filled : path.segments ≠ []) :
    Proper (scope.schema.resolve path) :=
  resolveFrom_proper _ _ _ _ filled

theorem constant_proper (c : Constant) : Proper (scope.constant c) := by
  unfold constant
  split
  · exact .ok
  · split
    · exact .ok
    · rintro _ ⟨⟩

theorem comparand_proper (op : CompareOp) (left right : ScalarType) :
    Proper (Comparand.of op left right) := by
  unfold Comparand.of
  split
  · exact .ok
  · exact .refused rfl

theorem under_proper (value : Value) (comparand : Comparand) : Proper (value.under comparand) := by
  cases comparand with
  | typed type =>
    simp only [Value.under, Value.coerce]
    split
    · exact .ok
    · exact .refused rfl
  | label variants =>
    simp only [Value.under, Value.enumLabel]
    split
    · exact .ok
    · exact .refused rfl
  | code variants =>
    simp only [Value.under, Value.enumCode]
    split
    · exact .ok
    · exact .refused rfl

theorem fit_proper (op : CompareOp) (comparand : Comparand) (typed : TypedTerm) :
    Proper (fit op comparand typed) := by
  unfold fit
  split
  · exact (under_proper _ _).map _
  · exact .ok
  · split
    · exact .ok
    · exact .ok
    · exact .refused rfl

theorem asText_proper (method : String) (typed : Option TypedTerm) :
    Proper (asText method typed) := by
  unfold asText
  split
  · exact .ok
  · exact .refused rfl

theorem membership_proper {path : FieldPath} (filled : path.segments ≠ []) (value : Value) :
    Proper (scope.membership path value) := by
  refine (resolve_proper filled).bind fun field _ => ?_
  split
  · split
    · exact .refused rfl
    · exact (comparand_proper _ _ _).bind fun _ _ => (under_proper _ _).bind fun _ _ => .ok
  · exact .refused rfl
  · exact .refused rfl

theorem arrayField_proper (op : TextOp) {receiver : Operand}
    (filled : ∀ path ∈ receiver.paths, path.segments ≠ []) :
    Proper (scope.arrayField op receiver) := by
  unfold arrayField
  split
  · refine (resolve_proper (filled _ (List.mem_singleton_self _))).bind fun field _ => ?_
    split <;> exact .ok
  · exact .ok

theorem operand_proper {o : Operand} (filled : ∀ path ∈ o.paths, path.segments ≠ []) :
    Proper (scope.operand o) := by
  induction o with
  | field path =>
    refine Proper.map ((resolve_proper (filled _ (List.mem_singleton_self _))).bind
      fun field _ => ?_) _
    split
    · exact .ok
    · exact .refused rfl
  | constant c => exact (constant_proper c).map _
  | label path =>
    refine Proper.map ((resolve_proper (filled _ (List.mem_singleton_self _))).bind
      fun field _ => ?_) _
    split
    · exact .ok
    · exact .refused rfl
  | lower inner ih =>
    exact (ih filled).bind fun _ _ => (asText_proper _ _).bind fun _ _ => .ok
  | upper inner ih =>
    exact (ih filled).bind fun _ _ => (asText_proper _ _).bind fun _ _ => .ok

theorem textOperand_proper (op : TextOp) {o : Operand}
    (filled : ∀ path ∈ o.paths, path.segments ≠ []) : Proper (scope.textOperand op o) :=
  (operand_proper filled).bind fun _ _ => asText_proper _ _

theorem comparison_proper (op : CompareOp) {left right : Operand}
    (onLeft : ∀ path ∈ left.paths, path.segments ≠ [])
    (onRight : ∀ path ∈ right.paths, path.segments ≠ []) :
    Proper (scope.comparison op left right) := by
  refine (operand_proper onLeft).bind fun l _ => (operand_proper onRight).bind fun r _ => ?_
  split
  · exact .refused rfl
  · split
    · exact .ok
    · exact .refused rfl
  · split
    · exact .ok
    · exact .refused rfl
  · exact (comparand_proper _ _ _).bind fun _ _ => (fit_proper _ _ _).bind fun _ _ =>
      (fit_proper _ _ _).bind fun _ _ => .ok

theorem textCheck_proper (op : TextOp) {receiver : Operand} {args : List Operand}
    (onReceiver : ∀ path ∈ receiver.paths, path.segments ≠ [])
    (onArgs : ∀ path ∈ args.flatMap Operand.paths, path.segments ≠ []) :
    Proper (scope.textCheck op receiver args) := by
  refine (textOperand_proper op onReceiver).bind fun _ _ => ?_
  cases args with
  | nil => exact .ok
  | cons argument rest =>
    obtain ⟨onArgument, -⟩ := List.forall_mem_append.mp onArgs
    refine (textOperand_proper op onArgument).bind fun _ _ => ?_
    split <;> exact .ok

theorem textual_proper (op : TextOp) {receiver : Operand} {args : List Operand}
    (onReceiver : ∀ path ∈ receiver.paths, path.segments ≠ [])
    (onArgs : ∀ path ∈ args.flatMap Operand.paths, path.segments ≠ []) :
    Proper (scope.textual op receiver args) := by
  unfold textual
  split
  · exact .refused rfl
  · refine (arrayField_proper op onReceiver).bind fun array found => ?_
    cases array with
    | none => exact textCheck_proper op onReceiver onArgs
    | some path =>
      obtain ⟨rfl, rfl⟩ := arrayField_eq_some found
      have filled := onReceiver path (List.mem_singleton_self path)
      simp only
      split
      · exact (constant_proper _).bind fun _ _ => membership_proper filled _
      · exact .refused rfl

theorem checkAll_proper {ps : List Predicate} (each : ∀ p ∈ ps, Proper (scope.check p)) :
    Proper (scope.checkAll ps) := by
  induction ps with
  | nil => exact .ok
  | cons p rest ih =>
    obtain ⟨first, others⟩ := List.forall_mem_cons.mp each
    exact first.bind fun _ _ => (ih others).bind fun _ _ => .ok

/-- A predicate as texts spell them is refused neither for a path nor for a negation. -/
theorem check_proper {p : Predicate} (form : p.WellFormed)
    (filled : ∀ path ∈ p.paths, path.segments ≠ []) : Proper (scope.check p) := by
  induction form with
  | comparison =>
    obtain ⟨onLeft, onRight⟩ := List.forall_mem_append.mp filled
    exact comparison_proper _ onLeft onRight
  | textual =>
    obtain ⟨onReceiver, onArgs⟩ := List.forall_mem_append.mp filled
    exact textual_proper _ onReceiver onArgs
  | negation _ ih =>
    -- The one operand is checked, and it is all that is negated.
    have inner := ih (Predicate.forall_paths_logical.mp filled _ (List.mem_singleton_self _))
    have operands := checkAll_proper (List.forall_mem_singleton.mpr inner)
    refine operands.bind fun checks checked => ?_
    obtain ⟨check, -, checked⟩ := bind_eq_ok.mp checked
    obtain ⟨others, nothing, checked⟩ := bind_eq_ok.mp checked
    cases nothing
    cases pure_eq_ok.mp checked
    exact .ok
  | @junction connective _ other _ _ ih =>
    have operands := checkAll_proper fun p mem =>
      ih p mem (Predicate.forall_paths_logical.mp filled p mem)
    refine operands.bind fun checks _ => ?_
    cases connective with
    | and | or => exact .ok
    | not => exact absurd rfl other
  | hasValue =>
    refine (resolve_proper (filled _ (List.mem_singleton_self _))).bind fun field _ => ?_
    split
    · exact .ok
    · exact .refused rfl
  | flag =>
    refine (resolve_proper (filled _ (List.mem_singleton_self _))).bind fun field _ => ?_
    split
    · exact .ok
    · exact .refused rfl
  | constant =>
    refine (constant_proper _).bind fun v _ => ?_
    split
    · exact .ok
    · exact .refused rfl

end Scope

/-! ## Texts -/

/-- In a lambda the parameter is the first token, and otherwise there is none. -/
theorem Sentence.splitHead_eq {tokens : List Token} {parameter : Option String} {t : SyntaxTree}
    (sentence : Sentence tokens parameter t) : (Expr.splitHead tokens).1 = parameter := by
  cases sentence with
  | plain phrase =>
    have other : ∀ name o o' body, tokens ≠ ⟨.ident name, o⟩ :: ⟨.arrow, o'⟩ :: body := by
      rintro name o o' body rfl
      exact phrase.not_head
    rw [splitHead_of_not other]
  | lambda phrase => rfl

/-- What a text is read as is well formed.  Each path has a segment, and all segments and captures
are words.  The segments of a path stand in the text one behind the other; those of a lambda come
after its parameter, which is none of them.  So no text is refused, under any schema, for a path
without segments or for a negation of other than one operand. -/
theorem text_well_formed {s : String} {p : Predicate} (read : Predicate.ofText s = .ok p) :
    p.WellFormed ∧
      (∀ path ∈ p.paths, path.segments ≠ [] ∧ ∀ segment ∈ path.segments, isWord segment) ∧
      (∀ name ∈ p.captureNames, isWord name) ∧
      (∃ tokens, Token.scan s = .ok tokens ∧ ∀ path ∈ p.paths,
        ∃ rest, Spells (Expr.splitHead tokens).1 tokens path.segments rest) ∧
      ∀ (captures : Captures) (schema : Schema) (first : Nat) (cause : Unsupported),
        (⟨p, captures⟩ : Filter).compileFrom schema first = .error (.unsupported cause) →
          cause ≠ .emptyPath ∧ ∀ actual, cause ≠ .notArity actual := by
  obtain ⟨tokens, parameter, t, scanned, sentence⟩ := Predicate.sentence_of_ofText read
  rw [Predicate.ofText_eq scanned, sentence.read] at read
  obtain ⟨e, means, read⟩ := bind_eq_ok.mp read
  obtain ⟨form, names⟩ := (sentence.formed means).toPredicate read
  refine ⟨form, fun path mem => ?_, fun name mem => ?_, ⟨tokens, scanned, fun path mem => ?_⟩, ?_⟩
  · obtain ⟨filled, rest, spells⟩ := names.paths path mem
    refine ⟨filled, fun segment inside => ?_⟩
    obtain ⟨o, found⟩ := spells.mem segment inside
    exact Token.scan_words scanned found
  · obtain ⟨o, found⟩ := names.captures name mem
    exact Token.scan_words scanned found
  · rw [sentence.splitHead_eq]
    exact (names.paths path mem).2
  · intro captures schema first cause failed
    have proper : Scope.Proper (Filter.compileFrom ⟨p, captures⟩ schema first) :=
      (Scope.check_proper form fun path mem => (names.paths path mem).1).map _
    have other := proper cause failed
    constructor
    · rintro rfl
      cases other
    · rintro actual rfl
      cases other

/-- A lambda with a path like its parameter, a parameter in parentheses, and an operand of each
kind. -/
def groupedText : String :=
  "a => a.a.ToString().ToLower() == @n && (!(a).b.HasValue || string.IsNullOrWhiteSpace(a.c._1))"

def groupedPredicate : Predicate := .logical .and
  [.comparison .eq (.lower (.label ⟨["a"]⟩)) (.constant (.captured "n")),
    .logical .or [.logical .not [.hasValue ⟨["b"]⟩],
      .textual .isNullOrWhiteSpace (.field ⟨["c", "_1"]⟩) []]]

theorem text_well_formed_of_grouped :
    Predicate.ofText groupedText = .ok groupedPredicate ∧ groupedPredicate.WellFormed ∧
      groupedPredicate.paths = [⟨["a"]⟩, ⟨["b"]⟩, ⟨["c", "_1"]⟩] ∧
      (∀ path ∈ groupedPredicate.paths,
        path.segments ≠ [] ∧ ∀ segment ∈ path.segments, isWord segment) ∧
      ∀ name ∈ groupedPredicate.captureNames, isWord name := by
  have read : Predicate.ofText groupedText = .ok groupedPredicate := by cbv
  obtain ⟨form, paths, captures, -⟩ := text_well_formed read
  exact ⟨read, form, rfl, paths, captures⟩

end DocStore
