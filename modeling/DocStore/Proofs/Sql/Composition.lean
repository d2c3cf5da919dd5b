import DocStore.Proofs.Check.Derivation
import DocStore.Proofs.Sql.Numbering

/-!
# Connectives are compiled operand by operand

A conjunction or a disjunction compiles just where each of its operands does by itself, and what comes
out is put together from the operands compiled in turn: each is numbered from where the placeholders
before it end.  A negation adds no placeholder.

* `Filter.InTurn`: predicates compiled one after another;
* `Check.firstPosition_nextIndex`: where the placeholders of a check end;
* `Check.inTurn`: checks translated in one run are predicates compiled in turn;
* `connectives_compose`: the success, the text, the parameters and the errors of connectives.
-/

namespace DocStore

/-- Predicates under the same captures compiled one after another, each from the index that follows
the placeholders before it. -/
inductive Filter.InTurn (captures : Captures) (schema : Schema) :
    Nat → List Predicate → List CompiledQuery → Prop
  | nil {first} : InTurn captures schema first [] []
  | cons {first p q ps qs} (here : Filter.compileFrom ⟨p, captures⟩ schema first = .ok q)
      (after : InTurn captures schema (q.nextIndex first) ps qs) :
      InTurn captures schema first (p :: ps) (q :: qs)

/-- What stands between the operands of a connective that may have several. -/
def Connective.joiner? : Connective → Option String
  | .and => some " AND "
  | .or => some " OR "
  | .not => none

/-- The text of conditions that a connective joins. -/
def junctionText (joiner : String) (fragments : List String) : String :=
  "(" ++ joiner.intercalate (fragments.map fun fragment => "(" ++ fragment ++ ")") ++ ")"

/-! ## Texts -/

namespace Piece

@[simp] theorem textOf_nil : textOf [] = "" := rfl

@[simp] theorem textOf_cons (p : Piece) (ps : List Piece) :
    textOf (p :: ps) = p.text ++ textOf ps := by
  simp [textOf]

@[simp] theorem textOf_append (ps qs : List Piece) :
    textOf (ps ++ qs) = textOf ps ++ textOf qs := by
  simp [textOf]

theorem textOf_joined (separator : String) (pss : List (List Piece)) :
    textOf (joined separator pss) = separator.intercalate (pss.map textOf) := by
  induction pss with
  | nil => simp [joined, textOf]
  | cons ps others ih =>
    cases others with
    | nil => simp [joined]
    | cons qs others =>
      have split : joined separator (ps :: qs :: others) =
          ps ++ .code separator :: joined separator (qs :: others) := rfl
      rw [split, textOf_append, textOf_cons, ih]
      simp [text, String.append_assoc]

end Piece

namespace SqlExpr

open Piece

theorem text_junction (joiner : String) (es : List SqlExpr) :
    textOf (junctionPieces joiner (piecesOfAll es)) = junctionText joiner (es.map text) := by
  have wrapped : (es.map pieces).map (textOf ∘ fun ps => .code "(" :: ps ++ [Piece.code ")"]) =
      (es.map text).map fun fragment => "(" ++ fragment ++ ")" := by
    rw [List.map_map, List.map_map]
    apply List.map_congr_left
    intro e _
    simp [Piece.text, text, String.append_assoc]
  rw [junctionPieces, textOf_append, textOf_cons, textOf_joined, piecesOfAll_eq_map, List.map_map,
    wrapped]
  simp [junctionText, Piece.text]

theorem text_all {es : List SqlExpr} (some_operand : es ≠ []) :
    (all es).text = junctionText " AND " (es.map text) := by
  have filled : es.isEmpty = false := List.isEmpty_eq_false_iff.mpr some_operand
  rw [text, pieces, filled]
  exact text_junction ..

theorem text_any {es : List SqlExpr} (some_operand : es ≠ []) :
    (any es).text = junctionText " OR " (es.map text) := by
  have filled : es.isEmpty = false := List.isEmpty_eq_false_iff.mpr some_operand
  rw [text, pieces, filled]
  exact text_junction ..

theorem text_not (e : SqlExpr) : (not e).text = "(NOT (" ++ e.text ++ "))" := by
  simp [text, pieces, Piece.text, String.append_assoc]

end SqlExpr

/-! ## Numbers -/

open Binding

namespace Check

/-- The position after the placeholders of a check, unless the indexes run out. -/
theorem firstPosition_nextIndex (c : Check) {first : Nat}
    (fits : firstPosition first + (c.compileFrom first).parameters.length < UInt64.size) :
    firstPosition ((c.compileFrom first).nextIndex first) =
      firstPosition first + (c.compileFrom first).parameters.length := by
  generalize start : firstPosition first = n at *
  have numbered : (c.compileFrom first).parameters.map Parameter.index =
      (List.range' n (c.compileFrom first).parameters.length).map indexAt := by
    rw [← start]
    exact c.toSql_numbered (firstPosition first)
  generalize bound : (c.compileFrom first).parameters = ps at *
  rcases List.eq_nil_or_concat ps with rfl | ⟨before, last, rfl⟩
  · have same : (c.compileFrom first).nextIndex first = first := by
      rw [CompiledQuery.nextIndex, bound]
      rfl
    rw [same, start]
    rfl
  · have index : last.index = indexAt (n + before.length) := by
      have ends := congrArg List.getLast? numbered
      simpa [List.range'_concat] using ends
    have next : (c.compileFrom first).nextIndex first = indexAt (last.index + 1) := by
      simp [CompiledQuery.nextIndex, bound]
    simp only [List.concat_eq_append, List.length_append, List.length_singleton] at fits ⊢
    simp only [indexAt, UInt64.size, firstPosition] at *
    omega

/-- Checks translated in one run are predicates compiled in turn. -/
theorem inTurn {captures : Captures} {schema : Schema} {ps : List Predicate} {cs : List Check}
    (passed : List.Forall₂ (fun p c => Scope.check ⟨schema, captures⟩ p = .ok c) ps cs)
    {first : Nat}
    (fits : firstPosition first + (toSqlAll cs (firstPosition first)).2.length < UInt64.size) :
    ∃ qs, Filter.InTurn captures schema first ps qs ∧
      qs.map CompiledQuery.condition = (toSqlAll cs (firstPosition first)).1 ∧
      qs.flatMap CompiledQuery.parameters = (toSqlAll cs (firstPosition first)).2 := by
  induction passed generalizing first with
  | nil => exact ⟨[], .nil, rfl, rfl⟩
  | @cons p c ps cs here _ ih =>
    let q := c.compileFrom first
    have compiled : Filter.compileFrom ⟨p, captures⟩ schema first = .ok q :=
      map_eq_ok.mpr ⟨c, here, rfl⟩
    have own : (c.compileFrom first).parameters.length = q.parameters.length := rfl
    have split : (toSqlAll (c :: cs) (firstPosition first)).2 =
        q.parameters ++ (toSqlAll cs (firstPosition first + q.parameters.length)).2 := by
      simp [toSqlAll, q, compileFrom]
    rw [split, List.length_append] at fits
    have next : firstPosition (q.nextIndex first) = firstPosition first + q.parameters.length :=
      c.firstPosition_nextIndex (by omega)
    have fewer : firstPosition (q.nextIndex first) +
        (toSqlAll cs (firstPosition (q.nextIndex first))).2.length < UInt64.size := by
      rw [next]
      omega
    obtain ⟨qs, others, conditions, parameters⟩ := ih fewer
    rw [next] at conditions parameters
    refine ⟨q :: qs, .cons compiled others, ?_, ?_⟩
    · rw [List.map_cons, conditions]
      simp [toSqlAll, q, compileFrom]
    · rw [split, List.flatMap_cons, parameters]

end Check

/-! ## Success and failure -/

namespace Filter

variable {filter : Filter} {schema : Schema}

/-- Whether a filter compiles does not depend on where its placeholders start. -/
theorem compiles_iff (first : Nat) :
    (∃ q, filter.compileFrom schema first = .ok q) ↔ ∃ c, filter.check schema = .ok c := by
  constructor
  · rintro ⟨q, compiled⟩
    obtain ⟨c, passed, -⟩ := map_eq_ok.mp compiled
    exact ⟨c, passed⟩
  · rintro ⟨c, passed⟩
    exact ⟨_, map_eq_ok.mpr ⟨c, passed, rfl⟩⟩

theorem compileFrom_eq_error (first : Nat) {e : QueryError} :
    filter.compileFrom schema first = .error e ↔ filter.check schema = .error e := by
  unfold compileFrom
  cases filter.check schema <;> simp [Except.map]

end Filter

namespace Scope

variable {scope : Scope}

/-- Predicates are refused for what is wrong with the first of them that is refused. -/
theorem checkAll_refused {before after : List Predicate} {p : Predicate} {e : QueryError}
    (passed : ∀ r ∈ before, ∃ c, scope.check r = .ok c) (refused : scope.check p = .error e) :
    scope.checkAll (before ++ p :: after) = .error e := by
  induction before with
  | nil =>
    rw [List.nil_append, checkAll, refused]
    rfl
  | cons r before ih =>
    obtain ⟨⟨c, here⟩, others⟩ := List.forall_mem_cons.mp passed
    rw [List.cons_append, checkAll, here, ih others]
    rfl

theorem exists_refused {ps : List Predicate} {e : QueryError} (h : scope.checkAll ps = .error e) :
    ∃ before p after, ps = before ++ p :: after ∧
      (∀ r ∈ before, ∃ c, scope.check r = .ok c) ∧ scope.check p = .error e := by
  induction ps with
  | nil => cases h
  | cons p rest ih =>
    rw [checkAll] at h
    cases here : scope.check p with
    | error d =>
      rw [here] at h
      cases h
      exact ⟨[], p, rest, rfl, by simp, here⟩
    | ok c =>
      cases others : scope.checkAll rest with
      | ok cs =>
        rw [here, others] at h
        cases h
      | error d =>
        rw [here, others] at h
        cases h
        obtain ⟨before, r, after, rfl, passed, refused⟩ := ih others
        exact ⟨p :: before, r, after, rfl, List.forall_mem_cons.mpr ⟨⟨c, here⟩, passed⟩, refused⟩

theorem checkAll_eq_error {ps : List Predicate} {e : QueryError} :
    scope.checkAll ps = .error e ↔ ∃ before p after, ps = before ++ p :: after ∧
      (∀ r ∈ before, ∃ c, scope.check r = .ok c) ∧ scope.check p = .error e := by
  constructor
  · exact exists_refused
  · rintro ⟨before, p, after, rfl, passed, refused⟩
    exact checkAll_refused passed refused

/-- Predicates pass their checks together if each passes. -/
theorem checks_iff {ps : List Predicate} :
    (∃ cs, scope.checkAll ps = .ok cs) ↔ ∀ p ∈ ps, ∃ c, scope.check p = .ok c := by
  induction ps with
  | nil => exact ⟨fun _ _ mem => (nomatch mem), fun _ => ⟨[], rfl⟩⟩
  | cons p rest ih =>
    rw [List.forall_mem_cons, ← ih]
    constructor
    · rintro ⟨cs, all⟩
      cases checkAll_eq_ok.mp all with
      | cons here others => exact ⟨⟨_, here⟩, _, checkAll_eq_ok.mpr others⟩
    · rintro ⟨⟨c, here⟩, cs, others⟩
      exact ⟨c :: cs, checkAll_eq_ok.mpr (.cons here (checkAll_eq_ok.mp others))⟩

end Scope

/-! ## Connectives -/

/-- What a connective of several makes of checks: their texts joined, and their parameters. -/
theorem Connective.joined {connective : Connective} {joiner : String}
    (joins : connective.joiner? = some joiner) (cs : List Check) :
    ∃ c, Scope.logical connective cs = .ok c ∧ ∀ n, cs ≠ [] →
      (c.toSql n).1.text = junctionText joiner ((Check.toSqlAll cs n).1.map SqlExpr.text) ∧
      (c.toSql n).2 = (Check.toSqlAll cs n).2 := by
  have filled (n : Nat) (some_check : cs ≠ []) : (Check.toSqlAll cs n).1 ≠ [] := by
    cases cs with
    | nil => exact absurd rfl some_check
    | cons c rest => simp [Check.toSqlAll]
  cases connective with
  | and =>
    cases joins
    refine ⟨.all cs, rfl, fun n some_check => ⟨SqlExpr.text_all (filled n some_check), ?_⟩⟩
    simp [Check.toSql]
  | or =>
    cases joins
    refine ⟨.any cs, rfl, fun n some_check => ⟨SqlExpr.text_any (filled n some_check), ?_⟩⟩
    simp [Check.toSql]
  | not => cases joins

namespace Scope

variable {scope : Scope} {connective : Connective} {joiner : String}

theorem check_joined (joins : connective.joiner? = some joiner) (ps : List Predicate) :
    (∃ c, scope.check (.logical connective ps) = .ok c) ↔ ∃ cs, scope.checkAll ps = .ok cs := by
  rw [check]
  constructor
  · rintro ⟨c, passed⟩
    obtain ⟨cs, all, -⟩ := bind_eq_ok.mp passed
    exact ⟨cs, all⟩
  · rintro ⟨cs, all⟩
    obtain ⟨c, made, -⟩ := Connective.joined joins cs
    exact ⟨c, bind_eq_ok.mpr ⟨cs, all, made⟩⟩

/-- A connective of several adds no error to those of its operands. -/
theorem check_joined_eq_error (joins : connective.joiner? = some joiner) (ps : List Predicate)
    {e : QueryError} :
    scope.check (.logical connective ps) = .error e ↔ scope.checkAll ps = .error e := by
  rw [check]
  cases scope.checkAll ps with
  | error d =>
    have whole : ((.error d : Except QueryError (List Check)) >>= logical connective) =
        .error d := rfl
    rw [whole, Except.error.injEq, Except.error.injEq]
  | ok cs =>
    obtain ⟨c, made, -⟩ := Connective.joined joins cs
    have whole : ((.ok cs : Except QueryError (List Check)) >>= logical connective) =
        logical connective cs := rfl
    rw [whole, made]
    constructor <;> intro refused <;> cases refused

end Scope

namespace Filter

variable {captures : Captures} {schema : Schema} {first : Nat} {q : CompiledQuery}

/-- What a connective of several comes to is put together from its operands compiled in turn. -/
theorem joined_inTurn {connective : Connective} {joiner : String}
    (joins : connective.joiner? = some joiner) {ps : List Predicate} (some_operand : ps ≠ [])
    (compiled : compileFrom ⟨.logical connective ps, captures⟩ schema first = .ok q)
    (fits : max first 1 + q.parameters.length < UInt64.size) :
    ∃ qs, InTurn captures schema first ps qs ∧
      q.fragment = junctionText joiner (qs.map CompiledQuery.fragment) ∧
      q.parameters = qs.flatMap CompiledQuery.parameters := by
  obtain ⟨c, passed, rfl⟩ := map_eq_ok.mp compiled
  obtain ⟨cs, each, made⟩ := Scope.check_logical_eq_ok.mp passed
  have some_check : cs ≠ [] := by
    rintro rfl
    exact some_operand (List.forall₂_nil_right_iff.mp each)
  obtain ⟨d, same, written⟩ := Connective.joined joins cs
  rw [made] at same
  cases same
  obtain ⟨text, parameters⟩ := written (firstPosition first) some_check
  have length : (c.compileFrom first).parameters.length =
      (Check.toSqlAll cs (firstPosition first)).2.length := congrArg List.length parameters
  rw [length] at fits
  obtain ⟨qs, inTurn, conditions, bound⟩ := Check.inTurn each fits
  refine ⟨qs, inTurn, ?_, parameters.trans bound.symm⟩
  rw [← conditions, List.map_map] at text
  exact text

/-- A negation encloses what its operand comes to, and has no parameters of its own. -/
theorem neg_compiled {p : Predicate} (compiled : compileFrom ⟨p, captures⟩ schema first = .ok q) :
    ∃ negation, compileFrom ⟨p.neg, captures⟩ schema first = .ok negation ∧
      negation.fragment = "(NOT (" ++ q.fragment ++ "))" ∧ negation.parameters = q.parameters := by
  obtain ⟨c, passed, rfl⟩ := map_eq_ok.mp compiled
  have negated : Scope.check ⟨schema, captures⟩ p.neg = .ok c.not := by
    rw [Scope.check_neg, show Scope.check ⟨schema, captures⟩ p = .ok c from passed]
    rfl
  refine ⟨c.not.compileFrom first, map_eq_ok.mpr ⟨c.not, negated, rfl⟩, ?_, ?_⟩
  · simp [CompiledQuery.fragment, Check.compileFrom, Check.toSql, SqlExpr.text_not]
  · simp [Check.compileFrom, Check.toSql]

end Filter

/-- Connectives are compiled operand by operand.  A conjunction or a disjunction compiles just where
each operand does by itself, and fails as the first does that fails by itself.  Its text joins those of
the operands compiled in turn, and its parameters are theirs one after another, as long as the indexes
do not run out.  A negation fails as its operand does, encloses its text and has its parameters. -/
theorem connectives_compose {connective : Connective} {joiner : String}
    (joins : connective.joiner? = some joiner) {ps : List Predicate} (some_operand : ps ≠ [])
    (captures : Captures) (schema : Schema) (first : Nat) :
    let compile (p : Predicate) := Filter.compileFrom ⟨p, captures⟩ schema
    (∀ other, (∃ q, compile (.logical connective ps) first = .ok q) ↔
        ∀ p ∈ ps, ∃ q, compile p other = .ok q) ∧
      (∀ q, compile (.logical connective ps) first = .ok q →
        max first 1 + q.parameters.length < UInt64.size →
        ∃ qs, Filter.InTurn captures schema first ps qs ∧
          q.fragment = junctionText joiner (qs.map CompiledQuery.fragment) ∧
          q.parameters = qs.flatMap CompiledQuery.parameters) ∧
      (∀ other e, compile (.logical connective ps) first = .error e ↔
        ∃ before p after, ps = before ++ p :: after ∧
          (∀ r ∈ before, ∃ q, compile r other = .ok q) ∧ compile p other = .error e) ∧
      ∀ p, (∀ q, compile p first = .ok q → ∃ negation, compile p.neg first = .ok negation ∧
          negation.fragment = "(NOT (" ++ q.fragment ++ "))" ∧
          negation.parameters = q.parameters) ∧
        ∀ e, compile p first = .error e → compile p.neg first = .error e := by
  intro compile
  let scope : Scope := ⟨schema, captures⟩
  have passes (p : Predicate) (n : Nat) :
      (∃ q, compile p n = .ok q) ↔ ∃ c, scope.check p = .ok c := Filter.compiles_iff n
  have fails (p : Predicate) (n : Nat) (e : QueryError) :
      compile p n = .error e ↔ scope.check p = .error e := Filter.compileFrom_eq_error n
  refine ⟨fun other => ?_, fun q => Filter.joined_inTurn joins some_operand, fun other e => ?_,
    fun p => ⟨fun q => Filter.neg_compiled, fun e refused => ?_⟩⟩
  · simp only [passes]
    exact (Scope.check_joined joins ps).trans Scope.checks_iff
  · simp only [passes, fails]
    exact (Scope.check_joined_eq_error joins ps).trans Scope.checkAll_eq_error
  · rw [fails] at refused ⊢
    rw [Scope.check_neg, refused]
    rfl

/-- Members with a name and perhaps an age. -/
def agedSchema : Schema :=
  ((Schema.empty "Member").declare "name" (.required (.scalar .text))).declare "age"
    (.optional (.scalar .int32))

/-- Predicates of which the first has no constant and the second is a disjunction. -/
def agedOperands : List Predicate :=
  [.hasValue ⟨["age"]⟩,
    .logical .or
      [.comparison .ge (.field ⟨["age"]⟩) (.constant (.literal (.int16 18))),
        .textual .startsWith (.field ⟨["name"]⟩) [.constant (.captured "head")]],
    .comparison .ne (.field ⟨["name"]⟩) (.constant (.literal (.text "x")))]

theorem connectives_compose_of_aged :
    Connective.and.joiner? = some " AND " ∧ agedOperands ≠ [] ∧
      ∃ q, Filter.compileFrom ⟨.logical .and agedOperands, [("head", .text "A")]⟩ agedSchema 0 =
          .ok q ∧
        max 0 1 + q.parameters.length < UInt64.size ∧
        q.parameters.map Parameter.index = [1, 2, 3] ∧
        (∃ qs, Filter.InTurn [("head", .text "A")] agedSchema 0 agedOperands qs ∧
          q.fragment = junctionText " AND " (qs.map CompiledQuery.fragment) ∧
          q.parameters = qs.flatMap CompiledQuery.parameters) ∧
        Filter.compileFrom ⟨.logical .and agedOperands, []⟩ agedSchema 0 =
          .error (.unbound "head") := by
  have some_operand : agedOperands ≠ [] := List.cons_ne_nil _ _
  obtain ⟨q, compiled, indexes⟩ : ∃ q, Filter.compileFrom
      ⟨.logical .and agedOperands, [("head", .text "A")]⟩ agedSchema 0 = .ok q ∧
        q.parameters.map Parameter.index = [1, 2, 3] := ⟨_, rfl, rfl⟩
  have fits : max 0 1 + q.parameters.length < UInt64.size := by
    have length := congrArg List.length indexes
    rw [List.length_map] at length
    rw [length]
    decide
  have joins : Connective.and.joiner? = some " AND " := rfl
  obtain ⟨-, inTurn, -⟩ :=
    connectives_compose joins some_operand [("head", .text "A")] agedSchema 0
  obtain ⟨-, -, fails, -⟩ := connectives_compose joins some_operand [] agedSchema 0
  have passed : ∀ r ∈ agedOperands.take 1, ∃ q, Filter.compileFrom ⟨r, []⟩ agedSchema 5 = .ok q :=
    List.forall_mem_singleton.mpr ⟨_, rfl⟩
  refine ⟨joins, some_operand, q, compiled, fits, indexes, inTurn q compiled fits, ?_⟩
  exact (fails 5 _).mpr ⟨agedOperands.take 1, _, _, rfl, passed, rfl⟩

end DocStore
