import DocStore.Proofs.Check.Places
import DocStore.Proofs.Sql.Numbering

/-!
# The parameters of a compiled filter

A compiled filter has one parameter for each constant of its predicate, in the order of the constants,
and each parameter has a value of its type.

* `Check.toSql_binds`: a check binds its constants, each under its type;
* `Check.WellTyped.bound_admitted`: in a well-typed check each is a value of that type;
* `parameters_in_order`: the indexes and the values of the parameters of a filter;
* `parameters_admitted`: their types.
-/

namespace DocStore

namespace Binding

variable {α β : Type}

/-- Whether a translation binds some constants, in order and under their types. -/
def Binds (x : Binding α) (bound : List Bound) : Prop :=
  ∀ n, (x n).2.map (fun p => (p.value, p.type)) = bound

theorem Binds.pure (a : α) : (Pure.pure a : Binding α).Binds [] := fun _ => rfl

theorem Binds.constant (value : Value) (type : SqlType) :
    (constant value type).Binds [(value, type)] := fun _ => rfl

theorem Binds.bind {x : Binding α} {f : α → Binding β} {first second : List Bound}
    (hx : x.Binds first) (hf : ∀ a, (f a).Binds second) : (x >>= f).Binds (first ++ second) := by
  intro n
  rw [bind_apply, List.map_append, hx n, hf]

/-- What follows may rearrange a result without binding anything. -/
theorem Binds.map {x : Binding α} {bound : List Bound} (hx : x.Binds bound) (f : α → β) :
    (x >>= fun a => Pure.pure (f a)).Binds bound := by
  have whole := hx.bind fun a => Binds.pure (f a)
  rwa [List.append_nil] at whole

end Binding

open Binding

namespace Term

theorem toText_binds (term : Term) : term.toText.Binds term.boundText := by
  induction term with
  | field | node | label => exact .pure _
  | lower inner ih => exact ih.map _
  | upper inner ih => exact ih.map _
  | constant v => exact .constant _ _

theorem toSql_binds (comparand : Comparand) (term : Term) :
    (term.toSql comparand).Binds (term.bound comparand) := by
  by_cases constant : ∃ v, term = .constant v
  · obtain ⟨v, rfl⟩ := constant
    exact .constant _ _
  · have read : ∀ v, term ≠ .constant v := fun v h => constant ⟨v, h⟩
    rw [bound_read read]
    intro n
    have text := term.toText_binds n
    cases comparand with
    | typed type => rwa [toSql_typed read]
    | label variants => rwa [toSql_label read]
    | code variants => rwa [toSql_code read]

theorem toNatural_binds (term : Term) : term.toNatural.Binds term.boundNatural := by
  cases term with
  | constant v => exact .constant _ _
  | _ => exact toText_binds _

end Term

namespace Check

theorem toSqlAll_binds {cs : List Check} (each : ∀ c ∈ cs, c.toSql.Binds c.bound) :
    (toSqlAll cs).Binds (boundInAll cs) := by
  induction cs with
  | nil => exact .pure _
  | cons c rest ih =>
    obtain ⟨first, others⟩ := List.forall_mem_cons.mp each
    exact first.bind fun _ => (ih others).map _

/-- A check binds its constants from left to right, each once. -/
theorem toSql_binds (c : Check) : c.toSql.Binds c.bound := by
  induction c with
  | compare op comparand left right =>
    exact (left.toSql_binds comparand).bind fun _ => (right.toSql_binds comparand).map _
  | isNull term negated => exact term.toNatural_binds.map _
  | search pattern receiver argument =>
    exact receiver.toText_binds.bind fun _ => argument.toText_binds.map _
  | blank term => exact term.toText_binds.map _
  | member path element comparand value =>
    have item := Binds.constant value comparand.sqlType
    rw [toSql]
    split <;> exact item.map _
  | hasValue | flag => exact .pure _
  | literal b => exact .constant _ _
  | all operands ih => exact (toSqlAll_binds ih).map _
  | any operands ih => exact (toSqlAll_binds ih).map _
  | not operand ih => exact ih.map _

end Check

/-! ## Types -/

theorem SqlType.admits_ne_null {type : SqlType} {value : Value} (h : type.admits value) :
    value ≠ .null := by
  rintro rfl
  cases type <;> cases h

/-- Whether some constants are values of the types that they are bound under. -/
def Admitted (bound : List Bound) : Prop := ∀ b ∈ bound, b.2.admits b.1

namespace Admitted

theorem nil : Admitted [] := fun _ h => nomatch h

theorem single {value : Value} {type : SqlType} (h : type.admits value) :
    Admitted [(value, type)] := by
  intro b hb
  rw [List.mem_singleton.mp hb]
  exact h

theorem append {bs cs : List Bound} (first : Admitted bs) (second : Admitted cs) :
    Admitted (bs ++ cs) :=
  List.forall_mem_append.mpr ⟨first, second⟩

end Admitted

namespace Term

theorem HasType.boundText_admitted {term : Term} (h : term.HasType .text) :
    Admitted term.boundText := by
  generalize same : ScalarType.text = type at h
  induction h with
  | field | label => exact .nil
  | lower _ ih => exact ih rfl
  | upper _ ih => exact ih rfl
  | constant kind =>
    subst same
    exact .single (Value.admits_own kind)

theorem HasType.boundNatural_admitted {term : Term} {type : ScalarType} (h : term.HasType type) :
    Admitted term.boundNatural := by
  cases h with
  | field | label => exact .nil
  | lower text => exact (HasType.lower text).boundText_admitted
  | upper text => exact (HasType.upper text).boundText_admitted
  | constant kind =>
    have own := Value.admits_own kind
    rw [boundNatural, kind]
    exact .single own

theorem Fits.bound_admitted {comparand : Comparand} {term : Term} (h : term.Fits comparand) :
    Admitted (term.bound comparand) := by
  cases term with
  | constant v => exact .single h
  | field | node | label => exact .nil
  | lower inner =>
    obtain ⟨type, kind⟩ := h
    cases kind with
    | lower text => exact text.boundText_admitted
  | upper inner =>
    obtain ⟨type, kind⟩ := h
    cases kind with
    | upper text => exact text.boundText_admitted

end Term

/-- In a well-typed check every constant is a value of the type that it is bound under. -/
theorem Check.WellTyped.bound_admitted {c : Check} (h : c.WellTyped) : Admitted c.bound := by
  have joined {operands : List Check} (ih : ∀ c ∈ operands, Admitted c.bound) :
      Admitted (boundInAll operands) := by
    induction operands with
    | nil => exact .nil
    | cons c rest step =>
      obtain ⟨first, others⟩ := List.forall_mem_cons.mp ih
      exact first.append (step others)
  induction c with
  | compare op comparand left right =>
    cases h with
    | compare first second => exact first.bound_admitted.append second.bound_admitted
  | isNull term negated =>
    cases h with
    | nodeIsNull => exact .nil
    | isNull _ kind => exact kind.boundNatural_admitted
  | search pattern receiver argument =>
    cases h with
    | search _ text part => exact text.boundText_admitted.append part.boundText_admitted
  | blank term =>
    cases h with
    | blank text => exact text.boundText_admitted
  | member path element comparand value =>
    cases h with
    | member _ _ admitted => exact .single admitted
  | hasValue | flag => exact .nil
  | literal b => exact .single rfl
  | all operands ih =>
    cases h with
    | all each => exact joined fun c hc => ih c hc (each c hc)
  | any operands ih =>
    cases h with
    | any each => exact joined fun c hc => ih c hc (each c hc)
  | not operand ih =>
    cases h with
    | not inner => exact ih inner

/-! ## Compiled filters -/

/-- The parameters of a compiled filter are the constants of its predicate other than null, captures
replaced by their values: numbered one after another from left to right, and each with the value that
its place demands. -/
theorem parameters_in_order {filter : Filter} {schema : Schema} {first : Nat} {query : CompiledQuery}
    (compiled : filter.compileFrom schema first = .ok query)
    (fits : max first 1 + filter.resolved.constants.length < UInt64.size) :
    query.parameters.map Parameter.index =
        List.range' (max first 1) filter.resolved.constants.length ∧
      (filter.resolved.places schema).map Place.constant = filter.resolved.constants ∧
      List.Forall₂ (fun place p => place.converted = .ok p.value)
        (filter.resolved.places schema) query.parameters := by
  obtain ⟨check, passed, rfl⟩ := map_eq_ok.mp compiled
  have binds := check.toSql_binds (firstPosition first)
  have constants := Predicate.constant_places schema filter.resolved
  have converted : List.Forall₂ (fun place p => place.converted = .ok p.value)
      (filter.resolved.places schema) (check.compileFrom first).parameters := by
    have all : Converted (filter.resolved.places schema) check.bound := check_bound passed
    rw [Converted, ← binds, List.forall₂_map_right_iff] at all
    exact all
  have length : (check.compileFrom first).parameters.length =
      filter.resolved.constants.length := by
    rw [← converted.length_eq, ← constants, List.length_map]
  refine ⟨?_, constants, converted⟩
  have numbered : (check.compileFrom first).parameters.map Parameter.index =
      (List.range' (max first 1) (check.compileFrom first).parameters.length).map indexAt :=
    check.toSql_numbered (firstPosition first)
  rw [numbered, length]
  -- No index reaches the word size, so none wraps around.
  refine (List.map_congr_left fun i hi => ?_).trans (List.map_id _)
  have below := (List.mem_range'_1.mp hi).2
  exact Nat.mod_eq_of_lt (by omega)

/-- Named items of some kind, with a count, tags and perhaps a note. -/
def taggedSchema : Schema :=
  (((((Schema.empty "Item").declare "name" (.required (.scalar .text))).declare "note"
    (.optional (.scalar .text))).declare "count" (.required (.scalar .int64))).declare "tags"
      (.required (.array (.scalar .text)))).declare "kind"
        (.required (.scalar (.enumeration "Kind" [⟨"new", 1⟩, ⟨"used", 2⟩])))

/-- A filter with a constant in every kind of place. -/
def taggedFilter : Filter where
  predicate := .logical .and
    [.textual .startsWith (.field ⟨["name"]⟩) [.lower (.constant (.captured "head"))],
      .comparison .ne (.constant (.literal .null)) (.field ⟨["note"]⟩),
      .comparison .le (.constant (.literal (.int16 3))) (.field ⟨["count"]⟩),
      .logical .not [.comparison .eq (.field ⟨["kind"]⟩) (.constant (.literal (.int32 2)))],
      .comparison .ge (.field ⟨["kind"]⟩) (.constant (.literal (.text "new"))),
      .textual .contains (.field ⟨["tags"]⟩) [.constant (.literal (.text "x"))],
      .constant (.literal (.bool true))]
  captures := [("head", .text "A")]

theorem parameters_in_order_of_tagged :
    max 4 1 + taggedFilter.resolved.constants.length < UInt64.size ∧
      ∃ q, taggedFilter.compileFrom taggedSchema 4 = .ok q ∧
        q.parameters.map Parameter.index = [4, 5, 6, 7, 8, 9] ∧
        (taggedFilter.resolved.places taggedSchema).map Place.converted =
          [.ok (.text "A"), .ok (.int64 3), .ok (.text "used"), .ok (.int64 1), .ok (.text "x"),
            .ok (.bool true)] ∧
        List.Forall₂ (fun place p => place.converted = .ok p.value)
          (taggedFilter.resolved.places taggedSchema) q.parameters := by
  have fits : max 4 1 + taggedFilter.resolved.constants.length < UInt64.size := by decide
  obtain ⟨q, compiled⟩ : ∃ q, taggedFilter.compileFrom taggedSchema 4 = .ok q := ⟨_, rfl⟩
  obtain ⟨numbered, -, converted⟩ := parameters_in_order compiled fits
  exact ⟨fits, q, compiled, numbered, rfl, converted⟩

/-- Every parameter of a compiled filter has a value of its type.  None is null. -/
theorem parameters_admitted {filter : Filter} {schema : Schema} {first : Nat} {query : CompiledQuery}
    (compiled : filter.compileFrom schema first = .ok query) :
    ∀ p ∈ query.parameters, p.type.admits p.value ∧ p.value ≠ .null := by
  obtain ⟨check, passed, rfl⟩ := map_eq_ok.mp compiled
  intro p hp
  have bound : (p.value, p.type) ∈ check.bound := by
    rw [← check.toSql_binds (firstPosition first)]
    exact List.mem_map_of_mem hp
  have admitted := (check_wellTyped passed).bound_admitted _ bound
  exact ⟨admitted, SqlType.admits_ne_null admitted⟩

theorem parameters_admitted_of_tagged :
    ∃ q, taggedFilter.compileFrom taggedSchema 2 = .ok q ∧
      q.parameters.map Parameter.type = [.text, .bigint, .text, .bigint, .text, .boolean] ∧
      ∀ p ∈ q.parameters, p.type.admits p.value ∧ p.value ≠ .null := by
  obtain ⟨q, compiled, types⟩ : ∃ q, taggedFilter.compileFrom taggedSchema 2 = .ok q ∧
      q.parameters.map Parameter.type = [.text, .bigint, .text, .bigint, .text, .boolean] :=
    ⟨_, rfl, rfl⟩
  exact ⟨q, compiled, types, parameters_admitted compiled⟩

end DocStore
