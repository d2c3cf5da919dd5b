import DocStore.Proofs.Check.Alike
import DocStore.Proofs.Sql.Binding

/-!
# Constants do not reach the text

The text of a condition, and the indexes and types of its parameters, are told by a predicate and the
kinds of its constants.  What the constants are makes no difference.

* `Binding.Same`: two translations with one expression and with parameters in the same places;
* `Check.toSql_same`: alike checks are translated alike;
* `alike_filters_one_fragment`: two filters that are alike up to constants have one fragment.
-/

namespace DocStore

/-- Whether two translations yield one result and bind parameters of the same indexes and types. -/
def Binding.Same {α : Type} (x y : Binding α) : Prop :=
  ∀ n, (x n).1 = (y n).1 ∧ (x n).2.map Parameter.slot = (y n).2.map Parameter.slot

namespace Binding.Same

variable {α β : Type}

theorem refl (x : Binding α) : x.Same x := fun _ => ⟨rfl, rfl⟩

/-- What follows starts at one position, since as many parameters have been bound. -/
theorem bind {x y : Binding α} {f g : α → Binding β} (h : x.Same y)
    (next : ∀ a, (f a).Same (g a)) : (x >>= f).Same (y >>= g) := by
  intro n
  obtain ⟨yields, slots⟩ := h n
  have length : (x n).2.length = (y n).2.length := by
    simpa using congrArg List.length slots
  obtain ⟨yields', slots'⟩ := next (y n).1 (n + (y n).2.length)
  simp only [Binding.bind_apply, List.map_append, yields, length]
  exact ⟨yields', by rw [slots, slots']⟩

theorem constant (v w : Value) (type : SqlType) :
    (Binding.constant v type).Same (Binding.constant w type) := fun _ => ⟨rfl, rfl⟩

end Binding.Same

namespace Term

theorem toText_same {t u : Term} (h : t.Alike u) : t.toText.Same u.toText := by
  induction h with
  | field | node | label => exact .refl _
  | lower _ ih => exact ih.bind fun _ => .refl _
  | upper _ ih => exact ih.bind fun _ => .refl _
  | constant => exact .constant _ _ _

theorem toSql_same (comparand : Comparand) {t u : Term} (h : t.Alike u) :
    (t.toSql comparand).Same (u.toSql comparand) := by
  have text := toText_same h
  cases h with
  | field | node | label => exact .refl _
  | lower | upper => cases comparand <;> exact text.bind fun _ => .refl _
  | constant => exact .constant _ _ _

theorem toNatural_same {t u : Term} (h : t.Alike u) : t.toNatural.Same u.toNatural := by
  have text := toText_same h
  cases h with
  | field | node | label | lower | upper => exact text
  | @constant v w kind =>
    have types : v.scalarType? = w.scalarType? := kind
    simp only [toNatural, types]
    exact .constant _ _ _

end Term

namespace Check

theorem toSqlAll_same {cs ds : List Check}
    (each : ∀ c ∈ cs, ∀ d, c.Alike d → c.toSql.Same d.toSql) (h : AllAlike cs ds) :
    (toSqlAll cs).Same (toSqlAll ds) := by
  induction cs generalizing ds with
  | nil =>
    cases h
    exact .refl _
  | cons c rest ih =>
    cases h with
    | cons first others =>
      have one := each c (List.mem_cons_self ..) _ first
      have others := ih (fun d hd => each d (List.mem_cons_of_mem _ hd)) others
      exact one.bind fun _ => others.bind fun _ => .refl _

theorem toSql_same {c d : Check} (h : c.Alike d) : c.toSql.Same d.toSql := by
  induction c generalizing d with
  | compare op comparand left right =>
    cases h with
    | compare _ _ left right =>
      exact (Term.toSql_same comparand left).bind fun _ =>
        (Term.toSql_same comparand right).bind fun _ => .refl _
  | isNull term negated =>
    cases h with
    | isNull term => exact (Term.toNatural_same term).bind fun _ => .refl _
  | search pattern receiver argument =>
    cases h with
    | search _ receiver argument =>
      exact (Term.toText_same receiver).bind fun _ =>
        (Term.toText_same argument).bind fun _ => .refl _
  | blank term =>
    cases h with
    | blank term => exact (Term.toText_same term).bind fun _ => .refl _
  | member path element comparand v =>
    cases h with
    | member => exact (Binding.Same.constant _ _ _).bind fun _ => .refl _
  | hasValue path => cases h; exact .refl _
  | flag path => cases h; exact .refl _
  | literal b => cases h; exact .constant _ _ _
  | all operands ih =>
    cases h with
    | all each => exact (toSqlAll_same (fun c hc _ => ih c hc) each).bind fun _ => .refl _
  | any operands ih =>
    cases h with
    | any each => exact (toSqlAll_same (fun c hc _ => ih c hc) each).bind fun _ => .refl _
  | not operand ih =>
    cases h with
    | not alike => exact (ih alike).bind fun _ => .refl _

end Check

/-- Two filters that are alike up to constants, once captures have their values, are compiled to one
fragment with parameters of the same indexes and types. -/
theorem alike_filters_one_fragment {f g : Filter} {schema : Schema} {first : Nat}
    {q r : CompiledQuery} (alike : f.resolved.Alike g.resolved)
    (hq : f.compileFrom schema first = .ok q) (hr : g.compileFrom schema first = .ok r) :
    q.fragment = r.fragment ∧
      q.parameters.map (fun p => (p.index, p.type)) = r.parameters.map fun p => (p.index, p.type) := by
  obtain ⟨c, hc, rfl⟩ := map_eq_ok.mp hq
  obtain ⟨d, hd, rfl⟩ := map_eq_ok.mp hr
  rw [check_resolved] at hc hd
  have checks : c.Alike d := Scope.check_alike alike hc hd
  obtain ⟨condition, slots⟩ := Check.toSql_same checks (Binding.firstPosition first)
  exact ⟨congrArg SqlExpr.text condition, slots⟩

/-- Members whose name starts with a supplied text and whose age is at most a given number. -/
def memberFilter (age : Int32) (head : String) : Filter where
  predicate := .logical .and
    [.textual .startsWith (.field ⟨["name"]⟩) [.constant (.captured "head")],
      .comparison .le (.field ⟨["age"]⟩) (.constant (.literal (.int32 age)))]
  captures := [("head", .text head)]

def memberSchema : Schema :=
  ((Schema.empty "Member").declare "name" (.required (.scalar .text))).declare "age"
    (.optional (.scalar .int64))

theorem alike_filters_one_fragment_of_members :
    (memberFilter 30 "a").resolved.Alike (memberFilter 5 "'; --").resolved ∧
      ∃ q r, (memberFilter 30 "a").compileFrom memberSchema 4 = .ok q ∧
        (memberFilter 5 "'; --").compileFrom memberSchema 4 = .ok r ∧ q.fragment = r.fragment ∧
        q.parameters.map (fun p => (p.index, p.type)) =
          r.parameters.map fun p => (p.index, p.type) := by
  have alike : (memberFilter 30 "a").resolved.Alike (memberFilter 5 "'; --").resolved := by
    refine .logical .and (.cons (.textual .startsWith (.field _) (.cons (.constant ?_) .nil))
      (.cons (.comparison .le (.field _) (.constant ?_)) .nil))
    · exact .literal rfl
    · exact .literal rfl
  obtain ⟨q, hq⟩ : ∃ q, (memberFilter 30 "a").compileFrom memberSchema 4 = .ok q := ⟨_, rfl⟩
  obtain ⟨r, hr⟩ : ∃ r, (memberFilter 5 "'; --").compileFrom memberSchema 4 = .ok r := ⟨_, rfl⟩
  exact ⟨alike, q, r, hq, hr, alike_filters_one_fragment alike hq hr⟩

end DocStore
