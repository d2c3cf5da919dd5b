import DocStore.Proofs.Check.Resolved
import DocStore.Proofs.Check.Typing

/-!
# Predicates that differ in constants only

What is left of a predicate's constants, besides their kinds, once the predicate is checked.

* `Predicate.Alike`: the same predicate up to constants, which are of the same kinds;
* `coerce?_kind`: the kind of a converted constant is told by its own kind and the type;
* `Scope.check_alike`: alike predicates that pass their checks are checked to alike checks.
-/

namespace DocStore

/-- Whether two constants are of one kind: the same variant of value, or both null. -/
def Value.SameKind (v w : Value) : Prop := v.scalarType? = w.scalarType?

theorem Value.SameKind.refl (v : Value) : v.SameKind v := rfl

/-- The same capture, or literals of one kind. -/
inductive Constant.Alike : Constant → Constant → Prop
  | literal {v w} (kind : v.SameKind w) : Alike (.literal v) (.literal w)
  | captured (name) : Alike (.captured name) (.captured name)

inductive Operand.Alike : Operand → Operand → Prop
  | field (path) : Alike (.field path) (.field path)
  | constant {c d} (value : c.Alike d) : Alike (.constant c) (.constant d)
  | label (path) : Alike (.label path) (.label path)
  | lower {a b} (inner : Alike a b) : Alike (.lower a) (.lower b)
  | upper {a b} (inner : Alike a b) : Alike (.upper a) (.upper b)

namespace Predicate

mutual

/-- The same predicate up to constants, which are of the same kinds. -/
inductive Alike : Predicate → Predicate → Prop
  | comparison (op) {a b c d} (left : a.Alike b) (right : c.Alike d) :
      Alike (.comparison op a c) (.comparison op b d)
  | logical (connective) {ps qs} (operands : AllAlike ps qs) :
      Alike (.logical connective ps) (.logical connective qs)
  | textual (op) {a b as bs} (receiver : a.Alike b) (args : List.Forall₂ Operand.Alike as bs) :
      Alike (.textual op a as) (.textual op b bs)
  | member (path) {c d} (value : c.Alike d) : Alike (.member path c) (.member path d)
  | hasValue (path) : Alike (.hasValue path) (.hasValue path)
  | flag (path) : Alike (.flag path) (.flag path)
  | constant {c d} (value : c.Alike d) : Alike (.constant c) (.constant d)

/-- Predicates alike one by one. -/
inductive AllAlike : List Predicate → List Predicate → Prop
  | nil : AllAlike [] []
  | cons {p q ps qs} (first : Alike p q) (rest : AllAlike ps qs) : AllAlike (p :: ps) (q :: qs)

end

end Predicate

inductive Term.Alike : Term → Term → Prop
  | field (path type) : Alike (.field path type) (.field path type)
  | node (path) : Alike (.node path) (.node path)
  | label (path variants) : Alike (.label path variants) (.label path variants)
  | lower {a b} (inner : Alike a b) : Alike (.lower a) (.lower b)
  | upper {a b} (inner : Alike a b) : Alike (.upper a) (.upper b)
  | constant {v w} (kind : v.SameKind w) : Alike (.constant v) (.constant w)

structure TypedTerm.Alike (a b : TypedTerm) : Prop where
  term : a.term.Alike b.term
  type : a.type = b.type

namespace Check

mutual

/-- The same check up to constants, which are of the same kinds. -/
inductive Alike : Check → Check → Prop
  | compare (op comparand) {a b c d} (left : a.Alike b) (right : c.Alike d) :
      Alike (.compare op comparand a c) (.compare op comparand b d)
  | isNull {a b} (term : a.Alike b) (negated) : Alike (.isNull a negated) (.isNull b negated)
  | search (pattern) {a b c d} (receiver : a.Alike b) (argument : c.Alike d) :
      Alike (.search pattern a c) (.search pattern b d)
  | blank {a b} (term : a.Alike b) : Alike (.blank a) (.blank b)
  | member (path element comparand) {v w} (kind : v.SameKind w) :
      Alike (.member path element comparand v) (.member path element comparand w)
  | hasValue (path) : Alike (.hasValue path) (.hasValue path)
  | flag (path) : Alike (.flag path) (.flag path)
  | literal (a b) : Alike (.literal a) (.literal b)
  | all {cs ds} (operands : AllAlike cs ds) : Alike (.all cs) (.all ds)
  | any {cs ds} (operands : AllAlike cs ds) : Alike (.any cs) (.any ds)
  | not {c d} (operand : Alike c d) : Alike (.not c) (.not d)

/-- Checks alike one by one. -/
inductive AllAlike : List Check → List Check → Prop
  | nil : AllAlike [] []
  | cons {c d cs ds} (first : Alike c d) (rest : AllAlike cs ds) : AllAlike (c :: cs) (d :: ds)

end

end Check

/-! ## Two results -/

/-- Whether two results are related if there are two. -/
def Agree {ε α β : Type} (R : α → β → Prop) (x : Except ε α) (y : Except ε β) : Prop :=
  ∀ ⦃a b⦄, x = .ok a → y = .ok b → R a b

namespace Agree

variable {ε α β γ δ : Type} {R : α → β → Prop} {S : γ → δ → Prop}

theorem ok {a : α} {b : β} (h : R a b) : Agree R (.ok a : Except ε α) (.ok b) := by
  rintro _ _ ⟨⟩ ⟨⟩
  exact h

theorem refused {e : ε} {y : Except ε β} : Agree R (.error e) y := by
  rintro _ _ ⟨⟩

/-- A result is related to itself by every reflexive relation. -/
theorem same {T : α → α → Prop} (refl : ∀ a, T a a) (x : Except ε α) : Agree T x x := by
  intro a b ha hb
  rw [ha] at hb
  cases hb
  exact refl a

theorem bind {x : Except ε α} {y : Except ε β} {f : α → Except ε γ} {g : β → Except ε δ}
    (h : Agree R x y) (next : ∀ a b, R a b → Agree S (f a) (g b)) :
    Agree S (x >>= f) (y >>= g) := by
  intro c d hc hd
  obtain ⟨a, ha, hc⟩ := bind_eq_ok.mp hc
  obtain ⟨b, hb, hd⟩ := bind_eq_ok.mp hd
  exact next a b (h ha hb) hc hd

theorem map {x : Except ε α} {y : Except ε β} {f : α → γ} {g : β → δ}
    (h : Agree R x y) (next : ∀ a b, R a b → S (f a) (g b)) : Agree S (x.map f) (y.map g) := by
  intro c d hc hd
  obtain ⟨a, ha, rfl⟩ := map_eq_ok.mp hc
  obtain ⟨b, hb, rfl⟩ := map_eq_ok.mp hd
  exact next a b (h ha hb)

end Agree

/-! ## Conversions -/

/-- The kind of a constant of some kind once it is converted to a database type. -/
def SqlType.holder : SqlType → ScalarType → ScalarType
  | .smallint, _ => .int16
  | .integer, _ => .int32
  | .bigint, _ => .int64
  | .real, _ => .float32
  | .doublePrecision, _ => .float64
  | .numeric, .float32 => .float32
  | .numeric, .float64 => .float64
  | .numeric, _ => .decimal
  | .boolean, _ => .bool
  | .text, _ => .text
  | .timestamptz, _ => .timestamp
  | .uuid, _ => .guid

namespace Value

theorem coerce?_kind {v v' : Value} {type : SqlType} (h : v.coerce? type = some v') :
    v'.scalarType? = v.scalarType?.map type.holder := by
  unfold coerce? at h
  split at h
  all_goals
    first
    | (cases h; rfl)
    | (obtain ⟨_, _, rfl⟩ := Option.map_eq_some_iff.mp h; rfl)
    | (split at h <;> cases h; rfl)
    | cases h

theorem under_alike {v w : Value} (comparand : Comparand) (kind : v.SameKind w) :
    Agree SameKind (v.under comparand) (w.under comparand) := by
  intro v' w' hv hw
  cases comparand with
  | typed type =>
    simp only [under, coerce] at hv hw
    split at hv <;> cases hv
    split at hw <;> cases hw
    rename_i first _ second
    unfold SameKind at kind ⊢
    rw [coerce?_kind first, coerce?_kind second, kind]
  | label variants =>
    obtain ⟨_, _, rfl⟩ := map_eq_ok.mp hv
    obtain ⟨_, _, rfl⟩ := map_eq_ok.mp hw
    rfl
  | code variants =>
    obtain ⟨_, _, rfl⟩ := map_eq_ok.mp hv
    obtain ⟨_, _, rfl⟩ := map_eq_ok.mp hw
    rfl

end Value

namespace Term.Alike

theorem refl : ∀ t : Term, t.Alike t
  | .field path type => .field path type
  | .node path => .node path
  | .label path variants => .label path variants
  | .lower inner => .lower (refl inner)
  | .upper inner => .upper (refl inner)
  | .constant _ => .constant rfl

end Term.Alike

/-! ## Operands -/

namespace Scope

variable {scope : Scope}

theorem refused_alike {α β : Type} {R : α → β → Prop} {a b : Unsupported} :
    Agree R (refuse a) (refuse b) := Agree.refused

theorem constant_alike {c d : Constant} (h : c.Alike d) :
    Agree Value.SameKind (scope.constant c) (scope.constant d) := by
  cases h with
  | literal kind => exact .ok kind
  | captured name => exact .same Value.SameKind.refl _

theorem typedConstant_alike {v w : Value} (kind : v.SameKind w) :
    Option.Rel TypedTerm.Alike (typedConstant v) (typedConstant w) := by
  unfold typedConstant
  rw [show v.scalarType? = w.scalarType? from kind]
  cases w.scalarType? with
  | none => exact .none
  | some type => exact .some ⟨.constant kind, rfl⟩

theorem asText_alike (method : String) {t u : Option TypedTerm}
    (h : Option.Rel TypedTerm.Alike t u) :
    Agree Term.Alike (asText method t) (asText method u) := by
  intro a b ha hb
  rw [asText_eq_ok] at ha hb
  subst ha hb
  cases h with
  | some alike => exact alike.term

theorem operand_alike {o p : Operand} (h : o.Alike p) :
    Agree (Option.Rel TypedTerm.Alike) (scope.operand o) (scope.operand p) := by
  have refl : ∀ t : TypedTerm, t.Alike t := fun t => ⟨.refl t.term, rfl⟩
  induction h with
  | field path => exact (Agree.same refl _).map fun _ _ alike => .some alike
  | constant value => exact (constant_alike value).map fun _ _ kind => typedConstant_alike kind
  | label path => exact (Agree.same refl _).map fun _ _ alike => .some alike
  | lower _ ih =>
    refine ih.bind fun t u alike => (asText_alike _ alike).bind fun a b inner => ?_
    exact .ok (.some ⟨.lower inner, rfl⟩)
  | upper _ ih =>
    refine ih.bind fun t u alike => (asText_alike _ alike).bind fun a b inner => ?_
    exact .ok (.some ⟨.upper inner, rfl⟩)

theorem textOperand_alike (op : TextOp) {o p : Operand} (h : o.Alike p) :
    Agree Term.Alike (scope.textOperand op o) (scope.textOperand op p) :=
  (operand_alike h).bind fun _ _ alike => asText_alike _ alike

/-- Constants stay constants of one kind, and what is no constant is not changed. -/
theorem fit_alike (op : CompareOp) (comparand : Comparand) {t u : TypedTerm} (h : t.Alike u) :
    Agree Term.Alike (fit op comparand t) (fit op comparand u) := by
  intro a b ha hb
  have alike := h.term
  rcases fit_eq_ok ha with ⟨v, v', hv, converted, rfl⟩ | ⟨other, rfl⟩
  · rcases fit_eq_ok hb with ⟨w, w', hw, converted', rfl⟩ | ⟨other', rfl⟩
    · rw [hv, hw] at alike
      cases alike with
      | constant kind => exact .constant (Value.under_alike comparand kind converted converted')
    · rw [hv] at alike
      cases same : u.term with
      | constant w => exact absurd same (other' w)
      | _ => rw [same] at alike; cases alike
  · rcases fit_eq_ok hb with ⟨w, w', hw, converted', rfl⟩ | ⟨other', rfl⟩
    · rw [hw] at alike
      cases same : t.term with
      | constant v => exact absurd same (other v)
      | _ => rw [same] at alike; cases alike
    · exact alike

/-! ## Conditions -/

theorem nullTerm_alike {o p : Operand} (h : o.Alike p) {t u : TypedTerm} (terms : t.Alike u) :
    (nullTerm o t).Alike (nullTerm p u) := by
  cases h with
  | field path => exact .node path
  | _ => exact terms.term

theorem comparison_alike (op : CompareOp) {a b c d : Operand} (left : a.Alike b)
    (right : c.Alike d) :
    Agree Check.Alike (scope.comparison op a c) (scope.comparison op b d) := by
  refine (operand_alike left).bind fun t u first => (operand_alike right).bind fun v w second => ?_
  cases first with
  | none =>
    cases second with
    | none => exact refused_alike
    | some alike =>
      by_cases equality : op.isEquality
      · simp only [equality, if_true]
        exact .ok (.isNull (nullTerm_alike right alike) _)
      · simp only [equality]
        exact refused_alike
  | some alike =>
    cases second with
    | none =>
      by_cases equality : op.isEquality
      · simp only [equality, if_true]
        exact .ok (.isNull (nullTerm_alike left alike) _)
      · simp only [equality]
        exact refused_alike
    | some alike' =>
      simp only [alike.type, alike'.type]
      refine (Agree.same (fun _ => rfl) _).bind fun comparand _ same => ?_
      subst same
      refine (fit_alike op comparand alike).bind fun l m first => ?_
      exact (fit_alike op comparand alike').bind fun r s second =>
        .ok (.compare op comparand first second)

theorem membership_alike (path : FieldPath) {v w : Value} (kind : v.SameKind w) :
    Agree Check.Alike (scope.membership path v) (scope.membership path w) := by
  refine (Agree.same (fun _ => rfl) _).bind fun field _ same => ?_
  subst same
  rw [show v.scalarType? = w.scalarType? from kind]
  split
  · split
    · exact refused_alike
    · refine (Agree.same (fun _ => rfl) _).bind fun comparand _ same => ?_
      subst same
      exact (Value.under_alike comparand kind).bind fun _ _ kind => .ok (.member _ _ _ kind)
  · exact refused_alike
  · exact refused_alike

theorem textCheck_alike (op : TextOp) {a b : Operand} {as bs : List Operand} (receiver : a.Alike b)
    (args : List.Forall₂ Operand.Alike as bs) :
    Agree Check.Alike (scope.textCheck op a as) (scope.textCheck op b bs) := by
  refine (textOperand_alike op receiver).bind fun s t text => ?_
  cases args with
  | nil => exact .ok (.blank text)
  | cons first _ =>
    refine (textOperand_alike op first).bind fun u v part => ?_
    cases patternOf op with
    | some pattern => exact .ok (.search pattern text part)
    | none => exact .ok (.compare .eq (.typed .text) text part)

theorem arrayField_alike (op : TextOp) {a b : Operand} (h : a.Alike b) :
    scope.arrayField op a = scope.arrayField op b := by
  cases op <;> cases h <;> rfl

theorem textual_alike (op : TextOp) {a b : Operand} {as bs : List Operand} (receiver : a.Alike b)
    (args : List.Forall₂ Operand.Alike as bs) :
    Agree Check.Alike (scope.textual op a as) (scope.textual op b bs) := by
  unfold textual
  rw [args.length_eq]
  split
  · exact refused_alike
  · rw [arrayField_alike op receiver]
    refine (Agree.same (fun _ => rfl) _).bind fun array _ same => ?_
    subst same
    cases array with
    | none => exact textCheck_alike op receiver args
    | some path =>
      cases args with
      | nil => exact refused_alike
      | cons first rest =>
        cases rest with
        | cons => cases first <;> exact refused_alike
        | nil =>
          cases first with
          | constant value =>
            exact (constant_alike value).bind fun _ _ kind => membership_alike path kind
          | _ => exact refused_alike

/-! ## Predicates -/

theorem logical_alike (connective : Connective) {cs ds : List Check} (h : Check.AllAlike cs ds) :
    Agree Check.Alike (logical connective cs) (logical connective ds) := by
  cases connective with
  | and => exact .ok (.all h)
  | or => exact .ok (.any h)
  | not =>
    match h with
    | .nil => exact refused_alike
    | .cons first .nil => exact .ok (.not first)
    | .cons _ (.cons _ _) => exact refused_alike

theorem checkAll_alike {ps qs : List Predicate}
    (each : ∀ p ∈ ps, ∀ q, p.Alike q → Agree Check.Alike (scope.check p) (scope.check q))
    (h : Predicate.AllAlike ps qs) :
    Agree Check.AllAlike (scope.checkAll ps) (scope.checkAll qs) := by
  induction ps generalizing qs with
  | nil =>
    cases h
    exact .ok .nil
  | cons p rest ih =>
    cases h with
    | cons first others =>
      refine (each p (List.mem_cons_self ..) _ first).bind fun c d one => ?_
      have others := ih (fun q hq => each q (List.mem_cons_of_mem _ hq)) others
      exact others.bind fun cs ds all => .ok (.cons one all)

/-- Alike predicates that pass their checks are checked to alike checks. -/
theorem check_alike {p q : Predicate} (h : p.Alike q) :
    Agree Check.Alike (scope.check p) (scope.check q) := by
  induction p generalizing q with
  | comparison op left right =>
    cases h with
    | comparison _ left right => exact comparison_alike op left right
  | logical connective ps ih =>
    cases h with
    | logical _ operands =>
      exact (checkAll_alike (fun p hp q => ih p hp) operands).bind fun _ _ all =>
        logical_alike connective all
  | textual op receiver args =>
    cases h with
    | textual _ receiver args => exact textual_alike op receiver args
  | member path value =>
    cases h with
    | member _ value =>
      exact (constant_alike value).bind fun _ _ kind => membership_alike path kind
  | hasValue path =>
    cases h
    refine (Agree.same (fun _ => rfl) _).bind fun field _ same => ?_
    subst same
    split
    · exact .ok (.hasValue path)
    · exact refused_alike
  | flag path =>
    cases h
    refine (Agree.same (fun _ => rfl) _).bind fun field _ same => ?_
    subst same
    split
    · exact .ok (.flag path)
    · exact refused_alike
  | constant value =>
    cases h with
    | constant value =>
      refine (constant_alike value).bind fun v w _ => ?_
      intro a b ha hb
      split at ha
      · split at hb
        · cases ha
          cases hb
          exact .literal ..
        · exact absurd hb refuse_ne_ok
      · exact absurd ha refuse_ne_ok

end Scope

end DocStore
