import DocStore.Proofs.Check.Derivation
import DocStore.Query.Reading

/-!
# Exchanged constants

Two expressions may differ in where they are written and, in a number of places, in the constant
that stands there.  If the one is a predicate, so is the other, and the predicates differ in as many
constants and in nothing else.

* `Expr.Exchange`, `Predicate.Exchange`: expressions and predicates with so many constants
  exchanged;
* `Expr.Exchange.toOperand`, `Expr.Exchange.toPredicate`: what they mean as operands and predicates;
* `Predicate.Exchange.eq`: without exchanged constants predicates are the same.
-/

namespace DocStore

open DocStore.Expr (Outcome)

/-! ## Places -/

mutual

/-- Expressions that are alike but for their offsets, and for a number of places where the one has
the literal `old` and the other has `new`. -/
inductive Expr.Exchange (old new : Value) : Nat → Expr → Expr → Prop
  | path {segments o o'} : Exchange old new 0 (.path segments o) (.path segments o')
  | literal {v} : Exchange old new 0 (.literal v) (.literal v)
  | exchanged : Exchange old new 1 (.literal old) (.literal new)
  | capture {name} : Exchange old new 0 (.capture name) (.capture name)
  | call {m n r r' method as as' o o'} : Exchange old new m r r' → ExchangeAll old new n as as' →
      Exchange old new (m + n) (.call r method as o) (.call r' method as' o')
  | static {n method as as' o o'} : ExchangeAll old new n as as' →
      Exchange old new n (.staticCall method as o) (.staticCall method as' o')
  | hasValue {n r r' o o'} : Exchange old new n r r' →
      Exchange old new n (.hasValue r o) (.hasValue r' o')
  | compare {m n op l l' r r'} : Exchange old new m l l' → Exchange old new n r r' →
      Exchange old new (m + n) (.compare op l r) (.compare op l' r')
  | and {n es es'} : ExchangeAll old new n es es' → Exchange old new n (.and es) (.and es')
  | or {n es es'} : ExchangeAll old new n es es' → Exchange old new n (.or es) (.or es')
  | not {n e e'} : Exchange old new n e e' → Exchange old new n (.not e) (.not e')

inductive Expr.ExchangeAll (old new : Value) : Nat → List Expr → List Expr → Prop
  | nil : ExchangeAll old new 0 [] []
  | cons {m n e e' es es'} : Exchange old new m e e' → ExchangeAll old new n es es' →
      ExchangeAll old new (m + n) (e :: es) (e' :: es')

end

inductive Constant.Exchange (old new : Value) : Nat → Constant → Constant → Prop
  | same {c} : Exchange old new 0 c c
  | exchanged : Exchange old new 1 (.literal old) (.literal new)

inductive Operand.Exchange (old new : Value) : Nat → Operand → Operand → Prop
  | field {path} : Exchange old new 0 (.field path) (.field path)
  | constant {n c c'} : Constant.Exchange old new n c c' →
      Exchange old new n (.constant c) (.constant c')
  | label {path} : Exchange old new 0 (.label path) (.label path)
  | lower {n o o'} : Exchange old new n o o' → Exchange old new n (.lower o) (.lower o')
  | upper {n o o'} : Exchange old new n o o' → Exchange old new n (.upper o) (.upper o')

inductive Operand.ExchangeAll (old new : Value) : Nat → List Operand → List Operand → Prop
  | nil : ExchangeAll old new 0 [] []
  | cons {m n o o' os os'} : Exchange old new m o o' → ExchangeAll old new n os os' →
      ExchangeAll old new (m + n) (o :: os) (o' :: os')

mutual

/-- Predicates that are alike but for a number of places where the one has the constant `old` and
the other has `new`. -/
inductive Predicate.Exchange (old new : Value) : Nat → Predicate → Predicate → Prop
  | comparison {m n op l l' r r'} : Operand.Exchange old new m l l' →
      Operand.Exchange old new n r r' →
      Exchange old new (m + n) (.comparison op l r) (.comparison op l' r')
  | logical {n connective ps ps'} : ExchangeAll old new n ps ps' →
      Exchange old new n (.logical connective ps) (.logical connective ps')
  | textual {m n op r r' as as'} : Operand.Exchange old new m r r' →
      Operand.ExchangeAll old new n as as' →
      Exchange old new (m + n) (.textual op r as) (.textual op r' as')
  | member {n path c c'} : Constant.Exchange old new n c c' →
      Exchange old new n (.member path c) (.member path c')
  | hasValue {path} : Exchange old new 0 (.hasValue path) (.hasValue path)
  | flag {path} : Exchange old new 0 (.flag path) (.flag path)
  | constant {n c c'} : Constant.Exchange old new n c c' →
      Exchange old new n (.constant c) (.constant c')

inductive Predicate.ExchangeAll (old new : Value) : Nat → List Predicate → List Predicate → Prop
  | nil : ExchangeAll old new 0 [] []
  | cons {m n p p' ps ps'} : Exchange old new m p p' → ExchangeAll old new n ps ps' →
      ExchangeAll old new (m + n) (p :: ps) (p' :: ps')

end

variable {old new : Value} {n : Nat}

/-! ## Operands -/

theorem Expr.fieldPath_later {segments : List String} {o : Nat} {path : FieldPath}
    (found : fieldPath segments o = .ok path) (o' : Nat) : fieldPath segments o' = .ok path := by
  unfold fieldPath at found ⊢
  split at found
  · cases found
  · rename_i filled
    rw [if_neg filled]
    exact found

/-- If an expression is an operand, so is one with constants exchanged. -/
theorem Expr.Exchange.toOperand {n : Nat} {e e' : Expr} :
    Exchange old new n e e' → ∀ {o : Operand}, e.toOperand = .ok o →
      ∃ o', e'.toOperand = .ok o' ∧ Operand.Exchange old new n o o'
  | .path, o, read => by
    obtain ⟨path, found, rfl⟩ := map_eq_ok.mp read
    exact ⟨_, map_eq_ok.mpr ⟨path, fieldPath_later found _, rfl⟩, .field⟩
  | .literal, _, rfl => ⟨_, rfl, .constant .same⟩
  | .exchanged, _, rfl => ⟨_, rfl, .constant .exchanged⟩
  | .capture, _, rfl => ⟨_, rfl, .constant .same⟩
  | .call receiver args, o, read => by
    have inner := @receiver.toOperand
    unfold Expr.toOperand at read ⊢
    cases args with
    | cons => cases read
    | nil =>
    simp only [List.isEmpty_nil, Bool.not_true, Bool.false_eq_true, if_false] at read ⊢
    split at read
    · obtain ⟨o, found, rfl⟩ := map_eq_ok.mp read
      obtain ⟨o', found', exchange⟩ := inner found
      exact ⟨_, map_eq_ok.mpr ⟨o', found', rfl⟩, .lower exchange⟩
    · obtain ⟨o, found, rfl⟩ := map_eq_ok.mp read
      obtain ⟨o', found', exchange⟩ := inner found
      exact ⟨_, map_eq_ok.mpr ⟨o', found', rfl⟩, .upper exchange⟩
    · cases receiver with
      | path =>
        obtain ⟨path, found, rfl⟩ := map_eq_ok.mp read
        exact ⟨_, map_eq_ok.mpr ⟨path, fieldPath_later found _, rfl⟩, .label⟩
      | literal | exchanged | capture | call | static | hasValue | compare | and | or | not =>
        cases read
    · cases read
  | .static _, _, read | .hasValue _, _, read | .compare _ _, _, read | .and _, _, read
  | .or _, _, read | .not _, _, read => nomatch read

theorem Expr.ExchangeAll.toOperands {es es' : List Expr} {os : List Operand}
    (exchange : ExchangeAll old new n es es') (read : es.mapM Expr.toOperand = .ok os) :
    ∃ os', es'.mapM Expr.toOperand = .ok os' ∧ Operand.ExchangeAll old new n os os' := by
  induction es generalizing n es' os with
  | nil =>
    cases exchange
    cases read
    exact ⟨_, rfl, .nil⟩
  | cons e es ih =>
    cases exchange with
    | cons first others =>
      rw [List.mapM_cons] at read
      obtain ⟨o, found, read⟩ := bind_eq_ok.mp read
      obtain ⟨os, further, read⟩ := bind_eq_ok.mp read
      cases pure_eq_ok.mp read
      obtain ⟨o', found', exchange⟩ := first.toOperand found
      obtain ⟨os', further', exchange'⟩ := ih others further
      refine ⟨o' :: os', ?_, .cons exchange exchange'⟩
      simp only [List.mapM_cons, found', further']
      rfl

theorem Expr.textOp_later {method : String} {o : Nat} {op : TextOp}
    (found : textOp method o = .ok op) (o' : Nat) : textOp method o' = .ok op := by
  unfold textOp at found ⊢
  split at found
  all_goals first | exact found | cases found

theorem Expr.staticTextOp_later {method : String} {o : Nat} {op : TextOp}
    (found : staticTextOp method o = .ok op) (o' : Nat) : staticTextOp method o' = .ok op := by
  unfold staticTextOp at found ⊢
  split at found
  all_goals first | exact found | cases found

theorem Operand.ExchangeAll.length {os os' : List Operand}
    (exchange : ExchangeAll old new n os os') : os'.length = os.length := by
  induction exchange with
  | nil => rfl
  | cons _ _ ih => rw [List.length_cons, List.length_cons, ih]

theorem Operand.ExchangeAll.staticPredicate {op : TextOp} {method : String} {os os' : List Operand}
    {p : Predicate} (exchange : ExchangeAll old new n os os')
    (read : Expr.staticPredicate op method os = .ok p) :
    ∃ p', Expr.staticPredicate op method os' = .ok p' ∧ Predicate.Exchange old new n p p' := by
  cases exchange with
  | nil => cases read
  | cons receiver args =>
    unfold Expr.staticPredicate at read ⊢
    dsimp only at read ⊢
    rw [args.length]
    split at read
    · rename_i arity
      cases read
      rw [if_pos arity]
      exact ⟨_, rfl, .textual receiver args⟩
    · cases read

/-! ## Predicates -/

mutual

/-- If an expression is a predicate, so is one with constants exchanged. -/
theorem Expr.Exchange.toPredicate {n : Nat} {e e' : Expr} :
    Exchange old new n e e' → ∀ {p : Predicate}, e.toPredicate = .ok p →
      ∃ p', e'.toPredicate = .ok p' ∧ Predicate.Exchange old new n p p'
  | .path, p, read => by
    obtain ⟨path, found, rfl⟩ := map_eq_ok.mp read
    exact ⟨_, map_eq_ok.mpr ⟨path, fieldPath_later found _, rfl⟩, .flag⟩
  | .literal, _, rfl => ⟨_, rfl, .constant .same⟩
  | .exchanged, _, rfl => ⟨_, rfl, .constant .exchanged⟩
  | .capture, _, rfl => ⟨_, rfl, .constant .same⟩
  | .call receiver args, p, read => by
    obtain ⟨op, method, read⟩ := bind_eq_ok.mp read
    obtain ⟨o, found, read⟩ := bind_eq_ok.mp read
    obtain ⟨os, further, read⟩ := bind_eq_ok.mp read
    cases pure_eq_ok.mp read
    obtain ⟨o', found', exchange⟩ := receiver.toOperand found
    obtain ⟨os', further', exchange'⟩ := args.toOperands further
    refine ⟨_, ?_, .textual exchange exchange'⟩
    simp only [Expr.toPredicate, Expr.textOp_later method, found', further']
    rfl
  | .static args, p, read => by
    obtain ⟨op, method, read⟩ := bind_eq_ok.mp read
    obtain ⟨os, found, read⟩ := bind_eq_ok.mp read
    obtain ⟨os', found', exchange⟩ := args.toOperands found
    obtain ⟨p', read', exchange'⟩ := exchange.staticPredicate read
    refine ⟨p', ?_, exchange'⟩
    simp only [Expr.toPredicate, Expr.staticTextOp_later method, found']
    exact read'
  | .hasValue receiver, p, read => by
    cases receiver with
    | @path segments =>
      cases segments with
      | nil => cases read
      | cons =>
        cases read
        exact ⟨_, rfl, .hasValue⟩
    | literal | exchanged | capture | call | static | hasValue | compare | and | or | not =>
      cases read
  | .compare left right, p, read => by
    obtain ⟨l, first, read⟩ := bind_eq_ok.mp read
    obtain ⟨r, second, read⟩ := bind_eq_ok.mp read
    cases pure_eq_ok.mp read
    obtain ⟨l', first', exchange⟩ := left.toOperand first
    obtain ⟨r', second', exchange'⟩ := right.toOperand second
    refine ⟨_, ?_, .comparison exchange exchange'⟩
    simp only [Expr.toPredicate, first', second']
    rfl
  | .and operands, p, read => by
    obtain ⟨ps, found, rfl⟩ := map_eq_ok.mp read
    obtain ⟨ps', found', exchange⟩ := operands.toPredicates found
    exact ⟨_, map_eq_ok.mpr ⟨ps', found', rfl⟩, .logical exchange⟩
  | .or operands, p, read => by
    obtain ⟨ps, found, rfl⟩ := map_eq_ok.mp read
    obtain ⟨ps', found', exchange⟩ := operands.toPredicates found
    exact ⟨_, map_eq_ok.mpr ⟨ps', found', rfl⟩, .logical exchange⟩
  | .not operand, p, read => by
    obtain ⟨p, found, rfl⟩ := map_eq_ok.mp read
    obtain ⟨p', found', exchange⟩ := operand.toPredicate found
    exact ⟨_, map_eq_ok.mpr ⟨p', found', rfl⟩, .logical (.cons exchange .nil)⟩
termination_by structural exchange => exchange

theorem Expr.ExchangeAll.toPredicates {n : Nat} {es es' : List Expr} :
    ExchangeAll old new n es es' → ∀ {ps : List Predicate}, Expr.toPredicates es = .ok ps →
      ∃ ps', Expr.toPredicates es' = .ok ps' ∧ Predicate.ExchangeAll old new n ps ps'
  | .nil, _, rfl => ⟨_, rfl, .nil⟩
  | .cons first others, ps, read => by
    obtain ⟨p, found, read⟩ := bind_eq_ok.mp read
    obtain ⟨ps, further, read⟩ := bind_eq_ok.mp read
    cases pure_eq_ok.mp read
    obtain ⟨p', found', exchange⟩ := first.toPredicate found
    obtain ⟨ps', further', exchange'⟩ := others.toPredicates further
    refine ⟨p' :: ps', ?_, .cons exchange exchange'⟩
    simp only [Expr.toPredicates, found', further']
    rfl
termination_by structural exchange => exchange

end

/-! ## Nothing exchanged -/

theorem Constant.Exchange.eq {c c' : Constant} : Constant.Exchange old new 0 c c' → c = c'
  | .same => rfl

theorem Operand.Exchange.eq {o o' : Operand} (exchange : Operand.Exchange old new n o o')
    (zero : n = 0) : o = o' := by
  induction exchange with
  | field | label => rfl
  | constant inner => subst zero; rw [inner.eq]
  | lower _ ih | upper _ ih => rw [ih zero]

theorem Operand.ExchangeAll.eq {os os' : List Operand} (exchange : ExchangeAll old new n os os')
    (zero : n = 0) : os = os' := by
  induction exchange with
  | nil => rfl
  | cons first _ ih =>
    obtain ⟨here, later⟩ := Nat.add_eq_zero_iff.mp zero
    rw [first.eq here, ih later]

mutual

/-- Without exchanged constants predicates are the same. -/
theorem Predicate.Exchange.eq {n : Nat} {p p' : Predicate} :
    Predicate.Exchange old new n p p' → n = 0 → p = p'
  | .comparison left right, zero => by
    obtain ⟨first, second⟩ := Nat.add_eq_zero_iff.mp zero
    rw [left.eq first, right.eq second]
  | .logical operands, zero => by rw [operands.eq zero]
  | .textual receiver args, zero => by
    obtain ⟨first, others⟩ := Nat.add_eq_zero_iff.mp zero
    rw [receiver.eq first, args.eq others]
  | .member value, zero => by
    subst zero
    rw [value.eq]
  | .hasValue, _ | .flag, _ => rfl
  | .constant value, zero => by
    subst zero
    rw [value.eq]
termination_by structural exchange => exchange

theorem Predicate.ExchangeAll.eq {n : Nat} {ps ps' : List Predicate} :
    Predicate.ExchangeAll old new n ps ps' → n = 0 → ps = ps'
  | .nil, _ => rfl
  | .cons first others, zero => by
    obtain ⟨here, later⟩ := Nat.add_eq_zero_iff.mp zero
    rw [first.eq here, others.eq later]
termination_by structural exchange => exchange

end

end DocStore
