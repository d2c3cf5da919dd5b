import DocStore.Proofs.Check.Comparison
import DocStore.Proofs.Store.Order

/-!
# Comparisons turned around

A comparison with its operands exchanged under the mirrored operator, and a comparison under the
complementary operator, pass their check where the comparison itself does.  The first has its value
on every document, the second the negation of it, null included.

* `CompareOp.mirrored`, `CompareOp.complement`: the operator seen from the other side, and denied;
* `Value.compare?_swap`, `Comparand.order?_swap`: the order of two operands from the other side;
* `Comparand.of?_comm`: the comparison type of two operands that are not both enumerations;
* `Scope.comparison_eq_ok`: the rules of a comparison are all there is to its check;
* `comparison_turned`: what becomes of a comparison.
-/

namespace DocStore

namespace CompareOp

/-- The operator that holds of two values where this one holds of them in the other order. -/
def mirrored : CompareOp → CompareOp
  | .eq => .eq
  | .ne => .ne
  | .lt => .gt
  | .le => .ge
  | .gt => .lt
  | .ge => .le

/-- The operator that holds where this one does not. -/
def complement : CompareOp → CompareOp
  | .eq => .ne
  | .ne => .eq
  | .lt => .ge
  | .le => .gt
  | .gt => .le
  | .ge => .lt

variable (op : CompareOp)

theorem mirrored_mirrored : op.mirrored.mirrored = op := by cases op <;> rfl

theorem complement_complement : op.complement.complement = op := by cases op <;> rfl

@[simp] theorem isEquality_mirrored : op.mirrored.isEquality = op.isEquality := by cases op <;> rfl

@[simp] theorem isEquality_complement : op.complement.isEquality = op.isEquality := by
  cases op <;> rfl

theorem mirrored_beq_ne : (op.mirrored == .ne) = (op == .ne) := by cases op <;> rfl

theorem complement_beq_ne (equality : op.isEquality) : (op.complement == .ne) = !(op == .ne) := by
  cases op <;> first | rfl | cases equality

theorem holds_mirrored (order : Ordering) : op.mirrored.holds order.swap = op.holds order := by
  cases op <;> cases order <;> rfl

theorem holds_complement (order : Ordering) : op.complement.holds order = !op.holds order := by
  cases op <;> cases order <;> rfl

end CompareOp

/-! ## The order of two values from the other side -/

theorem Floating.compare?_swap {f : Format} (x y : Floating f) :
    y.compare? x = (x.compare? y).map Ordering.swap := by
  unfold compare?
  cases x.place? <;> cases y.place? <;> try rfl
  exact congrArg some Std.OrientedOrd.eq_swap

theorem Decimal.order_swap (a b : Decimal) : b.order a = (a.order b).swap := by
  unfold order
  exact Std.OrientedOrd.eq_swap

theorem ExactNumber.order_swap {x y : ExactNumber} (hx : x.Normal) (hy : y.Normal) :
    y.order x = (x.order y).swap := by
  rw [hx.order_eq hy, hy.order_eq hx]
  exact Std.OrientedOrd.eq_swap

theorem Value.compare?_swap (v w : Value) : w.compare? v = (v.compare? w).map Ordering.swap := by
  cases v <;> cases w <;> try rfl
  case float32.float32 x y => exact Floating.compare?_swap x y
  case float64.float64 x y => exact Floating.compare?_swap x y
  case decimal.decimal a b => exact congrArg some (Decimal.order_swap a b)
  case timestamp.timestamp a b =>
    have swap : b.order a = (a.order b).swap := Std.OrientedCmp.eq_swap
    exact congrArg some swap
  all_goals exact congrArg some Std.OrientedOrd.eq_swap

theorem Term.normal_of_exactNumber? {term : Term} {doc : Json} {x : ExactNumber}
    (h : term.exactNumber? doc = some x) : x.Normal := by
  have read {text : Option String} (h : text.bind ExactNumber.read? = some x) : x.Normal := by
    obtain ⟨s, -, read⟩ := Option.bind_eq_some_iff.mp h
    exact (ExactNumber.normal_of_read? read).1
  cases term <;> exact read h

/-- Two operands are ordered from the other side as they are, the other way around. -/
theorem Comparand.order?_swap (comparand : Comparand) (doc : Json) (left right : Term) :
    comparand.order? doc right left = (comparand.order? doc left right).map Ordering.swap := by
  unfold order?
  split
  · cases hl : left.exactNumber? doc <;> cases hr : right.exactNumber? doc <;> try rfl
    exact congrArg some (ExactNumber.order_swap (Term.normal_of_exactNumber? hl)
      (Term.normal_of_exactNumber? hr))
  · cases left.value? comparand doc <;> cases right.value? comparand doc <;> try rfl
    exact Value.compare?_swap ..

/-! ## The comparison type from the other side -/

theorem ScalarType.widen?_comm (a b : ScalarType) : a.widen? b = b.widen? a := by
  cases a <;> cases b <;> rfl

namespace Comparand

variable {op op' : CompareOp} {a b : ScalarType} {c : Comparand}

/-- Operators matter to the comparison type only by whether they ask for equality. -/
theorem of?_congr (same : op.isEquality = op'.isEquality) (a b : ScalarType) :
    of? op a b = of? op' a b := by
  have variants (vs : List EnumVariant) : ofVariants op vs = ofVariants op' vs := by
    rw [ofVariants, ofVariants, same]
  have plain : ofPlain? op a b = ofPlain? op' a b := by
    unfold ofPlain?
    simp only [same]
  simp only [of?, variants, plain]

theorem ofPlain?_comm (op : CompareOp) (a b : ScalarType) : ofPlain? op a b = ofPlain? op b a := by
  cases a <;> cases b <;> rfl

/-- The comparison type of two scalars that are not both enumerations is the same from either
side. -/
theorem of?_comm (op : CompareOp) (single : a.variants? = none ∨ b.variants? = none) :
    of? op a b = of? op b a := by
  unfold of?
  rw [ScalarType.widen?_comm b a, ofPlain?_comm op b a]
  cases ha : a.variants? with
  | none => cases b.variants? <;> rfl
  | some vs =>
    rw [ha] at single
    rw [single.resolve_left nofun]

theorem of_eq_ok_iff : of op a b = .ok c ↔ of? op a b = some c := by
  unfold of
  cases of? op a b <;> simp

end Comparand

/-! ## Operands -/

namespace Scope

variable {scope : Scope} {op op' : CompareOp} {c : Check} {left right o : Operand}

/-- The operator matters to a fitted operand only where it is refused. -/
theorem fit_congr {comparand : Comparand} {typed : TypedTerm} {term : Term}
    (h : fit op comparand typed = .ok term) (op' : CompareOp) :
    fit op' comparand typed = .ok term := by
  unfold fit at h ⊢
  split at h
  · exact h
  · exact h
  · split at h
    · exact h
    · exact h
    · exact absurd h refuse_ne_ok

/-- Nothing but a field is of an enumeration. -/
theorem Reads.eq_field {typed : TypedTerm} {variants : List EnumVariant}
    (h : scope.Reads o (some typed)) (enumerated : typed.type.variants? = some variants) :
    ∃ path name,
      typed = ⟨.field path (.enumeration name variants), .enumeration name variants⟩ := by
  obtain ⟨term, type⟩ := typed
  have kind : term.HasType type := h.hasType
  cases type <;> cases enumerated
  cases kind with
  | field path => exact ⟨path, _, rfl⟩
  | @constant value _ kind => cases value <;> cases kind

/-- Fields of enumerations fit every comparison type as they are. -/
theorem fit_field (op : CompareOp) (comparand : Comparand) (path : FieldPath) (name : String)
    (variants : List EnumVariant) :
    fit op comparand ⟨.field path (.enumeration name variants), .enumeration name variants⟩ =
      .ok (.field path (.enumeration name variants)) := by
  cases comparand <;> rfl

/-- Of two fields of enumerations each is projected by its own variants, whichever decides. -/
theorem order?_fields (op : CompareOp) (vs ws : List EnumVariant) (doc : Json) (p q : FieldPath)
    (name other : String) (own others : List EnumVariant) :
    (Comparand.ofVariants op vs).order? doc (.field p (.enumeration name own))
        (.field q (.enumeration other others)) =
      (Comparand.ofVariants op ws).order? doc (.field p (.enumeration name own))
        (.field q (.enumeration other others)) := by
  unfold Comparand.ofVariants
  split <;> rfl

theorem Reads.operand_eq {typed : Option TypedTerm} (h : scope.Reads o typed) :
    scope.operand o = .ok typed := by
  induction h with
  | field resolved leaf => exact operand_field resolved leaf
  | constant found => rw [operand, found, Except.map]
  | label resolved enumerated =>
    simp only [operand, Scope.label, map_eq_ok, bind_eq_ok]
    exact ⟨_, ⟨_, resolved, by rw [enumerated]; rfl⟩, rfl⟩
  | lower _ ih => rw [operand, ih]; rfl
  | upper _ ih => rw [operand, ih]; rfl

/-! ## Comparisons -/

/-- A comparison is checked by its rules and by nothing else. -/
theorem comparison_eq_ok :
    scope.comparison op left right = .ok c ↔ scope.Takes (.comparison op left right) c := by
  refine ⟨takes_of_comparison, fun takes => ?_⟩
  cases takes with
  | nullLeft null other equality =>
    simp only [comparison, null.operand_eq, other.operand_eq, bind, Except.bind, equality]
    rfl
  | nullRight other null equality =>
    simp only [comparison, null.operand_eq, other.operand_eq, bind, Except.bind, equality]
    rfl
  | compare first second common fitFirst fitSecond =>
    simp only [comparison, first.operand_eq, second.operand_eq, bind, Except.bind, common,
      fitFirst, fitSecond]
    rfl

/-- A comparison that passes its check does so from the other side, with the same value. -/
theorem Takes.mirrored (h : scope.Takes (.comparison op left right) c) :
    ∃ m, scope.Takes (.comparison op.mirrored right left) m ∧ ∀ doc, m.eval doc = c.eval doc := by
  have equal (order : Option Ordering) :
      (order.map Ordering.swap).map op.mirrored.holds = order.map op.holds := by
    cases order with
    | none => rfl
    | some order => exact congrArg some (op.holds_mirrored order)
  cases h with
  | nullLeft null other equality =>
    refine ⟨_, .nullRight other null (by rwa [CompareOp.isEquality_mirrored]), fun doc => ?_⟩
    rw [CompareOp.mirrored_beq_ne]
  | nullRight other null equality =>
    refine ⟨_, .nullLeft null other (by rwa [CompareOp.isEquality_mirrored]), fun doc => ?_⟩
    rw [CompareOp.mirrored_beq_ne]
  | @compare _ _ _ l r comparand l' r' first second common fitFirst fitSecond =>
    have seen := Comparand.of?_congr op.isEquality_mirrored
    rw [Comparand.of_eq_ok_iff] at common
    by_cases single : l.type.variants? = none ∨ r.type.variants? = none
    · have common' : Comparand.of op.mirrored r.type l.type = .ok comparand := by
        rw [Comparand.of_eq_ok_iff, seen, ← Comparand.of?_comm op single, common]
      refine ⟨_, .compare second first common' (fit_congr fitSecond _) (fit_congr fitFirst _),
        fun doc => ?_⟩
      rw [Check.eval, Check.eval, comparand.order?_swap, equal]
    · -- Each side decides when it stands on the left, but neither is projected by the other.
      obtain ⟨noneLeft, noneRight⟩ := not_or.mp single
      obtain ⟨vs, hl⟩ := Option.ne_none_iff_exists'.mp noneLeft
      obtain ⟨ws, hr⟩ := Option.ne_none_iff_exists'.mp noneRight
      obtain ⟨p, name, rfl⟩ := first.eq_field hl
      obtain ⟨q, other, rfl⟩ := second.eq_field hr
      rw [fit_field] at fitFirst fitSecond
      cases fitFirst
      cases fitSecond
      cases common
      have common' : Comparand.of op.mirrored (.enumeration other ws) (.enumeration name vs) =
          .ok (.ofVariants op ws) := by
        rw [Comparand.of_eq_ok_iff, seen]
        rfl
      refine ⟨_, .compare second first common' (fit_field ..) (fit_field ..), fun doc => ?_⟩
      rw [Check.eval, Check.eval, Comparand.order?_swap, equal, order?_fields op ws vs]

/-- A comparison that passes its check does so under the complementary operator, and then has the
opposite value. -/
theorem Takes.complement (h : scope.Takes (.comparison op left right) c) :
    ∃ k, scope.Takes (.comparison op.complement left right) k ∧
      ∀ doc, k.eval doc = (c.eval doc).map (!·) := by
  cases h with
  | nullLeft null other equality =>
    refine ⟨_, .nullLeft null other (by rwa [CompareOp.isEquality_complement]), fun doc => ?_⟩
    simp only [Check.eval, op.complement_beq_ne equality, Option.map_some, Bool.bne_not]
  | nullRight other null equality =>
    refine ⟨_, .nullRight other null (by rwa [CompareOp.isEquality_complement]), fun doc => ?_⟩
    simp only [Check.eval, op.complement_beq_ne equality, Option.map_some, Bool.bne_not]
  | @compare _ _ _ l r comparand l' r' first second common fitFirst fitSecond =>
    have common' : Comparand.of op.complement l.type r.type = .ok comparand := by
      rw [Comparand.of_eq_ok_iff] at common ⊢
      rw [Comparand.of?_congr op.isEquality_complement, common]
    refine ⟨_, .compare first second common' (fit_congr fitFirst _) (fit_congr fitSecond _),
      fun doc => ?_⟩
    rw [Check.eval, Check.eval, Option.map_map]
    exact congrArg (Option.map · _) (funext op.holds_complement)

end Scope

/-! ## Filters -/

/-- Whatever its operands, a comparison passes its check if and only if it does with the operands
exchanged under the mirrored operator, and if and only if it does under the complementary operator.
On every document the mirrored comparison has then its value, and the complementary one that of its
negation. -/
theorem comparison_turned (schema : Schema) (captures : Captures) (op : CompareOp)
    (left right : Operand) :
    let check predicate := Filter.check ⟨predicate, captures⟩ schema
    let comparison := Predicate.comparison op left right
    let mirrored := Predicate.comparison op.mirrored right left
    let complement := Predicate.comparison op.complement left right
    ((∃ c, check comparison = .ok c) ↔ ∃ m, check mirrored = .ok m) ∧
      ((∃ c, check comparison = .ok c) ↔ ∃ k, check complement = .ok k) ∧
      ((∃ c, check comparison = .ok c) ↔ ∃ n, check comparison.neg = .ok n) ∧
      ∀ c m k n, check comparison = .ok c → check mirrored = .ok m → check complement = .ok k →
        check comparison.neg = .ok n →
        ∀ doc, m.eval doc = c.eval doc ∧ n.eval doc = k.eval doc := by
  intro check comparison mirrored complement
  have forth {op : CompareOp} {left right : Operand} {c : Check}
      (h : check (.comparison op left right) = .ok c) :
      (∃ m, check (.comparison op.mirrored right left) = .ok m ∧ ∀ doc, m.eval doc = c.eval doc) ∧
        ∃ k, check (.comparison op.complement left right) = .ok k ∧
          ∀ doc, k.eval doc = (c.eval doc).map (!·) := by
    obtain ⟨m, taken, mirrored⟩ := (Scope.comparison_eq_ok.mp h).mirrored
    obtain ⟨k, taken', opposite⟩ := (Scope.comparison_eq_ok.mp h).complement
    exact ⟨⟨m, Scope.comparison_eq_ok.mpr taken, mirrored⟩, k, Scope.comparison_eq_ok.mpr taken',
      opposite⟩
  have negated (n : Check) : check comparison.neg = .ok n ↔
      ∃ c, check comparison = .ok c ∧ .not c = n := by
    show Scope.check _ comparison.neg = .ok n ↔ _
    rw [Scope.check_neg, map_eq_ok]
    rfl
  refine ⟨⟨?_, ?_⟩, ⟨?_, ?_⟩, ⟨?_, ?_⟩, ?_⟩
  · rintro ⟨c, passed⟩
    obtain ⟨⟨m, seen, -⟩, -⟩ := forth passed
    exact ⟨m, seen⟩
  · rintro ⟨m, passed⟩
    obtain ⟨⟨c, seen, -⟩, -⟩ := forth passed
    exact ⟨c, by rwa [op.mirrored_mirrored] at seen⟩
  · rintro ⟨c, passed⟩
    obtain ⟨-, k, denied, -⟩ := forth passed
    exact ⟨k, denied⟩
  · rintro ⟨k, passed⟩
    obtain ⟨-, c, denied, -⟩ := forth passed
    exact ⟨c, by rwa [op.complement_complement] at denied⟩
  · rintro ⟨c, passed⟩
    exact ⟨.not c, (negated _).mpr ⟨c, passed, rfl⟩⟩
  · rintro ⟨n, passed⟩
    obtain ⟨c, passed, -⟩ := (negated n).mp passed
    exact ⟨c, passed⟩
  · intro c m k n passed seen denied negation doc
    obtain ⟨⟨m', seen', mirrored⟩, k', denied', opposite⟩ := forth passed
    cases seen.symm.trans seen'
    cases denied.symm.trans denied'
    obtain ⟨c', passed', rfl⟩ := (negated n).mp negation
    cases passed.symm.trans passed'
    exact ⟨mirrored doc, (opposite doc).symm⟩

end DocStore
