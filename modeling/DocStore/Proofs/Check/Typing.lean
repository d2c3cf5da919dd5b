import DocStore.Proofs.Check.Derivation

/-!
# Checked predicates are well typed

What a check guarantees of its parts, whatever filter and schema it comes from.

* `SqlType.admits`: the values that a parameter of a database type may have;
* `under_admitted`: a converted constant is one of them;
* `Term.HasType`: the scalar type of an operand;
* `check_wellTyped`: in a checked predicate texts are searched in texts, operands have a type, and
  every constant is a value of the type it is compared in.
-/

namespace DocStore

/-- Whether a parameter of a database type may have a value. -/
def SqlType.admits : SqlType → Value → Bool
  | .smallint, .int16 _ => true
  | .integer, .int32 _ => true
  | .bigint, .int64 _ => true
  | .real, .float32 _ => true
  | .doublePrecision, .float64 _ => true
  | .numeric, .decimal _ => true
  | .numeric, .float32 x => x.isFinite
  | .numeric, .float64 x => x.isFinite
  | .boolean, .bool _ => true
  | .text, .text _ => true
  | .timestamptz, .timestamp _ => true
  | .uuid, .guid _ => true
  | _, _ => false

namespace Value

theorem coerce_admitted {v w : Value} {type : SqlType} (h : v.coerce? type = some w) :
    type.admits w := by
  unfold coerce? at h
  split at h
  all_goals
    first
    | (cases h; rfl)
    | (obtain ⟨_, _, rfl⟩ := Option.map_eq_some_iff.mp h; rfl)
    | (split at h <;> cases h; assumption)
    | cases h

theorem under_admitted {v w : Value} {comparand : Comparand} (h : v.under comparand = .ok w) :
    comparand.sqlType.admits w := by
  cases comparand with
  | typed type =>
    simp only [under, coerce] at h
    split at h
    · rename_i converted
      cases h
      exact coerce_admitted converted
    · cases h
  | label variants =>
    obtain ⟨_, _, rfl⟩ := map_eq_ok.mp h
    rfl
  | code variants =>
    obtain ⟨_, _, rfl⟩ := map_eq_ok.mp h
    rfl

theorem eq_text_of_scalarType {v : Value} (h : v.scalarType? = some .text) : ∃ s, v = .text s := by
  cases v <;> simp [scalarType?] at h ⊢

theorem admits_own {v : Value} {type : ScalarType} (h : v.scalarType? = some type) :
    type.sqlType.admits v := by
  cases v <;> cases h <;> rfl

theorem isNull_of_scalarType {v : Value} {type : ScalarType} (h : v.scalarType? = some type) :
    v.isNull = false := by
  cases v <;> simp [scalarType?, isNull] at h ⊢

end Value

/-! ## Operands -/

/-- The scalar type of an operand. -/
inductive Term.HasType : Term → ScalarType → Prop
  | field (path type) : HasType (.field path type) type
  | label (path variants) : HasType (.label path variants) .text
  | lower {inner} (text : HasType inner .text) : HasType (.lower inner) .text
  | upper {inner} (text : HasType inner .text) : HasType (.upper inner) .text
  | constant {value type} (kind : value.scalarType? = some type) : HasType (.constant value) type

/-- Whether an operand may be compared under a comparison type: a constant is of that type already,
and any other operand is brought to it when it is looked at. -/
def Term.Fits (comparand : Comparand) : Term → Prop
  | .constant value => comparand.sqlType.admits value
  | term => ∃ type, term.HasType type

theorem Scope.Reads.hasType {scope : Scope} {o : Operand} {typed : TypedTerm}
    (h : scope.Reads o (some typed)) : typed.term.HasType typed.type := by
  generalize same : some typed = result at h
  induction h generalizing typed with
  | field => cases same; exact .field ..
  | @constant c value found =>
    obtain ⟨type, kind, rfl⟩ := Option.map_eq_some_iff.mp same.symm
    exact .constant kind
  | label => cases same; exact .label ..
  | lower _ ih => cases same; exact .lower (ih rfl)
  | upper _ ih => cases same; exact .upper (ih rfl)

/-- Fitting converts constants and leaves other operands as they are. -/
theorem Scope.fit_eq_ok {op : CompareOp} {comparand : Comparand} {typed : TypedTerm} {term : Term}
    (h : fit op comparand typed = .ok term) :
    (∃ v w, typed.term = .constant v ∧ v.under comparand = .ok w ∧ term = .constant w) ∨
      (∀ v, typed.term ≠ .constant v) ∧ term = typed.term := by
  unfold fit at h
  split at h
  · rename_i v constant
    obtain ⟨w, converted, rfl⟩ := map_eq_ok.mp h
    exact .inl ⟨v, w, constant, converted, rfl⟩
  · rename_i other
    cases h
    exact .inr ⟨other, rfl⟩
  · rename_i other
    split at h
    · cases h; exact .inr ⟨other, rfl⟩
    · cases h; exact .inr ⟨other, rfl⟩
    · exact absurd h refuse_ne_ok

theorem Scope.fits_of_fit {op : CompareOp} {comparand : Comparand} {typed : TypedTerm} {term : Term}
    (kind : typed.term.HasType typed.type) (h : fit op comparand typed = .ok term) :
    term.Fits comparand := by
  rcases fit_eq_ok h with ⟨v, w, _, converted, rfl⟩ | ⟨other, rfl⟩
  · exact Value.under_admitted converted
  · cases kept : typed.term with
    | constant v => exact absurd kept (other v)
    | _ => exact ⟨typed.type, kept ▸ kind⟩

theorem Term.HasType.fits_text {term : Term} (h : term.HasType .text) :
    term.Fits (.typed .text) := by
  cases h with
  | constant kind =>
    obtain ⟨s, rfl⟩ := Value.eq_text_of_scalarType kind
    rfl
  | field => exact ⟨_, .field ..⟩
  | label => exact ⟨_, .label ..⟩
  | lower text => exact ⟨_, .lower text⟩
  | upper text => exact ⟨_, .upper text⟩

/-! ## Predicates -/

/-- Whether every part of a check is of the type it is used at. -/
inductive Check.WellTyped : Check → Prop
  | compare {op comparand left right} (first : left.Fits comparand) (second : right.Fits comparand)
      (labels : ∀ variants, comparand = .label variants → op.isEquality) :
      WellTyped (.compare op comparand left right)
  | nodeIsNull (path negated) : WellTyped (.isNull (.node path) negated)
  | isNull {term type} (negated) (kind : term.HasType type) : WellTyped (.isNull term negated)
  | search {receiver argument} (pattern) (text : receiver.HasType .text)
      (part : argument.HasType .text) : WellTyped (.search pattern receiver argument)
  | blank {term} (text : term.HasType .text) : WellTyped (.blank term)
  | member {comparand value} (path element) (admitted : comparand.sqlType.admits value) :
      WellTyped (.member path element comparand value)
  | hasValue (path) : WellTyped (.hasValue path)
  | flag (path) : WellTyped (.flag path)
  | literal (b) : WellTyped (.literal b)
  | all {operands} (each : ∀ c ∈ operands, WellTyped c) : WellTyped (.all operands)
  | any {operands} (each : ∀ c ∈ operands, WellTyped c) : WellTyped (.any operands)
  | not {operand} (inner : WellTyped operand) : WellTyped (.not operand)

theorem Comparand.ofPlain?_typed {op : CompareOp} {left right : ScalarType} {c : Comparand}
    (h : ofPlain? op left right = some c) : ∃ type, c = .typed type := by
  unfold ofPlain? at h
  split at h
  case h_2 =>
    split at h
    · cases h
      exact ⟨_, rfl⟩
    · cases h
  case h_9 => cases h
  all_goals
    cases h
    exact ⟨_, rfl⟩

/-- What is compared as an enumeration is one on either side. -/
theorem Comparand.of_eq_ok {op : CompareOp} {left right : ScalarType} {c : Comparand}
    (h : Comparand.of op left right = .ok c) :
    (∃ variants, (left.variants? = some variants ∨ right.variants? = some variants) ∧
      c = ofVariants op variants) ∨ ∃ type, c = .typed type := by
  unfold Comparand.of of? at h
  split at h
  · rename_i found
    cases h
    split at found
    · rename_i variants _ first _
      exact .inl ⟨variants, .inl first, (Option.some.inj found).symm⟩
    · rename_i variants first _
      split at found
      · exact .inl ⟨variants, .inl first, (Option.some.inj found).symm⟩
      · cases found
    · rename_i variants _ second
      split at found
      · exact .inl ⟨variants, .inr second, (Option.some.inj found).symm⟩
      · cases found
    · split at found
      · exact .inr ⟨_, (Option.some.inj found).symm⟩
      · exact .inr (ofPlain?_typed found)
  · cases h

/-- Only equality is decided by label. -/
theorem Comparand.of_label {op : CompareOp} {left right : ScalarType} {variants : List EnumVariant}
    (h : Comparand.of op left right = .ok (.label variants)) : op.isEquality := by
  rcases of_eq_ok h with ⟨_, _, same⟩ | ⟨_, same⟩
  · unfold ofVariants at same
    split at same
    · assumption
    · cases same
  · cases same

theorem nullTerm_wellTyped {scope : Scope} {o : Operand} {typed : TypedTerm} (negated : Bool)
    (h : scope.Reads o (some typed)) :
    (Check.isNull (Scope.nullTerm o typed) negated).WellTyped := by
  cases o with
  | field path => exact .nodeIsNull ..
  | _ => exact .isNull _ h.hasType

theorem Scope.Takes.wellTyped {scope : Scope} {p : Predicate} {c : Check} (h : scope.Takes p c) :
    c.WellTyped := by
  cases h with
  | nullLeft _ other => exact nullTerm_wellTyped _ other
  | nullRight other => exact nullTerm_wellTyped _ other
  | compare first second common fitFirst fitSecond =>
    refine .compare (fits_of_fit first.hasType fitFirst) (fits_of_fit second.hasType fitSecond) ?_
    rintro variants rfl
    exact Comparand.of_label common
  | blank text => exact .blank text.hasType
  | search text part => exact .search _ text.hasType part.hasType
  | equals text other =>
    exact .compare text.hasType.fits_text other.hasType.fits_text (fun _ label => by cases label)
  | arrayContains _ belongs => exact .member _ _ (Value.under_admitted belongs.converted)
  | member _ belongs => exact .member _ _ (Value.under_admitted belongs.converted)
  | hasValue => exact .hasValue _
  | flag => exact .flag _
  | literal => exact .literal _

/-- Whatever passes its check is well typed. -/
theorem check_wellTyped {filter : Filter} {schema : Schema} {c : Check}
    (h : filter.check schema = .ok c) : c.WellTyped := by
  have each {ps : List Predicate} {cs : List Check}
      (all : List.Forall₂ (fun _ c => c.WellTyped) ps cs) : ∀ c ∈ cs, c.WellTyped := by
    induction all with
    | nil => simp
    | cons first _ rest => exact List.forall_mem_cons.mpr ⟨first, rest⟩
  exact Scope.check_induction (motive := fun _ c => c.WellTyped) Scope.Takes.wellTyped
    (fun all => .all (each all)) (fun all => .any (each all)) .not h

end DocStore
