import DocStore.Evaluate
import DocStore.Proofs.Check.Values
import DocStore.Proofs.Numeric.Layout

/-!
# Integers and decimals under a comparison type

The comparison type of two integers or decimals holds every value of both, so that neither a
constant nor a stored number is lost on the way to it.

* `ScalarType.isExact`, `widen?_covers`: the types whose values are exact, and what they widen to;
* `Value.rational?`, `Json.Worth`: the numbers that constants and stored values are;
* `ScalarType.Stores`: the values that documents hold under an exact type;
* `Term.Exactly`: an operand that is worth a number under a comparison type;
* `order?_exactly`: two such operands are ordered as their numbers are.
-/

namespace DocStore

open DocStore.Text

/-! ## Types -/

/-- The integers of a type of integers. -/
def ScalarType.range? : ScalarType → Option IntRange
  | .int16 => some .signed16
  | .int32 => some .signed32
  | .int64 => some .signed64
  | _ => none

/-- The integers of a database type of integers. -/
def SqlType.range? : SqlType → Option IntRange
  | .smallint => some .signed16
  | .integer => some .signed32
  | .bigint => some .signed64
  | _ => none

/-- Whether a type is one of integers or decimals. -/
def ScalarType.isExact (type : ScalarType) : Bool := type.range?.isSome || type = .decimal

/-- Whether every integer of one range is in another. -/
def IntRange.within (inner outer : IntRange) : Bool :=
  outer.least ≤ inner.least && inner.greatest ≤ outer.greatest

theorem IntRange.holds_of_within {inner outer : IntRange} {i : Int} (within : inner.within outer)
    (held : inner.holds i) : outer.holds i := by
  rw [IntRange.within, Bool.and_eq_true, decide_eq_true_iff, decide_eq_true_iff] at within
  rw [holds_iff] at held ⊢
  omega

/-- Whether a database type holds every value of an exact type. -/
def SqlType.covers (type : SqlType) (scalar : ScalarType) : Bool :=
  match type.range?, scalar.range? with
  | some wide, some narrow => narrow.within wide
  | _, _ => type = .numeric

/-- Two exact types widen to one that covers both. -/
theorem widen?_covers {a b : ScalarType} (exactA : a.isExact) (exactB : b.isExact) :
    ∃ type, a.widen? b = some type ∧ type.covers a ∧ type.covers b := by
  cases a <;> cases exactA <;> cases b <;> cases exactB <;>
    exact ⟨_, rfl, by decide, by decide⟩

theorem covers_cases {type : SqlType} {scalar : ScalarType} (covers : type.covers scalar) :
    type = .numeric ∨ ∃ wide narrow, type.range? = some wide ∧ scalar.range? = some narrow ∧
      narrow.within wide := by
  unfold SqlType.covers at covers
  split at covers
  · rename_i wide narrow wider narrower
    exact .inr ⟨wide, narrow, wider, narrower, covers⟩
  · exact .inl (of_decide_eq_true covers)

/-! ## Integers of a database type -/

/-- An integer as a value of a database type of integers. -/
def SqlType.wholeValue (type : SqlType) (i : Int) : Value :=
  match type with
  | .smallint => .int16 (.ofInt i)
  | .integer => .int32 (.ofInt i)
  | _ => .int64 (.ofInt i)

section Integers

variable {type : SqlType} {range : IntRange} {i j : Int}

theorem castText?_intText (bound : type.range? = some range) (held : range.holds i) :
    castText? (intText i) type = some (type.wholeValue i) := by
  cases type <;> cases bound <;> rw [castText?, readIntIn?_intText held] <;> rfl

theorem compare?_wholeValue (bound : type.range? = some range) (heldI : range.holds i)
    (heldJ : range.holds j) :
    (type.wholeValue i).compare? (type.wholeValue j) = some (compare i j) := by
  obtain ⟨leastI, greatestI⟩ := IntRange.holds_iff.mp heldI
  obtain ⟨leastJ, greatestJ⟩ := IntRange.holds_iff.mp heldJ
  cases type <;> cases bound
  case smallint =>
    have outI := Int16.toInt_ofInt_of_le leastI (Int.lt_add_one_of_le greatestI)
    have outJ := Int16.toInt_ofInt_of_le leastJ (Int.lt_add_one_of_le greatestJ)
    show some (compare (Int16.ofInt i).toInt (Int16.ofInt j).toInt) = _
    rw [outI, outJ]
  case integer =>
    have outI := Int32.toInt_ofInt_of_le leastI (Int.lt_add_one_of_le greatestI)
    have outJ := Int32.toInt_ofInt_of_le leastJ (Int.lt_add_one_of_le greatestJ)
    show some (compare (Int32.ofInt i).toInt (Int32.ofInt j).toInt) = _
    rw [outI, outJ]
  case bigint =>
    have outI := Int64.toInt_ofInt_of_le leastI (Int.lt_add_one_of_le greatestI)
    have outJ := Int64.toInt_ofInt_of_le leastJ (Int.lt_add_one_of_le greatestJ)
    show some (compare (Int64.ofInt i).toInt (Int64.ofInt j).toInt) = _
    rw [outI, outJ]

end Integers

/-! ## Constants -/

/-- The rational number that an integer or decimal constant is. -/
def Value.rational? : Value → Option ℚ
  | .int16 i => some i.toInt
  | .int32 i => some i.toInt
  | .int64 i => some i.toInt
  | .decimal d => some d.rational
  | _ => none

theorem Value.isExact_of_rational? {v : Value} {q : ℚ} (worth : v.rational? = some q) :
    ∃ type, v.scalarType? = some type ∧ type.isExact := by
  cases v <;> cases worth <;> exact ⟨_, rfl, by decide⟩

theorem Value.rational?_of_isExact {v : Value} {type : ScalarType}
    (kind : v.scalarType? = some type) (exact : type.isExact) : ∃ q, v.rational? = some q := by
  cases v <;> cases kind <;> first | exact ⟨_, rfl⟩ | cases exact

theorem Decimal.rational_ofInt64 (i : Int64) : (Decimal.ofInt64 i).rational = i.toInt := by
  have signed : (Decimal.ofInt64 i).signed = i.toInt := by
    simp only [Decimal.ofInt64, Decimal.signed, decide_eq_true_eq]
    split <;> omega
  rw [Decimal.rational, signed]
  simp [Decimal.ofInt64]

/-- A decimal is compared as the number it is. -/
theorem Decimal.exactNumber? (d : Decimal) :
    ∃ x, (Value.decimal d).exactNumber? = some x ∧ x.Normal ∧ x.value = d.rational := by
  obtain ⟨n, spelled, worth, -, -⟩ := d.text_spells
  obtain ⟨x, read⟩ := Option.isSome_iff_exists.mp d.text_readable
  obtain ⟨normal, denoted⟩ := ExactNumber.normal_of_read? read
  refine ⟨x, ?_, normal, ((denoted _).mp ⟨n, spelled, worth⟩).symm⟩
  rw [Value.exactNumber?, Value.numericText?, Option.bind_some, read]

theorem coerce?_numeric {v : Value} {q : ℚ} (worth : v.rational? = some q) :
    ∃ d : Decimal, v.coerce? .numeric = some (.decimal d) ∧ d.rational = q := by
  cases v with
  | int16 i =>
    cases worth
    refine ⟨.ofInt64 i.toInt64, rfl, ?_⟩
    rw [Decimal.rational_ofInt64, Int16.toInt_toInt64]
  | int32 i =>
    cases worth
    refine ⟨.ofInt64 i.toInt64, rfl, ?_⟩
    rw [Decimal.rational_ofInt64, Int32.toInt_toInt64]
  | int64 i =>
    cases worth
    exact ⟨.ofInt64 i, rfl, Decimal.rational_ofInt64 i⟩
  | decimal d =>
    cases worth
    exact ⟨d, rfl, rfl⟩
  | _ => cases worth

theorem coerce?_wholeValue {v : Value} {scalar : ScalarType} {type : SqlType}
    {wide narrow : IntRange} {q : ℚ} (kind : v.scalarType? = some scalar)
    (bound : type.range? = some wide) (declared : scalar.range? = some narrow)
    (within : narrow.within wide) (worth : v.rational? = some q) :
    ∃ i : Int, v.coerce? type = some (type.wholeValue i) ∧ narrow.holds i ∧ (i : ℚ) = q := by
  -- A constant that is narrower than the type is read in it as the same integer.
  cases v <;> cases worth <;> cases kind <;> cases declared
  case int16 i =>
    refine ⟨i.toInt, ?_, IntRange.signed16_holds i, rfl⟩
    cases type <;> cases bound
    · exact congrArg (some ∘ Value.int16) (Int16.ofInt_toInt i).symm
    · exact congrArg (some ∘ Value.int32) (Int32.ofInt_int16ToInt i).symm
    · exact congrArg (some ∘ Value.int64) (Int64.ofInt_int16ToInt i).symm
  case int32 i =>
    refine ⟨i.toInt, ?_, IntRange.signed32_holds i, rfl⟩
    cases type <;> cases bound
    · exact absurd within (by decide)
    · exact congrArg (some ∘ Value.int32) (Int32.ofInt_toInt i).symm
    · exact congrArg (some ∘ Value.int64) (Int64.ofInt_int32ToInt i).symm
  case int64 i =>
    refine ⟨i.toInt, ?_, IntRange.signed64_holds i, rfl⟩
    cases type <;> cases bound
    · exact absurd within (by decide)
    · exact absurd within (by decide)
    · exact congrArg (some ∘ Value.int64) (Int64.ofInt_toInt i).symm

/-! ## Stored values -/

/-- The JSON numbers there are: 64-bit integers with or without a sign and finite floating-point
numbers. -/
inductive JsonNumber.WellFormed : JsonNumber → Prop
  | whole {i} (held : IntRange.signed64.holds i ∨ IntRange.unsigned64.holds i) :
      WellFormed (.whole i)
  | float {x} (finite : x.isFinite) : WellFormed (.float x)

/-- The number that a stored value is: an integer itself, and any other number and a string what
its text denotes. -/
inductive Json.Worth : Json → ℚ → Prop
  | whole (i : Int) : Worth (.number (.whole i)) i
  | float {x q} (denoted : Denotes (x.text .json) q) : Worth (.number (.float x)) q
  | string {s q} (denoted : Denotes s q) : Worth (.string s) q

/-- What documents hold under an exact type: an integer of the declared range, and under decimals
any number and any text that spells one. -/
inductive ScalarType.Stores : ScalarType → Json → Prop
  | integer {type range i} (bound : type.range? = some range) (held : range.holds i) :
      Stores type (.number (.whole i))
  | number {n} (wellFormed : n.WellFormed) : Stores .decimal (.number n)
  | string {s} (readable : (ExactNumber.read? s).isSome) : Stores .decimal (.string s)

theorem intText_denotes (i : Int) : Denotes (intText i) i := by
  obtain ⟨n, spelled, worth, -, -⟩ := intText_spells i
  exact ⟨n, spelled, worth⟩

theorem intText_readable {i : Int}
    (held : IntRange.signed64.holds i ∨ IntRange.unsigned64.holds i) :
    (ExactNumber.read? (intText i)).isSome := by
  obtain ⟨n, spelled, -, unmarked, digits⟩ := intText_spells i
  have short : (natDigits i.natAbs).length ≤ 20 := by
    refine length_natDigits_le (by decide) ?_
    rw [IntRange.holds_iff, IntRange.holds_iff] at held
    simp only [IntRange.signed64, IntRange.unsigned64] at held
    omega
  exact ExactNumber.read?_isSome spelled (by rw [unmarked, digits]; omega)

/-- A stored value has a text that is read as the one number it is. -/
theorem ScalarType.Stores.read {type : ScalarType} {j : Json} (stored : type.Stores j) :
    ∃ s x, j.extracted? = some s ∧ ExactNumber.read? s = some x ∧ ∀ q, j.Worth q ↔ q = x.value := by
  have whole {i : Int} (held : IntRange.signed64.holds i ∨ IntRange.unsigned64.holds i) :
      ∃ s x, (Json.number (.whole i)).extracted? = some s ∧ ExactNumber.read? s = some x ∧
        ∀ q, (Json.number (.whole i)).Worth q ↔ q = x.value := by
    obtain ⟨x, read⟩ := Option.isSome_iff_exists.mp (intText_readable held)
    have value := ((ExactNumber.normal_of_read? read).2 i).mp (intText_denotes i)
    refine ⟨_, x, rfl, read, fun q => ⟨?_, ?_⟩⟩
    · rintro ⟨⟩
      exact value
    · rintro rfl
      exact value ▸ .whole i
  cases stored with
  | @integer _ range i bound held =>
    refine whole (.inl (IntRange.holds_of_within ?_ held))
    cases type <;> cases bound <;> decide
  | number wellFormed =>
    cases wellFormed with
    | whole held => exact whole held
    | @float x finite =>
      obtain ⟨y, read⟩ := Option.isSome_iff_exists.mp
        (Floating.text_readable (f := .double) (by decide) .json finite)
      have denoted := (ExactNumber.normal_of_read? read).2
      exact ⟨_, y, rfl, read, fun q =>
        ⟨fun | .float worth => (denoted q).mp worth, fun same => .float ((denoted q).mpr same)⟩⟩
  | string readable =>
    obtain ⟨x, read⟩ := Option.isSome_iff_exists.mp readable
    have denoted := (ExactNumber.normal_of_read? read).2
    exact ⟨_, x, rfl, read, fun q =>
      ⟨fun | .string worth => (denoted q).mp worth, fun same => .string ((denoted q).mpr same)⟩⟩

/-! ## Operands -/

/-- An operand that is worth a number on a document, under a comparison type: as an exact number
under `numeric`, and as an integer of the type under any other. -/
inductive Term.Exactly (type : SqlType) (doc : Json) (term : Term) : ℚ → Prop
  | numeric {x} (exact : type = .numeric) (read : term.exactNumber? doc = some x)
      (normal : x.Normal) : Exactly type doc term x.value
  | integer {range i} (bound : type.range? = some range) (held : range.holds i)
      (read : term.value? (.typed type) doc = some (type.wholeValue i)) : Exactly type doc term i

variable {type : SqlType} {scalar : ScalarType} {doc : Json} {left right : Term} {p q : ℚ}

/-- Operands that are worth numbers are ordered as the numbers are. -/
theorem order?_exactly (first : left.Exactly type doc p) (second : right.Exactly type doc q) :
    (Comparand.typed type).order? doc left right = some (compare p q) := by
  unfold Comparand.order?
  cases first with
  | numeric exact readX normalX =>
    cases second with
    | numeric _ readY normalY =>
      rw [if_pos (by rw [exact]), readX, readY, ← normalX.order_eq normalY]
      rfl
    | integer bound => rw [exact] at bound; cases bound
  | @integer range i bound heldI readI =>
    have inexact : Comparand.typed type ≠ .typed .numeric := by
      rintro ⟨⟩
      cases bound
    cases second with
    | numeric exact => rw [exact] at bound; cases bound
    | integer other heldJ readJ =>
      cases bound.symm.trans other
      rw [if_neg inexact, readI, readJ, ← cmp_eq_compare,
        (Int.cast_strictMono (R := ℚ)).cmp_map_eq, cmp_eq_compare]
      exact compare?_wholeValue bound heldI heldJ

/-- A stored value is worth its number under every type that covers its own. -/
theorem exactly_field {path : FieldPath} {j : Json} (covers : type.covers scalar)
    (found : path.node? doc = some j) (stored : scalar.Stores j) (worth : j.Worth q) :
    (Term.field path scalar).Exactly type doc q := by
  rcases covers_cases covers with exact | ⟨wide, narrow, bound, declared, within⟩
  · obtain ⟨s, x, text, read, value⟩ := stored.read
    rw [(value q).mp worth]
    refine .numeric exact ?_ (ExactNumber.normal_of_read? read).1
    simp only [Term.exactNumber?, Term.text?, FieldPath.extract?, found, Option.bind_some, text,
      read]
  · cases stored with
    | @integer _ range i own held =>
      cases declared.symm.trans own
      cases worth
      have wider := IntRange.holds_of_within within held
      refine .integer bound wider ?_
      simp only [Term.value?, Term.text?, FieldPath.extract?, found, Option.bind_some,
        Json.extracted?]
      exact castText?_intText bound wider
    | number => cases declared
    | string => cases declared

/-- A constant converts to every type that covers its own, and is worth its number there. -/
theorem exactly_constant {v : Value} (kind : v.scalarType? = some scalar)
    (covers : type.covers scalar) (worth : v.rational? = some q) :
    ∃ w, v.coerce? type = some w ∧ ∀ doc, (Term.constant w).Exactly type doc q := by
  rcases covers_cases covers with rfl | ⟨wide, narrow, bound, declared, within⟩
  · obtain ⟨d, converted, value⟩ := coerce?_numeric worth
    obtain ⟨x, read, normal, same⟩ := d.exactNumber?
    rw [← value, ← same]
    exact ⟨_, converted, fun doc => .numeric rfl read normal⟩
  · obtain ⟨i, converted, held, rfl⟩ := coerce?_wholeValue kind bound declared within worth
    refine ⟨_, converted, fun doc => .integer bound (IntRange.holds_of_within within held) ?_⟩
    cases type <;> cases bound <;> rfl

end DocStore
