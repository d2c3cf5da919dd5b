import DocStore.Proofs.Check.Typing

/-!
# The values of typed operands

What an operand is worth on a document once it is brought to a comparison type.

* `Term.Fits.admits`: its value is one of that type;
* `SqlType.admits_comparable`: two values of one type other than `numeric` are ordered, unless one
  is not a number.
-/

namespace DocStore

/-- Whether a value is the not-a-number of a floating-point type. -/
def Value.isNaN : Value → Bool
  | .float32 x => x.isNaN
  | .float64 x => x.isNaN
  | _ => false

theorem castText?_admitted {s : String} {type : SqlType} {v : Value}
    (h : castText? s type = some v) : type.admits v := by
  cases type with
  | boolean =>
    simp only [castText?] at h
    split at h
    · cases h; rfl
    · split at h <;> cases h
      rfl
  | text => cases h; rfl
  | _ =>
    obtain ⟨_, _, rfl⟩ := Option.map_eq_some_iff.mp h
    rfl

namespace Term

variable {term : Term} {doc : Json}

/-! ## Operands that are read from a document -/

theorem value?_typed (read : ∀ v, term ≠ .constant v) (type : SqlType) :
    term.value? (.typed type) doc = (term.text? doc).bind fun s => castText? s type := by
  cases term with
  | constant v => exact absurd rfl (read v)
  | _ => rfl

theorem value?_label (read : ∀ v, term ≠ .constant v) (variants : List EnumVariant) :
    term.value? (.label variants) doc =
      (term.text? doc).map fun s => .text (labelOfText (term.variantsOr []) s) := by
  cases term with
  | constant v => exact absurd rfl (read v)
  | _ => rfl

theorem value?_code (read : ∀ v, term ≠ .constant v) (variants : List EnumVariant) :
    term.value? (.code variants) doc =
      ((term.text? doc).bind (codeOfText? (term.variantsOr variants))).map .int64 := by
  cases term with
  | constant v => exact absurd rfl (read v)
  | _ => rfl

theorem exactNumber?_read (read : ∀ v, term ≠ .constant v) :
    term.exactNumber? doc = (term.text? doc).bind ExactNumber.read? := by
  cases term with
  | constant v => exact absurd rfl (read v)
  | _ => rfl

/-! ## Types of values -/

theorem Fits.admits {comparand : Comparand} {v : Value} (fits : term.Fits comparand)
    (h : term.value? comparand doc = some v) : comparand.sqlType.admits v := by
  by_cases constant : ∃ w, term = .constant w
  · obtain ⟨w, rfl⟩ := constant
    have same : w = v := by cases w <;> simp_all [value?]
    exact same ▸ fits
  · have read : ∀ w, term ≠ .constant w := fun w same => constant ⟨w, same⟩
    cases comparand with
    | typed type =>
      rw [value?_typed read] at h
      obtain ⟨s, _, cast⟩ := Option.bind_eq_some_iff.mp h
      exact castText?_admitted cast
    | label variants =>
      rw [value?_label read] at h
      obtain ⟨_, _, rfl⟩ := Option.map_eq_some_iff.mp h
      rfl
    | code variants =>
      rw [value?_code read] at h
      obtain ⟨_, _, rfl⟩ := Option.map_eq_some_iff.mp h
      rfl

end Term

/-- Finite and infinite numbers have a place in the order. -/
theorem Floating.place?_of_not_nan {f : Format} {x : Floating f} (h : x.isNaN = false) :
    ∃ i, x.place? = some i := by
  cases x with
  | nan => cases h
  | number negative rank => cases negative <;> exact ⟨_, rfl⟩

theorem Floating.compare?_of_not_nan {f : Format} {x y : Floating f} (hx : x.isNaN = false)
    (hy : y.isNaN = false) : ∃ order, x.compare? y = some order := by
  obtain ⟨i, left⟩ := place?_of_not_nan hx
  obtain ⟨j, right⟩ := place?_of_not_nan hy
  exact ⟨compare i j, by rw [compare?, left, right]⟩

theorem SqlType.admits_comparable {type : SqlType} {v w : Value} (other : type ≠ .numeric)
    (first : type.admits v) (second : type.admits w) (hv : v.isNaN = false)
    (hw : w.isNaN = false) : ∃ order, v.compare? w = some order := by
  cases type with
  | numeric => exact absurd rfl other
  | real =>
    cases v <;> cases first
    cases w <;> cases second
    exact Floating.compare?_of_not_nan hv hw
  | doublePrecision =>
    cases v <;> cases first
    cases w <;> cases second
    exact Floating.compare?_of_not_nan hv hw
  | _ =>
    cases v <;> cases first
    cases w <;> cases second
    exact ⟨_, rfl⟩

end DocStore
