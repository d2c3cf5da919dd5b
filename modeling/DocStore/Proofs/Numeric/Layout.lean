import DocStore.Proofs.Check.Typing
import DocStore.Proofs.Numeric.Written

/-!
# Floating-point numbers as they are written

The text of a finite floating-point number is a numeral in every layout.  Without an exponent it is
as long as the number is large or small; for the formats in use that is always a moderate length.

* `shortestDigits_within`: how many digits there are, and where they stand;
* `Layout.magnitudeText_unsigned`: digits set out in a layout are a numeral;
* `Floating.shortestValue`, `Floating.text_spells`: the number that a text spells in every layout;
* `Floating.text_readable`: the text of a finite number is an exact number;
* `SqlType.numeric_readable`: every value admitted under `numeric` is an exact number.
-/

namespace DocStore

open DocStore.Text

/-! ## Digits on a grid -/

/-- At most `10 ^ size` as digits, at a place between `-reach` and `reach`. -/
structure DecimalDigits.Within (size reach : Nat) (d : DecimalDigits) : Prop where
  digits_le : d.digits ≤ 10 ^ size
  least : -(reach : Int) ≤ d.exponent
  greatest : d.exponent ≤ reach

theorem DecimalDigits.stripped_within {size reach fuel : Nat} {d : DecimalDigits}
    (digits_le : d.digits ≤ 10 ^ size) (least : -(reach : Int) ≤ d.exponent)
    (greatest : d.exponent + fuel ≤ reach) : (stripped fuel d).Within size reach := by
  induction fuel generalizing d with
  | zero => exact ⟨digits_le, least, by simpa [stripped] using greatest⟩
  | succ fuel ih =>
    unfold stripped
    split
    · exact ih (Nat.le_trans (Nat.div_le_self ..) digits_le) (by simp only; omega)
        (by simp only; omega)
    · exact ⟨digits_le, least, by omega⟩

namespace RoundingInterval

variable {i : RoundingInterval} {tie : Tie} {size : Nat}

/-- The leading digit of a magnitude and of its unit are no further apart than both are long. -/
theorem leadingExponent_bounded (positive : 0 < size) (value_lt : i.value < 10 ^ size)
    (unit_lt : i.unit < 10 ^ size) :
    -(size : Int) ≤ i.leadingExponent ∧ i.leadingExponent ≤ size := by
  unfold leadingExponent
  split
  · have : (natDigits (i.value / i.unit)).length ≤ size :=
      length_natDigits_le positive (Nat.lt_of_le_of_lt (Nat.div_le_self ..) value_lt)
    omega
  · have : (natDigits ((i.unit - 1) / i.value)).length ≤ size :=
      length_natDigits_le positive
        (Nat.lt_of_le_of_lt (Nat.div_le_self ..) (Nat.lt_of_le_of_lt (Nat.sub_le ..) unit_lt))
    omega

/-- On a grid only the two neighbours of a value come into question. -/
theorem nearestOnGrid?_eq {exponent : Int} {digits : Nat}
    (h : i.nearestOnGrid? tie exponent = some digits) :
    digits ≤ i.value * Nat.pow 10 (-exponent).toNat / (i.unit * Nat.pow 10 exponent.toNat) + 1 := by
  unfold nearestOnGrid? at h
  simp only at h
  generalize i.value * Nat.pow 10 (-exponent).toNat / (i.unit * Nat.pow 10 exponent.toNat) = below
    at h ⊢
  (repeat' split at h) <;> simp only [Option.some.injEq, reduceCtorEq] at h
  all_goals omega

theorem nearestOnGrid?_le {exponent : Int} {reach digits : Nat} (value_lt : i.value < 10 ^ size)
    (least : -(reach : Int) ≤ exponent) (h : i.nearestOnGrid? tie exponent = some digits) :
    digits ≤ 10 ^ (size + reach) := by
  have scale_le : Nat.pow 10 (-exponent).toNat ≤ 10 ^ reach :=
    Nat.pow_le_pow_right (by decide) (by omega)
  calc digits
      ≤ i.value * Nat.pow 10 (-exponent).toNat / (i.unit * Nat.pow 10 exponent.toNat) + 1 :=
        nearestOnGrid?_eq h
    _ ≤ i.value * Nat.pow 10 (-exponent).toNat + 1 := Nat.succ_le_succ (Nat.div_le_self ..)
    _ ≤ i.value * 10 ^ reach + 10 ^ reach :=
        Nat.add_le_add (Nat.mul_le_mul_left _ scale_le) (Nat.one_le_pow _ _ (by decide))
    _ = (i.value + 1) * 10 ^ reach := by rw [Nat.succ_mul]
    _ ≤ 10 ^ size * 10 ^ reach := Nat.mul_le_mul_right _ value_lt
    _ = 10 ^ (size + reach) := (Nat.pow_add ..).symm

theorem shortestFrom_within {reach fuel : Nat} {exponent : Int} (value_lt : i.value < 10 ^ size)
    (least : -(reach : Int) + fuel ≤ exponent) (greatest : exponent + 20 ≤ reach) :
    (i.shortestFrom tie fuel exponent).Within (size + reach) reach := by
  induction fuel generalizing exponent with
  | zero => exact ⟨Nat.zero_le _, by simp [shortestFrom], by simp [shortestFrom]⟩
  | succ fuel ih =>
    unfold shortestFrom
    split
    · rename_i digits nearest
      have least : -(reach : Int) ≤ exponent := by omega
      exact DecimalDigits.stripped_within (nearestOnGrid?_le value_lt least nearest) least greatest
    · exact ih (by omega) (by omega)

end RoundingInterval

/-! ## Magnitudes of a format -/

/-- How many binary digits the magnitudes of a format and their least unit take. -/
def Format.span (f : Format) : Nat := 2 + f.exponentBits + f.fractionBits + 2 ^ f.exponentBits

variable {f : Format} {rank : Nat}

theorem Format.infinityRank_lt (f : Format) :
    f.infinityRank < 2 ^ (f.exponentBits + f.fractionBits) := by
  have positive : 0 < 2 ^ f.exponentBits := Nat.two_pow_pos _
  rw [Nat.pow_add]
  exact Nat.mul_lt_mul_of_pos_right (Nat.sub_lt positive Nat.one_pos) (Nat.two_pow_pos _)

theorem two_pow_lt_ten_pow {n size : Nat} (le : n ≤ size) (positive : 0 < size) :
    2 ^ n < 10 ^ size :=
  Nat.lt_of_le_of_lt (Nat.pow_le_pow_right (by decide) le)
    (Nat.pow_lt_pow_left (by decide) (by omega))

theorem Format.span_pos (f : Format) : 0 < f.span := by
  have positive : 0 < 2 ^ f.exponentBits := Nat.two_pow_pos _
  unfold span
  omega

theorem ofRank_value_lt (h : rank ≤ f.infinityRank) :
    (RoundingInterval.ofRank f rank).value < 10 ^ f.span := by
  have significand : (Floating.parts f rank).1 < 2 ^ (f.exponentBits + f.fractionBits) :=
    Nat.lt_of_le_of_lt (Nat.le_trans (Nat.sub_le ..) h) f.infinityRank_lt
  have exponent : (Floating.parts f rank).2 ≤ 2 ^ f.exponentBits := by
    refine Nat.le_trans (Nat.sub_le ..) (Nat.div_le_of_le_mul (Nat.le_trans h ?_))
    rw [Nat.mul_comm]
    exact Nat.mul_le_mul_right _ (Nat.sub_le ..)
  calc (RoundingInterval.ofRank f rank).value
      = 4 * (Floating.parts f rank).1 * 2 ^ (Floating.parts f rank).2 := rfl
    _ ≤ 4 * 2 ^ (f.exponentBits + f.fractionBits) * 2 ^ 2 ^ f.exponentBits :=
        Nat.mul_le_mul (Nat.mul_le_mul_left _ (Nat.le_of_lt significand))
          (Nat.pow_le_pow_right (by decide) exponent)
    _ = 2 ^ f.span := by rw [Format.span, Nat.add_assoc 2, Nat.pow_add 2 (2 + _), Nat.pow_add 2 2]
    _ < 10 ^ f.span := two_pow_lt_ten_pow (Nat.le_refl _) f.span_pos

theorem ofRank_unit_lt : (RoundingInterval.ofRank f rank).unit < 10 ^ f.span := by
  have bits : 2 + f.unitBits ≤ f.span := by
    have half : 2 ^ (f.exponentBits - 1) ≤ 2 ^ f.exponentBits :=
      Nat.pow_le_pow_right (by decide) (Nat.sub_le ..)
    have pow : Nat.pow 2 (f.exponentBits - 1) = 2 ^ (f.exponentBits - 1) := rfl
    unfold Format.unitBits Format.span
    omega
  calc (RoundingInterval.ofRank f rank).unit
      = 2 ^ (2 + f.unitBits) := by rw [Nat.pow_add]; rfl
    _ < 10 ^ f.span := two_pow_lt_ten_pow bits f.span_pos

theorem shortestDigits_within (tie : Tie) (h : rank ≤ f.infinityRank) :
    (Floating.shortestDigits tie f rank).Within (2 * f.span + 40) (f.span + 40) := by
  have value_lt := ofRank_value_lt h
  obtain ⟨least, greatest⟩ :=
    RoundingInterval.leadingExponent_bounded f.span_pos value_lt ofRank_unit_lt
  unfold Floating.shortestDigits
  split
  · exact ⟨Nat.zero_le _, by simp only; omega, by simp only; omega⟩
  · have within : ((RoundingInterval.ofRank f rank).shortest tie).Within (f.span + (f.span + 40))
        (f.span + 40) :=
      RoundingInterval.shortestFrom_within value_lt (by omega) (by omega)
    rwa [show f.span + (f.span + 40) = 2 * f.span + 40 by omega] at within

/-! ## Layouts -/

namespace Layout

variable {digits : List Char} {layout : Layout}

/-- Digits set out without an exponent are a numeral, which is worth the digits at their place. -/
theorem positional_numeral (layout : Layout) (before : Int) (nonempty : digits ≠ [])
    (decimal : ∀ c ∈ digits, c.isDigit) :
    ∃ whole fraction, layout.positionalText digits before = ExactNumber.numeral whole fraction ∧
      whole ≠ [] ∧ (∀ c ∈ whole ++ fraction.getD [], c.isDigit) ∧
      whole.length + (fraction.getD []).length ≤ before.natAbs + digits.length + 2 ∧
      (natOfDigits (whole ++ fraction.getD []) : ℚ) * 10 ^ (-((fraction.getD []).length : Int)) =
        natOfDigits digits * 10 ^ (before - digits.length) := by
  have zeros (n : Nat) : ∀ c ∈ List.replicate n '0', c.isDigit := by
    intro c hc
    rw [List.eq_of_mem_replicate hc]
    decide
  have filled : 0 < digits.length := List.length_pos_iff.mpr nonempty
  unfold positionalText
  split
  · refine ⟨['0'], some (List.replicate (-before).toNat '0' ++ digits),
      by simp [ExactNumber.numeral], by simp, ?_, ?_, ?_⟩
    · intro c hc
      simp only [Option.getD_some, List.mem_append, List.mem_singleton] at hc
      rcases hc with rfl | zero | hc
      · decide
      · exact zeros _ c zero
      · exact decimal c hc
    · simp
      omega
    · have place : -((List.replicate (-before).toNat '0' ++ digits).length : Int) =
          before - digits.length := by simp; omega
      have zero : natOfDigits ['0'] = 0 := rfl
      rw [Option.getD_some, place, natOfDigits_append, natOfDigits_append, natOfDigits_zeros, zero,
        Nat.zero_mul, Nat.zero_mul, Nat.zero_add, Nat.zero_add]
  · split
    · have moved : (natOfDigits (digits ++ List.replicate (before - digits.length).toNat '0') : ℚ) =
          natOfDigits digits * 10 ^ (before - digits.length) := by
        obtain ⟨n, place⟩ := Int.eq_ofNat_of_zero_le (a := before - digits.length) (by omega)
        rw [place, natOfDigits_append, natOfDigits_zeros, List.length_replicate]
        simp
      refine ⟨digits ++ List.replicate (before - digits.length).toNat '0',
        if layout.wholePoint then some ['0'] else none, ?_, by simp [nonempty], ?_, ?_, ?_⟩
      · cases layout.wholePoint <;> simp [ExactNumber.numeral]
      · intro c hc
        simp only [List.mem_append] at hc
        rcases hc with (hc | zero) | zero
        · exact decimal c hc
        · exact zeros _ c zero
        · cases point : layout.wholePoint <;> simp [point] at zero
          rw [zero]
          decide
      · cases layout.wholePoint <;> simp <;> omega
      · rw [← moved]
        cases layout.wholePoint with
        | false => simp
        | true =>
          have zero : natOfDigits ['0'] = 0 := rfl
          rw [if_pos rfl, Option.getD_some, natOfDigits_append _ ['0'], zero]
          simp
    · refine ⟨digits.take before.toNat, some (digits.drop before.toNat),
        by simp [ExactNumber.numeral], ?_, ?_, ?_, ?_⟩
      · rw [← List.length_pos_iff, List.length_take]
        omega
      · simpa using decimal
      · simp
        omega
      · have place : -((digits.drop before.toNat).length : Int) = before - digits.length := by
          rw [List.length_drop]
          omega
        rw [Option.getD_some, place, List.take_append_drop]

/-- An exponent is written with a sign in any case. -/
theorem spelledInt_signed (i : Int) :
    SpelledInt i ((if i < 0 then '-' else '+') :: natDigits i.natAbs) := by
  have signed : SpelledSign (i < 0) [if i < 0 then '-' else '+'] := by
    by_cases negative : i < 0
    · simpa [negative] using SpelledSign.minus
    · simpa [negative] using SpelledSign.plus
  exact spelledInt_natDigits signed

theorem exponentText_unsigned (before : Int) (negative : Bool) (nonempty : digits ≠ [])
    (decimal : ∀ c ∈ digits, c.isDigit) :
    ∃ n : Numeral, n.negative = negative ∧ n.Unsigned (exponentText digits before) ∧
      n.exponent = before - 1 ∧ n.digits = digits ∧
      ((n.fraction.getD []).length : Int) = digits.length - 1 := by
  let n : Numeral := ⟨negative, digits.take 1,
    if digits.length ≤ 1 then none else some (digits.drop 1), before - 1⟩
  have filled : 0 < digits.length := List.length_pos_iff.mpr nonempty
  have same : n.digits = digits := by
    by_cases single : digits.length ≤ 1
    · simp [n, Numeral.digits, single, List.take_of_length_le single]
    · simp only [n, Numeral.digits, if_neg single, Option.getD_some, List.take_append_drop]
  have text : exponentText digits before = ExactNumber.numeral n.whole n.fraction ++
      'e' :: (if before - 1 < 0 then '-' else '+') :: natDigits (before - 1).natAbs := by
    unfold exponentText ExactNumber.numeral
    by_cases single : digits.length ≤ 1 <;> simp [n, single]
  have places : ((n.fraction.getD []).length : Int) = digits.length - 1 := by
    by_cases single : digits.length ≤ 1
    · simp only [n, if_pos single, Option.getD_none, List.length_nil]
      omega
    · simp only [n, if_neg single, Option.getD_some, List.length_drop]
      omega
  refine ⟨n, rfl, ?_, rfl, same, places⟩
  rw [text]
  exact .intro (by rwa [same]) (by rwa [same]) (.marked (.inl rfl) (spelledInt_signed _))

/-- Digits set out in a layout are a numeral, which is worth the digits at their place in every
layout, and whose length depends on theirs and on where they stand. -/
theorem magnitudeText_unsigned (layout : Layout) (d : DecimalDigits) (negative : Bool) :
    ∃ n : Numeral, n.negative = negative ∧ n.Unsigned (layout.magnitudeText d) ∧
      n.exponent.natAbs + n.digits.length ≤
        d.exponent.natAbs + 2 * (natDigits d.digits).length + 2 ∧
      n.value = (if negative then -1 else 1) * d.digits * 10 ^ d.exponent := by
  have nonempty := natDigits_ne_nil d.digits
  have decimal : ∀ c ∈ natDigits d.digits, c.isDigit := fun _ => natDigits_isDigit
  unfold magnitudeText
  simp only
  split
  · obtain ⟨whole, fraction, text, filled, decimal, length, worth⟩ := positional_numeral layout
      (d.exponent + (natDigits d.digits).length) nonempty decimal
    refine ⟨⟨negative, whole, fraction, 0⟩, rfl, ?_, ?_, ?_⟩
    · rw [text]
      exact Numeral.Unsigned.plain decimal (by simp [Numeral.digits, filled]) rfl
    · simp only [Numeral.digits, List.length_append]
      omega
    · rw [natOfDigits_natDigits, add_sub_cancel_right] at worth
      rw [Numeral.value, mul_assoc, mul_assoc, ← worth, zero_sub]
      rfl
  · obtain ⟨n, sign, unsigned, exponent, digits, places⟩ := exponentText_unsigned
      (d.exponent + (natDigits d.digits).length) negative nonempty decimal
    refine ⟨n, sign, unsigned, ?_, ?_⟩
    · rw [exponent, digits]
      have filled := List.length_pos_iff.mpr nonempty
      omega
    · have place : n.exponent - (n.fraction.getD []).length = d.exponent := by
        rw [exponent, places]
        omega
      rw [Numeral.value, sign, digits, natOfDigits_natDigits, place]

end Layout

namespace Floating

/-- The number that the shortest digits of a finite number spell. -/
def shortestValue (tie : Tie) (f : Format) (negative : Bool) (rank : Nat) : ℚ :=
  (if negative then -1 else 1) * (shortestDigits tie f rank).digits *
    10 ^ (shortestDigits tie f rank).exponent

/-- The text of a finite number spells its shortest digits in every layout. -/
theorem text_spells (layout : Layout) {negative : Bool} {rank : Fin (f.infinityRank + 1)}
    (lt : rank.val < f.infinityRank) :
    ∃ n : Numeral, n.Spells ((Floating.number negative rank).text layout) ∧
      n.value = shortestValue layout.tie f negative rank.val ∧
      n.exponent.natAbs + n.digits.length ≤
        (shortestDigits layout.tie f rank.val).exponent.natAbs +
          2 * (natDigits (shortestDigits layout.tie f rank.val).digits).length + 2 := by
  obtain ⟨n, rfl, unsigned, length, worth⟩ :=
    layout.magnitudeText_unsigned (shortestDigits layout.tie f rank.val) negative
  have text : (Floating.number n.negative rank).text layout =
      String.ofList ((if n.negative then ['-'] else []) ++
        layout.magnitudeText (shortestDigits layout.tie f rank.val)) := by
    simp only [Floating.text, if_pos lt]
    cases n.negative <;> rfl
  exact ⟨n, text ▸ Numeral.spells_ofList unsigned, worth, length⟩

/-- The text of a finite number is an exact number, in every format of moderate width. -/
theorem text_readable (moderate : f.span < 2 ^ 58) (layout : Layout) {x : Floating f}
    (finite : x.isFinite) : (ExactNumber.read? (x.text layout)).isSome := by
  cases x with
  | nan => cases finite
  | number negative rank =>
    have lt : rank.val < f.infinityRank := by simpa [isFinite] using finite
    have within := shortestDigits_within layout.tie (Nat.le_of_lt lt)
    have short := length_natDigits_le (Nat.succ_pos _)
      (Nat.lt_of_le_of_lt within.digits_le (Nat.pow_lt_pow_right (by decide) (Nat.lt_succ_self _)))
    obtain ⟨n, spelled, -, length⟩ := text_spells layout lt
    refine ExactNumber.read?_isSome spelled ?_
    obtain ⟨_, least, greatest⟩ := within
    omega

end Floating

theorem Decimal.text_readable (d : Decimal) : (ExactNumber.read? d.text).isSome := by
  obtain ⟨n, spelled, -, unmarked, length⟩ := d.text_spells
  exact ExactNumber.read?_isSome spelled (by omega)

/-- Every value that a parameter of type `numeric` may have is an exact number. -/
theorem SqlType.numeric_readable {v : Value} (h : SqlType.numeric.admits v) :
    v.exactNumber?.isSome := by
  cases v with
  | decimal d => simpa [Value.exactNumber?, Value.numericText?] using d.text_readable
  | float32 x =>
    simp only [admits] at h
    simpa [Value.exactNumber?, Value.numericText?, h] using
      Floating.text_readable (f := .single) (by decide) .plain h
  | float64 x =>
    simp only [admits] at h
    simpa [Value.exactNumber?, Value.numericText?, h] using
      Floating.text_readable (f := .double) (by decide) .plain h
  | _ => cases h

end DocStore
