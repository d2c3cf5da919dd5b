import DocStore.Numeric.Exact
import Mathlib.Algebra.Order.Field.Power
import Mathlib.Data.Rat.Cast.Order
import Mathlib.Order.Compare
import Mathlib.Tactic.FieldSimp
import Mathlib.Tactic.Linarith
import Mathlib.Tactic.Positivity
import Mathlib.Tactic.Ring

/-!
# The order of exact numbers

A normal form stands for a rational number, and no two normal forms for the same one.  Exponents and
then digits are compared, which is the order of the rational numbers, because a leading digit that
is not zero outweighs every smaller exponent and a last digit that is not zero tells a list of
digits from its beginnings.

* `ExactNumber.value`: the number that `0.d₁d₂… · 10 ^ exponent` is;
* `ExactNumber.Normal`: what makes a normal form;
* `ExactNumber.compareDigits_eq`, `ExactNumber.Normal.compareMagnitude_eq`: digits and magnitudes;
* `ExactNumber.Normal.order_eq`: the order of normal forms is that of their values;
* `ExactNumber.Normal.eq_of_value`: normal forms of one value are one.
-/

namespace DocStore.ExactNumber

/-! ## Values -/

/-- The number `0.d₁d₂…`. -/
def fractionOf : List Nat → ℚ
  | [] => 0
  | d :: rest => (d + fractionOf rest) / 10

def magnitude (x : ExactNumber) : ℚ := fractionOf x.digits * 10 ^ x.exponent

/-- The number that a normal form stands for. -/
def value (x : ExactNumber) : ℚ := if x.negative then -x.magnitude else x.magnitude

/-- Whether a number is in normal form. -/
structure Normal (x : ExactNumber) : Prop where
  digits_lt : ∀ d ∈ x.digits, d < 10
  head_ne_zero : x.digits.head? ≠ some 0
  last_ne_zero : x.digits.getLast? ≠ some 0
  eq_zero : x.digits = [] → x = zero

/-! ## Fractions -/

theorem last_ne_zero_of_cons {d : Nat} {rest : List Nat}
    (last : (d :: rest).getLast? ≠ some 0) : rest.getLast? ≠ some 0 := by
  intro zero
  rw [List.getLast?_cons, zero] at last
  exact last rfl

theorem fractionOf_nonneg (digits : List Nat) : 0 ≤ fractionOf digits := by
  induction digits with
  | nil => exact le_refl _
  | cons d rest ih => unfold fractionOf; positivity

theorem fractionOf_lt_one {digits : List Nat} (decimal : ∀ d ∈ digits, d < 10) :
    fractionOf digits < 1 := by
  induction digits with
  | nil => exact zero_lt_one
  | cons d rest ih =>
    obtain ⟨small, decimal⟩ := List.forall_mem_cons.mp decimal
    have digit : (d : ℚ) ≤ 9 := by exact_mod_cast Nat.le_of_lt_succ small
    have below := ih decimal
    unfold fractionOf
    linarith

theorem fractionOf_pos {digits : List Nat} (filled : digits ≠ [])
    (last : digits.getLast? ≠ some 0) : 0 < fractionOf digits := by
  induction digits with
  | nil => exact absurd rfl filled
  | cons d rest ih =>
    unfold fractionOf
    by_cases alone : rest = []
    · subst alone
      have positive : 0 < d := Nat.pos_of_ne_zero fun zero => last (by rw [zero]; rfl)
      have digit : (0 : ℚ) < d := by exact_mod_cast positive
      simp only [fractionOf]
      linarith
    · have positive := ih alone (last_ne_zero_of_cons last)
      positivity

/-- A fraction with a leading digit is at least a tenth. -/
theorem le_fractionOf {digits : List Nat} (filled : digits ≠ [])
    (head : digits.head? ≠ some 0) : 1 / 10 ≤ fractionOf digits := by
  cases digits with
  | nil => exact absurd rfl filled
  | cons d rest =>
    have positive : 1 ≤ d := Nat.one_le_iff_ne_zero.mpr fun zero => head (by rw [zero]; rfl)
    have digit : (1 : ℚ) ≤ d := by exact_mod_cast positive
    have rest_nonneg := fractionOf_nonneg rest
    unfold fractionOf
    linarith

/-- The first digits decide, unless they are equal. -/
theorem fractionOf_cons_lt {a b : Nat} {as bs : List Nat} (less : a < b)
    (decimal : ∀ d ∈ as, d < 10) : fractionOf (a :: as) < fractionOf (b :: bs) := by
  have digit : (a : ℚ) + 1 ≤ b := by exact_mod_cast less
  have below := fractionOf_lt_one decimal
  have above := fractionOf_nonneg bs
  simp only [fractionOf]
  linarith

/-- Lists of digits without zeros at their ends are ordered as their fractions are. -/
theorem compareDigits_eq {as bs : List Nat} (ha : ∀ d ∈ as, d < 10) (hb : ∀ d ∈ bs, d < 10)
    (la : as.getLast? ≠ some 0) (lb : bs.getLast? ≠ some 0) :
    compareDigits as bs = compare (fractionOf as) (fractionOf bs) := by
  induction as, bs using compareDigits.induct with
  | case1 => simp [compareDigits]
  | case2 b bs =>
    have positive := fractionOf_pos (List.cons_ne_nil b bs) lb
    exact (compare_lt_iff_lt.mpr positive).symm
  | case3 a as =>
    have positive := fractionOf_pos (List.cons_ne_nil a as) la
    exact (compare_gt_iff_gt.mpr positive).symm
  | case4 a as b bs ih =>
    obtain ⟨-, restA⟩ := List.forall_mem_cons.mp ha
    obtain ⟨-, restB⟩ := List.forall_mem_cons.mp hb
    have rest := ih restA restB (last_ne_zero_of_cons la) (last_ne_zero_of_cons lb)
    rw [compareDigits, rest]
    rcases lt_trichotomy a b with less | rfl | greater
    · rw [compare_lt_iff_lt.mpr less, compare_lt_iff_lt.mpr (fractionOf_cons_lt less restA)]
      rfl
    · have mono : StrictMono fun f : ℚ => ((a : ℚ) + f) / 10 := by
        intro f g less
        simp only
        linarith
      rw [compare_eq_iff_eq.mpr rfl, ← cmp_eq_compare, ← cmp_eq_compare]
      exact (mono.cmp_map_eq (fractionOf as) (fractionOf bs)).symm
    · rw [compare_gt_iff_gt.mpr greater, compare_gt_iff_gt.mpr (fractionOf_cons_lt greater restB)]
      rfl

theorem eq_of_compareDigits {as bs : List Nat} (same : compareDigits as bs = .eq) : as = bs := by
  induction as, bs using compareDigits.induct with
  | case1 => rfl
  | case2 b bs => cases same
  | case3 a as => cases same
  | case4 a as b bs ih =>
    obtain ⟨first, rest⟩ := Ordering.then_eq_eq.mp same
    rw [compare_eq_iff_eq.mp first, ih rest]

/-! ## Normal forms -/

theorem normal_zero : zero.Normal := ⟨by simp [zero], by simp [zero], by simp [zero], fun _ => rfl⟩

theorem value_zero : zero.value = 0 := by simp [value, magnitude, zero, fractionOf]

namespace Normal

variable {x y : ExactNumber}

theorem magnitude_pos (hx : x.Normal) (filled : x.digits ≠ []) : 0 < x.magnitude := by
  have positive := fractionOf_pos filled hx.last_ne_zero
  unfold magnitude
  positivity

/-- A number is zero or has a sign. -/
theorem cases (hx : x.Normal) :
    x = zero ∨ x.digits ≠ [] ∧
      (x.negative = false ∧ x.sign = 1 ∧ x.value = x.magnitude ∨
        x.negative = true ∧ x.sign = -1 ∧ x.value = -x.magnitude) := by
  by_cases empty : x.digits = []
  · exact .inl (hx.eq_zero empty)
  · refine .inr ⟨empty, ?_⟩
    cases negative : x.negative <;> simp [sign, value, negative, empty]

/-- A smaller exponent makes a smaller magnitude. -/
theorem magnitude_lt (hx : x.Normal) (hy : y.Normal) (filled : y.digits ≠ [])
    (less : x.exponent < y.exponent) : x.magnitude < y.magnitude := by
  have ten : (10 : ℚ) ≠ 0 := by norm_num
  calc x.magnitude
      < 1 * 10 ^ x.exponent :=
        mul_lt_mul_of_pos_right (fractionOf_lt_one hx.digits_lt) (by positivity)
    _ ≤ 1 * 10 ^ (y.exponent - 1) :=
        mul_le_mul_of_nonneg_left (zpow_le_zpow_right₀ (by norm_num) (by omega)) zero_le_one
    _ = 1 / 10 * 10 ^ y.exponent := by rw [zpow_sub_one₀ ten]; ring
    _ ≤ y.magnitude :=
        mul_le_mul_of_nonneg_right (le_fractionOf filled hy.head_ne_zero) (by positivity)

theorem compareMagnitude_eq (hx : x.Normal) (hy : y.Normal) (filledX : x.digits ≠ [])
    (filledY : y.digits ≠ []) : compareMagnitude x y = compare x.magnitude y.magnitude := by
  unfold compareMagnitude
  rcases lt_trichotomy x.exponent y.exponent with less | same | greater
  · rw [compare_lt_iff_lt.mpr less, compare_lt_iff_lt.mpr (hx.magnitude_lt hy filledY less)]
    rfl
  · have mono : StrictMono fun f : ℚ => f * 10 ^ y.exponent :=
      fun f g less => mul_lt_mul_of_pos_right less (by positivity)
    rw [same, compare_eq_iff_eq.mpr rfl,
      compareDigits_eq hx.digits_lt hy.digits_lt hx.last_ne_zero hy.last_ne_zero, magnitude,
      magnitude, same, ← cmp_eq_compare, ← cmp_eq_compare]
    exact (mono.cmp_map_eq (fractionOf x.digits) (fractionOf y.digits)).symm
  · rw [compare_gt_iff_gt.mpr greater, compare_gt_iff_gt.mpr (hy.magnitude_lt hx filledX greater)]
    rfl

/-- Of negative numbers the one of the greater magnitude is less. -/
theorem compareMagnitude_swap (hx : x.Normal) (hy : y.Normal) (filledX : x.digits ≠ [])
    (filledY : y.digits ≠ []) :
    (compareMagnitude x y).swap = compare (-x.magnitude) (-y.magnitude) := by
  have anti : StrictAnti fun q : ℚ => -q := fun _ _ less => neg_lt_neg less
  rw [hx.compareMagnitude_eq hy filledX filledY, ← Std.OrientedOrd.eq_swap, ← cmp_eq_compare,
    ← cmp_eq_compare]
  exact (anti.cmp_map_eq x.magnitude y.magnitude).symm

theorem sign_value (hx : x.Normal) :
    x.sign = 0 ∧ x.value = 0 ∨ x.sign = 1 ∧ 0 < x.value ∨ x.sign = -1 ∧ x.value < 0 := by
  rcases hx.cases with rfl | ⟨filled, ⟨-, sign, value⟩ | ⟨-, sign, value⟩⟩
  · exact .inl ⟨rfl, value_zero⟩
  · exact .inr (.inl ⟨sign, value ▸ hx.magnitude_pos filled⟩)
  · exact .inr (.inr ⟨sign, value ▸ neg_lt_zero.mpr (hx.magnitude_pos filled)⟩)

theorem value_lt_of_sign (hx : x.Normal) (hy : y.Normal) (less : x.sign < y.sign) :
    x.value < y.value := by
  rcases hx.sign_value with ⟨signX, valueX⟩ | ⟨signX, valueX⟩ | ⟨signX, valueX⟩ <;>
    rcases hy.sign_value with ⟨signY, valueY⟩ | ⟨signY, valueY⟩ | ⟨signY, valueY⟩ <;>
    first | omega | linarith

/-- The order of normal forms is that of the numbers they stand for. -/
theorem order_eq (hx : x.Normal) (hy : y.Normal) : x.order y = compare x.value y.value := by
  unfold order
  rcases lt_trichotomy x.sign y.sign with less | same | greater
  · rw [compare_lt_iff_lt.mpr less, compare_lt_iff_lt.mpr (hx.value_lt_of_sign hy less)]
  · rw [compare_eq_iff_eq.mpr same]
    rcases hx.cases with rfl | ⟨filledX, ⟨-, signX, valueX⟩ | ⟨-, signX, valueX⟩⟩ <;>
      rcases hy.cases with rfl | ⟨filledY, ⟨-, signY, valueY⟩ | ⟨-, signY, valueY⟩⟩
    case inl.inl => exact (compare_eq_iff_eq.mpr rfl).symm
    case inr.inl.inr.inl =>
      simp [signX, valueX, valueY, hx.compareMagnitude_eq hy filledX filledY]
    case inr.inr.inr.inr =>
      simp [signX, valueX, valueY, hx.compareMagnitude_swap hy filledX filledY]
    all_goals
      have signOfZero : zero.sign = 0 := rfl
      omega
  · rw [compare_gt_iff_gt.mpr greater, compare_gt_iff_gt.mpr (hy.value_lt_of_sign hx greater)]

theorem eq_of_magnitude (hx : x.Normal) (hy : y.Normal) (filledX : x.digits ≠ [])
    (filledY : y.digits ≠ []) (negative : x.negative = y.negative)
    (same : x.magnitude = y.magnitude) : x = y := by
  have equal : compareMagnitude x y = .eq := by
    rw [hx.compareMagnitude_eq hy filledX filledY, compare_eq_iff_eq.mpr same]
  obtain ⟨exponent, digits⟩ := Ordering.then_eq_eq.mp equal
  rw [ExactNumber.mk.injEq]
  exact ⟨negative, eq_of_compareDigits digits, compare_eq_iff_eq.mp exponent⟩

/-- Normal forms of one number are one. -/
theorem eq_of_value (hx : x.Normal) (hy : y.Normal) (same : x.value = y.value) : x = y := by
  have sign : x.sign = y.sign := by
    rcases lt_trichotomy x.sign y.sign with less | sign | greater
    · exact absurd same (hx.value_lt_of_sign hy less).ne
    · exact sign
    · exact absurd same (hy.value_lt_of_sign hx greater).ne'
  have signOfZero : zero.sign = 0 := rfl
  rcases hx.cases with rfl | ⟨filledX, ⟨negX, signX, valueX⟩ | ⟨negX, signX, valueX⟩⟩ <;>
    rcases hy.cases with rfl | ⟨filledY, ⟨negY, signY, valueY⟩ | ⟨negY, signY, valueY⟩⟩
  case inl.inl => rfl
  case inr.inl.inr.inl =>
    rw [valueX, valueY] at same
    exact hx.eq_of_magnitude hy filledX filledY (negX.trans negY.symm) same
  case inr.inr.inr.inr =>
    rw [valueX, valueY, neg_inj] at same
    exact hx.eq_of_magnitude hy filledX filledY (negX.trans negY.symm) same
  all_goals omega

end Normal

end DocStore.ExactNumber
