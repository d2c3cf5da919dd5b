import DocStore.Numeric.Decimal
import DocStore.Proofs.Numeric.Spelling

/-!
# Integers and decimals as they are written

The text of an integer or of a decimal spells a numeral of moderate length that denotes it, so it is
read as an exact number of that value.

* `intText_spells`: what the text of an integer spells;
* `Decimal.rational`, `Decimal.numeral`: the number that a decimal is, and how it is written;
* `Decimal.text_spells`: what the text of a decimal spells.
-/

namespace DocStore

open DocStore.Text

namespace Numeral

variable {n : Numeral}

theorem Unsigned.plain (decimal : ∀ c ∈ n.digits, c.isDigit) (filled : n.digits ≠ [])
    (unmarked : n.exponent = 0) : n.Unsigned (ExactNumber.numeral n.whole n.fraction) := by
  rw [← List.append_nil (ExactNumber.numeral n.whole n.fraction)]
  exact .intro decimal filled (unmarked ▸ .none)

/-- A numeral without exponent denotes an integer, moved by the number of its places. -/
theorem value_plain {i : Int} {places : Nat} (unmarked : n.exponent = 0)
    (fraction : (n.fraction.getD []).length = places)
    (signed : (if n.negative then -(natOfDigits n.digits : Int) else natOfDigits n.digits) = i) :
    n.value = i / 10 ^ places := by
  rw [value, unmarked, fraction, zero_sub, zpow_neg, zpow_natCast, div_eq_mul_inv, ← signed]
  cases n.negative <;> simp

end Numeral

theorem intText_spells (i : Int) :
    ∃ n : Numeral, n.Spells (intText i) ∧ n.value = i ∧ n.exponent = 0 ∧
      n.digits = natDigits i.natAbs := by
  let n : Numeral := ⟨i < 0, natDigits i.natAbs, none, 0⟩
  have digits : n.digits = natDigits i.natAbs := List.append_nil _
  have unsigned : n.Unsigned (natDigits i.natAbs) := by
    have plain := Numeral.Unsigned.plain (n := n) (by rw [digits]; exact fun _ => natDigits_isDigit)
      (by rw [digits]; exact natDigits_ne_nil _) rfl
    rwa [ExactNumber.numeral, Option.map_none, Option.getD_none, List.append_nil] at plain
  have text :
      intText i = String.ofList ((if n.negative then ['-'] else []) ++ natDigits i.natAbs) := by
    rw [← String.toList_inj, intText_toList, String.toList_ofList]
    simp [n]
  have value : n.value = i / 10 ^ 0 := by
    apply Numeral.value_plain rfl rfl
    rw [digits, natOfDigits_natDigits]
    simp only [n, decide_eq_true_eq]
    split <;> omega
  refine ⟨n, text ▸ Numeral.spells_ofList unsigned, ?_, rfl, digits⟩
  rw [value, pow_zero, div_one]

namespace Decimal

variable (d : Decimal)

/-- The rational number that a decimal is. -/
def rational : ℚ := d.signed / 10 ^ d.scale

/-- The digits of a decimal, with zeros in front up to the first place before the point. -/
def padded : List Char :=
  List.replicate (d.scale + 1 - (natDigits d.coefficient).length) '0' ++ natDigits d.coefficient

/-- The numeral that a decimal is written as. -/
def numeral : Numeral where
  negative := d.negative
  whole := d.padded.take (d.padded.length - d.scale)
  fraction := if d.scale = 0 then none else some (d.padded.drop (d.padded.length - d.scale))
  exponent := 0

theorem length_padded : d.scale < d.padded.length ∧ d.padded.length ≤ 29 := by
  have few : (natDigits d.coefficient).length ≤ 29 :=
    length_natDigits_le (by decide) (Nat.lt_trans d.coefficient_lt (by decide))
  have places := d.scale_le
  rw [padded, List.length_append, List.length_replicate]
  omega

theorem isDigit_of_mem_padded {c : Char} (mem : c ∈ d.padded) : c.isDigit := by
  rcases List.mem_append.mp mem with zero | digit
  · rw [List.eq_of_mem_replicate zero]
    decide
  · exact natDigits_isDigit digit

theorem natOfDigits_padded : natOfDigits d.padded = d.coefficient := by
  rw [padded, natOfDigits_append, natOfDigits_zeros, natOfDigits_natDigits, Nat.zero_mul,
    Nat.zero_add]

theorem digits_numeral : d.numeral.digits = d.padded := by
  by_cases unscaled : d.scale = 0 <;> simp [numeral, Numeral.digits, unscaled]

theorem length_fraction_numeral : (d.numeral.fraction.getD []).length = d.scale := by
  have filled := d.length_padded
  by_cases unscaled : d.scale = 0
  · simp [numeral, unscaled]
  · simp only [numeral, if_neg unscaled, Option.getD_some, List.length_drop]
    omega

theorem text_eq : d.text = String.ofList ((if d.numeral.negative then ['-'] else []) ++
    ExactNumber.numeral d.numeral.whole d.numeral.fraction) := by
  unfold text ExactNumber.numeral
  simp only [numeral, padded, List.append_assoc]
  by_cases unscaled : d.scale = 0
  · rw [if_pos unscaled, if_pos unscaled]
    rfl
  · rw [if_neg unscaled, if_neg unscaled]
    rfl

theorem text_spells :
    ∃ n : Numeral, n.Spells d.text ∧ n.value = d.rational ∧ n.exponent = 0 ∧
      n.digits.length ≤ 29 := by
  obtain ⟨scaled, short⟩ := d.length_padded
  have decimal : ∀ c ∈ d.numeral.digits, c.isDigit := by
    rw [digits_numeral]
    exact fun _ => d.isDigit_of_mem_padded
  have filled : d.numeral.digits ≠ [] := by
    rw [digits_numeral, ← List.length_pos_iff]
    omega
  have unsigned := Numeral.Unsigned.plain decimal filled rfl
  have value : d.numeral.value = d.rational := by
    apply Numeral.value_plain rfl d.length_fraction_numeral
    rw [digits_numeral, natOfDigits_padded]
    rfl
  exact ⟨d.numeral, d.text_eq ▸ Numeral.spells_ofList unsigned, value, rfl,
    digits_numeral d ▸ short⟩

end Decimal

end DocStore
