import DocStore.Proofs.Numeric.Readable

/-!
# Integers in decimal digits

What a list of digits is worth, and which texts spell an integer: a sign, which need not be there
before a number that is not negative, and digits.

* `natOfDigits_append`, `natOfDigits_natDigits`: the worth of digits;
* `SpelledInt`: the spellings of an integer;
* `readInt?_eq_some_iff`: they are what is read as that integer;
* `readIntIn?_intText`: an integer that is written is read again, where it is in range.
-/

namespace DocStore

open DocStore.Text

/-! ## Digits -/

theorem natFrom_eq (start : Nat) (digits : List Char) :
    natFrom start digits = Nat.ofDigitChars 10 digits start := by
  rw [Nat.ofDigitChars_eq_foldl, natFrom]
  simp only [Nat.mul_comm, digitValue]

theorem natOfDigits_append (a b : List Char) :
    natOfDigits (a ++ b) = natOfDigits a * 10 ^ b.length + natOfDigits b := by
  simp only [natOfDigits, natFrom_eq]
  rw [Nat.ofDigitChars_append, Nat.ofDigitChars_eq_ofDigitChars_zero, Nat.mul_comm]

theorem natOfDigits_singleton (c : Char) : natOfDigits [c] = digitValue c := by
  simp [natOfDigits, natFrom]

theorem natOfDigits_cons (c : Char) (rest : List Char) :
    natOfDigits (c :: rest) = digitValue c * 10 ^ rest.length + natOfDigits rest := by
  rw [← List.singleton_append, natOfDigits_append, natOfDigits_singleton]

theorem natOfDigits_zeros (n : Nat) : natOfDigits (List.replicate n '0') = 0 := by
  rw [natOfDigits, natFrom_eq, Nat.ofDigitChars_replicate_zero, Nat.mul_zero]

/-- The digits of a number are worth it. -/
theorem natOfDigits_natDigits (n : Nat) : natOfDigits (natDigits n) = n := by
  rw [natOfDigits, natFrom_eq]
  exact Nat.ofDigitChars_ten_toDigits

theorem digitValue_lt {c : Char} (digit : c.isDigit) : digitValue c < 10 := by
  obtain ⟨-, greatest⟩ := Char.isDigit_iff_toNat.mp digit
  simp only [digitValue]
  simp at greatest ⊢
  omega

theorem eq_zero_of_digitValue {c : Char} (digit : c.isDigit) (zero : digitValue c = 0) :
    c = '0' := by
  obtain ⟨least, -⟩ := Char.isDigit_iff_toNat.mp digit
  apply Char.toNat_inj.mp
  simp only [digitValue] at zero
  omega

/-! ## Spellings -/

/-- The spellings of a sign. -/
inductive SpelledSign : Bool → List Char → Prop
  | minus : SpelledSign true ['-']
  | plus : SpelledSign false ['+']
  | none : SpelledSign false []

/-- The spellings of an integer. -/
inductive SpelledInt : Int → List Char → Prop
  | negative {digits} (filled : digits ≠ []) (decimal : ∀ c ∈ digits, c.isDigit) :
      SpelledInt (-(natOfDigits digits : Int)) ('-' :: digits)
  | signed {digits} (filled : digits ≠ []) (decimal : ∀ c ∈ digits, c.isDigit) :
      SpelledInt (natOfDigits digits) ('+' :: digits)
  | plain {digits} (filled : digits ≠ []) (decimal : ∀ c ∈ digits, c.isDigit) :
      SpelledInt (natOfDigits digits) digits

theorem readNat?_eq_some_iff {cs : List Char} {n : Nat} :
    readNat? cs = some n ↔ cs ≠ [] ∧ (∀ c ∈ cs, c.isDigit) ∧ natOfDigits cs = n := by
  rw [readNat?, Option.ite_none_right_eq_some, List.all_eq_true, Option.some.injEq, and_assoc]

theorem not_isDigit_minus : ¬ ('-').isDigit := by decide

theorem not_isDigit_plus : ¬ ('+').isDigit := by decide

theorem readInt?_minus (cs : List Char) :
    readInt? ('-' :: cs) = (readNat? cs).map fun n : Nat => -(n : Int) := by
  simp only [readInt?]
  cases number : readNat? cs <;> rfl

/-- What is read as an integer are its spellings. -/
theorem readInt?_eq_some_iff {cs : List Char} {i : Int} :
    readInt? cs = some i ↔ SpelledInt i cs := by
  constructor
  · intro read
    by_cases minus : ∃ digits, cs = '-' :: digits
    · obtain ⟨digits, rfl⟩ := minus
      rw [readInt?_minus] at read
      obtain ⟨n, number, rfl⟩ := Option.map_eq_some_iff.mp read
      obtain ⟨filled, decimal, rfl⟩ := readNat?_eq_some_iff.mp number
      exact .negative filled decimal
    · unfold readInt? at read
      split at read
      · exact absurd ⟨_, rfl⟩ minus
      all_goals
        obtain ⟨n, number, rfl⟩ := Option.map_eq_some_iff.mp read
        obtain ⟨filled, decimal, rfl⟩ := readNat?_eq_some_iff.mp number
      · exact .signed filled decimal
      · exact .plain filled decimal
  · intro spelled
    cases spelled with
    | negative filled decimal =>
      rw [readInt?_minus]
      exact Option.map_eq_some_iff.mpr ⟨_, readNat?_eq_some_iff.mpr ⟨filled, decimal, rfl⟩, rfl⟩
    | signed filled decimal =>
      exact Option.map_eq_some_iff.mpr ⟨_, readNat?_eq_some_iff.mpr ⟨filled, decimal, rfl⟩, rfl⟩
    | plain filled decimal =>
      unfold readInt?
      split
      · exact absurd (decimal _ List.mem_cons_self) not_isDigit_minus
      · exact absurd (decimal _ List.mem_cons_self) not_isDigit_plus
      · exact Option.map_eq_some_iff.mpr ⟨_, readNat?_eq_some_iff.mpr ⟨filled, decimal, rfl⟩, rfl⟩

/-! ## Written integers -/

theorem IntRange.holds_iff {range : IntRange} {i : Int} :
    range.holds i ↔ range.least ≤ i ∧ i ≤ range.greatest := by
  rw [holds, Bool.and_eq_true, decide_eq_true_iff, decide_eq_true_iff]

theorem IntRange.signed16_holds (i : Int16) : IntRange.signed16.holds i.toInt :=
  holds_iff.mpr ⟨i.le_toInt, Int.le_of_lt_add_one i.toInt_lt⟩

theorem IntRange.signed32_holds (i : Int32) : IntRange.signed32.holds i.toInt :=
  holds_iff.mpr ⟨i.le_toInt, Int.le_of_lt_add_one i.toInt_lt⟩

theorem IntRange.signed64_holds (i : Int64) : IntRange.signed64.holds i.toInt :=
  holds_iff.mpr ⟨i.le_toInt, Int.le_of_lt_add_one i.toInt_lt⟩

theorem intText_toList (i : Int) :
    (intText i).toList = (if i < 0 then ['-'] else []) ++ natDigits i.natAbs := by
  unfold intText natText
  split <;> simp

/-- The sign that is written where it is needed. -/
theorem SpelledSign.needed (negative : Bool) :
    SpelledSign negative (if negative then ['-'] else []) := by
  cases negative
  · exact .none
  · exact .minus

/-- A sign of an integer and its digits spell it. -/
theorem spelledInt_natDigits {i : Int} {sign : List Char} (signed : SpelledSign (i < 0) sign) :
    SpelledInt i (sign ++ natDigits i.natAbs) := by
  have filled := natDigits_ne_nil i.natAbs
  have decimal : ∀ c ∈ natDigits i.natAbs, c.isDigit := fun _ => natDigits_isDigit
  have worth := natOfDigits_natDigits i.natAbs
  generalize below : decide (i < 0) = negative at signed
  cases signed with
  | minus =>
    have magnitude : -(i.natAbs : Int) = i := by
      have negative := of_decide_eq_true below
      omega
    have spelled := SpelledInt.negative filled decimal
    rwa [worth, magnitude] at spelled
  | plus =>
    have magnitude : (i.natAbs : Int) = i := by
      have positive := of_decide_eq_false below
      omega
    have spelled := SpelledInt.signed filled decimal
    rwa [worth, magnitude] at spelled
  | none =>
    have magnitude : (i.natAbs : Int) = i := by
      have positive := of_decide_eq_false below
      omega
    have spelled := SpelledInt.plain filled decimal
    rwa [worth, magnitude] at spelled

theorem spelledInt_intText (i : Int) : SpelledInt i (intText i).toList := by
  have spelled := spelledInt_natDigits (SpelledSign.needed (i < 0))
  simp only [decide_eq_true_eq] at spelled
  rwa [intText_toList]

/-- An integer that is written is read again. -/
theorem readIntIn?_intText {range : IntRange} {i : Int} (held : range.holds i) :
    readIntIn? range (intText i).toList = some i := by
  rw [readIntIn?, readInt?_eq_some_iff.mpr (spelledInt_intText i), Option.filter_some, if_pos held]

end DocStore
