import DocStore.Proofs.Numeric.Integer
import DocStore.Proofs.Numeric.Order
import Mathlib.Data.List.DropRight

/-!
# Exact numbers and their spellings

A text between blanks spells a numeral: a sign, digits around a point and a power of ten.  A numeral
denotes a rational number, and what is read from the text is the normal form of that number.  So
texts are read as one number where they denote one, and the order of what is read is the order of
what is denoted, however long the texts are.

* `Numeral`, `Numeral.value`: a numeral and the number it denotes;
* `Numeral.Spells`, `Denotes`: the texts that spell it, and the numbers that a text denotes;
* `ExactNumber.read?_eq_some_iff`: a text is read as the normal form of a numeral it spells;
* `ExactNumber.order_of_denoted`: the order of two texts that are read.
-/

namespace DocStore

open DocStore.Text

/-! ## Numerals -/

/-- A decimal number as it is spelled: a sign, digits before and after a point, and an exponent. -/
structure Numeral where
  negative : Bool
  whole : List Char
  fraction : Option (List Char)
  exponent : Int

/-- The spellings of an exponent, which need not be there if it is zero. -/
inductive SpelledExponent : Int → List Char → Prop
  | none : SpelledExponent 0 []
  | marked {mark i text} (known : mark = 'e' ∨ mark = 'E') (spelled : SpelledInt i text) :
      SpelledExponent i (mark :: text)

namespace Numeral

/-- The digits on both sides of the point. -/
def digits (n : Numeral) : List Char := n.whole ++ n.fraction.getD []

/-- The rational number that a numeral denotes. -/
def value (n : Numeral) : ℚ :=
  (if n.negative then -1 else 1) * natOfDigits n.digits *
    10 ^ (n.exponent - (n.fraction.getD []).length)

/-- A numeral written out without its sign. -/
inductive Unsigned (n : Numeral) : List Char → Prop
  | intro {power} (decimal : ∀ c ∈ n.digits, c.isDigit) (filled : n.digits ≠ [])
      (powered : SpelledExponent n.exponent power) :
      Unsigned n (ExactNumber.numeral n.whole n.fraction ++ power)

/-- A text that spells a numeral: a sign and the rest of it, between blanks. -/
inductive Spells (n : Numeral) (s : String) : Prop
  | intro (before after : List Char) {sign body} (blankBefore : ∀ c ∈ before, isBlank c)
      (signed : SpelledSign n.negative sign) (unsigned : n.Unsigned body)
      (blankAfter : ∀ c ∈ after, isBlank c) (text : s.toList = before ++ (sign ++ body) ++ after) :
      Spells n s

/-- The normal form of a numeral, if the exponents are in range. -/
def normalized? (n : Numeral) : Option ExactNumber :=
  if IntRange.signed64.holds n.exponent then
    ExactNumber.ofParts? n.negative n.whole (n.fraction.getD []) n.exponent
  else none

end Numeral

/-- A rational number that a text denotes. -/
def Denotes (s : String) (q : ℚ) : Prop := ∃ n : Numeral, n.Spells s ∧ n.value = q

/-! ## Zeros at the ends of digits -/

/-- How many zeros digits start with. -/
def leadingZeros (cs : List Char) : Nat := (cs.takeWhile (· = '0')).length

/-- Digits without the zeros at both ends. -/
def significant (cs : List Char) : List Char :=
  ((cs.dropWhile (· = '0')).reverse.dropWhile (· = '0')).reverse

theorem takeWhile_zero (cs : List Char) :
    cs.takeWhile (· = '0') = List.replicate (cs.takeWhile (· = '0')).length '0' :=
  List.eq_replicate_of_mem fun c hc => by simpa using List.mem_takeWhile_imp hc

theorem zeros_significant (cs : List Char) :
    ∃ trailing, cs = List.replicate (leadingZeros cs) '0' ++ significant cs ++
      List.replicate trailing '0' := by
  refine ⟨((cs.dropWhile (· = '0')).reverse.takeWhile (· = '0')).length, ?_⟩
  rw [leadingZeros, significant, ← takeWhile_zero, ← List.reverse_replicate, ← takeWhile_zero,
    List.append_assoc, ← List.reverse_append, List.takeWhile_append_dropWhile,
    List.reverse_reverse, List.takeWhile_append_dropWhile]

theorem head?_significant (cs : List Char) : (significant cs).head? ≠ some '0' := by
  intro zero
  obtain ⟨rest, split⟩ := List.rdropWhile_prefix (l := cs.dropWhile (· = '0')) (· = '0')
  have head := List.head?_dropWhile_not (· = '0') cs
  rw [← split, List.head?_append, List.rdropWhile, ← significant, zero] at head
  simp at head

theorem getLast?_significant (cs : List Char) : (significant cs).getLast? ≠ some '0' := by
  intro zero
  have head := List.head?_dropWhile_not (· = '0') (cs.dropWhile (· = '0')).reverse
  rw [significant, List.getLast?_reverse] at zero
  rw [zero] at head
  simp at head

theorem mem_of_mem_significant {cs : List Char} {c : Char} (kept : c ∈ significant cs) : c ∈ cs :=
  (List.dropWhile_sublist _).mem
    (List.mem_reverse.mp ((List.dropWhile_sublist _).mem (List.mem_reverse.mp kept)))

theorem eq_zero_of_map {o : Option Char} (digit : ∀ c ∈ o, c.isDigit)
    (zero : o.map digitValue = some 0) : o = some '0' := by
  obtain ⟨c, rfl, value⟩ := Option.map_eq_some_iff.mp zero
  rw [eq_zero_of_digitValue (digit c rfl) value]

/-! ## The number that a normal form stands for -/

theorem fractionOf_digitValues (cs : List Char) :
    ExactNumber.fractionOf (cs.map digitValue) = natOfDigits cs / 10 ^ cs.length := by
  induction cs with
  | nil => simp [ExactNumber.fractionOf, natOfDigits, natFrom]
  | cons c rest ih =>
    rw [List.map_cons, ExactNumber.fractionOf, ih, natOfDigits_cons, List.length_cons, pow_succ]
    push_cast
    field_simp

namespace Numeral

variable {n : Numeral} {x : ExactNumber}

/-- Zeros at the ends of the digits only move the point. -/
theorem value_of_split {leading trailing : Nat} {kept : List Char}
    (split : n.digits = List.replicate leading '0' ++ kept ++ List.replicate trailing '0') :
    n.value = (if n.negative then -1 else 1) *
      (ExactNumber.fractionOf (kept.map digitValue) *
        10 ^ (n.exponent + n.whole.length - leading)) := by
  have ten : (10 : ℚ) ≠ 0 := by norm_num
  have worth : natOfDigits n.digits = natOfDigits kept * 10 ^ trailing := by
    rw [split, natOfDigits_append, natOfDigits_append, natOfDigits_zeros, natOfDigits_zeros,
      List.length_replicate]
    ring
  have places : n.exponent + n.whole.length - leading =
      n.exponent - (n.fraction.getD []).length + (kept.length : Int) + (trailing : Int) := by
    have lengths := congrArg List.length split
    simp only [digits, List.length_append, List.length_replicate] at lengths
    omega
  rw [value, worth, fractionOf_digitValues, places, zpow_add₀ ten, zpow_add₀ ten, zpow_natCast,
    zpow_natCast]
  push_cast
  field_simp

theorem normalized?_eq (n : Numeral) : n.normalized? =
    if IntRange.signed64.holds n.exponent then
      if (significant n.digits).isEmpty then some ExactNumber.zero
      else do
        let grown ← ExactNumber.inRange? (n.exponent + n.whole.length)
        let exponent ← ExactNumber.inRange? (grown - leadingZeros n.digits)
        return ⟨n.negative, (significant n.digits).map digitValue, exponent⟩
    else none :=
  rfl

/-- What a normal form consists of. -/
theorem normalized?_eq_some (read : n.normalized? = some x) :
    significant n.digits = [] ∧ x = ExactNumber.zero ∨ significant n.digits ≠ [] ∧
      x = ⟨n.negative, (significant n.digits).map digitValue,
        n.exponent + n.whole.length - leadingZeros n.digits⟩ := by
  rw [normalized?_eq, Option.ite_none_right_eq_some] at read
  obtain ⟨-, read⟩ := read
  by_cases zero : significant n.digits = []
  · rw [zero] at read
    exact .inl ⟨zero, (Option.some.inj read).symm⟩
  · rw [if_neg (by simpa using zero)] at read
    simp only [Option.bind_eq_bind, Option.bind_eq_some_iff, ExactNumber.inRange?,
      Option.ite_none_right_eq_some, Option.pure_def, Option.some.injEq] at read
    obtain ⟨grown, ⟨-, rfl⟩, exponent, ⟨-, rfl⟩, rfl⟩ := read
    exact .inr ⟨zero, rfl⟩

/-- A numeral of moderate length and exponent has a normal form. -/
theorem normalized?_isSome (moderate : n.exponent.natAbs + n.digits.length < 0x4000000000000000) :
    n.normalized?.isSome := by
  have leading : leadingZeros n.digits ≤ n.digits.length := (List.takeWhile_sublist _).length_le
  have whole : n.whole.length ≤ n.digits.length := by
    rw [digits, List.length_append]
    exact Nat.le_add_right ..
  have inRange {i : Int} (near : i.natAbs ≤ n.exponent.natAbs + 2 * n.digits.length) :
      IntRange.signed64.holds i := by
    rw [IntRange.holds_iff]
    simp only [IntRange.signed64]
    omega
  rw [normalized?_eq, if_pos (inRange (by omega))]
  split
  · rfl
  · simp only [ExactNumber.inRange?, Option.bind_eq_bind]
    rw [if_pos (inRange (by omega)), Option.bind_some, if_pos (inRange (by omega))]
    rfl

/-- The normal form of a numeral is one, and stands for the number that the numeral denotes. -/
theorem normalized?_value (decimal : ∀ c ∈ n.digits, c.isDigit) (read : n.normalized? = some x) :
    x.Normal ∧ x.value = n.value := by
  obtain ⟨trailing, split⟩ := zeros_significant n.digits
  rw [value_of_split split]
  rcases normalized?_eq_some read with ⟨zero, rfl⟩ | ⟨filled, rfl⟩
  · rw [zero]
    exact ⟨ExactNumber.normal_zero, by simp [ExactNumber.value_zero, ExactNumber.fractionOf]⟩
  · have digit : ∀ c ∈ significant n.digits, c.isDigit :=
      fun c kept => decimal c (mem_of_mem_significant kept)
    refine ⟨⟨?_, ?_, ?_, ?_⟩, ?_⟩
    · intro d hd
      obtain ⟨c, kept, rfl⟩ := List.mem_map.mp hd
      exact digitValue_lt (digit c kept)
    · rw [List.head?_map]
      exact fun zero => head?_significant n.digits
        (eq_zero_of_map (fun c head => digit c (List.mem_of_mem_head? head)) zero)
    · rw [List.getLast?_map]
      exact fun zero => getLast?_significant n.digits
        (eq_zero_of_map (fun c last => digit c (List.mem_of_mem_getLast? last)) zero)
    · intro empty
      exact absurd (List.map_eq_nil_iff.mp empty) filled
    · unfold ExactNumber.value ExactNumber.magnitude
      cases n.negative <;> simp

end Numeral

/-- A numeral written without blanks, with a sign if it is negative. -/
theorem Numeral.spells_ofList {n : Numeral} {body : List Char} (unsigned : n.Unsigned body) :
    n.Spells (String.ofList ((if n.negative then ['-'] else []) ++ body)) := by
  refine .intro [] [] (by simp) (.needed n.negative) unsigned (by simp) ?_
  rw [String.toList_ofList, List.nil_append, List.append_nil]

/-! ## Reading -/

namespace ExactNumber

variable {n : Numeral} {negative : Bool} {whole body : List Char} {fraction : Option (List Char)}
  {shift : Int} {x : ExactNumber}

/-- Digits around a point, moved by a power of ten. -/
def ofMantissa? (negative : Bool) (mantissa : List Char) (shift : Int) : Option ExactNumber :=
  let halves := (splitFirst (· = '.') mantissa).getD (mantissa, [])
  if halves.1.isEmpty && halves.2.isEmpty then none
  else if (halves.1 ++ halves.2).all Char.isDigit then ofParts? negative halves.1 halves.2 shift
  else none

theorem readMagnitude?_eq (negative : Bool) (body : List Char) :
    readMagnitude? negative body =
      match splitFirst (fun c => c = 'e' || c = 'E') body with
      | some halves =>
        (readIntIn? .signed64 halves.2).bind fun shift => ofMantissa? negative halves.1 shift
      | none => ofMantissa? negative body 0 := by
  unfold readMagnitude?
  cases splitFirst (fun c => c = 'e' || c = 'E') body with
  | none => rfl
  | some halves => exact Option.bind_map

theorem ofMantissa?_numeral (decimal : ∀ c ∈ whole ++ fraction.getD [], c.isDigit)
    (filled : whole ++ fraction.getD [] ≠ []) :
    ofMantissa? negative (numeral whole fraction) shift =
      ofParts? negative whole (fraction.getD []) shift := by
  have notEmpty : (whole.isEmpty && (fraction.getD []).isEmpty) = false := by
    rw [← Bool.not_eq_true, Bool.and_eq_true, List.isEmpty_iff, List.isEmpty_iff]
    exact fun empty => filled (List.append_eq_nil_iff.mpr empty)
  have allDigits : (whole ++ fraction.getD []).all Char.isDigit = true :=
    List.all_eq_true.mpr decimal
  simp only [ofMantissa?, splitFirst_numeral decimal, notEmpty, allDigits, Bool.false_eq_true,
    if_false, if_true]

theorem numeral_of_ofMantissa? {mantissa : List Char}
    (read : ofMantissa? negative mantissa shift = some x) :
    ∃ whole fraction, mantissa = numeral whole fraction ∧
      (∀ c ∈ whole ++ fraction.getD [], c.isDigit) ∧ whole ++ fraction.getD [] ≠ [] := by
  have halves : ∃ whole fraction, mantissa = numeral whole fraction ∧
      (splitFirst (· = '.') mantissa).getD (mantissa, []) = (whole, fraction.getD []) := by
    cases split : splitFirst (· = '.') mantissa with
    | none => exact ⟨mantissa, none, by simp [numeral], rfl⟩
    | some halves =>
      obtain ⟨c, point, -, rfl⟩ := splitFirst_eq_some split
      exact ⟨halves.1, some halves.2, by simpa [numeral] using point, rfl⟩
  obtain ⟨whole, fraction, spelled, halves⟩ := halves
  simp only [ofMantissa?, halves] at read
  split at read
  · cases read
  · rename_i notEmpty
    split at read
    · rename_i allDigits
      refine ⟨whole, fraction, spelled, List.all_eq_true.mp allDigits, fun empty => ?_⟩
      obtain ⟨noWhole, noFraction⟩ := List.append_eq_nil_iff.mp empty
      exact notEmpty (by rw [noWhole, noFraction]; rfl)
    · cases read

/-- What is read without a sign is the normal form of a numeral written there. -/
theorem readMagnitude?_unsigned (unsigned : n.Unsigned body) :
    readMagnitude? n.negative body = n.normalized? := by
  obtain ⟨decimal, filled, powered⟩ := unsigned
  have noMark : ∀ c ∈ numeral n.whole n.fraction,
      (decide (c = 'e') || decide (c = 'E')) = false := by
    intro c hc
    rcases mem_numeral decimal hc with digit | rfl
    · rw [Bool.or_eq_false_iff, decide_eq_false_iff_not, decide_eq_false_iff_not]
      constructor <;> rintro rfl <;> exact absurd digit (by decide)
    · rfl
  rw [readMagnitude?_eq, Numeral.normalized?]
  generalize n.exponent = exponent at powered
  cases powered with
  | none =>
    rw [List.append_nil, splitFirst_eq_none noMark, if_pos (by decide)]
    exact ofMantissa?_numeral decimal filled
  | marked known spelled =>
    rw [splitFirst_append noMark (by simpa using known)]
    simp only [readIntIn?, readInt?_eq_some_iff.mpr spelled, Option.filter_some]
    split
    · exact ofMantissa?_numeral decimal filled
    · rfl

/-- What is read without a sign is a numeral. -/
theorem unsigned_of_readMagnitude? (read : readMagnitude? negative body = some x) :
    ∃ n : Numeral, n.negative = negative ∧ n.Unsigned body := by
  rw [readMagnitude?_eq] at read
  cases split : splitFirst (fun c => c = 'e' || c = 'E') body with
  | none =>
    rw [split] at read
    obtain ⟨whole, fraction, rfl, decimal, filled⟩ := numeral_of_ofMantissa? read
    refine ⟨⟨negative, whole, fraction, 0⟩, rfl, ?_⟩
    rw [← List.append_nil (numeral whole fraction)]
    exact .intro decimal filled .none
  | some halves =>
    rw [split] at read
    obtain ⟨shift, number, read⟩ := Option.bind_eq_some_iff.mp read
    obtain ⟨whole, fraction, spelled, decimal, filled⟩ := numeral_of_ofMantissa? read
    obtain ⟨c, mark, -, rfl⟩ := splitFirst_eq_some split
    obtain ⟨digits, -⟩ := Option.filter_eq_some_iff.mp number
    rw [spelled]
    exact ⟨⟨negative, whole, fraction, shift⟩, rfl,
      .intro decimal filled (.marked (by simpa using mark) (readInt?_eq_some_iff.mp digits))⟩

/-! ## Texts -/

/-- A sign is read, or there is none. -/
theorem readChars?_eq (cs : List Char) :
    ∃ negative sign body, SpelledSign negative sign ∧ cs = sign ++ body ∧
      readChars? cs = readMagnitude? negative body := by
  unfold readChars?
  split
  · exact ⟨true, _, _, .minus, rfl, rfl⟩
  · exact ⟨false, _, _, .plus, rfl, rfl⟩
  · exact ⟨false, _, cs, .none, rfl, rfl⟩

theorem exists_cons_of_unsigned (unsigned : n.Unsigned body) :
    ∃ c rest, body = c :: rest ∧ (c.isDigit ∨ c = '.') := by
  obtain ⟨decimal, filled, -⟩ := unsigned
  cases written : numeral n.whole n.fraction with
  | nil =>
    obtain ⟨noWhole, noFraction⟩ := List.append_eq_nil_iff.mp written
    cases fraction : n.fraction with
    | none => exact absurd (by rw [Numeral.digits, noWhole, fraction]; rfl) filled
    | some f => rw [fraction] at noFraction; cases noFraction
  | cons c rest => exact ⟨c, _, rfl, mem_numeral decimal (written ▸ List.mem_cons_self)⟩

theorem readChars?_signed {sign : List Char} (signed : SpelledSign negative sign)
    (unsigned : n.Unsigned body) : readChars? (sign ++ body) = readMagnitude? negative body := by
  cases signed with
  | minus => rfl
  | plus => rfl
  | none =>
    obtain ⟨c, rest, rfl, first⟩ := exists_cons_of_unsigned unsigned
    unfold readChars?
    split
    case h_3 => rfl
    all_goals
      rename_i same
      obtain ⟨rfl, -⟩ := List.cons.inj same
      rcases first with digit | point
      · exact absurd digit (by decide)
      · exact absurd point (by decide)

theorem visible_of_spelledSign {sign : List Char} (signed : SpelledSign negative sign) :
    ∀ c ∈ sign, isBlank c = false := by
  intro c hc
  cases signed with
  | none => cases hc
  | minus | plus =>
    rw [List.mem_singleton.mp hc]
    exact isBlank_of_printable (by decide) (by decide)

theorem visible_of_spelledInt {i : Int} {cs : List Char} (spelled : SpelledInt i cs) :
    ∀ c ∈ cs, isBlank c = false := by
  have digits {cs : List Char} (decimal : ∀ c ∈ cs, c.isDigit) : ∀ c ∈ cs, isBlank c = false :=
    fun c hc => isBlank_of_isDigit (decimal c hc)
  cases spelled with
  | negative filled decimal => exact List.forall_mem_cons.mpr ⟨by decide, digits decimal⟩
  | signed filled decimal => exact List.forall_mem_cons.mpr ⟨by decide, digits decimal⟩
  | plain filled decimal => exact digits decimal

theorem visible_of_spelledExponent {i : Int} {cs : List Char} (powered : SpelledExponent i cs) :
    ∀ c ∈ cs, isBlank c = false := by
  cases powered with
  | none => simp
  | marked known spelled =>
    refine List.forall_mem_cons.mpr ⟨?_, visible_of_spelledInt spelled⟩
    rcases known with rfl | rfl <;> decide

theorem visible_of_unsigned (unsigned : n.Unsigned body) : ∀ c ∈ body, isBlank c = false := by
  obtain ⟨decimal, -, powered⟩ := unsigned
  intro c hc
  rcases List.mem_append.mp hc with hc | hc
  · rcases mem_numeral decimal hc with digit | rfl
    · exact isBlank_of_isDigit digit
    · decide
  · exact visible_of_spelledExponent powered c hc

variable {s : String} {q : ℚ}

/-- A text that spells a numeral is read as its normal form. -/
theorem read?_spelled (spelled : n.Spells s) : read? s = n.normalized? := by
  obtain @⟨before, after, sign, body, blankBefore, signed, unsigned, blankAfter, text⟩ := spelled
  obtain ⟨c, rest, cons, -⟩ := exists_cons_of_unsigned unsigned
  have inner : trimmed s = sign ++ body := by
    refine trimmed_spaced text (by simp [cons]) blankBefore ?_ blankAfter
    intro c hc
    rcases List.mem_append.mp hc with hc | hc
    · exact visible_of_spelledSign signed c hc
    · exact visible_of_unsigned unsigned c hc
  rw [read?, inner, readChars?_signed signed unsigned, readMagnitude?_unsigned unsigned]

theorem spells_of_read? (read : read? s = some x) : ∃ n : Numeral, n.Spells s := by
  obtain ⟨before, after, blankBefore, blankAfter, text⟩ := spaced_trimmed s
  obtain ⟨negative, sign, body, signed, split, same⟩ := readChars?_eq (trimmed s)
  rw [read?, same] at read
  obtain ⟨n, rfl, unsigned⟩ := unsigned_of_readMagnitude? read
  exact ⟨n, .intro before after blankBefore signed unsigned blankAfter (split ▸ text)⟩

/-- A text is read as the normal form of a numeral that it spells. -/
theorem read?_eq_some_iff :
    read? s = some x ↔ ∃ n : Numeral, n.Spells s ∧ n.normalized? = some x := by
  constructor
  · intro read
    obtain ⟨n, spelled⟩ := spells_of_read? read
    exact ⟨n, spelled, read?_spelled spelled ▸ read⟩
  · rintro ⟨n, spelled, exact⟩
    rw [read?_spelled spelled, exact]

/-- What is read is a normal form of the one number that the text denotes. -/
theorem normal_of_read? (read : read? s = some x) :
    x.Normal ∧ ∀ q, Denotes s q ↔ q = x.value := by
  have known {n : Numeral} (spelled : n.Spells s) : x.Normal ∧ x.value = n.value := by
    have exact := (read?_spelled spelled).symm.trans read
    obtain ⟨_, _, -, -, ⟨decimal, -, -⟩, -, -⟩ := spelled
    exact Numeral.normalized?_value decimal exact
  obtain ⟨n, spelled⟩ := spells_of_read? read
  obtain ⟨normal, value⟩ := known spelled
  refine ⟨normal, fun q => ⟨?_, ?_⟩⟩
  · rintro ⟨m, spelled, rfl⟩
    exact (known spelled).2.symm
  · rintro rfl
    exact ⟨n, spelled, value.symm⟩

theorem read?_isSome (spelled : n.Spells s)
    (moderate : n.exponent.natAbs + n.digits.length < 0x4000000000000000) : (read? s).isSome := by
  rw [read?_spelled spelled]
  exact Numeral.normalized?_isSome moderate

/-- Texts that are read as exact numbers each denote one rational number.  What is read is ordered
as these are, and is equal where they are equal; so the order is total and agrees with equality. -/
theorem order_of_denoted {a b : String} {x y : ExactNumber} (readA : read? a = some x)
    (readB : read? b = some y) :
    (∃! p, Denotes a p) ∧ (∃! q, Denotes b q) ∧
      (∀ p q, Denotes a p → Denotes b q → x.order y = compare p q ∧ (x = y ↔ p = q)) ∧
      (x.order y = .eq ↔ x = y) ∧ y.order x = (x.order y).swap ∧
      ∀ c z, read? c = some z → x.order y ≠ .gt → y.order z ≠ .gt → x.order z ≠ .gt := by
  obtain ⟨normalX, denotedA⟩ := normal_of_read? readA
  obtain ⟨normalY, denotedB⟩ := normal_of_read? readB
  have same : x = y ↔ x.value = y.value := ⟨congrArg value, normalX.eq_of_value normalY⟩
  refine ⟨⟨x.value, (denotedA _).mpr rfl, fun p hp => (denotedA p).mp hp⟩,
    ⟨y.value, (denotedB _).mpr rfl, fun q hq => (denotedB q).mp hq⟩, ?_, ?_, ?_, ?_⟩
  · intro p q hp hq
    rw [(denotedA p).mp hp, (denotedB q).mp hq]
    exact ⟨normalX.order_eq normalY, same⟩
  · rw [normalX.order_eq normalY, compare_eq_iff_eq, same]
  · rw [normalX.order_eq normalY, normalY.order_eq normalX]
    exact Std.OrientedOrd.eq_swap
  · intro c z readC xy yz
    obtain ⟨normalZ, -⟩ := normal_of_read? readC
    rw [normalX.order_eq normalY, compare_le_iff_le] at xy
    rw [normalY.order_eq normalZ, compare_le_iff_le] at yz
    rw [normalX.order_eq normalZ, compare_le_iff_le]
    exact xy.trans yz

theorem order_of_denoted_of_tenths :
    read? "-99e-1" = some ⟨true, [9, 9], 1⟩ ∧ read? " -010.0 " = some ⟨true, [1], 2⟩ ∧
      ∀ p q, Denotes "-99e-1" p → Denotes " -010.0 " q → compare p q = .gt := by
  have readA : read? "-99e-1" = some ⟨true, [9, 9], 1⟩ := by decide
  have readB : read? " -010.0 " = some ⟨true, [1], 2⟩ := by decide
  refine ⟨readA, readB, fun p q hp hq => ?_⟩
  exact ((order_of_denoted readA readB).2.2.1 p q hp hq).1.symm.trans (by decide)

end ExactNumber

end DocStore
