import DocStore.Json.Reader
import DocStore.Json.Writer
import DocStore.Proofs.Numeric.Integer

/-!
# Strings and numbers in JSON

A string is read back from its text, whatever its characters are, and so is a whole number of 64
bits with a sign.

* `Json.readString?_escaped`: a character is read back from how it stands in a string;
* `Json.readString?_text`: a string is read back;
* `JsonNumber.readNumber?_whole`: a whole number is read back.
-/

namespace DocStore

open DocStore.Text

namespace Json

/-! ## Strings -/

theorem hexDigit?_digitChar {n : Nat} (small : n < 16) : hexDigit? (Nat.digitChar n) = some n := by
  have all : ∀ n < 16, hexDigit? (Nat.digitChar n) = some n := by decide
  exact all n small

/-- A control character is read back from its escape, which has two zeros before its own digits. -/
theorem readEscape?_control {c : Char} (control : c.toNat < 0x20) (cs : List Char) :
    readEscape? ('u' :: '0' :: '0' :: Nat.digitChar (c.toNat / 16) ::
      Nat.digitChar (c.toNat % 16) :: cs) = some (c, cs) := by
  have zero : hexDigit? '0' = some 0 := rfl
  have high := hexDigit?_digitChar (n := c.toNat / 16) (by omega)
  have low := hexDigit?_digitChar (n := c.toNat % 16) (by omega)
  have value : ((0 * 16 + 0) * 16 + c.toNat / 16) * 16 + c.toNat % 16 = c.toNat := by omega
  have unit : readUnits? c.toNat cs = some (c, cs) := by
    unfold readUnits?
    rw [if_neg (by omega), if_neg (by omega), Char.ofNat_toNat]
  simp only [readEscape?, readHex4?, zero, high, low, Option.bind_eq_bind, Option.bind_some, value,
    Option.pure_def, unit]

/-- A character is read back from how it stands in a string. -/
theorem readString?_escaped (c : Char) (fuel : Nat) (read cs : List Char) :
    readString? (fuel + 1) read ((escaped c).toList ++ cs) = readString? fuel (c :: read) cs := by
  unfold escaped
  split_ifs with quote backslash backspace formFeed newline carriage tab control
  · subst quote
    rfl
  · subst backslash
    rfl
  · subst backspace
    rfl
  · subst formFeed
    rfl
  · subst newline
    rfl
  · subst carriage
    rfl
  · subst tab
    rfl
  · have shape : ("\\u00" ++ String.ofList [Nat.digitChar (c.toNat / 16),
        Nat.digitChar (c.toNat % 16)]).toList ++ cs = '\\' :: 'u' :: '0' :: '0' ::
          Nat.digitChar (c.toNat / 16) :: Nat.digitChar (c.toNat % 16) :: cs := by simp
    rw [shape, readString?, if_neg (by decide), if_pos rfl, readEscape?_control control]
  · have shape : (String.singleton c).toList ++ cs = c :: cs := by simp
    rw [shape, readString?, if_neg quote, if_neg backslash, if_neg control]

/-- The characters of a string as they stand between its quotes. -/
def escapedChars (cs : List Char) : List Char := cs.flatMap fun c => (escaped c).toList

theorem stringText_toList (s : String) :
    (stringText s).toList = '"' :: (escapedChars s.toList ++ ['"']) := by
  simp [stringText, escapedChars, String.toList_join, List.flatMap_map]

theorem escaped_ne_nil (c : Char) : (escaped c).toList ≠ [] := by
  unfold escaped
  split_ifs <;> simp

theorem readString?_chars (cs : List Char) {fuel : Nat} (read rest : List Char)
    (enough : (escapedChars cs).length < fuel) :
    readString? fuel read (escapedChars cs ++ '"' :: rest) =
      some (String.ofList (read.reverse ++ cs), rest) := by
  induction cs generalizing fuel read with
  | nil =>
    cases fuel with
    | zero => cases enough
    | succ fuel => simp [escapedChars, readString?]
  | cons c cs ih =>
    have longer := List.length_pos_iff.mpr (escaped_ne_nil c)
    have shape : escapedChars (c :: cs) = (escaped c).toList ++ escapedChars cs := List.flatMap_cons
    rw [shape, List.length_append] at enough
    cases fuel with
    | zero => omega
    | succ fuel =>
      rw [shape, List.append_assoc, readString?_escaped, ih (c :: read) (by omega)]
      simp

/-- A string is read back, whatever its characters are. -/
theorem readString?_text (s : String) (rest : List Char) :
    let after := escapedChars s.toList ++ '"' :: rest
    readString? (after.length + 1) [] after = some (s, rest) := by
  intro after
  have enough : (escapedChars s.toList).length < after.length + 1 := by
    simp only [after, List.length_append, List.length_cons]
    omega
  simpa using readString?_chars s.toList [] rest enough

end Json

/-! ## Whole numbers -/

theorem natOfDigits_lt {cs : List Char} (digits : ∀ c ∈ cs, c.isDigit) :
    natOfDigits cs < 10 ^ cs.length := by
  induction cs with
  | nil => decide
  | cons c cs ih =>
    obtain ⟨digit, others⟩ := List.forall_mem_cons.mp digits
    have first := Nat.mul_le_mul_right (10 ^ cs.length) (Nat.succ_le_of_lt (digitValue_lt digit))
    have rest := ih others
    rw [natOfDigits_cons, List.length_cons, Nat.pow_succ]
    rw [Nat.succ_mul] at first
    omega

/-- A number that starts with a zero is zero. -/
theorem length_natDigits_of_zero {n : Nat} (zero : (natDigits n).head? = some '0') :
    (natDigits n).length = 1 := by
  obtain ⟨cs, shape⟩ := List.head?_eq_some_iff.mp zero
  have digits : ∀ c ∈ cs, c.isDigit := fun c mem =>
    natDigits_isDigit (n := n) (by rw [shape]; exact List.mem_cons_of_mem _ mem)
  have worth : natOfDigits cs = n := by
    have whole := natOfDigits_natDigits n
    rw [shape, natOfDigits_cons] at whole
    simpa [digitValue] using whole
  have less := natOfDigits_lt digits
  rw [worth] at less
  cases cs with
  | nil => rw [shape, List.length_singleton]
  | cons c cs =>
    have short := length_natDigits_le (Nat.succ_pos _) less
    rw [shape] at short
    simp only [List.length_cons] at short
    omega

/-- Whether a text goes on as it may after a value, if it goes on at all. -/
def ClosesValue (rest : List Char) : Prop :=
  ∀ c ∈ rest.head?, c = ',' ∨ c = ']' ∨ c = '\x7d'

namespace JsonNumber

open Json

theorem readFraction?_none {rest : List Char} (closes : ClosesValue rest) :
    readFraction? rest = some (none, rest) := by
  unfold readFraction?
  split
  · rcases closes '.' rfl with h | h | h <;> cases h
  · rfl

theorem readExponent?_none {rest : List Char} (closes : ClosesValue rest) :
    readExponent? rest = some (none, rest) := by
  cases rest with
  | nil => rfl
  | cons c rest =>
    have other : ¬ (c = 'e' ∨ c = 'E') := by
      rintro (rfl | rfl) <;> rcases closes _ rfl with h | h | h <;> cases h
    unfold readExponent?
    exact if_neg other

/-- A written integer is read as its sign and its digits. -/
theorem readNumberText?_intText (i : Int) {rest : List Char} (closes : ClosesValue rest) :
    readNumberText? ((intText i).toList ++ rest) =
      some (⟨i < 0, natDigits i.natAbs, none, none⟩, rest) := by
  have digits : ∀ c ∈ natDigits i.natAbs, c.isDigit := fun _ => natDigits_isDigit
  have ends : ∀ c ∈ rest.head?, c.isDigit = false := by
    intro c head
    rcases closes c head with rfl | rfl | rfl <;> decide
  obtain ⟨whole, after⟩ := takeWhile_run digits ends
  have filled : (natDigits i.natAbs).isEmpty = false :=
    List.isEmpty_eq_false_iff.mpr (natDigits_ne_nil _)
  have unpadded : ¬ ((natDigits i.natAbs).head? = some '0' ∧ (natDigits i.natAbs).length ≠ 1) :=
    fun h => h.2 (length_natDigits_of_zero h.1)
  have sign : ((intText i).toList ++ rest).head? = some '-' ↔ i < 0 := by
    rw [intText_toList]
    by_cases negative : i < 0
    · simp [negative]
    · rw [if_neg negative, List.nil_append, List.head?_append]
      refine iff_of_false (fun minus => ?_) negative
      obtain ⟨c, cs, shape⟩ := List.exists_cons_of_ne_nil (natDigits_ne_nil i.natAbs)
      rw [shape] at minus digits
      cases minus
      exact not_isDigit_minus (digits '-' (List.mem_cons_self ..))
  have unsigned : (if i < 0 then ((intText i).toList ++ rest).drop 1
      else (intText i).toList ++ rest) = natDigits i.natAbs ++ rest := by
    rw [intText_toList]
    by_cases negative : i < 0 <;> simp [negative]
  simp only [readNumberText?, sign, unsigned, whole, after, readFraction?_none closes,
    readExponent?_none closes, Option.bind_eq_bind, Option.bind_some, filled, unpadded,
    Bool.false_eq_true, false_or, if_false]
  rfl

theorem value?_whole {i : Int} (fits : IntRange.signed64.holds i) :
    NumberText.value? ⟨i < 0, natDigits i.natAbs, none, none⟩ = some (.whole i) := by
  obtain ⟨least, greatest⟩ := IntRange.holds_iff.mp fits
  simp only [IntRange.signed64] at least greatest
  by_cases negative : i < 0
  · have signed : -(i.natAbs : Int) = i := by omega
    have nonzero : (i.natAbs == 0) = false := beq_eq_false_iff_ne.mpr (by omega)
    simp only [NumberText.value?, negative, natOfDigits_natDigits, signed, nonzero, fits,
      decide_true, Option.isNone_none, Bool.and_self, Bool.and_false, Bool.not_false, if_true]
  · have signed : (i.natAbs : Int) = i := by omega
    have inRange : IntRange.unsigned64.holds i := by
      refine IntRange.holds_iff.mpr ⟨?_, ?_⟩ <;> simp only [IntRange.unsigned64] <;> omega
    simp only [NumberText.value?, negative, natOfDigits_natDigits, signed, inRange, decide_false,
      Option.isNone_none, Bool.and_self, Bool.false_and, Bool.not_false, Bool.false_eq_true,
      if_false, if_true]

/-- A whole number of 64 bits with a sign is read back. -/
theorem readNumber?_whole {i : Int} (fits : IntRange.signed64.holds i) {rest : List Char}
    (closes : ClosesValue rest) :
    readNumber? ((intText i).toList ++ rest) = some (.whole i, rest) := by
  rw [readNumber?, readNumberText?_intText i closes, Option.bind_some, value?_whole fits]
  rfl

end JsonNumber

end DocStore
