import DocStore.Proofs.Query.Lookahead
import DocStore.Proofs.Query.Numerals

/-!
# Whole numbers without a suffix

Digits alone are an integer of the least width.  A minus sign is a token of its own, so the digits
after it must be an integer of 64 bits by themselves: the least integer of 64 bits has none.

* `Token.readNumber_digits`: digits are read as what they are worth;
* `Expr.negated?_digits`: the contrary of what they are worth;
* `whole_number_read`: the constant that a whole number is read as, or where its text is refused.
-/

namespace DocStore

open DocStore.Text

/-! ## Digits -/

namespace Token

section

variable {digits : List Char} (decimal : ∀ c ∈ digits, c.isDigit) (start : Nat)

include decimal

/-- Digits to the end of a text are a number without fraction, exponent and suffix. -/
theorem readNumber_digits : readNumber start digits =
    (unmarkedValue start digits false).map fun v => (.number v, start + digits.length, []) := by
  obtain ⟨taken, dropped⟩ : digits.takeWhile Char.isDigit = digits ∧
      digits.dropWhile Char.isDigit = [] := by
    have ends : ∀ c ∈ ([] : List Char).head?, c.isDigit = false := by simp
    simpa using takeWhile_run decimal ends
  apply readNumber_unmarked (by simp)
  all_goals simp [taken, dropped, splitFraction, splitExponent]

/-- What digits are worth has to be an integer of 64 bits. -/
theorem unmarkedValue_digits (filled : digits ≠ []) : unmarkedValue start digits false =
    if IntRange.signed64.holds (natOfDigits digits) then
      .ok (Value.ofInt64 (.ofInt (natOfDigits digits)))
    else fault start (.badLiteral .integer (String.ofList digits)) := by
  have read := readInt?_eq_some_iff.mpr (.plain filled decimal)
  rw [unmarkedValue, if_neg Bool.false_ne_true, readIntIn?, read, Option.filter_some]
  split <;> rfl

/-- Digits are read as the integer that they are worth, or refused where they start. -/
theorem read_digits (filled : digits ≠ []) :
    ∃ c rest, digits = c :: rest ∧ isSpacing c = false ∧ read start c rest =
      if IntRange.signed64.holds (natOfDigits digits) then
        .ok (.number (Value.ofInt64 (.ofInt (natOfDigits digits))), start + digits.length, [])
      else fault start (.badLiteral .integer (String.ofList digits)) := by
  obtain ⟨c, rest, whole⟩ := List.exists_cons_of_ne_nil filled
  have digit : c.isDigit := decimal c (whole ▸ List.mem_cons_self)
  refine ⟨c, rest, whole, solid_of_isIdentChar (isIdentChar_of_isDigit digit), ?_⟩
  rw [read_digit digit, ← whole, readNumber_digits decimal, unmarkedValue_digits decimal start filled]
  split <;> rfl

end

end Token

/-! ## Contraries -/

/-- The contrary of what digits are worth, in the least width that holds it. -/
theorem Expr.negated?_digits {m : Nat} (held : IntRange.signed64.holds m) :
    negated? (Value.ofInt64 (.ofInt m)) =
      some (if IntRange.signed32.holds (-m) then .int32 (.ofInt (-m)) else .int64 (.ofInt (-m))) := by
  rw [Value.ofInt64_ofInt held]
  split
  · rename_i narrow
    have contrary : IntRange.signed32.holds (-m) := by
      rw [IntRange.holds_iff] at narrow ⊢
      simp only [IntRange.signed32] at narrow ⊢
      omega
    rw [negated?, if_pos contrary, Int32.ofInt_neg]
  · rename_i wide
    have below : -(m : Int) < 0 := by
      have zero : m ≠ 0 := by
        rintro rfl
        exact wide (by decide)
      omega
    have marked := negated?_marked below (by rwa [Int.natAbs_neg])
    rwa [Int.natAbs_neg] at marked

/-! ## Equations -/

/-- A text that is not cut into tokens is refused for the same fault. -/
theorem Predicate.ofText_fault {s : String} {e : QueryError} (failed : Token.scan s = .error e) :
    Predicate.ofText s = .error e := by
  unfold Predicate.ofText Expr.ofText
  rw [failed]
  rfl

/-- What is read where a field is compared with a whole number without suffix: the number in the
least width, if its digits are an integer of 64 bits by themselves; if not, they are blamed. -/
theorem whole_number_read {name spelling : String} {n : Int} (named : Token.isName name)
    (free : name ∉ ["true", "false", "null"]) (spelled : SpelledInt n spelling.toList)
    (plus : '+' ∉ spelling.toList) :
    Predicate.ofText (name ++ " == " ++ spelling) =
      if IntRange.signed64.holds n.natAbs then
        .ok (.comparison .eq (.field ⟨[name]⟩) (.constant (.literal
          (if IntRange.signed32.holds n then .int32 (.ofInt n) else .int64 (.ofInt n)))))
      else
        .error (.malformed (name.length + if n < 0 then 5 else 4)
          (.badLiteral .integer (String.ofList (spelling.toList.filter Char.isDigit)))) := by
  have text : (name ++ " == " ++ spelling).toList =
      name.toList ++ " == ".toList ++ spelling.toList := by
    rw [String.toList_append, String.toList_append]
  have passes := Token.passes_equation named spelling.toList
  rw [← text] at passes
  generalize same : spelling.toList = cs at spelled plus passes
  cases spelled with
  | signed => exact absurd List.mem_cons_self plus
  | plain filled decimal =>
    obtain ⟨c, rest, rfl, solid, found⟩ := Token.read_digits decimal (name.length + 4) filled
    have positive : ¬ (natOfDigits (c :: rest) : Int) < 0 := Int.not_lt.mpr (Int.natCast_nonneg _)
    rw [Int.natAbs_natCast, if_neg positive, List.filter_eq_self.mpr decimal]
    split at found
    · rename_i held
      have cuts : Token.Cuts (name.length + 4) spelling.toList
          [⟨.number (Value.ofInt64 (.ofInt (natOfDigits (c :: rest)))), name.length + 4⟩] := by
        rw [same]
        exact .lexeme solid found (Nat.zero_le _) .done
      rw [Predicate.ofText_equation named free cuts .number (fun _ => rfl) rfl, if_pos held,
        Value.ofInt64_ofInt held]
    · rename_i large
      rw [Predicate.ofText_fault (passes.scan_fault solid found), if_neg large]
  | negative filled decimal =>
    obtain ⟨c, rest, rfl, solid, found⟩ := Token.read_digits decimal (name.length + 5) filled
    rw [Int.natAbs_neg, Int.natAbs_natCast, List.filter_cons_of_neg (by decide),
      List.filter_eq_self.mpr decimal]
    split at found
    · rename_i held
      have cuts : Token.Cuts (name.length + 4) spelling.toList [⟨.minus, name.length + 4⟩,
          ⟨.number (Value.ofInt64 (.ofInt (natOfDigits (c :: rest)))), name.length + 5⟩] := by
        rw [same]
        exact .lexeme rfl rfl (Nat.le_refl _) (.lexeme solid found (Nat.zero_le _) .done)
      rw [Predicate.ofText_equation named free cuts .negative
        (fun _ => by rw [SyntaxTree.toExpr, Expr.negated?_digits held]) rfl, if_pos held]
    · rename_i large
      have below : -(natOfDigits (c :: rest) : Int) < 0 := by
        have zero : natOfDigits (c :: rest) ≠ 0 := by
          intro zero
          rw [zero] at large
          exact large (by decide)
        omega
      have minus : Token.Passes (name.length + 4) ('-' :: c :: rest) _ (name.length + 5) (c :: rest) :=
        .lexeme rfl rfl (Nat.le_refl _) .stay
      rw [Predicate.ofText_fault ((passes.trans minus).scan_fault solid found), if_neg large,
        if_pos below]

/-- The bounds of both widths: the least integer of 64 bits is the one that is refused. -/
theorem whole_number_read_of_bounds :
    Predicate.ofText ("f" ++ " == " ++ intText (-2147483648)) =
        .ok (.comparison .eq (.field ⟨["f"]⟩) (.constant (.literal (.int32 (-2147483648))))) ∧
      Predicate.ofText ("f" ++ " == " ++ intText 2147483648) =
        .ok (.comparison .eq (.field ⟨["f"]⟩) (.constant (.literal (.int64 2147483648)))) ∧
      Predicate.ofText ("f" ++ " == " ++ intText (-9223372036854775807)) =
        .ok (.comparison .eq (.field ⟨["f"]⟩)
          (.constant (.literal (.int64 (-9223372036854775807))))) ∧
      Predicate.ofText ("f" ++ " == " ++ intText (-9223372036854775808)) =
        .error (.malformed 6 (.badLiteral .integer "9223372036854775808")) :=
  have named : Token.isName "f" := by decide
  have free : "f" ∉ ["true", "false", "null"] := by decide
  ⟨whole_number_read named free (spelledInt_intText _) (by decide),
    whole_number_read named free (spelledInt_intText _) (by decide),
    whole_number_read named free (spelledInt_intText _) (by decide),
    whole_number_read named free (spelledInt_intText _) (by decide)⟩

/-- Not every integer of 64 bits can be spelled. -/
theorem least_integer_refused :
    ¬ ∀ n : Int, IntRange.signed64.holds n →
      Predicate.ofText ("f == " ++ intText n) =
        .ok (.comparison .eq (.field ⟨["f"]⟩) (.constant (.literal
          (if IntRange.signed32.holds n then .int32 (.ofInt n) else .int64 (.ofInt n))))) := by
  intro spelled
  have text : "f == " ++ intText (-9223372036854775808) = "f == -9223372036854775808" := by decide
  have refused : Predicate.ofText "f == -9223372036854775808" =
      .error (.malformed 6 (.badLiteral .integer "9223372036854775808")) := by cbv
  have read := spelled (-9223372036854775808) (by decide)
  rw [text, refused] at read
  cases read

end DocStore
