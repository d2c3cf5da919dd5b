import DocStore.Proofs.Check.Derivation
import DocStore.Proofs.Numeric.Integer
import DocStore.Query.Expr

/-!
# Numeric literals have contraries

A minus sign is a token of its own, so a numeric literal denotes no number below zero.  The one
integer without a contrary, the least of 64 bits, is therefore never spelled by a token.

* `Lexeme.Negatable`: whether a lexeme, if it is a number, may stand after a minus sign;
* `Token.scan_negatable`: every lexeme of a text may.
-/

namespace DocStore

open DocStore.Text

/-- Whether a lexeme, if it is a number, has a contrary. -/
def Lexeme.Negatable (lexeme : Lexeme) : Prop :=
  ∀ v, lexeme = .number v → (Expr.negated? v).isSome

/-! ## Integers -/

theorem ofInt_ne_minValue {i : Int} (positive : 0 ≤ i) (held : IntRange.signed64.holds i) :
    Int64.ofInt i ≠ Int64.minValue := by
  have bounds := IntRange.holds_iff.mp held
  simp only [IntRange.signed64] at bounds
  intro same
  have value := congrArg Int64.toInt same
  rw [Int64.toInt_ofInt_of_le (by omega) (by omega), Int64.toInt_minValue] at value
  omega

/-- What starts with a digit is read as no integer below zero. -/
theorem readInt?_nonneg {c : Char} {rest : List Char} {i : Int} (digit : c.isDigit)
    (read : readInt? (c :: rest) = some i) : 0 ≤ i := by
  cases readInt?_eq_some_iff.mp read with
  | negative => exact absurd digit not_isDigit_minus
  | signed => exact absurd digit not_isDigit_plus
  | plain => exact Int.natCast_nonneg _

/-- An integer that starts with a digit has a contrary, in 64 bits or in the least width. -/
theorem negated_readIntIn {c : Char} {rest : List Char} {i : Int} (digit : c.isDigit)
    (read : readIntIn? .signed64 (c :: rest) = some i) :
    (Expr.negated? (.int64 (.ofInt i))).isSome ∧
      (Expr.negated? (Value.ofInt64 (.ofInt i))).isSome := by
  obtain ⟨found, held⟩ := Option.filter_eq_some_iff.mp read
  have least := ofInt_ne_minValue (readInt?_nonneg digit found) held
  unfold Value.ofInt64
  split <;> simp [Expr.negated?, least]

/-! ## Literals -/

namespace Token

theorem literal_eq_ok {start : Nat} {digits : List Char} {kind : LiteralKind}
    {value : Option Value} {v : Value} :
    literal start digits kind value = .ok v ↔ value = some v := by
  cases value <;> simp [literal, fault]

variable {start : Nat} {c : Char} {rest : List Char} {real : Bool} {v : Value}

theorem unmarkedValue_negatable (digit : c.isDigit)
    (read : unmarkedValue start (c :: rest) real = .ok v) : (Expr.negated? v).isSome := by
  unfold unmarkedValue at read
  split at read
  · obtain ⟨x, -, rfl⟩ := Option.map_eq_some_iff.mp (literal_eq_ok.mp read)
    rfl
  · obtain ⟨i, found, rfl⟩ := Option.map_eq_some_iff.mp (literal_eq_ok.mp read)
    exact (negated_readIntIn digit found).2

theorem markedValue_negatable {mark : Char} (digit : c.isDigit)
    (read : markedValue start (c :: rest) real mark = .ok v) : (Expr.negated? v).isSome := by
  unfold markedValue at read
  split at read
  · obtain ⟨i, found, rfl⟩ := Option.map_eq_some_iff.mp (literal_eq_ok.mp read)
    exact (negated_readIntIn digit found).1
  -- The other suffixes are of numbers that can all be negated, or unknown.
  split at read
  · obtain ⟨x, -, rfl⟩ := Option.map_eq_some_iff.mp (literal_eq_ok.mp read)
    rfl
  split at read
  · obtain ⟨x, -, rfl⟩ := Option.map_eq_some_iff.mp (literal_eq_ok.mp read)
    rfl
  split at read
  · obtain ⟨x, -, rfl⟩ := Option.map_eq_some_iff.mp (literal_eq_ok.mp read)
    rfl
  · cases read

variable {lexeme : Lexeme} {after : Nat × List Char}

theorem readNumber_negatable (digit : c.isDigit)
    (read : readNumber start (c :: rest) = .ok (lexeme, after)) : lexeme.Negatable := by
  rintro v rfl
  unfold readNumber at read
  simp only [List.takeWhile_cons, if_pos digit, List.cons_append] at read
  split at read
  · split at read
    · obtain ⟨v, found, same⟩ := map_eq_ok.mp read
      cases same
      exact markedValue_negatable digit found
    · obtain ⟨v, found, same⟩ := map_eq_ok.mp read
      cases same
      exact unmarkedValue_negatable digit found
  · obtain ⟨v, found, same⟩ := map_eq_ok.mp read
    cases same
    exact unmarkedValue_negatable digit found

/-- Only a digit starts a number. -/
theorem readNumber_of_read {offset : Nat}
    (read : Token.read offset c rest = .ok (.number v, after)) :
    c.isDigit ∧ readNumber offset (c :: rest) = .ok (.number v, after) := by
  unfold Token.read at read
  split at read
  -- A string, and operators of one or two characters.
  case h_7 =>
    obtain ⟨text, -, same⟩ := map_eq_ok.mp read
    cases same
  case h_8 => split at read <;> cases read
  case h_9 | h_10 | h_11 =>
    unfold oneOrTwo at read
    split at read
    · split at read <;> cases read
    · cases read
  -- Doubled characters, digits and names.
  case h_12 =>
    split at read
    · cases read
    split at read
    · cases read
    split at read
    · rename_i digit
      exact ⟨digit, read⟩
    split at read <;> cases read
  all_goals cases read

/-! ## Texts -/

/-- Every lexeme of a text may stand after a minus sign. -/
theorem scanFrom_negatable {fuel offset : Nat} {cs : List Char} {tokens : List Token}
    (scanned : scanFrom fuel offset cs = .ok tokens) :
    ∀ token ∈ tokens, token.lexeme.Negatable := by
  induction fuel generalizing offset cs tokens with
  | zero => cases scanned; exact nofun
  | succ fuel ih =>
    rcases cs with _ | ⟨c, rest⟩
    · cases scanned
      exact nofun
    rw [scanFrom] at scanned
    split at scanned
    · exact ih scanned
    split at scanned
    · cases scanned
    · rename_i lexeme next rest read
      obtain ⟨later, further, rfl⟩ := map_eq_ok.mp scanned
      refine List.forall_mem_cons.mpr ⟨?_, ih further⟩
      rintro v rfl
      obtain ⟨digit, number⟩ := readNumber_of_read read
      exact readNumber_negatable digit number v rfl

theorem scan_negatable {s : String} {tokens : List Token} (scanned : scan s = .ok tokens) :
    ∀ token ∈ tokens, token.lexeme.Negatable :=
  scanFrom_negatable scanned

end Token

end DocStore
