import DocStore.Proofs.Numeric.Integer
import DocStore.Query.Token

/-!
# Texts are cut one lexeme at a time

The tokens of a text are told from its start: spacing is passed over, and a lexeme ends where its
reader leaves off.  Names and numbers go on while their characters may stand in them.

* `Token.Cuts`, `Token.Cuts.scan`: a text with its tokens, and that it is cut into them;
* `Token.Passes`: the tokens between two places of a text;
* `Token.isName`, `Token.read_name`, `Token.passes_name`: a name is read whole;
* `Token.readNumber_marked`: digits and a suffix are read as what the suffix makes of the digits;
* `Token.passes_equation`: a name, two equality signs, and what follows.
-/

namespace DocStore

open DocStore.Text

namespace Token

/-! ## Cutting -/

/-- Texts that start at some offset, and their tokens. -/
inductive Cuts : Nat → List Char → List Token → Prop
  | done {offset} : Cuts offset [] []
  | spacing {offset c rest tokens} : isSpacing c → Cuts (offset + 1) rest tokens →
      Cuts offset (c :: rest) tokens
  | lexeme {offset c rest lexeme next after tokens} : isSpacing c = false →
      read offset c rest = .ok (lexeme, next, after) → after.length ≤ rest.length →
      Cuts next after tokens → Cuts offset (c :: rest) (⟨lexeme, offset⟩ :: tokens)

/-- Fuel for every character is enough. -/
theorem Cuts.scanFrom {offset : Nat} {cs : List Char} {tokens : List Token}
    (cuts : Cuts offset cs tokens) {fuel : Nat} (enough : cs.length ≤ fuel) :
    scanFrom fuel offset cs = .ok tokens := by
  induction cuts generalizing fuel with
  | done => cases fuel <;> rfl
  | spacing blank _ ih =>
    obtain ⟨fuel, rfl⟩ := Nat.exists_eq_add_one_of_ne_zero (Nat.ne_zero_of_lt enough)
    rw [Token.scanFrom, if_pos blank]
    exact ih (Nat.le_of_succ_le_succ enough)
  | lexeme solid found shorter _ ih =>
    obtain ⟨fuel, rfl⟩ := Nat.exists_eq_add_one_of_ne_zero (Nat.ne_zero_of_lt enough)
    have further := ih (Nat.le_trans shorter (Nat.le_of_succ_le_succ enough))
    rw [Token.scanFrom, if_neg (by simp [solid])]
    simp only [found, further, Except.map]

theorem Cuts.scan {s : String} {tokens : List Token} (cuts : Cuts 0 s.toList tokens) :
    scan s = .ok tokens :=
  cuts.scanFrom (Nat.le_refl _)

/-- From one place of a text to a later one: the tokens between them. -/
inductive Passes : Nat → List Char → List Token → Nat → List Char → Prop
  | stay {offset cs} : Passes offset cs [] offset cs
  | spacing {offset c cs tokens next rest} : isSpacing c → Passes (offset + 1) cs tokens next rest →
      Passes offset (c :: cs) tokens next rest
  | lexeme {offset c cs lexeme middle after tokens next rest} : isSpacing c = false →
      read offset c cs = .ok (lexeme, middle, after) → after.length ≤ cs.length →
      Passes middle after tokens next rest →
      Passes offset (c :: cs) (⟨lexeme, offset⟩ :: tokens) next rest

theorem Passes.cuts {offset next : Nat} {cs rest : List Char} {tokens more : List Token}
    (passes : Passes offset cs tokens next rest) (cuts : Cuts next rest more) :
    Cuts offset cs (tokens ++ more) := by
  induction passes with
  | stay => exact cuts
  | spacing blank _ ih => exact .spacing blank (ih cuts)
  | lexeme solid found shorter _ ih => exact .lexeme solid found shorter (ih cuts)

theorem Passes.trans {offset middle next : Nat} {cs after rest : List Char}
    {tokens more : List Token} (passes : Passes offset cs tokens middle after)
    (further : Passes middle after more next rest) :
    Passes offset cs (tokens ++ more) next rest := by
  induction passes with
  | stay => exact further
  | spacing blank _ ih => exact .spacing blank (ih further)
  | lexeme solid found shorter _ ih => exact .lexeme solid found shorter (ih further)

/-- With fuel for every character, the scanner comes to the later place with fuel for the rest. -/
theorem Passes.scanFrom {offset next : Nat} {cs rest : List Char} {tokens : List Token}
    (passes : Passes offset cs tokens next rest) {fuel : Nat} (enough : cs.length ≤ fuel) :
    ∃ left, rest.length ≤ left ∧
      scanFrom fuel offset cs = (scanFrom left next rest).map (tokens ++ ·) := by
  induction passes generalizing fuel with
  | stay =>
    refine ⟨fuel, enough, ?_⟩
    cases Token.scanFrom fuel _ _ <;> rfl
  | spacing blank _ ih =>
    obtain ⟨fuel, rfl⟩ := Nat.exists_eq_add_one_of_ne_zero (Nat.ne_zero_of_lt enough)
    rw [Token.scanFrom, if_pos blank]
    exact ih (Nat.le_of_succ_le_succ enough)
  | lexeme solid found shorter _ ih =>
    obtain ⟨fuel, rfl⟩ := Nat.exists_eq_add_one_of_ne_zero (Nat.ne_zero_of_lt enough)
    obtain ⟨left, spare, further⟩ :=
      ih (Nat.le_trans shorter (Nat.le_of_succ_le_succ enough))
    refine ⟨left, spare, ?_⟩
    rw [Token.scanFrom, if_neg (by simp [solid])]
    simp only [found, further]
    cases Token.scanFrom left _ _ <;> rfl

/-- A fault at the later place is the fault of the text. -/
theorem Passes.scan_fault {s : String} {next : Nat} {c : Char} {rest : List Char}
    {tokens : List Token} {e : QueryError} (passes : Passes 0 s.toList tokens next (c :: rest))
    (solid : isSpacing c = false) (failed : read next c rest = .error e) : scan s = .error e := by
  obtain ⟨left, spare, further⟩ := passes.scanFrom (Nat.le_refl _)
  obtain ⟨left, rfl⟩ := Nat.exists_eq_add_one_of_ne_zero (Nat.ne_zero_of_lt spare)
  rw [Token.scanFrom, if_neg (by simp [solid])] at further
  rw [Token.scan, further, failed]
  rfl

/-! ## Names -/

/-- Whether a text is a name. -/
def isName (s : String) : Bool :=
  match s.toList with
  | c :: rest => isIdentStart c && rest.all isIdentChar
  | [] => false

theorem isIdentChar_of_isIdentStart {c : Char} (starts : isIdentStart c) : isIdentChar c := by
  unfold isIdentStart at starts
  unfold isIdentChar Char.isAlphanum
  simp only [Bool.or_eq_true] at starts ⊢
  exact starts.imp_left Or.inl

theorem isIdentChar_of_isDigit {c : Char} (digit : c.isDigit) : isIdentChar c := by
  unfold isIdentChar Char.isAlphanum
  simp [digit]

theorem solid_of_isIdentChar {c : Char} (word : isIdentChar c) : isSpacing c = false := by
  by_contra blank
  simp only [isSpacing, Bool.not_eq_false, Bool.or_eq_true, decide_eq_true_eq] at blank
  rcases blank with (((rfl | rfl) | rfl) | rfl) | rfl
  all_goals exact absurd word (by decide)

theorem not_isDigit_of_isIdentStart {c : Char} (starts : isIdentStart c) : ¬ c.isDigit := by
  have beyond : '9'.toNat < c.toNat := by
    rcases (Bool.or_eq_true _ _).mp starts with letter | line
    · rcases (Bool.or_eq_true _ _).mp letter with upper | lower
      · have least : 'A'.val ≤ c.val := (of_decide_eq_true upper).1
        exact Nat.lt_of_lt_of_le (by decide) (UInt32.le_iff_toNat_le.mp least)
      · have least : 'a'.val ≤ c.val := of_decide_eq_true ((Bool.and_eq_true _ _).mp lower).1
        exact Nat.lt_of_lt_of_le (by decide) (UInt32.le_iff_toNat_le.mp least)
    · obtain rfl := of_decide_eq_true line
      decide
  intro digit
  exact Nat.not_le_of_lt beyond (Char.isDigit_iff_toNat.mp digit).2

/-- What starts with a character of names is a number or a name. -/
theorem read_word {offset : Nat} {c : Char} {rest : List Char} (word : isIdentChar c) :
    read offset c rest =
      if c.isDigit then readNumber offset (c :: rest)
      else if isIdentStart c then
        .ok (.ident (String.ofList (c :: rest.takeWhile isIdentChar)),
          offset + (c :: rest.takeWhile isIdentChar).length, rest.dropWhile isIdentChar)
      else fault offset (.unexpectedCharacter c) := by
  unfold read
  split
  case h_12 =>
    have single : c ≠ '&' := by
      rintro rfl
      exact absurd word (by decide)
    have double : c ≠ '|' := by
      rintro rfl
      exact absurd word (by decide)
    rw [if_neg (by simp [single]), if_neg (by simp [double])]
  all_goals exact absurd word (by decide)

theorem read_digit {offset : Nat} {c : Char} {rest : List Char} (digit : c.isDigit) :
    read offset c rest = readNumber offset (c :: rest) := by
  rw [read_word (isIdentChar_of_isDigit digit), if_pos digit]

/-- A name is read up to a character that may not stand in it. -/
theorem read_name {offset : Nat} {c : Char} {rest after : List Char} (starts : isIdentStart c)
    (goes : ∀ d ∈ rest, isIdentChar d) (ends : ∀ d ∈ after.head?, isIdentChar d = false) :
    read offset c (rest ++ after) =
      .ok (.ident (String.ofList (c :: rest)), offset + (c :: rest).length, after) := by
  obtain ⟨taken, dropped⟩ := takeWhile_run goes ends
  rw [read_word (isIdentChar_of_isIdentStart starts),
    if_neg (not_isDigit_of_isIdentStart starts), if_pos starts, taken, dropped]

/-- A name is one lexeme up to a character that may not stand in it. -/
theorem passes_name {name : String} (named : isName name) {after : List Char}
    (ends : ∀ d ∈ after.head?, isIdentChar d = false) (offset : Nat) :
    Passes offset (name.toList ++ after) [⟨.ident name, offset⟩] (offset + name.length) after := by
  unfold isName at named
  split at named
  case h_2 => cases named
  case h_1 c inside spelled =>
    rw [Bool.and_eq_true, List.all_eq_true] at named
    obtain ⟨starts, goes⟩ := named
    have found : read offset c (inside ++ after) =
        .ok (.ident name, offset + name.length, after) := by
      rw [read_name starts goes ends, ← spelled, String.ofList_toList, String.length_toList]
    rw [spelled, List.cons_append]
    exact .lexeme (solid_of_isIdentChar (isIdentChar_of_isIdentStart starts)) found (by simp) .stay

/-! ## Whole numbers -/

/-- Digits with a suffix are read as what the suffix makes of the digits. -/
theorem readNumber_marked {start : Nat} {digits after : List Char} {mark : Char}
    (decimal : ∀ c ∈ digits, c.isDigit) (letter : mark.isAlpha)
    (exponent : (mark = 'e' || mark = 'E') = false) :
    readNumber start (digits ++ mark :: after) =
      (markedValue start digits false mark.toLower).map fun v =>
        (.number v, start + digits.length + 1, after) := by
  have starts : isIdentStart mark := by simp [isIdentStart, letter]
  have ends : ∀ c ∈ (mark :: after).head?, c.isDigit = false := by
    rintro c ⟨⟩
    exact Bool.eq_false_iff.mpr (not_isDigit_of_isIdentStart starts)
  obtain ⟨taken, dropped⟩ := takeWhile_run decimal ends
  have whole : splitFraction (mark :: after) = ([], mark :: after) := by
    unfold splitFraction
    split
    · rename_i point
      cases point
      exact absurd letter (by decide)
    · rfl
  have plain : splitExponent (mark :: after) = ([], mark :: after) := by
    simp only [splitExponent, exponent, Bool.false_and, Bool.false_eq_true, if_false]
  simp [readNumber, taken, dropped, whole, plain, letter]

/-- The digits of a number with the suffix of 64 bits are cut as that number in 64 bits. -/
theorem Cuts.marked {n : Nat} (held : IntRange.signed64.holds n) (offset : Nat) :
    Cuts offset (natDigits n ++ ['L']) [⟨.number (.int64 (.ofInt n)), offset⟩] := by
  have value : markedValue offset (natDigits n) false 'l' = .ok (.int64 (.ofInt n)) := by
    have read : readIntIn? .signed64 (natDigits n) = some (n : Int) := by
      have written := readIntIn?_intText held
      rwa [intText_toList, if_neg (Int.not_lt.mpr (Int.natCast_nonneg n))] at written
    simp [markedValue, read, literal]
  have number : readNumber offset (natDigits n ++ ['L']) =
      .ok (.number (.int64 (.ofInt n)), offset + (natDigits n).length + 1, []) := by
    rw [readNumber_marked (fun _ => natDigits_isDigit) (by decide) (by decide)]
    have lower : 'L'.toLower = 'l' := by decide
    rw [lower, value]
    rfl
  cases spelled : natDigits n with
  | nil => exact absurd spelled (natDigits_ne_nil n)
  | cons c rest =>
    have digit : c.isDigit := natDigits_isDigit (spelled ▸ List.mem_cons_self)
    have word := isIdentChar_of_isDigit digit
    rw [spelled, List.cons_append] at number
    exact .lexeme (solid_of_isIdentChar word) ((read_digit digit).trans number) (by simp) .done

/-! ## Equations -/

/-- A name and two equality signs, before whatever follows. -/
theorem passes_equation {name : String} (named : isName name) (rest : List Char) :
    Passes 0 (name.toList ++ " == ".toList ++ rest)
      [⟨.ident name, 0⟩, ⟨.comparison .eq, name.length + 1⟩] (name.length + 4) rest := by
  have stops : ∀ d ∈ (" == ".toList ++ rest).head?, isIdentChar d = false := by
    rintro d ⟨⟩
    decide
  have word := passes_name named stops 0
  rw [Nat.zero_add, ← List.append_assoc] at word
  exact word.trans (.spacing rfl (.lexeme rfl rfl (by simp) (.spacing rfl .stay)))

/-- A name, two equality signs and what follows. -/
theorem Cuts.equation {name : String} (named : isName name) {rest : List Char}
    {tokens : List Token} (cuts : Cuts (name.length + 4) rest tokens) :
    Cuts 0 (name.toList ++ " == ".toList ++ rest)
      (⟨.ident name, 0⟩ :: ⟨.comparison .eq, name.length + 1⟩ :: tokens) :=
  (passes_equation named rest).cuts cuts

end Token

end DocStore
