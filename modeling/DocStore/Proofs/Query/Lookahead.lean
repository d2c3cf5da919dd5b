import DocStore.Proofs.Query.Extents
import DocStore.Proofs.Query.Literals

/-!
# What follows a lexeme

A lexeme is read by looking at no more than the two characters after it.  It is therefore read again
before another text, if that text does not go on with it.

* `Lexeme.opens`: whether an operand may start after a lexeme;
* `Token.Follows`: a text that goes on with a lexeme no more than another text does;
* `Token.read_follows`: such a text may take the other's place, wherever the lexeme stands.
-/

namespace DocStore

open DocStore.Text

/-- Whether an operand may start after a lexeme. -/
def Lexeme.opens : Lexeme → Bool
  | .comparison _ | .arrow | .orOr | .andAnd | .bang | .comma | .openParen => true
  | _ => false

namespace Token

/-- Whether one text goes on with a lexeme only where another text in its place does as well. -/
structure Follows (lexeme : Lexeme) (after after' : List Char) : Prop where
  /-- An operator is gone on with by an equality sign only. -/
  sign : '=' ∈ after'.head? → '=' ∈ after.head?
  /-- A name and a number are gone on with by letters and digits. -/
  word : lexeme.opens = false → ∀ c ∈ after'.head?, isIdentChar c → c ∈ after.head?
  /-- A number is also gone on with by a fraction. -/
  point : lexeme.opens = false → ∀ d rest, after' = '.' :: d :: rest → d.isDigit →
    ∃ d' rest', after = '.' :: d' :: rest' ∧ d'.isDigit

theorem Follows.refl (lexeme : Lexeme) (after : List Char) : Follows lexeme after after where
  sign := id
  word _ _ mem _ := mem
  point _ d rest same digit := ⟨d, rest, same, digit⟩

/-! ## Runs -/

/-- A run of characters ends where it did before, if what follows does not go on with it. -/
theorem span_follows {test : Char → Bool} {r u after after' : List Char}
    (ends : ∀ c ∈ after'.head?, test c → c ∈ after.head?)
    (left : (r ++ after).dropWhile test = u ++ after) :
    (r ++ after').takeWhile test = (r ++ after).takeWhile test ∧
      (r ++ after').dropWhile test = u ++ after' := by
  have whole := List.takeWhile_append_dropWhile (p := test) (l := r ++ after)
  rw [left, ← List.append_assoc] at whole
  have same : r = (r ++ after).takeWhile test ++ u := (List.append_cancel_right whole).symm
  have passes : ∀ c ∈ (r ++ after).takeWhile test, test c := fun c => List.mem_takeWhile_imp
  have stopped : ∀ c ∈ (u ++ after).head?, test c = false := by
    intro c mem
    have head := List.head?_dropWhile_not test (r ++ after)
    rw [left, Option.mem_def.mp mem] at head
    exact head
  have fails : ∀ c ∈ (u ++ after').head?, test c = false := by
    cases u with
    | nil =>
      intro c mem
      by_contra passed
      have passed := Bool.not_eq_false _ ▸ passed
      exact absurd (stopped c (ends c mem passed)) (by simp [passed])
    | cons d u => exact stopped
  generalize (r ++ after).takeWhile test = run at same passes
  rw [same, List.append_assoc]
  exact takeWhile_run passes fails

/-- What is left of a text after a run is left of the whole text. -/
theorem exists_append_of_dropWhile {test : Char → Bool} {cs u after : List Char}
    (left : cs.dropWhile test = u ++ after) : ∃ r, cs = r ++ after :=
  ⟨cs.takeWhile test ++ u, by rw [List.append_assoc, ← left, List.takeWhile_append_dropWhile]⟩

/-! ## Numbers -/

theorem splitFraction_of_digit {d : Char} (digit : d.isDigit) (rest : List Char) :
    splitFraction ('.' :: d :: rest) =
      ('.' :: d :: rest.takeWhile Char.isDigit, rest.dropWhile Char.isDigit) := by
  rw [splitFraction, if_pos digit]

theorem splitFraction_of_not {cs : List Char}
    (none : ∀ d rest, cs = '.' :: d :: rest → ¬ d.isDigit) : splitFraction cs = ([], cs) := by
  unfold splitFraction
  split
  · rw [if_neg (none _ _ rfl)]
  · rfl

theorem splitExponent_of_digits {mark : Char} {rest : List Char} (exponent : mark = 'e' ∨ mark = 'E')
    (filled : (splitSign rest).2.takeWhile Char.isDigit ≠ []) :
    splitExponent (mark :: rest) =
      (mark :: (splitSign rest).1 ++ (splitSign rest).2.takeWhile Char.isDigit,
        (splitSign rest).2.dropWhile Char.isDigit) := by
  simp [splitExponent, exponent, filled]

theorem splitExponent_of_not {cs : List Char}
    (none : ∀ mark rest, cs = mark :: rest → mark = 'e' ∨ mark = 'E' →
      (splitSign rest).2.takeWhile Char.isDigit = []) : splitExponent cs = ([], cs) := by
  cases cs with
  | nil => rfl
  | cons mark rest =>
    by_cases exponent : mark = 'e' ∨ mark = 'E'
    · simp [splitExponent, none mark rest rfl exponent]
    · simp [splitExponent, exponent]

section

variable {lexeme : Lexeme} {r u after after' : List Char}

theorem splitFraction_follows (follows : Follows lexeme after after') (closed : lexeme.opens = false)
    (left : (splitFraction (r ++ after)).2 = u ++ after) :
    splitFraction (r ++ after') = ((splitFraction (r ++ after)).1, u ++ after') := by
  by_cases fraction : ∃ d rest, r ++ after = '.' :: d :: rest ∧ d.isDigit
  · obtain ⟨d, rest, whole, digit⟩ := fraction
    rw [whole, splitFraction_of_digit digit] at left ⊢
    obtain ⟨r', rfl⟩ : ∃ r', rest = r' ++ after :=
      exists_append_of_dropWhile left
    obtain rfl : r = '.' :: d :: r' := List.append_cancel_right whole
    have ends : ∀ c ∈ after'.head?, c.isDigit → c ∈ after.head? :=
      fun c mem digit => follows.word closed c mem (isIdentChar_of_isDigit digit)
    obtain ⟨taken, dropped⟩ := span_follows ends left
    rw [List.cons_append, List.cons_append, splitFraction_of_digit digit, taken, dropped]
  · have none : ∀ d rest, r ++ after = '.' :: d :: rest → ¬ d.isDigit :=
      fun d rest same digit => fraction ⟨d, rest, same, digit⟩
    rw [splitFraction_of_not none] at left ⊢
    obtain rfl := List.append_cancel_right left
    apply splitFraction_of_not
    rintro d rest same digit
    -- A new fraction would have to lie across the seam, with the point before it or after it.
    rcases r with _ | ⟨c, _ | ⟨c', r⟩⟩
    · obtain ⟨d', rest', same', digit'⟩ := follows.point closed d rest same digit
      exact none d' rest' same' digit'
    · cases same
      have mem := follows.word closed d rfl (isIdentChar_of_isDigit digit)
      obtain ⟨rest', rfl⟩ := List.head?_eq_some_iff.mp mem
      exact none d rest' rfl digit
    · cases same
      exact none d _ rfl digit

theorem splitSign_follows {sign rest : List Char} (filled : rest ≠ [])
    (split : splitSign (sign ++ rest ++ after) = (sign, rest ++ after)) :
    splitSign (sign ++ rest ++ after') = (sign, rest ++ after') := by
  unfold splitSign at split ⊢
  rcases sign with _ | ⟨c, sign⟩
  · obtain ⟨d, rest, rfl⟩ := List.exists_cons_of_ne_nil filled
    simp only [List.nil_append, List.cons_append] at split ⊢
    split at split
    · cases split
    · rename_i plain
      rw [if_neg plain]
  · simp only [List.cons_append] at split ⊢
    split at split
    · rename_i signed
      cases sign with
      | nil => rw [if_pos signed]; rfl
      | cons => cases split
    · cases split

theorem splitExponent_follows (follows : Follows lexeme after after') (closed : lexeme.opens = false)
    (left : (splitExponent (r ++ after)).2 = u ++ after)
    (complete : ∀ c ∈ (u ++ after).head?, c ≠ 'e' ∧ c ≠ 'E') :
    splitExponent (r ++ after') = ((splitExponent (r ++ after)).1, u ++ after') := by
  by_cases exponent : ∃ mark rest, r ++ after = mark :: rest ∧ (mark = 'e' ∨ mark = 'E') ∧
      (splitSign rest).2.takeWhile Char.isDigit ≠ []
  · obtain ⟨mark, rest, whole, letter, filled⟩ := exponent
    rw [whole, splitExponent_of_digits letter filled] at left ⊢
    obtain ⟨signed, -⟩ := splitSign_narrow rest
    obtain ⟨digits, spelled⟩ : ∃ digits, (splitSign rest).2 = digits ++ after :=
      exists_append_of_dropWhile left
    have split : splitSign rest = ((splitSign rest).1, digits ++ after) := by rw [← spelled]
    rw [spelled] at signed left filled ⊢
    generalize (splitSign rest).1 = sign at *
    obtain rfl : rest = sign ++ digits ++ after := by rw [List.append_assoc, signed]
    obtain rfl : r = mark :: (sign ++ digits) :=
      List.append_cancel_right (whole.trans (List.cons_append ..).symm)
    have some : digits ≠ [] := by
      rintro rfl
      have left : ([] ++ after).dropWhile Char.isDigit = u ++ after := left
      have parts := List.takeWhile_append_dropWhile (p := Char.isDigit) (l := [] ++ after)
      rw [left, ← List.append_assoc] at parts
      exact filled (List.append_eq_nil_iff.mp (List.append_cancel_right parts)).1
    have ends : ∀ c ∈ after'.head?, c.isDigit → c ∈ after.head? :=
      fun c mem digit => follows.word closed c mem (isIdentChar_of_isDigit digit)
    obtain ⟨taken, dropped⟩ := span_follows ends left
    have split' : splitSign (sign ++ digits ++ after') = (sign, digits ++ after') :=
      splitSign_follows some split
    have filled' : (splitSign (sign ++ digits ++ after')).2.takeWhile Char.isDigit ≠ [] := by
      rw [split', taken]
      exact filled
    rw [List.cons_append, splitExponent_of_digits letter filled', split', taken, dropped]
  · have none : ∀ mark rest, r ++ after = mark :: rest → mark = 'e' ∨ mark = 'E' →
        (splitSign rest).2.takeWhile Char.isDigit = [] := by
      intro mark rest whole letter
      by_contra filled
      exact exponent ⟨mark, rest, whole, letter, filled⟩
    rw [splitExponent_of_not none] at left ⊢
    obtain rfl := List.append_cancel_right left
    apply splitExponent_of_not
    rintro mark rest same letter
    exfalso
    have head : mark ∈ (r ++ after).head? := by
      cases r with
      | nil =>
        have word : isIdentChar mark := by rcases letter with rfl | rfl <;> decide
        exact follows.word closed mark (List.head?_eq_some_iff.mpr ⟨rest, same⟩) word
      | cons => cases same; rfl
    obtain ⟨lower, upper⟩ := complete mark head
    exact letter.elim lower upper

/-- A numeral is cut where it was before, if what follows does not go on with it. -/
theorem numeral_follows (follows : Follows lexeme after after') (closed : lexeme.opens = false)
    (left : (splitExponent (splitFraction ((r ++ after).dropWhile Char.isDigit)).2).2 = u ++ after)
    (complete : ∀ c ∈ (u ++ after).head?, c ≠ 'e' ∧ c ≠ 'E') :
    (r ++ after').takeWhile Char.isDigit = (r ++ after).takeWhile Char.isDigit ∧
      (splitFraction ((r ++ after').dropWhile Char.isDigit)).1 =
        (splitFraction ((r ++ after).dropWhile Char.isDigit)).1 ∧
      splitExponent (splitFraction ((r ++ after').dropWhile Char.isDigit)).2 =
        ((splitExponent (splitFraction ((r ++ after).dropWhile Char.isDigit)).2).1,
          u ++ after') := by
  -- What is left after each part ends in `after`: backwards from the last part, this gives what the
  -- part before it was cut from.
  have fraction := (splitFraction_narrow ((r ++ after).dropWhile Char.isDigit)).1
  have exponent :=
    (splitExponent_narrow (splitFraction ((r ++ after).dropWhile Char.isDigit)).2).1
  rw [left, ← List.append_assoc] at exponent
  obtain ⟨behind, spelled⟩ :
      ∃ behind, (splitFraction ((r ++ after).dropWhile Char.isDigit)).2 = behind ++ after :=
    ⟨_, exponent.symm⟩
  rw [spelled, ← List.append_assoc] at fraction
  obtain ⟨point, dropped⟩ : ∃ point, (r ++ after).dropWhile Char.isDigit = point ++ after :=
    ⟨_, fraction.symm⟩
  have ends : ∀ c ∈ after'.head?, c.isDigit → c ∈ after.head? :=
    fun c mem digit => follows.word closed c mem (isIdentChar_of_isDigit digit)
  obtain ⟨taken, dropped'⟩ := span_follows ends dropped
  rw [dropped] at left spelled ⊢
  have fraction' := splitFraction_follows follows closed spelled
  rw [spelled] at left ⊢
  have exponent' := splitExponent_follows follows closed left complete
  rw [dropped', fraction', exponent']
  exact ⟨taken, rfl, rfl⟩

/-- What the digits of a numeral make does not depend on where they stand. -/
theorem unmarkedValue_later {start : Nat} {digits : List Char} {real : Bool} {v : Value}
    (read : unmarkedValue start digits real = .ok v) (start' : Nat) :
    unmarkedValue start' digits real = .ok v := by
  unfold unmarkedValue at read ⊢
  split
  · rename_i fractional
    rw [if_pos fractional] at read
    exact literal_eq_ok.mpr (literal_eq_ok.mp read)
  · rename_i whole
    rw [if_neg whole] at read
    exact literal_eq_ok.mpr (literal_eq_ok.mp read)

/-- Nor does what they make with a suffix, and no suffix is the mark of an exponent. -/
theorem markedValue_later {start : Nat} {digits : List Char} {real : Bool} {mark : Char} {v : Value}
    (read : markedValue start digits real mark = .ok v) (start' : Nat) :
    markedValue start' digits real mark = .ok v ∧ mark ≠ 'e' := by
  unfold markedValue at read ⊢
  split at read
  · rename_i long
    rw [if_pos long]
    simp only [Bool.and_eq_true, decide_eq_true_eq] at long
    exact ⟨literal_eq_ok.mpr (literal_eq_ok.mp read), by simp [long.1]⟩
  · rename_i long
    rw [if_neg long]
    split at read
    · rename_i single
      rw [if_pos single]
      exact ⟨literal_eq_ok.mpr (literal_eq_ok.mp read), by simp [single]⟩
    · rename_i single
      rw [if_neg single]
      split at read
      · rename_i double
        rw [if_pos double]
        exact ⟨literal_eq_ok.mpr (literal_eq_ok.mp read), by simp [double]⟩
      · rename_i double
        rw [if_neg double]
        split at read
        · rename_i decimal
          rw [if_pos decimal]
          exact ⟨literal_eq_ok.mpr (literal_eq_ok.mp read), by simp [decimal]⟩
        · cases read

/-- A numeral without suffix is left where no letter goes on with it. -/
theorem readNumber_unmarked {cs left digits : List Char} {real : Bool}
    (ends : ∀ c ∈ left.head?, ¬ c.isAlpha)
    (whole : cs.takeWhile Char.isDigit ++ (splitFraction (cs.dropWhile Char.isDigit)).1 ++
      (splitExponent (splitFraction (cs.dropWhile Char.isDigit)).2).1 = digits)
    (marked : (!(splitFraction (cs.dropWhile Char.isDigit)).1.isEmpty ||
      !(splitExponent (splitFraction (cs.dropWhile Char.isDigit)).2).1.isEmpty) = real)
    (rest : (splitExponent (splitFraction (cs.dropWhile Char.isDigit)).2).2 = left)
    (start : Nat) : readNumber start cs =
      (unmarkedValue start digits real).map fun v => (.number v, start + digits.length, left) := by
  unfold readNumber
  dsimp only
  rw [whole, marked, rest]
  cases left with
  | nil => rfl
  | cons c left => simp only [if_neg (ends c rfl)]

/-- Where no letter goes on with a numeral, none goes on with it in another text's place. -/
theorem Follows.unmarked (follows : Follows lexeme after after') (closed : lexeme.opens = false)
    (ends : ∀ c ∈ after.head?, ¬ c.isAlpha) : ∀ c ∈ after'.head?, ¬ c.isAlpha := by
  intro c mem letter
  have word : isIdentChar c := by simp [isIdentChar, Char.isAlphanum, letter]
  exact ends c (follows.word closed c mem word) letter

/-- The mark of an exponent is a letter. -/
theorem no_exponent {cs : List Char} (ends : ∀ c ∈ cs.head?, ¬ c.isAlpha) :
    ∀ c ∈ cs.head?, c ≠ 'e' ∧ c ≠ 'E' := by
  intro c mem
  constructor
  all_goals
    rintro rfl
    exact ends _ mem (by decide)

/-- A numeral is read again before a text that does not go on with it. -/
theorem readNumber_follows {start next : Nat}
    (found : readNumber start (r ++ after) = .ok (lexeme, next, after))
    (follows : Follows lexeme after after') (start' : Nat) :
    ∃ next', readNumber start' (r ++ after') = .ok (lexeme, next', after') := by
  unfold readNumber at found
  dsimp only at found
  split at found
  · rename_i c rest left
    split at found
    · rename_i letter
      obtain ⟨v, read, same⟩ := map_eq_ok.mp found
      cases same
      obtain ⟨later, mark⟩ := markedValue_later read start'
      have complete : ∀ d ∈ ([c] ++ after).head?, d ≠ 'e' ∧ d ≠ 'E' := by
        rintro d ⟨⟩
        constructor
        all_goals
          rintro rfl
          exact mark (by decide)
      -- The suffix is read, too: it stands between the numeral and what follows.
      obtain ⟨digits, fraction, exponent⟩ := numeral_follows follows rfl (u := [c]) left complete
      unfold readNumber
      dsimp only
      rw [digits, fraction, exponent]
      dsimp only [List.singleton_append]
      rw [if_pos letter, later]
      exact ⟨_, rfl⟩
    · rename_i other
      obtain ⟨v, read, same⟩ := map_eq_ok.mp found
      cases same
      have ends : ∀ d ∈ (c :: rest).head?, ¬ d.isAlpha := by
        rintro d ⟨⟩
        exact other
      obtain ⟨digits, fraction, exponent⟩ :=
        numeral_follows follows rfl (u := []) left (no_exponent ends)
      rw [readNumber_unmarked (follows.unmarked rfl ends) rfl rfl (by rw [exponent]; rfl), digits,
        fraction, exponent, unmarkedValue_later read start']
      exact ⟨_, rfl⟩
  · rename_i left
    obtain ⟨v, read, same⟩ := map_eq_ok.mp found
    cases same
    obtain ⟨digits, fraction, exponent⟩ := numeral_follows follows rfl (u := []) left nofun
    rw [readNumber_unmarked (follows.unmarked rfl nofun) rfl rfl (by rw [exponent]; rfl), digits,
      fraction, exponent, unmarkedValue_later read start']
    exact ⟨_, rfl⟩

end

/-! ## Strings -/

/-- A string is read again before any text: nothing after the closing quote is looked at. -/
theorem readString_follows {start offset next : Nat} {cs after content : List Char}
    (found : readString start offset cs = .ok (content, next, after)) :
    ∃ taken, cs = taken ++ after ∧ ∀ start' offset' after',
      ∃ next', readString start' offset' (taken ++ after') = .ok (content, next', after') := by
  fun_induction readString start offset cs generalizing content with
  | case1 | case3 | case5 => cases found
  | case2 =>
    cases found
    exact ⟨['"'], rfl, fun _ offset' _ => ⟨offset' + 1, rfl⟩⟩
  | case4 offset c rest d escape ih =>
    obtain ⟨⟨content, next, after⟩, inside, same⟩ := map_eq_ok.mp found
    cases same
    obtain ⟨taken, rfl, again⟩ := ih inside
    refine ⟨'\\' :: c :: taken, rfl, fun start' offset' after' => ?_⟩
    obtain ⟨next', inside'⟩ := again start' (offset' + 2) after'
    refine ⟨next', ?_⟩
    simp only [List.cons_append, readString, escape, inside', Except.map]
  | case6 offset c rest quote single escaped ih =>
    obtain ⟨⟨content, next, after⟩, inside, same⟩ := map_eq_ok.mp found
    cases same
    obtain ⟨taken, rfl, again⟩ := ih inside
    refine ⟨c :: taken, rfl, fun start' offset' after' => ?_⟩
    obtain ⟨next', inside'⟩ := again start' (offset' + c.utf8Size) after'
    have plain : c ≠ '\\' := by
      rintro rfl
      cases rest : taken ++ after with
      | nil => exact single rfl rest
      | cons d rest' => exact escaped d rest' rfl rest
    refine ⟨next', ?_⟩
    rw [List.cons_append, readString]
    · simp only [inside', Except.map]
    · exact quote
    · exact fun same _ => plain same
    · exact fun d rest' same _ => plain same

/-! ## Lexemes -/

/-- Whether a lexeme takes what is before a text, and is read again, anywhere, before a text that
does not go on with it. -/
def Again (c : Char) (rest : List Char) (lexeme : Lexeme) (after : List Char) : Prop :=
  ∃ taken, rest = taken ++ after ∧ ∀ after', Follows lexeme after after' →
    ∀ offset', ∃ next', read offset' c (taken ++ after') = .ok (lexeme, next', after')

section

variable {offset next : Nat} {c : Char} {rest after : List Char} {lexeme : Lexeme}

theorem oneOrTwo_one {two one : Lexeme} (single : '=' ∉ rest.head?) :
    oneOrTwo offset '=' two one rest = .ok (one, offset + 1, rest) := by
  cases rest with
  | nil => rfl
  | cons d rest =>
    have other : d ≠ '=' := by
      rintro rfl
      exact single rfl
    rw [oneOrTwo, if_neg other]

theorem oneOrTwo_follows {two one : Lexeme}
    (reads : ∀ offset rest, read offset c rest = oneOrTwo offset '=' two one rest)
    (found : oneOrTwo offset '=' two one rest = .ok (lexeme, next, after)) :
    Again c rest lexeme after := by
  by_cases sign : '=' ∈ rest.head?
  · obtain ⟨rest, rfl⟩ := List.head?_eq_some_iff.mp sign
    rw [oneOrTwo, if_pos rfl] at found
    cases found
    exact ⟨['='], rfl, fun after' _ offset' => ⟨offset' + 2, reads offset' _⟩⟩
  · rw [oneOrTwo_one sign] at found
    cases found
    refine ⟨[], rfl, fun after' follows offset' => ⟨offset' + 1, ?_⟩⟩
    rw [reads, List.nil_append, oneOrTwo_one fun mem => sign (follows.sign mem)]

theorem doubled_follows {d : Char}
    (reads : ∀ offset rest, read offset d (d :: rest) = .ok (lexeme, offset + 2, rest))
    (doubled : rest.head? = some d) : Again d rest lexeme (rest.drop 1) := by
  obtain ⟨rest, rfl⟩ := List.head?_eq_some_iff.mp doubled
  exact ⟨[d], rfl, fun after' _ offset' => ⟨offset' + 2, reads offset' after'⟩⟩

theorem word_follows (starts : isIdentStart c) :
    Again c rest (.ident (String.ofList (c :: rest.takeWhile isIdentChar)))
      (rest.dropWhile isIdentChar) := by
  refine ⟨rest.takeWhile isIdentChar, (List.takeWhile_append_dropWhile ..).symm,
    fun after' follows offset' => ⟨_, read_name starts (fun d => List.mem_takeWhile_imp) ?_⟩⟩
  intro d mem
  by_contra word
  have stopped := List.head?_dropWhile_not isIdentChar rest
  rw [Option.mem_def.mp (follows.word rfl d mem (by simpa using word))] at stopped
  exact word stopped

theorem number_follows (digit : c.isDigit)
    (found : readNumber offset (c :: rest) = .ok (lexeme, next, after)) :
    Again c rest lexeme after := by
  obtain ⟨taken, rfl, -⟩ := (readNumber_stays offset rest digit).ends lexeme next after found
  refine ⟨taken, rfl, fun after' follows offset' => ?_⟩
  rw [read_digit digit]
  exact readNumber_follows (r := c :: taken) found follows offset'

theorem read_again (found : read offset c rest = .ok (lexeme, next, after)) :
    Again c rest lexeme after := by
  unfold read at found
  split at found
  case h_7 =>
    obtain ⟨⟨content, next, after⟩, inside, same⟩ := map_eq_ok.mp found
    cases same
    obtain ⟨taken, rfl, again⟩ := readString_follows inside
    refine ⟨taken, rfl, fun after' _ offset' => ?_⟩
    obtain ⟨next', inside'⟩ := again offset' (offset' + 1) after'
    exact ⟨next', by simp only [read, inside', Except.map]⟩
  case h_8 =>
    split at found
    · cases found
      exact ⟨['='], rfl, fun after' _ offset' => ⟨offset' + 2, rfl⟩⟩
    · cases found
      exact ⟨['>'], rfl, fun after' _ offset' => ⟨offset' + 2, rfl⟩⟩
    · cases found
  case h_9 | h_10 | h_11 => exact oneOrTwo_follows (fun _ _ => rfl) found
  case h_12 =>
    split at found
    · rename_i doubled
      simp only [Bool.and_eq_true, decide_eq_true_eq] at doubled
      obtain ⟨rfl, second⟩ := doubled
      cases found
      exact doubled_follows (fun _ _ => rfl) second
    split at found
    · rename_i doubled
      simp only [Bool.and_eq_true, decide_eq_true_eq] at doubled
      obtain ⟨rfl, second⟩ := doubled
      cases found
      exact doubled_follows (fun _ _ => rfl) second
    split at found
    · rename_i digit
      exact number_follows digit found
    split at found
    · rename_i starts
      cases found
      exact word_follows starts
    · cases found
  all_goals
    cases found
    exact ⟨[], rfl, fun after' _ offset' => ⟨offset' + 1, rfl⟩⟩

/-- A lexeme is read again before a text that does not go on with it, and moves on as far. -/
theorem read_follows (found : read offset c rest = .ok (lexeme, next, after)) :
    ∃ taken, rest = taken ++ after ∧ next = offset + c.utf8Size + String.utf8Len taken ∧
      ∀ after', Follows lexeme after after' → ∀ offset', read offset' c (taken ++ after') =
        .ok (lexeme, offset' + c.utf8Size + String.utf8Len taken, after') := by
  obtain ⟨taken, rfl, again⟩ := read_again found
  have moved {offset next : Nat} {after' : List Char}
      (found : read offset c (taken ++ after') = .ok (lexeme, next, after')) :
      next = offset + c.utf8Size + String.utf8Len taken := by
    obtain ⟨taken', same, moved⟩ := read_reaches found
    rw [moved, List.append_cancel_right same]
  refine ⟨taken, rfl, moved found, fun after' follows offset' => ?_⟩
  obtain ⟨next', found'⟩ := again after' follows offset'
  rw [found', moved found']

end

end Token

end DocStore
