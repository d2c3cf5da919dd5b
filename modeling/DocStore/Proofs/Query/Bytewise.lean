import DocStore.Proofs.Query.Lookahead
import DocStore.Proofs.Text.Bytes

/-!
# Texts walked by bytes

A text may be walked by the positions of its bytes: single bytes are looked at, and parts of the
text are cut out between two positions.  Such a cut fails where a position lies inside a character
or beyond the text.  Walked this way, no text is ever cut where a cut fails, and its tokens are
those that are read from its characters.

* `splitAt?`, `splitAt?_isSome_iff`: cuts, and where they fail;
* `Bytewise.peek`, `Bytewise.slice?`: what is looked at and what is cut out;
* `Bytewise.scan`: the tokens of a text, walked by bytes;
* `Bytewise.scan_eq`: no cut fails, and the tokens are the same.
-/

namespace DocStore

open DocStore.Text

/-! ## Cuts -/

/-- Characters before and after a byte position, if no character lies on both sides of it. -/
def splitAt? : List Char → Nat → Option (List Char × List Char)
  | cs, 0 => some ([], cs)
  | [], _ + 1 => none
  | c :: cs, n + 1 =>
    if c.utf8Size ≤ n + 1 then
      (splitAt? cs (n + 1 - c.utf8Size)).map fun r => (c :: r.1, r.2)
    else none

theorem splitAt?_append (before after : List Char) :
    splitAt? (before ++ after) (String.utf8Len before) = some (before, after) := by
  induction before with
  | nil => rw [List.nil_append, String.utf8Len_nil, splitAt?]
  | cons c before ih =>
    have positive := c.utf8Size_pos
    obtain ⟨n, size⟩ : ∃ n, String.utf8Len (c :: before) = n + 1 :=
      Nat.exists_eq_add_one_of_ne_zero (by rw [String.utf8Len_cons]; omega)
    have rest : n + 1 - c.utf8Size = String.utf8Len before := by
      rw [← size, String.utf8Len_cons, Nat.add_sub_cancel]
    have fits : c.utf8Size ≤ n + 1 := by
      rw [← size, String.utf8Len_cons]
      exact Nat.le_add_left _ _
    rw [size, List.cons_append, splitAt?, if_pos fits, rest, ih]
    rfl

/-- A cut succeeds at the end of a character. -/
theorem splitAt?_eq_some {cs before after : List Char} {n : Nat}
    (cut : splitAt? cs n = some (before, after)) :
    cs = before ++ after ∧ n = String.utf8Len before := by
  fun_induction splitAt? cs n generalizing before with
  | case1 cs =>
    cases cut
    exact ⟨rfl, rfl⟩
  | case2 => cases cut
  | case3 c cs n fits ih =>
    obtain ⟨⟨before', after'⟩, inner, same⟩ := Option.map_eq_some_iff.mp cut
    cases same
    obtain ⟨rfl, size⟩ := ih inner
    refine ⟨rfl, ?_⟩
    rw [String.utf8Len_cons, ← size]
    omega
  | case4 => cases cut

/-- A text can be cut at the boundaries of its characters and nowhere else. -/
theorem splitAt?_isSome_iff {s : String} {n : Nat} :
    (splitAt? s.toList n).isSome ↔ (⟨n⟩ : String.Pos.Raw).IsValid s := by
  rw [String.Pos.Raw.isValid_iff_exists_append]
  constructor
  · intro cut
    obtain ⟨⟨before, after⟩, cut⟩ := Option.isSome_iff_exists.mp cut
    obtain ⟨whole, rfl⟩ := splitAt?_eq_some cut
    refine ⟨String.ofList before, String.ofList after, ?_, ?_⟩
    · rw [← String.ofList_append, ← whole, String.ofList_toList]
    · exact String.Pos.Raw.ext (String.utf8ByteSize_ofList before).symm
  · rintro ⟨before, after, rfl, same⟩
    have size : n = String.utf8Len before.toList := by
      rw [String.utf8Len_toList]
      exact congrArg String.Pos.Raw.byteIdx same
    rw [size, String.toList_append, splitAt?_append]
    rfl

/-! ## Bytes -/

/-- The first byte of a character is the character, or no ASCII character. -/
theorem first_byte (c : Char) : ∃ b bytes, String.utf8EncodeChar c = b :: bytes ∧
    if c.utf8Size = 1 then b.toNat = c.toNat ∧ c.toNat < 128 else 128 ≤ b.toNat := by
  by_cases single : c.utf8Size = 1
  · have bound := UInt32.le_iff_toNat_le.mp (Char.utf8Size_eq_one_iff.mp single)
    have ascii : c.toNat < 128 := Nat.lt_succ_of_le bound
    refine ⟨_, _, String.utf8EncodeChar_eq_singleton single, ?_⟩
    rw [if_pos single, UInt32.toNat_toUInt8]
    exact ⟨Nat.mod_eq_of_lt (Nat.lt_trans ascii (by decide)), ascii⟩
  · have wide : ¬ c.val.toNat ≤ 0x7f := fun bound =>
      single (Char.utf8Size_eq_one_iff.mpr (UInt32.le_iff_toNat_le.mpr bound))
    simp only [if_neg single]
    unfold String.utf8EncodeChar
    dsimp only
    rw [if_neg wide]
    split_ifs
    all_goals
      refine ⟨_, _, rfl, ?_⟩
      rw [UInt8.toNat_ofNat']
      omega

theorem length_utf8 (cs : List Char) :
    (cs.flatMap String.utf8EncodeChar).length = String.utf8Len cs := by
  induction cs with
  | nil => rfl
  | cons c cs ih =>
    rw [List.flatMap_cons, List.length_append, String.length_utf8EncodeChar, ih,
      String.utf8Len_cons, Nat.add_comm]

namespace Bytewise

/-- The ASCII character whose byte is at a position. -/
def peek (s : String) (pos : Nat) : Option Char :=
  (bytesOf s)[pos]?.bind fun b => if b.toNat < 128 then some (Char.ofNat b.toNat) else none

/-- The characters from a position on. -/
def from? (s : String) (pos : Nat) : Option (List Char) := (splitAt? s.toList pos).map Prod.snd

/-- The characters between two positions. -/
def slice? (s : String) (start stop : Nat) : Option (List Char) := do
  let rest ← from? s start
  if start ≤ stop then (splitAt? rest (stop - start)).map Prod.fst else none

/-- Whether characters are those of a text from a position on. -/
abbrev At (s : String) (pos : Nat) (cs : List Char) : Prop := Token.Reaches 0 s.toList pos cs

section

variable {s : String} {pos : Nat} {cs taken : List Char}

theorem from?_eq (place : At s pos cs) : from? s pos = some cs := by
  obtain ⟨before, whole, rfl⟩ := place
  rw [from?, whole, Nat.zero_add, splitAt?_append]
  rfl

theorem slice?_eq (place : At s pos (taken ++ cs)) {stop : Nat}
    (size : stop = pos + String.utf8Len taken) : slice? s pos stop = some taken := by
  have le : pos ≤ stop := size ▸ Nat.le_add_right _ _
  rw [slice?, from?_eq place, Option.bind_eq_bind, Option.bind_some, if_pos le, size,
    Nat.add_sub_cancel_left, splitAt?_append]
  rfl

/-- The character that is looked at is the next one, if it is an ASCII character. -/
theorem peek_eq (place : At s pos cs) : peek s pos = cs.head?.filter fun c => c.utf8Size = 1 := by
  obtain ⟨before, whole, rfl⟩ := place
  rw [peek, bytesOf_eq, whole, List.flatMap_append, Nat.zero_add, ← length_utf8,
    List.getElem?_append_right (Nat.le_refl _), Nat.sub_self]
  cases cs with
  | nil => rfl
  | cons c rest =>
    obtain ⟨b, bytes, encoded, first⟩ := first_byte c
    rw [List.flatMap_cons, encoded]
    split at first
    · rename_i single
      obtain ⟨same, ascii⟩ := first
      simp [same, ascii, single, Option.filter_some]
    · rename_i wide
      simp [Nat.not_lt.mpr first, wide, Option.filter_some]

theorem peek_cons {c : Char} (place : At s pos (c :: cs)) (single : c.utf8Size = 1) :
    peek s pos = some c := by
  rw [peek_eq place, List.head?_cons, Option.filter_some, if_pos (decide_eq_true single)]

theorem peek_wide {c : Char} (place : At s pos (c :: cs)) (wide : c.utf8Size ≠ 1) :
    peek s pos = none := by
  rw [peek_eq place, List.head?_cons, Option.filter_some, if_neg (by simpa using wide)]

/-- A test that ASCII characters only pass sees what it would see of the characters. -/
theorem peek_filter {test : Char → Bool} (narrow : ∀ c, test c → c.utf8Size = 1)
    (place : At s pos cs) : (peek s pos).filter test = cs.head?.filter test := by
  rw [peek_eq place, Option.filter_filter]
  congr 1
  funext c
  by_cases passes : test c
  · simp [passes, narrow c passes]
  · simp [passes]

theorem peek_any {test : Char → Bool} (narrow : ∀ c, test c → c.utf8Size = 1)
    (place : At s pos cs) : (peek s pos).any test = cs.head?.any test := by
  rw [← Option.isSome_filter, peek_filter narrow place, Option.isSome_filter]

theorem exists_of_peek_any {test : Char → Bool} (narrow : ∀ c, test c → c.utf8Size = 1)
    (place : At s pos cs) (seen : (peek s pos).any test) : ∃ c rest, cs = c :: rest ∧ test c := by
  rw [peek_any narrow place] at seen
  obtain ⟨c, mem, passes⟩ := (Option.any_eq_true _ _).mp seen
  obtain ⟨rest, rfl⟩ := List.head?_eq_some_iff.mp mem
  exact ⟨c, rest, rfl, passes⟩

/-- An ASCII character is looked at just where it is the next one. -/
theorem peek_eq_some_iff {c : Char} (place : At s pos cs) (single : c.utf8Size = 1) :
    peek s pos = some c ↔ cs.head? = some c := by
  rw [peek_eq place, Option.filter_eq_some_iff]
  exact and_iff_left (decide_eq_true single)

theorem At.next {c : Char} (place : At s pos (c :: cs)) (single : c.utf8Size = 1) :
    At s (pos + 1) cs :=
  place.trans (.one single)

/-- A position is before the end where there is a character. -/
theorem At.lt_iff (place : At s pos cs) : pos < s.utf8ByteSize ↔ cs ≠ [] := by
  obtain ⟨before, whole, rfl⟩ := place
  rw [← String.utf8Len_toList, whole, String.utf8Len_append]
  cases cs with
  | nil => simp
  | cons c rest =>
    have positive := c.utf8Size_pos
    rw [String.utf8Len_cons]
    exact iff_of_true (by omega) (List.cons_ne_nil _ _)

theorem At.length_le (place : At s pos cs) : cs.length ≤ s.length :=
  (Token.Reaches.length_le place).trans_eq (String.length_toList ..)

end

/-! ## Numbers -/

/-- The position after a run of characters, which are no more than those of the text. -/
def runEnd (s : String) (test : Char → Bool) : Nat → Nat → Nat
  | 0, pos => pos
  | fuel + 1, pos => if (peek s pos).any test then runEnd s test fuel (pos + 1) else pos

section

variable (s : String)

def digitsEnd (pos : Nat) : Nat := runEnd s Char.isDigit s.length pos

def fractionEnd (pos : Nat) : Nat :=
  if peek s pos = some '.' && (peek s (pos + 1)).any Char.isDigit then digitsEnd s (pos + 1) else pos

def signEnd (pos : Nat) : Nat :=
  if (peek s pos).any fun c => c = '+' || c = '-' then pos + 1 else pos

def exponentEnd (pos : Nat) : Nat :=
  if ((peek s pos).any fun c => c = 'e' || c = 'E') &&
      (peek s (signEnd s (pos + 1))).any Char.isDigit then
    digitsEnd s (signEnd s (pos + 1))
  else pos

/-- The numeric literal that starts at a position, and the position after it. -/
def readNumber (pos : Nat) : Option (Except QueryError (Lexeme × Nat)) := do
  let whole := digitsEnd s pos
  let fraction := fractionEnd s whole
  let stop := exponentEnd s fraction
  let digits ← slice? s pos stop
  let real := whole < fraction || fraction < stop
  return match (peek s stop).filter Char.isAlpha with
    | some mark =>
      (Token.markedValue pos digits real mark.toLower).map fun v => (.number v, stop + 1)
    | none => (Token.unmarkedValue pos digits real).map fun v => (.number v, stop)

end

section

variable {s : String} {pos : Nat} {cs : List Char}

theorem runEnd_eq {test : Char → Bool} (narrow : ∀ c, test c → c.utf8Size = 1) {fuel : Nat}
    (place : At s pos cs) (enough : cs.length ≤ fuel) :
    runEnd s test fuel pos = pos + (cs.takeWhile test).length := by
  induction fuel generalizing pos cs with
  | zero =>
    obtain rfl := List.length_eq_zero_iff.mp (Nat.le_zero.mp enough)
    rfl
  | succ fuel ih =>
    rw [runEnd, peek_any narrow place]
    cases cs with
    | nil => rfl
    | cons c rest =>
      rw [List.head?_cons, Option.any_some]
      split
      · rename_i passes
        rw [ih (place.next (narrow c passes)) (Nat.le_of_succ_le_succ enough),
          List.takeWhile_cons_of_pos passes, List.length_cons]
        omega
      · rename_i fails
        rw [List.takeWhile_cons_of_neg fails]
        rfl

theorem digitsEnd_eq (place : At s pos cs) :
    digitsEnd s pos = pos + (cs.takeWhile Char.isDigit).length :=
  runEnd_eq (fun _ => Token.utf8Size_of_isDigit) place place.length_le

theorem fractionEnd_eq (place : At s pos cs) :
    fractionEnd s pos = pos + (Token.splitFraction cs).1.length := by
  rw [fractionEnd]
  by_cases fraction : ∃ d rest, cs = '.' :: d :: rest ∧ d.isDigit
  · obtain ⟨d, rest, rfl, digit⟩ := fraction
    have next := place.next rfl
    have seen : (peek s (pos + 1)).any Char.isDigit := by
      rw [peek_any (fun _ => Token.utf8Size_of_isDigit) next]
      exact digit
    rw [peek_cons place rfl, seen, if_pos (by simp), digitsEnd_eq next,
      Token.splitFraction_of_digit digit, List.takeWhile_cons_of_pos digit]
    simp only [List.length_cons]
    omega
  · have none (d : Char) (rest : List Char) (same : cs = '.' :: d :: rest) : ¬ d.isDigit :=
      fun digit => fraction ⟨d, rest, same, digit⟩
    have unseen : ¬ (decide (peek s pos = some '.') && (peek s (pos + 1)).any Char.isDigit) := by
      intro seen
      rw [Bool.and_eq_true, decide_eq_true_eq, peek_eq_some_iff place rfl] at seen
      obtain ⟨rest, rfl⟩ := List.head?_eq_some_iff.mp seen.1
      obtain ⟨d, rest, rfl, digit⟩ :=
        exists_of_peek_any (fun _ => Token.utf8Size_of_isDigit) (place.next rfl) seen.2
      exact none d rest rfl digit
    rw [if_neg unseen, Token.splitFraction_of_not none]
    rfl

theorem utf8Size_of_sign (c : Char) (sign : c = '+' || c = '-') : c.utf8Size = 1 := by
  rw [Bool.or_eq_true, decide_eq_true_eq, decide_eq_true_eq] at sign
  rcases sign with rfl | rfl <;> rfl

theorem utf8Size_of_exponent (c : Char) (mark : c = 'e' || c = 'E') : c.utf8Size = 1 := by
  rw [Bool.or_eq_true, decide_eq_true_eq, decide_eq_true_eq] at mark
  rcases mark with rfl | rfl <;> rfl

theorem signEnd_eq (place : At s pos cs) :
    signEnd s pos = pos + (Token.splitSign cs).1.length := by
  rw [signEnd, peek_any utf8Size_of_sign place]
  cases cs with
  | nil => rfl
  | cons c rest =>
    rw [List.head?_cons, Option.any_some, Token.splitSign]
    split <;> rfl

/-- A position moves on by what is cut off, where that is ASCII characters. -/
theorem At.cut {part rest : List Char} (place : At s pos cs) (whole : part ++ rest = cs)
    (narrow : ∀ c ∈ part, c.utf8Size = 1) : At s (pos + part.length) rest := by
  subst whole
  exact place.trans (.run narrow)

theorem takeWhile_ne_nil {test : Char → Bool} (passes : cs.head?.any test) :
    cs.takeWhile test ≠ [] := by
  cases cs with
  | nil => cases passes
  | cons c rest =>
    have passes : test c := passes
    rw [List.takeWhile_cons_of_pos passes]
    exact List.cons_ne_nil _ _

theorem takeWhile_eq_nil {test : Char → Bool} (fails : ¬ cs.head?.any test) :
    cs.takeWhile test = [] := by
  cases cs with
  | nil => rfl
  | cons c rest => exact List.takeWhile_cons_of_neg fails

theorem exponentEnd_eq (place : At s pos cs) :
    exponentEnd s pos = pos + (Token.splitExponent cs).1.length := by
  rw [exponentEnd, peek_any utf8Size_of_exponent place]
  cases cs with
  | nil => rfl
  | cons c rest =>
    rw [List.head?_cons, Option.any_some]
    by_cases mark : c = 'e' || c = 'E'
    · have next := place.next (utf8Size_of_exponent c mark)
      obtain ⟨whole, narrow⟩ := Token.splitSign_narrow rest
      have digits := next.cut whole narrow
      have letter : c = 'e' ∨ c = 'E' := by simpa using mark
      rw [mark, Bool.true_and, signEnd_eq next, peek_any (fun _ => Token.utf8Size_of_isDigit) digits,
        digitsEnd_eq digits]
      split
      · rename_i digit
        rw [Token.splitExponent_of_digits letter (takeWhile_ne_nil digit)]
        simp only [List.length_append, List.length_cons]
        omega
      · rename_i other
        rw [Token.splitExponent_of_not]
        · rfl
        · rintro _ _ ⟨⟩ -
          exact takeWhile_eq_nil other
    · rw [Bool.eq_false_iff.mpr mark, Bool.false_and, if_neg Bool.false_ne_true,
        Token.splitExponent_of_not]
      · rfl
      · rintro _ _ ⟨⟩ letter
        exact absurd (by simpa using letter) mark

/-- The same numeral is read by bytes as from the characters. -/
theorem readNumber_eq (place : At s pos cs) :
    readNumber s pos = some ((Token.readNumber pos cs).map fun r => (r.1, r.2.1)) := by
  have whole := List.takeWhile_append_dropWhile (p := Char.isDigit) (l := cs)
  obtain ⟨cutFraction, narrowFraction⟩ := Token.splitFraction_narrow (cs.dropWhile Char.isDigit)
  obtain ⟨cutExponent, narrowExponent⟩ :=
    Token.splitExponent_narrow (Token.splitFraction (cs.dropWhile Char.isDigit)).2
  have narrow : ∀ c ∈ cs.takeWhile Char.isDigit, c.utf8Size = 1 :=
    fun c mem => Token.utf8Size_of_isDigit (List.mem_takeWhile_imp mem)
  have point := place.cut whole narrow
  have mark := point.cut cutFraction narrowFraction
  have stop := mark.cut cutExponent narrowExponent
  unfold readNumber Token.readNumber
  dsimp only
  rw [digitsEnd_eq place, fractionEnd_eq point, exponentEnd_eq mark]
  rw [← cutFraction, ← cutExponent] at whole
  generalize (Token.splitExponent (Token.splitFraction (cs.dropWhile Char.isDigit)).2).2 = left at *
  generalize (Token.splitExponent (Token.splitFraction (cs.dropWhile Char.isDigit)).2).1 = exponent at *
  generalize (Token.splitFraction (cs.dropWhile Char.isDigit)).1 = fraction at *
  generalize cs.takeWhile Char.isDigit = digits at *
  have size : pos + digits.length + fraction.length + exponent.length =
      pos + (digits ++ fraction ++ exponent).length := by
    simp only [List.length_append]
    omega
  have ascii : ∀ c ∈ digits ++ fraction ++ exponent, c.utf8Size = 1 :=
    List.forall_mem_append.mpr ⟨List.forall_mem_append.mpr ⟨narrow, narrowFraction⟩, narrowExponent⟩
  have cut : slice? s pos (pos + (digits ++ fraction ++ exponent).length) =
      some (digits ++ fraction ++ exponent) := by
    have place : At s pos (digits ++ fraction ++ exponent ++ left) := by
      rwa [List.append_assoc, List.append_assoc, whole]
    exact slice?_eq place (by rw [utf8Len_eq_length ascii])
  have real : (decide (pos + digits.length < pos + digits.length + fraction.length) ||
      decide (pos + digits.length + fraction.length <
        pos + digits.length + fraction.length + exponent.length)) =
      (!fraction.isEmpty || !exponent.isEmpty) := by
    cases fraction <;> cases exponent <;> simp
  rw [size] at stop
  rw [real, size, cut, peek_filter (fun _ => Token.utf8Size_of_isAlpha) stop, Option.bind_eq_bind,
    Option.bind_some]
  cases left with
  | nil =>
    dsimp only [List.head?_nil, Option.filter_none]
    cases Token.unmarkedValue .. <;> rfl
  | cons c rest =>
    rw [List.head?_cons, Option.filter_some]
    by_cases letter : c.isAlpha
    · simp only [if_pos letter]
      cases Token.markedValue .. <;> rfl
    · simp only [if_neg letter]
      cases Token.unmarkedValue .. <;> rfl

end

/-! ## Strings -/

/-- The rest of a string literal that starts at `start`, read from a position on. -/
def readString (s : String) (start : Nat) : Nat → Nat → Option (Except QueryError (List Char × Nat))
  | 0, _ => none
  | fuel + 1, pos => do
    -- The rest of the text is cut out anew for each character.
    match ← from? s pos with
    | [] => some (Token.fault start .unterminatedString)
    | '"' :: _ => some (.ok ([], pos + 1))
    | ['\\'] => some (Token.fault start .unterminatedString)
    | '\\' :: c :: _ =>
      match Token.escape? c with
      | some d => (readString s start fuel (pos + 2)).map fun r => r.map fun r => (d :: r.1, r.2)
      | none => some (Token.fault pos (.unknownEscape c))
    | c :: _ =>
      (readString s start fuel (pos + c.utf8Size)).map fun r => r.map fun r => (c :: r.1, r.2)

/-- The same string is read by bytes as from the characters. -/
theorem readString_eq {s : String} {start pos fuel : Nat} {cs : List Char} (place : At s pos cs)
    (enough : cs.length < fuel) : readString s start fuel pos =
      some ((Token.readString start pos cs).map fun r => (r.1, r.2.1)) := by
  induction fuel generalizing pos cs with
  | zero => exact absurd enough (Nat.not_lt_zero _)
  | succ fuel ih =>
    rw [readString, from?_eq place, Option.bind_eq_bind, Option.bind_some]
    fun_cases Token.readString start pos cs with
    | case1 | case2 | case3 => rfl
    | case4 _ c rest d escape =>
      have two : At s (pos + 2) rest := place.trans (.two rfl (Token.utf8Size_of_escape escape))
      simp only [escape, ih two (by simp only [List.length_cons] at enough; omega)]
      cases Token.readString .. <;> rfl
    | case5 _ c rest escape =>
      simp only [escape]
      rfl
    | case6 _ c rest quote single escaped =>
      have further := ih (place.trans (.first c)) (Nat.lt_of_succ_lt_succ enough)
      split
      · rename_i same
        cases same
      · rename_i same
        cases same
        exact (quote rfl).elim
      · rename_i same
        cases same
        exact (single rfl rfl).elim
      · rename_i same
        cases same
        exact (escaped _ _ rfl rfl).elim
      · rename_i same
        cases same
        rw [further]
        cases Token.readString .. <;> rfl

/-! ## Lexemes -/

section

variable (s : String) (pos : Nat)

def oneOrTwo (second : Char) (two one : Lexeme) : Except QueryError (Lexeme × Nat) :=
  if peek s (pos + 1) = some second then .ok (two, pos + 2) else .ok (one, pos + 1)

/-- The fault of a character that starts no lexeme. -/
def unexpected : Option (Except QueryError (Lexeme × Nat)) := do
  let rest ← from? s pos
  return Token.fault pos (.unexpectedCharacter (rest.headD '?'))

/-- The name that starts at a position, and the position after it. -/
def readName : Option (Except QueryError (Lexeme × Nat)) := do
  let stop := runEnd s Token.isIdentChar s.length pos
  let name ← slice? s pos stop
  return .ok (.ident (String.ofList name), stop)

/-- The lexeme that starts at a position, and the position after it. -/
def read : Option (Except QueryError (Lexeme × Nat)) :=
  match peek s pos with
  | some '(' => some (.ok (.openParen, pos + 1))
  | some ')' => some (.ok (.closeParen, pos + 1))
  | some ',' => some (.ok (.comma, pos + 1))
  | some '.' => some (.ok (.dot, pos + 1))
  | some '@' => some (.ok (.atSign, pos + 1))
  | some '-' => some (.ok (.minus, pos + 1))
  | some '"' => (readString s pos (s.length + 1) (pos + 1)).map fun r =>
      r.map fun r => (.string (String.ofList r.1), r.2)
  | some '=' =>
    match peek s (pos + 1) with
    | some '=' => some (.ok (.comparison .eq, pos + 2))
    | some '>' => some (.ok (.arrow, pos + 2))
    | _ => some (Token.fault pos .halfOperator)
  | some '!' => some (oneOrTwo s pos '=' (.comparison .ne) .bang)
  | some '<' => some (oneOrTwo s pos '=' (.comparison .le) (.comparison .lt))
  | some '>' => some (oneOrTwo s pos '=' (.comparison .ge) (.comparison .gt))
  | some c =>
    if c = '&' && peek s (pos + 1) = some '&' then some (.ok (.andAnd, pos + 2))
    else if c = '|' && peek s (pos + 1) = some '|' then some (.ok (.orOr, pos + 2))
    else if c.isDigit then readNumber s pos
    else if Token.isIdentStart c then readName s pos
    else unexpected s pos
  | none => unexpected s pos

end

/-- The tokens of a text from a position on. -/
def scanFrom (s : String) : Nat → Nat → Option (Except QueryError (List Token))
  | 0, _ => some (.ok [])
  | fuel + 1, pos =>
    if pos < s.utf8ByteSize then
      if (peek s pos).any isSpacing then scanFrom s fuel (pos + 1)
      else do
        match ← read s pos with
        | .error e => some (.error e)
        | .ok (lexeme, next) =>
          (scanFrom s fuel next).map fun r => r.map fun tokens => ⟨lexeme, pos⟩ :: tokens
    else some (.ok [])

/-- The tokens of a text, or nothing if a cut fails. -/
def scan (s : String) : Option (Except QueryError (List Token)) := scanFrom s s.length 0

section

variable {s : String} {pos : Nat} {cs : List Char}

theorem readName_eq {c : Char} {rest : List Char} (place : At s pos (c :: rest))
    (starts : Token.isIdentStart c) : readName s pos =
      some (.ok (.ident (String.ofList (c :: rest.takeWhile Token.isIdentChar)),
        pos + (c :: rest.takeWhile Token.isIdentChar).length)) := by
  have word := Token.isIdentChar_of_isIdentStart starts
  have narrow (d : Char) : Token.isIdentChar d → d.utf8Size = 1 := Token.utf8Size_of_isIdentChar
  have inside : ∀ d ∈ (c :: rest).takeWhile Token.isIdentChar, d.utf8Size = 1 :=
    fun d mem => narrow d (List.mem_takeWhile_imp mem)
  have whole := List.takeWhile_append_dropWhile (p := Token.isIdentChar) (l := c :: rest)
  rw [readName, runEnd_eq narrow place place.length_le]
  rw [← whole] at place
  rw [slice?_eq place (by rw [utf8Len_eq_length inside]), List.takeWhile_cons_of_pos word]
  rfl

theorem unexpected_eq {c : Char} {rest : List Char} (place : At s pos (c :: rest)) :
    unexpected s pos = some (Token.fault pos (.unexpectedCharacter c)) := by
  rw [unexpected, from?_eq place]
  rfl

theorem oneOrTwo_eq {second : Char} {two one : Lexeme} (next : At s (pos + 1) cs)
    (single : second.utf8Size = 1) : oneOrTwo s pos second two one =
      (Token.oneOrTwo pos second two one cs).map fun r => (r.1, r.2.1) := by
  simp only [oneOrTwo, peek_eq_some_iff next single]
  cases cs with
  | nil => rfl
  | cons d rest =>
    rw [Token.oneOrTwo]
    by_cases same : d = second
    · simp [same, Except.map]
    · simp [same, Except.map]

theorem read_equality (pos : Nat) (cs : List Char) : Token.read pos '=' cs =
    match cs with
    | '=' :: rest => .ok (.comparison .eq, pos + 2, rest)
    | '>' :: rest => .ok (.arrow, pos + 2, rest)
    | _ => Token.fault pos .halfOperator :=
  rfl

/-- An equality sign is half an operator. -/
theorem half_eq (next : At s (pos + 1) cs) :
    (match peek s (pos + 1) with
      | some '=' => some (.ok (.comparison .eq, pos + 2))
      | some '>' => some (.ok (.arrow, pos + 2))
      | _ => some (Token.fault pos .halfOperator)) =
      some ((Token.read pos '=' cs).map fun r => (r.1, r.2.1)) := by
  have equality := peek_eq_some_iff next (c := '=') rfl
  have arrow := peek_eq_some_iff next (c := '>') rfl
  split
  · rename_i seen
    obtain ⟨rest, rfl⟩ := List.head?_eq_some_iff.mp (equality.mp seen)
    rfl
  · rename_i seen
    obtain ⟨rest, rfl⟩ := List.head?_eq_some_iff.mp (arrow.mp seen)
    rfl
  · rename_i equality' arrow'
    rw [read_equality]
    split
    · exact absurd (equality.mpr rfl) equality'
    · exact absurd (arrow.mpr rfl) arrow'
    · rfl

/-- A character of several bytes starts no lexeme. -/
theorem read_wide {c : Char} {rest : List Char} (wide : c.utf8Size ≠ 1) :
    Token.read pos c rest = Token.fault pos (.unexpectedCharacter c) := by
  unfold Token.read
  split
  case h_12 =>
    have single : c ≠ '&' := by
      rintro rfl
      exact wide rfl
    have double : c ≠ '|' := by
      rintro rfl
      exact wide rfl
    have digit : ¬ c.isDigit := fun digit => wide (Token.utf8Size_of_isDigit digit)
    have starts : ¬ Token.isIdentStart c := fun starts =>
      wide (Token.utf8Size_of_isIdentChar (Token.isIdentChar_of_isIdentStart starts))
    simp [single, double, digit, starts]
  all_goals exact absurd rfl wide

/-- The same lexeme is read by bytes as from the characters. -/
theorem read_eq {c : Char} {rest : List Char} (place : At s pos (c :: rest)) :
    read s pos = some ((Token.read pos c rest).map fun r => (r.1, r.2.1)) := by
  by_cases narrow : c.utf8Size = 1
  · have next := place.next narrow
    unfold read
    rw [peek_cons place narrow]
    split
    case h_7 same =>
      cases same
      rw [readString_eq next (Nat.lt_succ_of_le next.length_le)]
      dsimp only [Token.read]
      cases Token.readString .. <;> rfl
    case h_8 same =>
      cases same
      exact half_eq next
    case h_9 same | h_10 same | h_11 same =>
      cases same
      exact congrArg some (oneOrTwo_eq next rfl)
    case h_12 same =>
      cases same
      rw [Token.read]
      · have ampersand := peek_eq_some_iff next (c := '&') rfl
        have bar := peek_eq_some_iff next (c := '|') rfl
        simp only [ampersand, bar]
        split
        · rfl
        split
        · rfl
        split
        · exact readNumber_eq place
        split
        · rename_i starts
          exact readName_eq place starts
        · exact unexpected_eq place
      all_goals assumption
    case h_13 same => cases same
    all_goals
      rename_i same
      cases same
      rfl
  · rw [read, peek_wide place narrow, unexpected_eq place, read_wide narrow]
    rfl

theorem scanFrom_eq {fuel : Nat} (place : At s pos cs) :
    scanFrom s fuel pos = some (Token.scanFrom fuel pos cs) := by
  induction fuel generalizing pos cs with
  | zero => rfl
  | succ fuel ih =>
    rw [scanFrom, peek_any (fun _ => Token.utf8Size_of_isSpacing) place]
    cases cs with
    | nil => rw [if_neg (place.lt_iff.not.mpr (by simp)), Token.scanFrom]
    | cons c rest =>
      rw [if_pos (place.lt_iff.mpr (by simp)), Token.scanFrom, List.head?_cons, Option.any_some]
      split
      · rename_i blank
        exact ih (place.next (Token.utf8Size_of_isSpacing blank))
      · rw [read_eq place]
        rcases found : Token.read pos c rest with e | ⟨lexeme, next, after⟩
        · rfl
        · have further : At s next after := place.trans (Token.reaches_of_read found)
          simp only [Except.map, Option.bind_eq_bind, Option.bind_some, ih further]
          rfl

end

/-- No cut fails, and the tokens of a text are the same whichever way it is walked. -/
theorem scan_eq (s : String) : scan s = some (Token.scan s) := by
  rw [scan, Token.scan, String.length_toList]
  exact scanFrom_eq ⟨[], rfl, rfl⟩

end Bytewise

end DocStore
