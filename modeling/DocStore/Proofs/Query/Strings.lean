import DocStore.Proofs.Query.Numerals
import DocStore.Proofs.Query.Respelling

/-!
# String literals

Any string can be written as a literal: a backslash before each quote and each backslash, and
everything else as it is.  The literal is read as the string and ends at its closing quote.  Nothing
in the string can be taken for a part of the text around it.

* `stringLiteral`: the literal of a string;
* `Token.read_stringLiteral`: it is read as the string;
* `Token.Cuts.before`, `Token.Cuts.moved`: the text around a literal is cut as it was;
* `string_literal_read`: what texts with a literal are read as.
-/

namespace DocStore

/-- The characters of a string as they are written between quotes. -/
def escaped : List Char → List Char
  | [] => []
  | c :: rest => if c = '"' ∨ c = '\\' then '\\' :: c :: escaped rest else c :: escaped rest

/-- The literal of a string. -/
def stringLiteral (s : String) : String := String.ofList ('"' :: escaped s.toList ++ ['"'])

theorem stringLiteral_toList (s : String) :
    (stringLiteral s).toList = '"' :: escaped s.toList ++ ['"'] :=
  String.toList_ofList

theorem stringLiteral_size (s : String) :
    (stringLiteral s).utf8ByteSize = String.utf8Len (escaped s.toList) + 2 := by
  have quote : '"'.utf8Size = 1 := rfl
  rw [stringLiteral, String.utf8ByteSize_ofList, String.utf8Len_append, String.utf8Len_cons,
    String.utf8Len_cons, String.utf8Len_nil, quote]

namespace Token

/-! ## Reading -/

/-- What is written between quotes is read again, up to the quote after it. -/
theorem readString_escaped (start offset : Nat) (content rest : List Char) :
    readString start offset (escaped content ++ '"' :: rest) =
      .ok (content, offset + String.utf8Len (escaped content) + 1, rest) := by
  induction content generalizing offset with
  | nil => rfl
  | cons c content ih =>
    rw [escaped]
    split
    · rename_i special
      have own : escape? c = some c := by rcases special with rfl | rfl <;> rfl
      have narrow : c.utf8Size = 1 := utf8Size_of_escape own
      have backslash : '\\'.utf8Size = 1 := rfl
      simp only [List.cons_append, readString, own, ih, Except.map, String.utf8Len_cons, narrow,
        backslash]
      congr 3
      omega
    · rename_i plain
      rw [not_or] at plain
      rw [List.cons_append, readString, ih]
      · simp only [Except.map, String.utf8Len_cons]
        congr 3
        omega
      · exact plain.1
      · exact fun same _ => plain.2 same
      · exact fun _ _ same _ => plain.2 same

/-- The literal of a string is read as the string, whatever follows. -/
theorem read_stringLiteral (s : String) (offset : Nat) (rest : List Char) :
    read offset '"' (escaped s.toList ++ '"' :: rest) =
      .ok (.string s, offset + (stringLiteral s).utf8ByteSize, rest) := by
  simp only [read, readString_escaped, Except.map, String.ofList_toList, stringLiteral_size]
  congr 3
  omega

/-! ## Texts around a literal -/

/-- Whether a text goes on with no lexeme before it. -/
structure Detached (rest : List Char) : Prop where
  sign : '=' ∉ rest.head?
  word : ∀ c ∈ rest.head?, isIdentChar c = false
  point : ∀ d after, rest = '.' :: d :: after → ¬ d.isDigit

theorem detached_cons {c : Char} (sign : c ≠ '=') (word : isIdentChar c = false) (point : c ≠ '.')
    (rest : List Char) : Detached (c :: rest) where
  sign := by
    rintro ⟨⟩
    exact sign rfl
  word := by
    rintro d ⟨⟩
    exact word
  point := by
    rintro d after ⟨⟩
    exact absurd rfl point

theorem Follows.detached {rest : List Char} (detached : Detached rest) (lexeme : Lexeme)
    (after : List Char) : Follows lexeme after (after ++ rest) where
  sign mem := by
    cases after with
    | nil => exact absurd mem detached.sign
    | cons => exact mem
  word _ c mem word := by
    cases after with
    | nil => exact absurd word (by simp [detached.word c mem])
    | cons => exact mem
  point _ d after' same digit := by
    rcases after with _ | ⟨c, _ | ⟨c', after⟩⟩
    · exact absurd digit (detached.point d after' same)
    · obtain ⟨-, rfl⟩ := List.cons.inj same
      exact absurd (isIdentChar_of_isDigit digit) (by simp [detached.word d rfl])
    · cases same
      exact ⟨_, _, rfl, digit⟩

/-- A text is cut as it was up to another that is detached from it. -/
theorem Cuts.before {offset : Nat} {cs : List Char} {tokens : List Token}
    (cuts : Cuts offset cs tokens) {rest : List Char} (detached : Detached rest) :
    Passes offset (cs ++ rest) tokens (offset + String.utf8Len cs) rest := by
  induction cuts with
  | done => exact .stay
  | @spacing offset c cs tokens blank _ ih =>
    rw [String.utf8Len_cons, utf8Size_of_isSpacing blank, Nat.add_comm _ 1, ← Nat.add_assoc]
    exact .spacing blank ih
  | @lexeme offset c _ lexeme _ after _ solid found _ _ ih =>
    obtain ⟨taken, rfl, rfl, again⟩ := read_follows found
    have found' := again _ (.detached detached lexeme after) offset
    rw [← List.append_assoc] at found'
    rw [String.utf8Len_cons, String.utf8Len_append, Nat.add_comm _ (Char.utf8Size c),
      ← Nat.add_assoc, ← Nat.add_assoc]
    exact .lexeme solid found' (by simp) ih

/-- A text is cut into the same lexemes wherever it stands. -/
theorem Cuts.moved {offset : Nat} {cs : List Char} {tokens : List Token}
    (cuts : Cuts offset cs tokens) (old new : String) (offset' : Nat) :
    ∃ tokens', Cuts offset' cs tokens' ∧
      ∀ opened, Respelled none old new 0 opened tokens tokens' := by
  induction cuts generalizing offset' with
  | done => exact ⟨[], .done, fun _ => .done⟩
  | spacing blank _ ih =>
    obtain ⟨tokens', cuts, respelled⟩ := ih (offset' + 1)
    exact ⟨tokens', .spacing blank cuts, respelled⟩
  | lexeme solid found shorter _ ih =>
    obtain ⟨taken, rfl, -, again⟩ := read_follows found
    obtain ⟨tokens', cuts, respelled⟩ := ih _
    exact ⟨_, .lexeme solid (again _ (.refl _ _) offset') shorter cuts,
      fun _ => .kept (fun _ => rfl) (respelled _)⟩

end Token

theorem Respelled.prefixed {old new : String} {n : Nat} {tokens tokens' : List Token}
    (respelled : ∀ opened, Respelled none old new n opened tokens tokens') (before : List Token) :
    ∀ opened, Respelled none old new n opened (before ++ tokens) (before ++ tokens') := by
  induction before with
  | nil => exact respelled
  | cons token before ih => exact fun _ => .kept (fun _ => rfl) (ih _)

/-- The tokens of a text, and of a literal after it. -/
theorem Token.passes_stringLiteral {before : String} {head : List Token}
    (scanned : scan before = .ok head) (s after : String) :
    Passes 0 (before ++ stringLiteral s ++ after).toList
      (head ++ [⟨.string s, before.utf8ByteSize⟩])
      (before.utf8ByteSize + (stringLiteral s).utf8ByteSize) after.toList := by
  have whole : (before ++ stringLiteral s ++ after).toList =
      before.toList ++ '"' :: (escaped s.toList ++ '"' :: after.toList) := by
    simp only [String.toList_append, stringLiteral_toList, List.append_assoc, List.cons_append,
      List.nil_append]
  have quote : Detached ('"' :: (escaped s.toList ++ '"' :: after.toList)) :=
    detached_cons (by decide) (by decide) (by decide) _
  have start := (scan_eq_ok_iff.mp scanned).before quote
  rw [Nat.zero_add, String.utf8Len_toList] at start
  rw [whole]
  exact start.trans (.lexeme rfl (read_stringLiteral s _ _) (by simp; omega) .stay)

/-- Of a text with a literal in it a predicate is read whatever string the literal is of, and only
the constant in its place depends on the string. -/
theorem Predicate.ofText_literal_exchanged {before after s s' : String} {head : List Token}
    {p : Predicate} (scanned : Token.scan before = .ok head)
    (read : Predicate.ofText (before ++ stringLiteral s ++ after) = .ok p) :
    ∃ p', Predicate.ofText (before ++ stringLiteral s' ++ after) = .ok p' ∧
      Predicate.Exchange (.text s) (.text s') 1 p p' := by
  obtain ⟨tokens, parameter, t, whole, sentence⟩ := sentence_of_ofText read
  obtain ⟨tail, rfl, cuts⟩ := (Token.passes_stringLiteral scanned s after).scan_eq_ok whole
  obtain ⟨tail', cuts', kept⟩ :=
    cuts.moved s s' (before.utf8ByteSize + (stringLiteral s').utf8ByteSize)
  have respelled (opened : Bool) : Respelled none s s' 1 opened
      (⟨.string s, before.utf8ByteSize⟩ :: tail) (⟨.string s', before.utf8ByteSize⟩ :: tail') :=
    .exchanged (kept _)
  have respelled := Respelled.prefixed respelled head true
  have whole' := ((Token.passes_stringLiteral scanned s' after).cuts cuts').scan
  rw [List.append_assoc] at sentence whole
  rw [List.append_assoc] at whole'
  obtain ⟨t', sentence', means⟩ := sentence.exchanged respelled
  exact ofText_exchanged whole whole' sentence sentence' means read

/-! ## Literals in texts -/

/-- The literal of a string is one token, which is read as the string and ends at the closing quote,
whatever follows.  An equation with it is the comparison with the string, and in no text does the
rest of the predicate depend on the string. -/
theorem string_literal_read (s : String) :
    (∀ offset rest, Token.read offset '"' (escaped s.toList ++ '"' :: rest) =
        .ok (.string s, offset + (stringLiteral s).utf8ByteSize, rest)) ∧
      (∀ name, Token.isName name → name ∉ ["true", "false", "null"] →
        Predicate.ofText (name ++ " == " ++ stringLiteral s) =
          .ok (.comparison .eq (.field ⟨[name]⟩) (.constant (.literal (.text s))))) ∧
      ∀ before after head s' p, Token.scan before = .ok head →
        Predicate.ofText (before ++ stringLiteral s ++ after) = .ok p →
          ∃ p', Predicate.ofText (before ++ stringLiteral s' ++ after) = .ok p' ∧
            Predicate.Exchange (.text s) (.text s') 1 p p' := by
  refine ⟨Token.read_stringLiteral s, fun name named free => ?_,
    fun _ _ _ _ _ => Predicate.ofText_literal_exchanged⟩
  have cuts : Token.Cuts (name.length + 4) (stringLiteral s).toList
      [⟨.string s, name.length + 4⟩] := by
    rw [stringLiteral_toList]
    exact .lexeme rfl (Token.read_stringLiteral s _ []) (Nat.zero_le _) .done
  exact Predicate.ofText_equation named free cuts .string (fun _ => rfl) rfl

/-- A string that ends in a backslash and a quote, and one that looks like a part of the text. -/
theorem string_literal_read_of_quotes :
    Predicate.ofText ("f" ++ " == " ++ stringLiteral "é\\\"") =
        .ok (.comparison .eq (.field ⟨["f"]⟩) (.constant (.literal (.text "é\\\"")))) ∧
      ∃ p, Predicate.ofText ("f == " ++ stringLiteral "\" || g == \"" ++ " && h") = .ok p ∧
        Predicate.Exchange (.text "x") (.text "\" || g == \"") 1
          (.logical .and [.comparison .eq (.field ⟨["f"]⟩) (.constant (.literal (.text "x"))),
            .flag ⟨["h"]⟩]) p := by
  have scanned : Token.scan "f == " = .ok [⟨.ident "f", 0⟩, ⟨.comparison .eq, 2⟩] := by cbv
  have read : Predicate.ofText ("f == " ++ stringLiteral "x" ++ " && h") =
      .ok (.logical .and [.comparison .eq (.field ⟨["f"]⟩) (.constant (.literal (.text "x"))),
        .flag ⟨["h"]⟩]) := by cbv
  exact ⟨(string_literal_read _).2.1 "f" (by decide) (by decide),
    (string_literal_read "x").2.2 "f == " " && h" _ _ _ scanned read⟩

end DocStore
