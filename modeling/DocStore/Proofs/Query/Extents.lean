import DocStore.Proofs.Check.Derivation
import DocStore.Proofs.Query.Scanning
import Mathlib.Data.String.Basic

/-!
# How far a lexeme reaches

A reader of lexemes takes a beginning of the text before it and moves on by as many bytes as that
beginning has in UTF-8.  Where it finds a fault, it blames a place in that text.

* `Token.Reaches`: a place later in a text;
* `Token.read_reaches`, `Token.read_fault`: where a lexeme ends, and where a fault is;
* `Token.scan_eq_ok_iff`: a text has the tokens that it is cut into.
-/

namespace DocStore

open DocStore.Text

/-! ## Bytes -/

/-- Characters of one byte each have as many bytes as they are. -/
theorem utf8Len_eq_length {cs : List Char} (narrow : ∀ c ∈ cs, c.utf8Size = 1) :
    String.utf8Len cs = cs.length := by
  induction cs with
  | nil => rfl
  | cons c rest ih =>
    obtain ⟨first, others⟩ := List.forall_mem_cons.mp narrow
    rw [String.utf8Len_cons, first, ih others, List.length_cons]

theorem utf8Size_of_toNat_lt {c : Char} (ascii : c.toNat < 128) : c.utf8Size = 1 :=
  Char.utf8Size_eq_one_iff.mpr (UInt32.le_iff_toNat_le.mpr (Nat.le_of_lt_succ ascii))

namespace Token

theorem utf8Size_of_isDigit {c : Char} (digit : c.isDigit) : c.utf8Size = 1 := by
  obtain ⟨-, greatest⟩ := Char.isDigit_iff_toNat.mp digit
  exact utf8Size_of_toNat_lt (Nat.lt_of_le_of_lt greatest (by decide))

theorem utf8Size_of_isAlpha {c : Char} (letter : c.isAlpha) : c.utf8Size = 1 := by
  rcases (Bool.or_eq_true _ _).mp letter with upper | lower
  · have greatest : c.val ≤ 'Z'.val := (of_decide_eq_true upper).2
    exact utf8Size_of_toNat_lt (Nat.lt_of_le_of_lt (UInt32.le_iff_toNat_le.mp greatest) (by decide))
  · have greatest : c.val ≤ 'z'.val := of_decide_eq_true ((Bool.and_eq_true _ _).mp lower).2
    exact utf8Size_of_toNat_lt (Nat.lt_of_le_of_lt (UInt32.le_iff_toNat_le.mp greatest) (by decide))

/-- The characters of names are ASCII characters. -/
theorem utf8Size_of_isIdentChar {c : Char} (word : isIdentChar c) : c.utf8Size = 1 := by
  rcases (Bool.or_eq_true _ _).mp word with alphanumeric | line
  · rcases (Bool.or_eq_true _ _).mp alphanumeric with letter | digit
    · exact utf8Size_of_isAlpha letter
    · exact utf8Size_of_isDigit digit
  · obtain rfl := of_decide_eq_true line
    rfl

theorem utf8Size_of_isSpacing {c : Char} (blank : isSpacing c) : c.utf8Size = 1 := by
  simp only [isSpacing, Bool.or_eq_true, decide_eq_true_eq] at blank
  rcases blank with (((rfl | rfl) | rfl) | rfl) | rfl <;> rfl

/-- What an escape may stand for is written with an ASCII character. -/
theorem utf8Size_of_escape {c d : Char} (escape : escape? c = some d) : c.utf8Size = 1 := by
  unfold escape? at escape
  split at escape
  all_goals first | rfl | cases escape

/-! ## Places -/

/-- A place in a text, or at its end: how many bytes are before it, and what is after it. -/
def Reaches (offset : Nat) (cs : List Char) (next : Nat) (after : List Char) : Prop :=
  ∃ taken, cs = taken ++ after ∧ next = offset + String.utf8Len taken

namespace Reaches

variable {offset next : Nat} {cs after : List Char}

theorem stay : Reaches offset cs offset cs := ⟨[], rfl, rfl⟩

theorem trans {further : Nat} {rest : List Char} (first : Reaches offset cs next after)
    (second : Reaches next after further rest) : Reaches offset cs further rest := by
  obtain ⟨taken, rfl, rfl⟩ := first
  obtain ⟨more, rfl, rfl⟩ := second
  exact ⟨taken ++ more, by rw [List.append_assoc], by rw [String.utf8Len_append, Nat.add_assoc]⟩

theorem run {taken : List Char} (narrow : ∀ c ∈ taken, c.utf8Size = 1) :
    Reaches offset (taken ++ after) (offset + taken.length) after :=
  ⟨taken, rfl, by rw [utf8Len_eq_length narrow]⟩

/-- The place after the first character. -/
theorem first (c : Char) : Reaches offset (c :: after) (offset + c.utf8Size) after :=
  ⟨[c], rfl, by simp⟩

theorem one {c : Char} (narrow : c.utf8Size = 1) :
    Reaches offset (c :: after) (offset + 1) after :=
  narrow ▸ first c

theorem two {c d : Char} (first : c.utf8Size = 1) (second : d.utf8Size = 1) :
    Reaches offset (c :: d :: after) (offset + 2) after := by
  have narrow : ∀ e ∈ [c, d], e.utf8Size = 1 := by simp [first, second]
  exact run narrow

theorem length_le (reaches : Reaches offset cs next after) : after.length ≤ cs.length := by
  obtain ⟨taken, rfl, -⟩ := reaches
  simp

theorem le (reaches : Reaches offset cs next after) : offset ≤ next := by
  obtain ⟨taken, -, rfl⟩ := reaches
  exact Nat.le_add_right _ _

/-- A place that is not the first is after the first character. -/
theorem tail {c : Char} {rest : List Char} (reaches : Reaches offset (c :: rest) next after)
    (later : offset < next) : Reaches (offset + c.utf8Size) rest next after := by
  obtain ⟨taken, whole, rfl⟩ := reaches
  cases taken with
  | nil => exact absurd later (Nat.lt_irrefl _)
  | cons d taken =>
    cases whole
    refine ⟨taken, rfl, ?_⟩
    rw [String.utf8Len_cons, Nat.add_comm (String.utf8Len taken), Nat.add_assoc]

end Reaches

/-- Whether an outcome of reading from one place on stays in the text that starts at another: what
is read ends at a place after the first, and a fault is at a place after the second. -/
structure Stays {α : Type} (start : Nat) (whole : List Char) (offset : Nat) (cs : List Char)
    (outcome : Read α) : Prop where
  ends : ∀ a next after, outcome = .ok (a, next, after) → Reaches offset cs next after
  blames : ∀ blamed f, outcome = .error (.malformed blamed f) →
    ∃ left, Reaches start whole blamed left

namespace Stays

variable {α β : Type} {start offset next : Nat} {whole cs after : List Char}

theorem ok {a : α} (reaches : Reaches offset cs next after) :
    Stays start whole offset cs (.ok (a, next, after) : Read α) where
  ends _ _ _ same := by
    cases same
    exact reaches
  blames := nofun

theorem fault {blamed : Nat} {left : List Char} {f : SyntaxFault}
    (reaches : Reaches start whole blamed left) :
    Stays start whole offset cs (Token.fault blamed f : Read α) where
  ends := nofun
  blames _ _ same := by
    cases same
    exact ⟨left, reaches⟩

theorem map {outcome : Read α} (stays : Stays start whole offset cs outcome)
    {f : α × Nat × List Char → β} :
    Stays start whole offset cs (outcome.map fun r => (f r, r.2)) := by
  cases outcome with
  | ok r => exact .ok (stays.ends r.1 r.2.1 r.2.2 rfl)
  | error e =>
    refine ⟨nofun, fun blamed f same => ?_⟩
    cases same
    exact stays.blames blamed f rfl

theorem later {outcome : Read α} {middle : Nat} {rest : List Char}
    (stays : Stays start whole middle rest outcome) (reaches : Reaches offset cs middle rest) :
    Stays start whole offset cs outcome where
  ends a next after same := reaches.trans (stays.ends a next after same)
  blames := stays.blames

end Stays

/-! ## Strings -/

/-- What is read of a string, and what it is blamed for, lies in its literal. -/
theorem readString_stays {start : Nat} {whole : List Char} {offset : Nat} {cs : List Char}
    (inside : Reaches start whole offset cs) :
    Stays start whole offset cs (readString start offset cs) := by
  fun_induction readString start offset cs with
  | case1 | case3 => exact .fault .stay
  | case2 => exact .ok (.one rfl)
  | case4 offset c rest d escape ih =>
    have two : Reaches offset ('\\' :: c :: rest) (offset + 2) rest :=
      .two rfl (utf8Size_of_escape escape)
    exact ((ih (inside.trans two)).later two).map
  | case5 => exact .fault inside
  | case6 offset c rest _ _ _ ih =>
    exact ((ih (inside.trans (.first c))).later (.first c)).map

/-! ## Numbers -/

theorem splitFraction_narrow (cs : List Char) :
    (splitFraction cs).1 ++ (splitFraction cs).2 = cs ∧
      ∀ c ∈ (splitFraction cs).1, c.utf8Size = 1 := by
  unfold splitFraction
  split
  · split
    · rename_i digit
      refine ⟨by simp only [List.cons_append, List.takeWhile_append_dropWhile], ?_⟩
      refine List.forall_mem_cons.mpr ⟨rfl, List.forall_mem_cons.mpr ⟨utf8Size_of_isDigit digit, ?_⟩⟩
      exact fun c mem => utf8Size_of_isDigit (List.mem_takeWhile_imp mem)
    · exact ⟨rfl, nofun⟩
  · exact ⟨rfl, nofun⟩

theorem splitSign_narrow (cs : List Char) :
    (splitSign cs).1 ++ (splitSign cs).2 = cs ∧ ∀ c ∈ (splitSign cs).1, c.utf8Size = 1 := by
  unfold splitSign
  split
  · split
    · rename_i sign
      simp only [Bool.or_eq_true, decide_eq_true_eq] at sign
      refine ⟨rfl, List.forall_mem_singleton.mpr ?_⟩
      rcases sign with rfl | rfl <;> rfl
    · exact ⟨rfl, nofun⟩
  · exact ⟨rfl, nofun⟩

theorem splitExponent_narrow (cs : List Char) :
    (splitExponent cs).1 ++ (splitExponent cs).2 = cs ∧
      ∀ c ∈ (splitExponent cs).1, c.utf8Size = 1 := by
  unfold splitExponent
  split
  · dsimp only
    split
    · rename_i c rest mark
      simp only [Bool.and_eq_true, Bool.or_eq_true, decide_eq_true_eq] at mark
      obtain ⟨whole, sign⟩ := splitSign_narrow rest
      refine ⟨?_, List.forall_mem_append.mpr ⟨List.forall_mem_cons.mpr ⟨?_, sign⟩, ?_⟩⟩
      · rw [List.append_assoc, List.takeWhile_append_dropWhile, List.cons_append, whole]
      · rcases mark.1 with rfl | rfl <;> rfl
      · exact fun c mem => utf8Size_of_isDigit (List.mem_takeWhile_imp mem)
    · exact ⟨rfl, nofun⟩
  · exact ⟨rfl, nofun⟩

section

variable {α : Type} {start offset next : Nat} {whole cs digits after : List Char} {real : Bool}

theorem literal_stays {kind : LiteralKind} {value : Option Value} {f : Value → α}
    (reaches : Reaches offset cs next after) : Stays start whole offset cs
      ((literal start digits kind value).map fun v => (f v, next, after)) := by
  cases value with
  | some v => exact .ok reaches
  | none => exact .fault .stay

theorem unmarkedValue_stays {f : Value → α} (reaches : Reaches offset cs next after) :
    Stays start whole offset cs
      ((unmarkedValue start digits real).map fun v => (f v, next, after)) := by
  unfold unmarkedValue
  split <;> exact literal_stays reaches

/-- A suffix that is not known is blamed where it stands. -/
theorem markedValue_stays {mark : Char} {f : Value → α} {left : List Char}
    (suffix : Reaches start whole (start + digits.length) left)
    (reaches : Reaches offset cs next after) : Stays start whole offset cs
      ((markedValue start digits real mark).map fun v => (f v, next, after)) := by
  unfold markedValue
  split
  · exact literal_stays reaches
  split
  · exact literal_stays reaches
  split
  · exact literal_stays reaches
  split
  · exact literal_stays reaches
  · exact .fault suffix

end

/-- A numeral is cut into its whole part, its fraction and its exponent. -/
theorem readNumber_parts (start : Nat) {c : Char} (rest : List Char) (digit : c.isDigit) :
    ∃ digits real left, c :: rest = digits ++ left ∧ digits ≠ [] ∧
      (∀ d ∈ digits, d.utf8Size = 1) ∧
      readNumber start (c :: rest) = match left with
        | d :: after =>
          if d.isAlpha then (markedValue start digits real d.toLower).map fun v =>
            (.number v, start + digits.length + 1, after)
          else (unmarkedValue start digits real).map fun v =>
            (.number v, start + digits.length, d :: after)
        | [] => (unmarkedValue start digits real).map fun v =>
            (.number v, start + digits.length, []) := by
  obtain ⟨fraction, narrowFraction⟩ := splitFraction_narrow ((c :: rest).dropWhile Char.isDigit)
  obtain ⟨exponent, narrowExponent⟩ :=
    splitExponent_narrow (splitFraction ((c :: rest).dropWhile Char.isDigit)).2
  refine ⟨_, _, _, ?_, ?_, ?_, rfl⟩
  · rw [List.append_assoc, exponent, List.append_assoc, fraction,
      List.takeWhile_append_dropWhile]
  · simp [List.takeWhile_cons_of_pos digit]
  · exact List.forall_mem_append.mpr ⟨List.forall_mem_append.mpr
      ⟨fun d mem => utf8Size_of_isDigit (List.mem_takeWhile_imp mem), narrowFraction⟩,
      narrowExponent⟩

theorem readNumber_stays (start : Nat) {c : Char} (rest : List Char) (digit : c.isDigit) :
    Stays start (c :: rest) (start + 1) rest (readNumber start (c :: rest)) := by
  obtain ⟨digits, real, left, whole, filled, narrow, number⟩ := readNumber_parts start rest digit
  have suffix : Reaches start (c :: rest) (start + digits.length) left := whole ▸ .run narrow
  have later : start < start + digits.length :=
    Nat.lt_add_of_pos_right (List.length_pos_iff.mpr filled)
  have reaches : Reaches (start + 1) rest (start + digits.length) left := by
    have tail := suffix.tail later
    rwa [utf8Size_of_isDigit digit] at tail
  rw [number]
  split
  · split
    · rename_i letter
      exact markedValue_stays suffix (reaches.trans (.one (utf8Size_of_isAlpha letter)))
    · exact unmarkedValue_stays reaches
  · exact unmarkedValue_stays reaches

/-! ## Lexemes -/

theorem oneOrTwo_stays {offset : Nat} {c second : Char} {two one : Lexeme} {rest : List Char}
    (narrow : second.utf8Size = 1) :
    Stays offset (c :: rest) (offset + 1) rest (oneOrTwo offset second two one rest) := by
  unfold oneOrTwo
  split
  · split
    · rename_i same
      subst same
      exact .ok (.one narrow)
    · exact .ok .stay
  · exact .ok .stay

theorem doubled_stays {offset : Nat} {c : Char} {lexeme : Lexeme} {rest : List Char}
    (narrow : c.utf8Size = 1) (doubled : rest.head? = some c) :
    Stays offset (c :: rest) (offset + c.utf8Size) rest
      (.ok (lexeme, offset + 2, rest.drop 1)) := by
  obtain ⟨rest, rfl⟩ := List.head?_eq_some_iff.mp doubled
  rw [narrow]
  exact .ok (.one narrow)

/-- A lexeme ends after its first character, and a fault is at a place of the text that it
starts. -/
theorem read_stays (offset : Nat) (c : Char) (rest : List Char) :
    Stays offset (c :: rest) (offset + c.utf8Size) rest (read offset c rest) := by
  unfold read
  split
  case h_7 => exact (readString_stays (.one rfl)).map
  case h_8 =>
    split
    · exact .ok (.one rfl)
    · exact .ok (.one rfl)
    · exact .fault .stay
  case h_9 | h_10 | h_11 => exact oneOrTwo_stays rfl
  case h_12 =>
    split
    · rename_i doubled
      simp only [Bool.and_eq_true, decide_eq_true_eq] at doubled
      obtain ⟨rfl, second⟩ := doubled
      exact doubled_stays rfl second
    split
    · rename_i doubled
      simp only [Bool.and_eq_true, decide_eq_true_eq] at doubled
      obtain ⟨rfl, second⟩ := doubled
      exact doubled_stays rfl second
    split
    · rename_i digit
      rw [utf8Size_of_isDigit digit]
      exact readNumber_stays offset rest digit
    split
    · rename_i starts
      have inside : ∀ d ∈ rest.takeWhile isIdentChar, d.utf8Size = 1 :=
        fun d mem => utf8Size_of_isIdentChar (List.mem_takeWhile_imp mem)
      have reaches : Reaches (offset + 1) (rest.takeWhile isIdentChar ++ rest.dropWhile isIdentChar)
          (offset + 1 + (rest.takeWhile isIdentChar).length) (rest.dropWhile isIdentChar) :=
        .run inside
      rw [List.takeWhile_append_dropWhile, Nat.add_right_comm, Nat.add_assoc] at reaches
      rw [utf8Size_of_isIdentChar (isIdentChar_of_isIdentStart starts)]
      exact .ok reaches
    · exact .fault .stay
  all_goals exact .ok .stay

section

variable {offset next : Nat} {c : Char} {rest after : List Char} {lexeme : Lexeme}

theorem read_reaches (found : read offset c rest = .ok (lexeme, next, after)) :
    Reaches (offset + c.utf8Size) rest next after :=
  (read_stays offset c rest).ends lexeme next after found

theorem reaches_of_read (found : read offset c rest = .ok (lexeme, next, after)) :
    Reaches offset (c :: rest) next after :=
  (Reaches.first c).trans (read_reaches found)

theorem read_fault {blamed : Nat} {f : SyntaxFault}
    (failed : read offset c rest = .error (.malformed blamed f)) :
    ∃ left, Reaches offset (c :: rest) blamed left :=
  (read_stays offset c rest).blames blamed f failed

end

/-! ## Texts -/

/-- What the scanner finds with fuel for every character is how the text is cut. -/
theorem Cuts.of_scanFrom {fuel offset : Nat} {cs : List Char} {tokens : List Token}
    (enough : cs.length ≤ fuel) (scanned : Token.scanFrom fuel offset cs = .ok tokens) :
    Cuts offset cs tokens := by
  induction fuel generalizing offset cs tokens with
  | zero =>
    obtain rfl := List.length_eq_zero_iff.mp (Nat.le_zero.mp enough)
    cases scanned
    exact .done
  | succ fuel ih =>
    rcases cs with _ | ⟨c, rest⟩
    · cases scanned
      exact .done
    have enough : rest.length ≤ fuel := Nat.le_of_succ_le_succ enough
    rw [Token.scanFrom] at scanned
    split at scanned
    · rename_i blank
      exact .spacing blank (ih enough scanned)
    · rename_i solid
      split at scanned
      · cases scanned
      · rename_i found
        obtain ⟨tokens, further, rfl⟩ := map_eq_ok.mp scanned
        have shorter := (read_reaches found).length_le
        exact .lexeme (Bool.not_eq_true _ ▸ solid) found shorter
          (ih (Nat.le_trans shorter enough) further)

/-- A text has the tokens that it is cut into. -/
theorem scan_eq_ok_iff {s : String} {tokens : List Token} :
    scan s = .ok tokens ↔ Cuts 0 s.toList tokens :=
  ⟨Cuts.of_scanFrom (Nat.le_refl _), Cuts.scan⟩

/-- After the tokens between the start of a text and a place come those of the text after it. -/
theorem Passes.scan_eq_ok {s : String} {next : Nat} {rest : List Char} {tokens all : List Token}
    (passes : Passes 0 s.toList tokens next rest) (scanned : scan s = .ok all) :
    ∃ more, all = tokens ++ more ∧ Cuts next rest more := by
  obtain ⟨left, enough, further⟩ := passes.scanFrom (Nat.le_refl _)
  rw [scan, further] at scanned
  obtain ⟨more, found, rfl⟩ := map_eq_ok.mp scanned
  exact ⟨more, rfl, Cuts.of_scanFrom enough found⟩

/-- A lexeme takes one character at least. -/
theorem lt_of_read {offset next : Nat} {c : Char} {rest after : List Char} {lexeme : Lexeme}
    (found : read offset c rest = .ok (lexeme, next, after)) : offset < next :=
  Nat.lt_of_lt_of_le (Nat.lt_add_of_pos_right c.utf8Size_pos) (read_reaches found).le

/-- Tokens do not start before the text that they are cut from. -/
theorem Cuts.le {offset : Nat} {cs : List Char} {tokens : List Token}
    (cuts : Cuts offset cs tokens) : ∀ token ∈ tokens, offset ≤ token.offset := by
  induction cuts with
  | done => exact nofun
  | spacing _ _ ih => exact fun token mem => Nat.le_of_succ_le (ih token mem)
  | lexeme _ found _ _ ih =>
    refine List.forall_mem_cons.mpr ⟨Nat.le_refl _, fun token mem => ?_⟩
    exact Nat.le_trans (Nat.le_of_lt (lt_of_read found)) (ih token mem)

/-- Each token starts after the one before it. -/
theorem Cuts.increasing {offset : Nat} {cs : List Char} {tokens : List Token}
    (cuts : Cuts offset cs tokens) : tokens.Pairwise fun a b => a.offset < b.offset := by
  induction cuts with
  | done => exact .nil
  | spacing _ _ ih => exact ih
  | lexeme _ found _ further ih =>
    exact .cons (fun token mem => Nat.lt_of_lt_of_le (lt_of_read found) (further.le token mem)) ih

end Token

end DocStore
