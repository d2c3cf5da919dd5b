import DocStore.Proofs.Query.Parsing
import DocStore.Proofs.Query.Scanning

/-!
# Numbers with the suffix of 64 bits

A number that is not negative keeps the 64 bits that its suffix asks for.  The minus sign is a token
of its own, and what it makes of a number is an integer of the least width, so that below zero the
suffix is forgotten where 32 bits are enough.

* `Predicate.ofText_equation`: the predicate of a field and what is read as an operand;
* `Value.ofInt64_ofInt`, `Expr.negated?_marked`: the contrary of a number of 64 bits;
* `marked_number_read`: the constant that a number with the suffix is read as.
-/

namespace DocStore

open DocStore.Text

/-! ## Equations -/

/-- A primary is a phrase of an operand. -/
theorem Phrase.operand_alone {tokens rest : List Token} {t : SyntaxTree}
    (primary : Phrase .primary tokens t rest) : Phrase .operand tokens t rest :=
  .operand primary .done

/-- Two operands with an operator between them are a sentence. -/
theorem Sentence.comparison {op : CompareOp} {o : Nat} {tokens middle : List Token}
    {left right : SyntaxTree}
    (first : Phrase .primary tokens left (⟨.comparison op, o⟩ :: middle))
    (second : Phrase .primary middle right []) :
    Sentence tokens none (.compare op left right) :=
  .plain (.or (.and (.plain (.compare first.operand_alone second.operand_alone)) .done) .done)

/-- A name that is no constant means a field where there is no parameter. -/
theorem Expr.ofWord_field {name : String} (free : name ∉ ["true", "false", "null"])
    (length offset : Nat) : ofWord ⟨none, length⟩ name offset = .ok (.path [name] offset) := by
  simp only [List.mem_cons, List.not_mem_nil, or_false, not_or] at free
  simp [ofWord, free]

/-- An equation is read as the comparison of the field with what its other side means. -/
theorem Predicate.ofText_equation {name operand : String} {tokens : List Token} {t : SyntaxTree}
    {e : Expr} {o : Operand} (named : Token.isName name)
    (free : name ∉ ["true", "false", "null"])
    (cuts : Token.Cuts (name.length + 4) operand.toList tokens)
    (phrase : Phrase .primary tokens t []) (means : ∀ ctx, t.toExpr ctx = .ok e)
    (stands : e.toOperand = .ok o) :
    Predicate.ofText (name ++ " == " ++ operand) = .ok (.comparison .eq (.field ⟨[name]⟩) o) := by
  have scanned : Token.scan (name ++ " == " ++ operand) =
      .ok (⟨.ident name, 0⟩ :: ⟨.comparison .eq, name.length + 1⟩ :: tokens) := by
    apply Token.Cuts.scan
    rw [String.toList_append, String.toList_append]
    exact cuts.equation named
  have word : Phrase .primary
      (⟨.ident name, 0⟩ :: ⟨.comparison .eq, name.length + 1⟩ :: tokens) (.word name 0) _ :=
    .word (by simp)
  have sentence := Sentence.comparison word phrase
  have read : Expr.ofText (name ++ " == " ++ operand) = .ok (.compare .eq (.path [name] 0) e) := by
    unfold Expr.ofText
    simp only [scanned, bind, Except.bind, sentence.read, SyntaxTree.toExpr,
      Expr.ofWord_field free, means]
    rfl
  unfold Predicate.ofText
  rw [read]
  simp only [bind, Except.bind, Expr.toPredicate, Expr.toOperand, stands]
  rfl

/-! ## Widths -/

/-- The integers of 64 bits in the least width. -/
theorem Value.ofInt64_ofInt {n : Int} (held : IntRange.signed64.holds n) :
    Value.ofInt64 (.ofInt n) =
      if IntRange.signed32.holds n then .int32 (.ofInt n) else .int64 (.ofInt n) := by
  obtain ⟨least, greatest⟩ := IntRange.holds_iff.mp held
  have same : (Int64.ofInt n).toInt = n :=
    Int64.toInt_ofInt_of_le least (Int.lt_add_one_of_le greatest)
  rw [Value.ofInt64, same, Int64.toInt32_ofInt]

/-- The contrary of a number of 64 bits is an integer of the least width. -/
theorem Expr.negated?_marked {n : Int} (below : n < 0)
    (held : IntRange.signed64.holds n.natAbs) :
    negated? (.int64 (.ofInt n.natAbs)) =
      some (if IntRange.signed32.holds n then .int32 (.ofInt n) else .int64 (.ofInt n)) := by
  have exists_contrary : Int64.ofInt n.natAbs ≠ Int64.minValue :=
    ofInt_ne_minValue (Int.natCast_nonneg _) held
  have contrary : -Int64.ofInt n.natAbs = Int64.ofInt n := by
    rw [← Int64.ofInt_neg, Int.ofNat_natAbs_of_nonpos (Int.le_of_lt below), Int.neg_neg]
  have held : IntRange.signed64.holds n := by
    rw [IntRange.holds_iff] at held ⊢
    simp only [IntRange.signed64] at held ⊢
    omega
  simp only [negated?, if_neg exists_contrary, contrary, Value.ofInt64_ofInt held]

/-! ## Numbers with the suffix -/

/-- What is read where a field is compared with a whole number that has the suffix of 64 bits: the
number in 64 bits, but a negative one in 32 bits if they are enough. -/
theorem marked_number_read {name : String} {n : Int} (named : Token.isName name)
    (free : name ∉ ["true", "false", "null"]) (held : IntRange.signed64.holds n.natAbs) :
    Predicate.ofText (name ++ " == " ++ intText n ++ "L") =
      .ok (.comparison .eq (.field ⟨[name]⟩) (.constant (.literal
        (if n < 0 ∧ IntRange.signed32.holds n then .int32 (.ofInt n) else .int64 (.ofInt n))))) := by
  rw [String.append_assoc]
  have spelled : (intText n ++ "L").toList =
      (if n < 0 then ['-'] else []) ++ (natDigits n.natAbs ++ ['L']) := by
    rw [String.toList_append, intText_toList, List.append_assoc]
    rfl
  by_cases below : n < 0
  · have cuts : Token.Cuts (name.length + 4) (intText n ++ "L").toList
        [⟨.minus, name.length + 4⟩, ⟨.number (.int64 (.ofInt n.natAbs)), name.length + 5⟩] := by
      rw [spelled, if_pos below]
      exact .lexeme rfl rfl (Nat.le_refl _) (.marked held _)
    have means (ctx : Expr.Context) :
        SyntaxTree.toExpr ctx (.negative (.int64 (.ofInt n.natAbs)) (name.length + 4)) =
          .ok (.literal
            (if IntRange.signed32.holds n then .int32 (.ofInt n) else .int64 (.ofInt n))) := by
      rw [SyntaxTree.toExpr, Expr.negated?_marked below held]
    rw [Predicate.ofText_equation named free cuts .negative means rfl]
    simp only [below, true_and]
  · have cuts : Token.Cuts (name.length + 4) (intText n ++ "L").toList
        [⟨.number (.int64 (.ofInt n.natAbs)), name.length + 4⟩] := by
      rw [spelled, if_neg below]
      exact .marked held _
    rw [Predicate.ofText_equation named free cuts .number (fun _ => rfl) rfl,
      Int.natAbs_of_nonneg (Int.not_lt.mp below)]
    simp only [below, false_and, if_false]

theorem marked_number_read_of_bounds :
    Predicate.ofText ("f" ++ " == " ++ intText 9223372036854775807 ++ "L") =
        .ok (.comparison .eq (.field ⟨["f"]⟩)
          (.constant (.literal (.int64 9223372036854775807)))) ∧
      Predicate.ofText ("f" ++ " == " ++ intText (-2147483649) ++ "L") =
        .ok (.comparison .eq (.field ⟨["f"]⟩) (.constant (.literal (.int64 (-2147483649))))) ∧
      Predicate.ofText ("f" ++ " == " ++ intText (-2147483648) ++ "L") =
        .ok (.comparison .eq (.field ⟨["f"]⟩) (.constant (.literal (.int32 (-2147483648))))) :=
  have named : Token.isName "f" := by decide
  have free : "f" ∉ ["true", "false", "null"] := by decide
  ⟨marked_number_read named free (by decide), marked_number_read named free (by decide),
    marked_number_read named free (by decide)⟩

/-- Not every number with the suffix is read in 64 bits. -/
theorem marked_number_narrowed :
    ¬ ∀ n : Int, IntRange.signed64.holds n → IntRange.signed64.holds n.natAbs →
      Predicate.ofText ("f == " ++ intText n ++ "L") =
        .ok (.comparison .eq (.field ⟨["f"]⟩) (.constant (.literal (.int64 (.ofInt n))))) := by
  intro kept
  have text : "f == " ++ intText (-5) ++ "L" = "f == -5L" := by decide
  have read : Predicate.ofText "f == -5L" =
      .ok (.comparison .eq (.field ⟨["f"]⟩) (.constant (.literal (.int32 (-5))))) := by cbv
  have wide := kept (-5) (by decide) (by decide)
  rw [text, read] at wide
  cases wide

end DocStore
