import Mathlib
import DocStore.Proofs.Query.Literals
import DocStore.Proofs.Query.Reader

/-!
# Texts are read by the grammar

A text that can be cut into tokens is read as a predicate by the grammar: what is read is what the
one sentence of its tokens means, and a text that is a sentence is never blamed for its form.

* `Blameless`: an outcome that does not blame the text;
* `Phrase.blameless`: what a phrase means does not, as every number may stand after a minus sign;
* `Sentence.read`, `Sentence.of_read`: sentences and what is read;
* `texts_read_by_grammar`: what is read of a text, and when it is not refused for its form.
-/

namespace DocStore

open DocStore.Expr (Outcome Context)
open SyntaxTree (toExprs)

/-! ## Outcomes that do not blame the text -/

/-- Whether an outcome is an answer or a refusal, and no complaint about the form of the text. -/
def Blameless {α : Type} (outcome : Outcome α) : Prop :=
  ∀ offset fault, outcome ≠ .error (.malformed offset fault)

namespace Blameless

variable {α β : Type}

theorem ok (a : α) : Blameless (.ok a : Outcome α) := nofun

theorem refuse (cause : Unsupported) : Blameless (Expr.refuse cause : Outcome α) := nofun

theorem map {outcome : Outcome α} (blameless : Blameless outcome) (f : α → β) :
    Blameless (outcome.map f) := by
  cases outcome with
  | ok a => exact ok (f a)
  | error e =>
    rintro offset fault same
    cases same
    exact blameless offset fault rfl

theorem bind {outcome : Outcome α} (blameless : Blameless outcome) {f : α → Outcome β}
    (next : ∀ a, Blameless (f a)) : Blameless (outcome >>= f) := by
  cases outcome with
  | ok a => exact next a
  | error e =>
    rintro offset fault same
    cases same
    exact blameless offset fault rfl

theorem mapM {f : α → Outcome β} (each : ∀ a, Blameless (f a)) (items : List α) :
    Blameless (items.mapM f) := by
  induction items with
  | nil => exact ok []
  | cons a rest ih =>
    rw [List.mapM_cons]
    exact (each a).bind fun b => ih.bind fun bs => ok (b :: bs)

end Blameless

/-! ## Expressions -/

namespace Expr

theorem blameless_fieldPath (segments : List String) (offset : Nat) :
    Blameless (fieldPath segments offset) := by
  unfold fieldPath
  split
  · exact .refuse _
  · exact .ok _

theorem blameless_textOp (method : String) (offset : Nat) : Blameless (textOp method offset) := by
  unfold textOp
  split <;> first | exact .ok _ | exact .refuse _

theorem blameless_staticTextOp (method : String) (offset : Nat) :
    Blameless (staticTextOp method offset) := by
  unfold staticTextOp
  split <;> first | exact .ok _ | exact .refuse _

theorem blameless_staticPredicate (op : TextOp) (method : String) (operands : List Operand) :
    Blameless (staticPredicate op method operands) := by
  unfold staticPredicate
  split
  · split
    · exact .ok _
    · exact .refuse _
  · exact .refuse _

theorem blameless_toOperand : ∀ e : Expr, Blameless e.toOperand
  | .path segments offset => (blameless_fieldPath segments offset).map _
  | .literal _ | .capture _ => .ok _
  | .call receiver method args offset => by
    have inner : Blameless receiver.toOperand := blameless_toOperand receiver
    unfold toOperand
    split
    · exact .refuse _
    · split
      · exact inner.map _
      · exact inner.map _
      · split
        · exact (blameless_fieldPath _ _).map _
        · exact .refuse _
      · exact .refuse _
  | .staticCall .. | .hasValue .. | .compare .. | .and _ | .or _ | .not _ => .refuse _

mutual

/-- An expression is a predicate or is refused. -/
theorem blameless_toPredicate : ∀ e : Expr, Blameless e.toPredicate
  | .and operands => (blameless_toPredicates operands).map _
  | .or operands => (blameless_toPredicates operands).map _
  | .not operand => (blameless_toPredicate operand).map _
  | .compare op left right =>
    (blameless_toOperand left).bind fun _ => (blameless_toOperand right).bind fun _ => .ok _
  | .call receiver method args offset =>
    (blameless_textOp method offset).bind fun _ => (blameless_toOperand receiver).bind fun _ =>
      (Blameless.mapM blameless_toOperand args).bind fun _ => .ok _
  | .staticCall method args offset =>
    (blameless_staticTextOp method offset).bind fun _ =>
      (Blameless.mapM blameless_toOperand args).bind fun _ => blameless_staticPredicate _ _ _
  | .hasValue receiver offset => by
    unfold toPredicate
    split
    · exact .ok _
    · exact .refuse _
  | .path segments offset => (blameless_fieldPath segments offset).map _
  | .literal _ => .ok _
  | .capture _ => .ok _

theorem blameless_toPredicates : ∀ es : List Expr, Blameless (toPredicates es)
  | [] => .ok []
  | e :: rest =>
    (blameless_toPredicate e).bind fun _ => (blameless_toPredicates rest).bind fun _ => .ok _

end

theorem blameless_ofWord (ctx : Context) (name : String) (offset : Nat) :
    Blameless (ofWord ctx name offset) := by
  unfold ofWord
  repeat' split
  all_goals first | exact .ok _ | exact .refuse _

theorem blameless_memberOf (receiver : Expr) (name : String) (offset : Nat) :
    Blameless (memberOf receiver name offset) := by
  unfold memberOf
  repeat' split
  all_goals first | exact .ok _ | exact .refuse _

end Expr

/-! ## Trees -/

/-- Whether every number among some tokens may stand after a minus sign. -/
def Negatable (tokens : List Token) : Prop := ∀ token ∈ tokens, token.lexeme.Negatable

theorem Negatable.tail {token : Token} {rest : List Token} (negatable : Negatable (token :: rest)) :
    Negatable rest :=
  (List.forall_mem_cons.mp negatable).2

theorem SyntaxTree.blameless_chained {ctx : Context} {node : List SyntaxTree → SyntaxTree}
    {make : List Expr → Expr}
    (means : ∀ operands, (node operands).toExpr ctx = (toExprs ctx operands).map make)
    {t : SyntaxTree} {more : List SyntaxTree} (first : Blameless (t.toExpr ctx))
    (others : Blameless (toExprs ctx more)) : Blameless ((chained node t more).toExpr ctx) := by
  rw [toExpr_chained means]
  exact first.bind fun _ => others.bind fun _ => .ok _

variable {ctx : Context}

mutual

/-- A phrase whose numbers may stand after a minus sign means something or is refused. -/
theorem Phrase.blameless {category : Category} {tokens rest : List Token} {t : SyntaxTree} :
    Phrase category tokens t rest → Negatable tokens →
      Blameless (t.toExpr ctx) ∧ Negatable rest
  | .or first more, negatable => by
    obtain ⟨head, negatable⟩ := first.blameless negatable
    obtain ⟨tail, negatable⟩ := more.blameless negatable
    exact ⟨SyntaxTree.blameless_chained (fun _ => rfl) head tail, negatable⟩
  | .and first more, negatable => by
    obtain ⟨head, negatable⟩ := first.blameless negatable
    obtain ⟨tail, negatable⟩ := more.blameless negatable
    exact ⟨SyntaxTree.blameless_chained (fun _ => rfl) head tail, negatable⟩
  | .not inner, negatable => by
    obtain ⟨operand, negatable⟩ := inner.blameless negatable.tail
    exact ⟨operand.map _, negatable⟩
  | .plain inner, negatable => inner.blameless negatable
  | .compare left right, negatable => by
    obtain ⟨first, negatable⟩ := left.blameless negatable
    obtain ⟨second, negatable⟩ := right.blameless negatable.tail
    exact ⟨first.bind fun _ => second.bind fun _ => .ok _, negatable⟩
  | .alone inner, negatable => inner.blameless negatable
  | .operand first more, negatable => by
    obtain ⟨head, negatable⟩ := first.blameless negatable
    exact more.blameless head negatable
  | .number, negatable => ⟨.ok _, negatable.tail⟩
  | .string, negatable => ⟨.ok _, negatable.tail⟩
  | .negative, negatable => by
    obtain ⟨contrary, found⟩ := Option.isSome_iff_exists.mp
      (negatable.tail _ List.mem_cons_self _ rfl)
    refine ⟨?_, negatable.tail.tail⟩
    rw [SyntaxTree.toExpr, found]
    exact .ok _
  | .capture, negatable => ⟨.ok _, negatable.tail.tail⟩
  | .static arguments, negatable => by
    obtain ⟨args, negatable⟩ := arguments.blameless negatable.tail.tail.tail.tail
    exact ⟨args.map _, negatable.tail⟩
  | .word _, negatable => ⟨Expr.blameless_ofWord _ _ _, negatable.tail⟩
  | .group inner, negatable => by
    obtain ⟨whole, negatable⟩ := inner.blameless negatable.tail
    exact ⟨whole, negatable.tail⟩
termination_by structural phrase => phrase

theorem Further.blameless {chain : Chain} {tokens rest : List Token} {more : List SyntaxTree} :
    Further chain tokens more rest → Negatable tokens →
      Blameless (toExprs ctx more) ∧ Negatable rest
  | .done, negatable => ⟨.ok _, negatable⟩
  | .next first more, negatable => by
    obtain ⟨head, negatable⟩ := first.blameless negatable.tail
    obtain ⟨tail, negatable⟩ := more.blameless negatable
    exact ⟨head.bind fun _ => tail.bind fun _ => .ok _, negatable⟩
termination_by structural further => further

theorem Trailing.blameless {t t' : SyntaxTree} {tokens rest : List Token} :
    Trailing t tokens t' rest → Blameless (t.toExpr ctx) → Negatable tokens →
      Blameless (t'.toExpr ctx) ∧ Negatable rest
  | .done, receiver, negatable => ⟨receiver, negatable⟩
  | .member more, receiver, negatable =>
    more.blameless (receiver.bind fun _ => Expr.blameless_memberOf _ _ _) negatable.tail.tail
  | .call arguments more, receiver, negatable => by
    obtain ⟨args, negatable⟩ := arguments.blameless negatable.tail.tail.tail
    exact more.blameless (receiver.bind fun _ => args.bind fun _ => .ok _) negatable.tail
termination_by structural trailing => trailing

theorem Arguments.blameless {tokens rest : List Token} {args : List SyntaxTree} :
    Arguments tokens args rest → Negatable tokens →
      Blameless (toExprs ctx args) ∧ Negatable rest
  | .none, negatable => ⟨.ok _, negatable⟩
  | .some first more, negatable => by
    obtain ⟨head, negatable⟩ := first.blameless negatable
    obtain ⟨tail, negatable⟩ := more.blameless negatable
    exact ⟨head.bind fun _ => tail.bind fun _ => .ok _, negatable⟩
termination_by structural arguments => arguments

end

/-! ## Sentences -/

theorem splitHead_of_not {tokens : List Token}
    (other : ∀ name o o' body, tokens ≠ ⟨.ident name, o⟩ :: ⟨.arrow, o'⟩ :: body) :
    Expr.splitHead tokens = (none, tokens) := by
  unfold Expr.splitHead
  split
  · exact absurd rfl (other _ _ _ _)
  · rfl

/-- A phrase that is left with nothing after it is read with the fuel for a longer text. -/
theorem Phrase.read_all {tokens : List Token} {t : SyntaxTree} (phrase : Phrase .or tokens t [])
    (ctx : Context) {n : Nat} (long : tokens.length ≤ n) :
    Expr.readOr (8 * n + 8) ctx tokens = (t.toExpr ctx).map fun e => (e, []) :=
  phrase.read ctx (8 * n + 8) (by simp only [Category.fuel]; omega) (ends_nil _)

/-- A sentence is read as what its tree means. -/
theorem Sentence.read {tokens : List Token} {parameter : Option String} {t : SyntaxTree}
    (sentence : Sentence tokens parameter t) (length : Nat) :
    Expr.ofTokens length tokens = t.toExpr ⟨parameter, length⟩ := by
  unfold Expr.ofTokens
  cases sentence with
  | plain phrase =>
    have split : Expr.splitHead tokens = (none, tokens) := by
      apply splitHead_of_not
      rintro name o o' body rfl
      exact phrase.not_head
    simp only [split, phrase.read_all _ (Nat.le_refl _), map_rest_bind]
    exact bind_pure _
  | lambda phrase =>
    simp only [Expr.splitHead, List.length_cons, phrase.read_all _ (Nat.le_add_right _ 2),
      map_rest_bind]
    exact bind_pure _

/-- What is read is what the tree of a sentence means. -/
theorem Sentence.of_read {tokens : List Token} {length : Nat} {e : Expr}
    (read : Expr.ofTokens length tokens = .ok e) :
    ∃ parameter t, Sentence tokens parameter t ∧ t.toExpr ⟨parameter, length⟩ = .ok e := by
  unfold Expr.ofTokens at read
  obtain ⟨⟨e, rest⟩, body, read⟩ := bind_eq_ok.mp read
  obtain ⟨t, phrase, means⟩ := (soundAt (8 * tokens.length + 8)).phrase .or body
  cases rest with
  | cons => cases read
  | nil =>
    cases pure_eq_ok.mp read
    refine ⟨(Expr.splitHead tokens).1, t, ?_, means⟩
    unfold Expr.splitHead at phrase ⊢
    split at phrase
    · exact .lambda phrase
    · exact .plain phrase

/-- The predicate that a tree means, or why it is refused. -/
def SyntaxTree.toPredicate (ctx : Context) (t : SyntaxTree) : Outcome Predicate := do
  let e ← t.toExpr ctx
  e.toPredicate

/-- The sentence of the tokens of a text is not refused for its form. -/
theorem Sentence.blameless {s : String} {tokens : List Token} {parameter : Option String}
    {t : SyntaxTree} (scanned : Token.scan s = .ok tokens) (sentence : Sentence tokens parameter t)
    (ctx : Context) : Blameless (t.toPredicate ctx) := by
  have negatable : Negatable tokens := Token.scan_negatable scanned
  have means : Blameless (t.toExpr ctx) := by
    cases sentence with
    | plain phrase => exact (phrase.blameless negatable).1
    | lambda phrase => exact (phrase.blameless negatable.tail.tail).1
  exact means.bind Expr.blameless_toPredicate

/-- Of a text that can be cut into tokens a predicate is read just where the tokens are a sentence
of the grammar: they then spell one tree, and what is read is the predicate that the tree means.  A
text whose tokens are a sentence is never refused for its form. -/
theorem texts_read_by_grammar {s : String} {tokens : List Token}
    (scanned : Token.scan s = .ok tokens) :
    (∀ p, Predicate.ofText s = .ok p → ∃ parameter t, Sentence tokens parameter t ∧
        t.toPredicate ⟨parameter, s.utf8ByteSize⟩ = .ok p) ∧
      ∀ parameter t, Sentence tokens parameter t →
        (∀ parameter' t', Sentence tokens parameter' t' → parameter' = parameter ∧ t' = t) ∧
          Predicate.ofText s = t.toPredicate ⟨parameter, s.utf8ByteSize⟩ ∧
          ∀ offset fault, Predicate.ofText s ≠ .error (.malformed offset fault) := by
  have text : Predicate.ofText s =
      Expr.ofTokens s.utf8ByteSize tokens >>= Expr.toPredicate := by
    unfold Predicate.ofText Expr.ofText
    rw [scanned]
    rfl
  constructor
  · intro p read
    rw [text] at read
    obtain ⟨e, read, lowered⟩ := bind_eq_ok.mp read
    obtain ⟨parameter, t, sentence, means⟩ := Sentence.of_read read
    exact ⟨parameter, t, sentence, bind_eq_ok.mpr ⟨e, means, lowered⟩⟩
  · intro parameter t sentence
    have read : Predicate.ofText s = t.toPredicate ⟨parameter, s.utf8ByteSize⟩ := by
      rw [text, sentence.read]
      rfl
    refine ⟨fun _ _ other => other.unique sentence, read, ?_⟩
    rw [read]
    exact sentence.blameless scanned _

/-- A text with both connectives, a negated comparison, a contrary and a static call. -/
def mixedText : String := "!a.B == -1 && c || string.Equals(d, \"x\")"

/-- The tokens of the text. -/
def mixedTokens : List Token :=
  [⟨.bang, 0⟩, ⟨.ident "a", 1⟩, ⟨.dot, 2⟩, ⟨.ident "B", 3⟩, ⟨.comparison .eq, 5⟩, ⟨.minus, 8⟩,
    ⟨.number (.int32 1), 9⟩, ⟨.andAnd, 11⟩, ⟨.ident "c", 14⟩, ⟨.orOr, 16⟩, ⟨.ident "string", 19⟩,
    ⟨.dot, 25⟩, ⟨.ident "Equals", 26⟩, ⟨.openParen, 32⟩, ⟨.ident "d", 33⟩, ⟨.comma, 34⟩,
    ⟨.string "x", 36⟩, ⟨.closeParen, 39⟩]

/-- What the text means: `&&` binds tighter than `||`, and `!` takes the whole comparison. -/
def mixedPredicate : Predicate :=
  .logical .or
    [.logical .and
      [.logical .not
        [.comparison .eq (.field ⟨["a", "B"]⟩) (.constant (.literal (.int32 (-1))))],
        .flag ⟨["c"]⟩],
      .textual .equals (.field ⟨["d"]⟩) [.constant (.literal (.text "x"))]]

theorem texts_read_by_grammar_of_mixed :
    Token.scan mixedText = .ok mixedTokens ∧ Predicate.ofText mixedText = .ok mixedPredicate ∧
      ∃ parameter t, Sentence mixedTokens parameter t ∧
        t.toPredicate ⟨parameter, mixedText.utf8ByteSize⟩ = .ok mixedPredicate ∧
        ∀ parameter' t', Sentence mixedTokens parameter' t' → parameter' = parameter ∧ t' = t := by
  have scanned : Token.scan mixedText = .ok mixedTokens := by cbv
  have read : Predicate.ofText mixedText = .ok mixedPredicate := by cbv
  obtain ⟨sound, complete⟩ := texts_read_by_grammar scanned
  obtain ⟨parameter, t, sentence, means⟩ := sound mixedPredicate read
  exact ⟨scanned, read, parameter, t, sentence, means, (complete parameter t sentence).1⟩

/-- Comparisons do not chain. -/
example : Predicate.ofText "a == b == c" = .error (.malformed 7 .trailingInput) := by cbv

/-- What is not offered may be spelled all the same. -/
example : Predicate.ofText "x => y" = .error (.unsupported (.foreignIdentifier "y" "x")) := by
  cbv

end DocStore
