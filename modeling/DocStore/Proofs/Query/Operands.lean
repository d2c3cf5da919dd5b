import DocStore.Proofs.Query.Lambda
import DocStore.Proofs.Query.Strings

/-!
# Texts of operands

A text that spells an operand may stand in another text: before an operator, as an argument, and
before the call of a method.  It spells the same operand in each of these places.  Only the word
`string` alone is no receiver, as it starts a static call before a dot.

* `Phrase.instead`: what follows a phrase may be exchanged;
* `Phrase.before_dot`: an operand as a receiver;
* `SpellsOperand`: texts of operands.
-/

namespace DocStore

open DocStore.Expr (Outcome Context)
open SyntaxTree (toExprs)

/-! ## What follows a phrase -/

/-- Whether tokens start with a dot. -/
def Dotted (tokens : List Token) : Prop := ∃ o, tokens.head? = some ⟨.dot, o⟩

theorem dotted_cons {lexeme : Lexeme} {o : Nat} {rest : List Token} :
    Dotted (⟨lexeme, o⟩ :: rest) ↔ lexeme = .dot := by
  simp [Dotted]

theorem Dotted.append {taken rest rest' : List Token} (dotted : Dotted rest' → Dotted rest) :
    Dotted (taken ++ rest') → Dotted (taken ++ rest) := by
  cases taken with
  | nil => exact dotted
  | cons => exact id

mutual

/-- A phrase is the same phrase before other tokens, unless these start with a dot and what followed
it did not. -/
theorem Phrase.instead {category : Category} {tokens rest : List Token} {t : SyntaxTree} :
    Phrase category tokens t rest → ∃ taken, tokens = taken ++ rest ∧
      ∀ rest', (Dotted rest' → Dotted rest) → Phrase category (taken ++ rest') t rest'
  | .or first more => by
    obtain ⟨head, rfl, first'⟩ := first.instead
    obtain ⟨tail, rfl, more'⟩ := more.instead
    refine ⟨head ++ tail, (List.append_assoc ..).symm, fun rest' dotted => ?_⟩
    rw [List.append_assoc]
    exact .or (first' _ (Dotted.append dotted)) (more' rest' dotted)
  | .and first more => by
    obtain ⟨head, rfl, first'⟩ := first.instead
    obtain ⟨tail, rfl, more'⟩ := more.instead
    refine ⟨head ++ tail, (List.append_assoc ..).symm, fun rest' dotted => ?_⟩
    rw [List.append_assoc]
    exact .and (first' _ (Dotted.append dotted)) (more' rest' dotted)
  | .not inner => by
    obtain ⟨taken, rfl, inner'⟩ := inner.instead
    exact ⟨_ :: taken, rfl, fun rest' dotted => .not (inner' rest' dotted)⟩
  | .plain inner => by
    obtain ⟨taken, rfl, inner'⟩ := inner.instead
    exact ⟨taken, rfl, fun rest' dotted => .plain (inner' rest' dotted)⟩
  | .compare left right => by
    obtain ⟨head, rfl, left'⟩ := left.instead
    obtain ⟨tail, rfl, right'⟩ := right.instead
    refine ⟨head ++ _ :: tail, (List.append_assoc head (_ :: tail) rest).symm,
      fun rest' dotted => ?_⟩
    rw [List.append_assoc]
    exact .compare (left' _ fun mem => nomatch dotted_cons.mp mem) (right' rest' dotted)
  | .alone inner => by
    obtain ⟨taken, rfl, inner'⟩ := inner.instead
    exact ⟨taken, rfl, fun rest' dotted => .alone (inner' rest' dotted)⟩
  | .operand first more => by
    obtain ⟨head, rfl, first'⟩ := first.instead
    obtain ⟨tail, rfl, more'⟩ := more.instead
    refine ⟨head ++ tail, (List.append_assoc ..).symm, fun rest' dotted => ?_⟩
    rw [List.append_assoc]
    exact .operand (first' _ (Dotted.append dotted)) (more' rest')
  | .number => ⟨[_], rfl, fun _ _ => .number⟩
  | .string => ⟨[_], rfl, fun _ _ => .string⟩
  | .negative => ⟨[_, _], rfl, fun _ _ => .negative⟩
  | .capture => ⟨[_, _], rfl, fun _ _ => .capture⟩
  | .static arguments => by
    obtain ⟨taken, rfl, arguments'⟩ := arguments.instead
    refine ⟨_ :: _ :: _ :: _ :: (taken ++ [_]),
      congrArg (_ :: _ :: _ :: _ :: ·) (List.append_cons ..), fun rest' _ => ?_⟩
    simp only [List.cons_append, List.append_assoc, List.nil_append]
    exact .static (arguments' _ fun mem => nomatch dotted_cons.mp mem)
  -- of all forms only a word looks at the token after it
  | .word single => by
    refine ⟨[_], rfl, fun rest' dotted => .word fun same o' next => ?_⟩
    obtain ⟨o, next⟩ := dotted ⟨o', next⟩
    exact single same o next
  | .group inner => by
    obtain ⟨taken, rfl, inner'⟩ := inner.instead
    refine ⟨_ :: (taken ++ [_]), congrArg (_ :: ·) (List.append_cons ..), fun rest' _ => ?_⟩
    simp only [List.cons_append, List.append_assoc, List.nil_append]
    exact .group (inner' _ fun mem => nomatch dotted_cons.mp mem)
termination_by structural phrase => phrase

theorem Further.instead {chain : Chain} {tokens rest : List Token} {more : List SyntaxTree} :
    Further chain tokens more rest → ∃ taken, tokens = taken ++ rest ∧
      ∀ rest', (Dotted rest' → Dotted rest) → Further chain (taken ++ rest') more rest'
  | .done => ⟨[], rfl, fun _ _ => .done⟩
  | .next first more => by
    obtain ⟨head, rfl, first'⟩ := first.instead
    obtain ⟨tail, rfl, more'⟩ := more.instead
    refine ⟨_ :: (head ++ tail), congrArg (_ :: ·) (List.append_assoc ..).symm,
      fun rest' dotted => ?_⟩
    rw [List.cons_append, List.append_assoc]
    exact .next (first' _ (Dotted.append dotted)) (more' rest' dotted)
termination_by structural further => further

theorem Trailing.instead {t t' : SyntaxTree} {tokens rest : List Token} :
    Trailing t tokens t' rest → ∃ taken, tokens = taken ++ rest ∧
      ∀ rest', Trailing t (taken ++ rest') t' rest'
  | .done => ⟨[], rfl, fun _ => .done⟩
  | .member more => by
    obtain ⟨taken, rfl, more'⟩ := more.instead
    exact ⟨_ :: _ :: taken, rfl, fun rest' => .member (more' rest')⟩
  | .call arguments more => by
    obtain ⟨inside, rfl, arguments'⟩ := arguments.instead
    obtain ⟨taken, rfl, more'⟩ := more.instead
    refine ⟨_ :: _ :: _ :: (inside ++ _ :: taken),
      congrArg (_ :: _ :: _ :: ·) (List.append_assoc inside (_ :: taken) rest).symm,
      fun rest' => ?_⟩
    simp only [List.cons_append, List.append_assoc]
    exact .call (arguments' _ fun mem => nomatch dotted_cons.mp mem) (more' rest')
termination_by structural trailing => trailing

theorem Arguments.instead {tokens rest : List Token} {args : List SyntaxTree} :
    Arguments tokens args rest → ∃ taken, tokens = taken ++ rest ∧
      ∀ rest', (Dotted rest' → Dotted rest) → Arguments (taken ++ rest') args rest'
  | .none => ⟨[], rfl, fun _ _ => .none⟩
  | .some first more => by
    obtain ⟨head, rfl, first'⟩ := first.instead
    obtain ⟨tail, rfl, more'⟩ := more.instead
    refine ⟨head ++ tail, (List.append_assoc ..).symm, fun rest' dotted => ?_⟩
    rw [List.append_assoc]
    exact .some (first' _ (Dotted.append dotted)) (more' rest' dotted)
termination_by structural arguments => arguments

end

/-- A phrase that is left with nothing after it stands before whatever does not start with a dot. -/
theorem Phrase.before {category : Category} {tokens rest : List Token} {t : SyntaxTree}
    (phrase : Phrase category tokens t []) (plain : ¬ Dotted rest) :
    Phrase category (tokens ++ rest) t rest := by
  obtain ⟨taken, rfl, instead⟩ := phrase.instead
  rw [List.append_nil]
  exact instead rest fun dotted => absurd dotted plain

/-- Whether tokens are the word `string` alone, which starts a static call before a dot. -/
def IsStringWord (tokens : List Token) : Prop := ∃ o, tokens = [⟨.ident "string", o⟩]

theorem Phrase.primary_before {tokens : List Token} {t : SyntaxTree}
    (phrase : Phrase .primary tokens t []) (other : ¬ IsStringWord tokens) (rest : List Token) :
    Phrase .primary (tokens ++ rest) t rest := by
  cases phrase with
  | number => exact .number
  | string => exact .string
  | negative => exact .negative
  | capture => exact .capture
  | static arguments =>
    obtain ⟨taken, rfl, instead⟩ := arguments.instead
    simp only [List.cons_append, List.append_assoc, List.nil_append]
    exact .static (instead _ fun mem => nomatch dotted_cons.mp mem)
  | @word name o single =>
    refine .word fun same => ?_
    subst same
    exact absurd ⟨o, rfl⟩ other
  | group inner =>
    obtain ⟨taken, rfl, instead⟩ := inner.instead
    simp only [List.cons_append, List.append_assoc, List.nil_append]
    exact .group (instead _ fun mem => nomatch dotted_cons.mp mem)

/-- An operand stands before anything, also before a dot, unless it is the word `string` alone. -/
theorem Phrase.operand_before {tokens : List Token} {t : SyntaxTree}
    (phrase : Phrase .operand tokens t []) (other : ¬ IsStringWord tokens) (rest : List Token) :
    Phrase .operand (tokens ++ rest) t rest := by
  cases phrase with
  | operand first more =>
    obtain ⟨tail, rfl, more'⟩ := more.instead
    cases tail with
    | nil => exact .operand (first.primary_before other rest) (more' rest)
    | cons token tail =>
      -- what follows the first primary is the operand's own member or call, and it stays
      obtain ⟨head, rfl, first'⟩ := first.instead
      have members := first' (token :: (tail ++ rest)) id
      simp only [List.append_assoc, List.cons_append, List.nil_append]
      exact .operand members (more' rest)

/-- An operand is a whole text of its own. -/
theorem Phrase.ofCompare {tokens : List Token} {t : SyntaxTree}
    (phrase : Phrase .compare tokens t []) : Phrase .or tokens t [] :=
  .or (.and (.plain phrase) .done) .done

/-- The members and calls of a receiver, and further ones. -/
theorem Trailing.trans {t t' u : SyntaxTree} {tokens middle rest : List Token}
    (trailing : Trailing t tokens t' middle) (further : Trailing t' middle u rest) :
    Trailing t tokens u rest :=
  match trailing with
  | .done => further
  | .member more => .member (more.trans further)
  | .call arguments more => .call arguments (more.trans further)
termination_by structural trailing

theorem Phrase.call {tokens inside rest : List Token} {t : SyntaxTree} {method : String}
    {args : List SyntaxTree} {o o₁ o₂ o₃ : Nat}
    (receiver : Phrase .operand tokens t
      (⟨.dot, o⟩ :: ⟨.ident method, o₁⟩ :: ⟨.openParen, o₂⟩ :: inside))
    (arguments : Arguments inside args (⟨.closeParen, o₃⟩ :: rest)) :
    Phrase .operand tokens (.call t method args o₁) rest := by
  cases receiver with
  | operand first more => exact .operand first (more.trans (.call arguments .done))

/-! ## Moved phrases -/

namespace SyntaxTree

/-- What a tree means as an operand. -/
def toOperand (ctx : Context) (t : SyntaxTree) : Outcome Operand := do
  let e ← t.toExpr ctx
  e.toOperand

/-- What trees mean as operands; the first refusal counts. -/
def toOperands (ctx : Context) (ts : List SyntaxTree) : Outcome (List Operand) := do
  let es ← toExprs ctx ts
  es.mapM Expr.toOperand

theorem toOperands_cons {ctx : Context} {t : SyntaxTree} {ts : List SyntaxTree} {o : Operand}
    {os : List Operand} (first : t.toOperand ctx = .ok o) (others : toOperands ctx ts = .ok os) :
    toOperands ctx (t :: ts) = .ok (o :: os) := by
  obtain ⟨e, read, lowered⟩ := bind_eq_ok.mp first
  obtain ⟨es, further, lowered'⟩ := bind_eq_ok.mp others
  rw [toOperands, toExprs, read, further]
  show (e :: es).mapM Expr.toOperand = _
  rw [List.mapM_cons, lowered, lowered']
  rfl

end SyntaxTree

theorem Means.toOperand {ctx ctx' : Context} {t t' : SyntaxTree} {o : Operand}
    (means : Means "" "" ctx ctx' 0 t t') (spelled : t.toOperand ctx = .ok o) :
    t'.toOperand ctx' = .ok o := by
  obtain ⟨e, read, lowered⟩ := bind_eq_ok.mp spelled
  obtain ⟨e', read', exchange⟩ := means e read
  obtain ⟨o', lowered', exchange⟩ := exchange.toOperand lowered
  rw [exchange.eq rfl]
  exact bind_eq_ok.mpr ⟨e', read', lowered'⟩

/-- Whether a text spells an operand, where paths start from a parameter or directly. -/
def SpellsOperand (parameter : Option String) (s : String) (o : Operand) : Prop :=
  ∃ tokens t, Token.scan s = .ok tokens ∧ Phrase .operand tokens t [] ∧
    t.toOperand ⟨parameter, s.utf8ByteSize⟩ = .ok o

/-- Whether a text that spells an operand may be a receiver.  The word `string` alone may not:
before a dot it starts a static call. -/
def IsReceiver (s : String) : Prop := ∀ o, Token.scan s ≠ .ok [⟨.ident "string", o⟩]

/-- A text spells an operand wherever it stands in another. -/
theorem SpellsOperand.moved {ctx : Context} {s : String} {o : Operand}
    (spells : SpellsOperand ctx.parameter s o) (offset : Nat) :
    ∃ tokens t, Token.Cuts offset s.toList tokens ∧ Phrase .operand tokens t [] ∧
      t.toOperand ctx = .ok o ∧ (IsReceiver s → ¬ IsStringWord tokens) := by
  obtain ⟨tokens, t, scanned, phrase, means⟩ := spells
  obtain ⟨tokens', cuts, respelled⟩ := (Token.scan_eq_ok_iff.mp scanned).moved "" "" offset
  have respelling : Respelling none ⟨ctx.parameter, s.utf8ByteSize⟩ ctx := ⟨fun _ => rfl, nofun⟩
  obtain ⟨k, m, t', rest, total, phrase', left, same⟩ :=
    phrase.respelled respelling (respelled true)
  obtain ⟨rfl, rfl⟩ := left.nil
  obtain rfl : k = 0 := by omega
  refine ⟨tokens', t', cuts, phrase', same.toOperand means, ?_⟩
  rintro receiver ⟨o', rfl⟩
  cases respelled true with
  | kept _ further =>
    cases further
    exact receiver _ scanned

/-! ## Calls -/

/-- The text of a method call. -/
def called (receiver method args : String) : String :=
  receiver ++ "." ++ method ++ "(" ++ args ++ ")"

theorem called_toList (receiver method args : String) : (called receiver method args).toList =
    receiver.toList ++ '.' :: (method.toList ++ '(' :: (args.toList ++ [')'])) := by
  simp [called, String.toList_append]

/-- A call is cut into the tokens of the receiver, the method and the arguments. -/
theorem Token.Cuts.called {offset : Nat} {receiver method args : String} {tokens inside : List Token}
    (cuts : Cuts offset receiver.toList tokens) (named : isName method)
    (arguments : Cuts (offset + String.utf8Len receiver.toList + 1 + method.length + 1) args.toList
      inside) :
    ∃ o o₁ o₂ o₃, Cuts offset (DocStore.called receiver method args).toList
      (tokens ++ ⟨.dot, o⟩ :: ⟨.ident method, o₁⟩ :: ⟨.openParen, o₂⟩ ::
        (inside ++ [⟨.closeParen, o₃⟩])) := by
  obtain ⟨c, rest, spelled, starts⟩ := starts_of_isName named
  have dotted : Detached ('.' :: (method.toList ++ '(' :: (args.toList ++ [')']))) := by
    refine ⟨by rintro ⟨⟩, by rintro d ⟨⟩; decide, ?_⟩
    rintro d after same
    rw [spelled] at same
    cases same
    exact not_isDigit_of_isIdentStart starts
  have opened : ∀ d ∈ ('(' :: (args.toList ++ [')'])).head?, isIdentChar d = false := by
    rintro d ⟨⟩
    decide
  have closing := (arguments.before (detached_cons (by decide) (by decide) (by decide) [])).cuts
    (.lexeme (c := ')') rfl rfl (Nat.le_refl _) .done)
  have inner := (passes_name named opened _).cuts (.lexeme rfl rfl (Nat.le_refl _) closing)
  rw [called_toList]
  exact ⟨_, _, _, _, (cuts.before dotted).cuts (.lexeme rfl rfl (Nat.le_refl _) inner)⟩

theorem Arguments.before {tokens rest : List Token} {args : List SyntaxTree}
    (arguments : Arguments tokens args []) (plain : ¬ Dotted rest) :
    Arguments (tokens ++ rest) args rest := by
  obtain ⟨taken, rfl, instead⟩ := arguments.instead
  rw [List.append_nil]
  exact instead rest fun dotted => absurd dotted plain

/-- Whether a text spells the arguments of a call, wherever it stands. -/
def SpellsArguments (ctx : Context) (s : String) (os : List Operand) : Prop :=
  ∀ offset, ∃ tokens args, Token.Cuts offset s.toList tokens ∧ Arguments tokens args [] ∧
    SyntaxTree.toOperands ctx args = .ok os

variable {ctx : Context} {a b : String} {l r : Operand}

theorem spellsArguments_nil : SpellsArguments ctx "" [] :=
  fun _ => ⟨[], [], .done, .none, rfl⟩

theorem SpellsOperand.alone (only : SpellsOperand ctx.parameter a l) :
    SpellsArguments ctx a [l] := by
  intro offset
  obtain ⟨tokens, t, cuts, phrase, means, -⟩ := only.moved offset
  exact ⟨tokens, [t], cuts, .some (Phrase.ofCompare (.alone phrase)) .done,
    SyntaxTree.toOperands_cons means rfl⟩

theorem SpellsOperand.pair (first : SpellsOperand ctx.parameter a l)
    (second : SpellsOperand ctx.parameter b r) : SpellsArguments ctx (a ++ ", " ++ b) [l, r] := by
  intro offset
  obtain ⟨head, t, cuts, phrase, means, -⟩ := first.moved offset
  obtain ⟨tail, u, cuts', phrase', means', -⟩ :=
    second.moved (offset + String.utf8Len a.toList + 1 + 1)
  have comma : (a ++ ", " ++ b).toList = a.toList ++ ',' :: ' ' :: b.toList := by
    simp [String.toList_append]
  have whole := (cuts.before (Token.detached_cons (by decide) (by decide) (by decide) _)).cuts
    (.lexeme (c := ',') rfl rfl (Nat.le_refl _) (.spacing (c := ' ') rfl cuts'))
  rw [← comma] at whole
  have single {o : Nat} : ¬ Dotted (⟨.comma, o⟩ :: tail) := fun dotted => nomatch dotted_cons.mp dotted
  have further {o : Nat} : Further .args (⟨.comma, o⟩ :: tail) [u] [] :=
    .next (Phrase.ofCompare (.alone phrase')) .done
  exact ⟨_, [t, u], whole, .some ((Phrase.ofCompare (.alone phrase)).before single) further,
    SyntaxTree.toOperands_cons means (SyntaxTree.toOperands_cons means' rfl)⟩

/-- A method called on a receiver. -/
theorem SpellsOperand.called (receiver : SpellsOperand ctx.parameter a l) (before : IsReceiver a)
    {method : String} (named : Token.isName method) {os : List Operand}
    (arguments : SpellsArguments ctx b os) (offset : Nat) :
    ∃ tokens t args o, Token.Cuts offset (DocStore.called a method b).toList tokens ∧
      Phrase .operand tokens (.call t method args o) [] ∧ t.toOperand ctx = .ok l ∧
      SyntaxTree.toOperands ctx args = .ok os := by
  obtain ⟨head, t, cuts, phrase, means, other⟩ := receiver.moved offset
  obtain ⟨inside, args, cuts', phrases, means'⟩ :=
    arguments (offset + String.utf8Len a.toList + 1 + method.length + 1)
  obtain ⟨o, o₁, o₂, o₃, whole⟩ := cuts.called named cuts'
  refine ⟨_, t, args, o₁, whole, ?_, means, means'⟩
  exact (phrase.operand_before (other before) _).call
    (phrases.before fun dotted => nomatch dotted_cons.mp dotted)

/-- A static call. -/
theorem SpellsArguments.static {os : List Operand} (arguments : SpellsArguments ctx b os)
    {method : String} (named : Token.isName method) (offset : Nat) :
    ∃ tokens args o, Token.Cuts offset (DocStore.called "string" method b).toList tokens ∧
      Phrase .operand tokens (.static method args o) [] ∧
      SyntaxTree.toOperands ctx args = .ok os := by
  have word : Token.Cuts offset "string".toList [⟨.ident "string", offset⟩] := by
    have passes : Token.Passes offset ("string".toList ++ []) _ _ [] :=
      Token.passes_name rfl (by rintro d ⟨⟩) offset
    exact passes.cuts .done
  obtain ⟨inside, args, cuts, phrases, means⟩ :=
    arguments (offset + String.utf8Len "string".toList + 1 + method.length + 1)
  obtain ⟨o, o₁, o₂, o₃, whole⟩ := word.called named cuts
  exact ⟨_, args, o₁, whole,
    .operand (.static (phrases.before fun dotted => nomatch dotted_cons.mp dotted)) .done, means⟩

/-! ## Whole texts -/

/-- A text that names the parameter that its paths start from, if there is one. -/
def underParameter : Option String → String → String
  | none, s => s
  | some v, s => v ++ " => " ++ s

/-- Whether a text spells a predicate, wherever it stands. -/
def SpellsPredicate (ctx : Context) (s : String) (p : Predicate) : Prop :=
  ∀ offset, ∃ tokens t, Token.Cuts offset s.toList tokens ∧ Phrase .compare tokens t [] ∧
    t.toPredicate ctx = .ok p

theorem SpellsPredicate.read {parameter : Option String} {s : String} {p : Predicate}
    (named : ∀ v ∈ parameter, Token.isName v)
    (spells : SpellsPredicate ⟨parameter, (underParameter parameter s).utf8ByteSize⟩ s p) :
    Predicate.ofText (underParameter parameter s) = .ok p := by
  cases parameter with
  | none =>
    obtain ⟨tokens, t, cuts, phrase, means⟩ := spells 0
    show Predicate.ofText s = .ok p
    rw [Predicate.ofText_eq cuts.scan, (Sentence.plain phrase.ofCompare).read]
    exact means
  | some v =>
    obtain ⟨tokens, t, cuts, phrase, means⟩ := spells (0 + v.length + 1 + 2 + 1)
    have ends : ∀ d ∈ (" => ".toList ++ s.toList).head?, Token.isIdentChar d = false := by
      rintro d ⟨⟩
      decide
    have text : (underParameter (some v) s).toList = v.toList ++ (" => ".toList ++ s.toList) := by
      simp [underParameter, String.toList_append]
    have whole : Token.Cuts 0 (underParameter (some v) s).toList
        (⟨.ident v, 0⟩ :: ⟨.arrow, 0 + v.length + 1⟩ :: tokens) := by
      rw [text]
      exact (Token.passes_name (named v rfl) ends 0).cuts
        (.spacing rfl (.lexeme rfl rfl (by simp) (.spacing rfl cuts)))
    rw [Predicate.ofText_eq whole.scan, (Sentence.lambda phrase.ofCompare).read]
    exact means

/-- An operator for equality as it is written between operands. -/
def CompareOp.equalityText : CompareOp → String
  | .ne => " != "
  | _ => " == "

theorem Token.passes_equality {op : CompareOp} (equality : op.isEquality) (offset : Nat)
    (rest : List Char) :
    Passes offset (op.equalityText.toList ++ rest) [⟨.comparison op, offset + 1⟩] (offset + 4)
      rest := by
  cases op with
  | eq | ne => exact .spacing rfl (.lexeme rfl rfl (by simp) (.spacing rfl .stay))
  | lt | le | gt | ge => cases equality

/-- Two operands with an operator between them. -/
theorem SpellsOperand.equation (left : SpellsOperand ctx.parameter a l)
    (right : SpellsOperand ctx.parameter b r) {op : CompareOp} (equality : op.isEquality) :
    SpellsPredicate ctx (a ++ op.equalityText ++ b) (.comparison op l r) := by
  intro offset
  have detached : Token.Detached (op.equalityText.toList ++ b.toList) := by
    cases op <;> exact Token.detached_cons (by decide) (by decide) (by decide) _
  obtain ⟨head, t, cuts, phrase, means, -⟩ := left.moved offset
  obtain ⟨tail, u, cuts', phrase', means', -⟩ :=
    right.moved (offset + String.utf8Len a.toList + 4)
  have whole := (cuts.before detached).cuts ((Token.passes_equality equality _ _).cuts cuts')
  have text : (a ++ op.equalityText ++ b).toList =
      a.toList ++ (op.equalityText.toList ++ b.toList) := by
    simp [String.toList_append]
  rw [← text] at whole
  have single {o : Nat} : ¬ Dotted (⟨.comparison op, o⟩ :: tail) :=
    fun dotted => nomatch dotted_cons.mp dotted
  obtain ⟨e, read, lowered⟩ := bind_eq_ok.mp means
  obtain ⟨e', read', lowered'⟩ := bind_eq_ok.mp means'
  refine ⟨_, _, whole, .compare (phrase.before single) phrase', ?_⟩
  simp only [SyntaxTree.toPredicate, SyntaxTree.toExpr, read, read', bind, Except.bind, pure,
    Except.pure, Expr.toPredicate, lowered, lowered']

/-- The method for equality, called on a receiver. -/
theorem SpellsOperand.equals (receiver : SpellsOperand ctx.parameter a l) (before : IsReceiver a)
    (argument : SpellsOperand ctx.parameter b r) :
    SpellsPredicate ctx (DocStore.called a "Equals" b) (.textual .equals l [r]) := by
  intro offset
  obtain ⟨tokens, t, args, o, cuts, phrase, means, means'⟩ :=
    receiver.called before (by decide : Token.isName "Equals") argument.alone offset
  obtain ⟨e, read, lowered⟩ := bind_eq_ok.mp means
  obtain ⟨es, read', lowered'⟩ := bind_eq_ok.mp means'
  refine ⟨_, _, cuts, .alone phrase, ?_⟩
  simp only [SyntaxTree.toPredicate, SyntaxTree.toExpr, read, read', bind, Except.bind, pure,
    Except.pure, Expr.toPredicate, Expr.textOp, lowered, lowered']

/-- The word `string` is a field like any other, but no receiver. -/
example : Predicate.ofText "string == \"x\"" =
      .ok (.comparison .eq (.field ⟨["string"]⟩) (.constant (.literal (.text "x")))) ∧
    Predicate.ofText "string.Equals(\"x\")" =
      .error (.unsupported (.staticArity "Equals" 2 1)) := by
  constructor <;> cbv

/-- The static method for equality. -/
theorem SpellsOperand.staticEquals (first : SpellsOperand ctx.parameter a l)
    (second : SpellsOperand ctx.parameter b r) :
    SpellsPredicate ctx (DocStore.called "string" "Equals" (a ++ ", " ++ b))
      (.textual .equals l [r]) := by
  intro offset
  obtain ⟨tokens, args, o, cuts, phrase, means⟩ :=
    (first.pair second).static (by decide : Token.isName "Equals") offset
  obtain ⟨es, read, lowered⟩ := bind_eq_ok.mp means
  refine ⟨_, _, cuts, .alone phrase, ?_⟩
  simp only [SyntaxTree.toPredicate, SyntaxTree.toExpr, read, Except.map, bind, Except.bind,
    Expr.toPredicate, Expr.staticTextOp, lowered]
  rfl

/-- Nothing but a path is read as a field. -/
theorem Expr.eq_path_of_field {e : Expr} {path : FieldPath}
    (field : e.toOperand = .ok (.field path)) :
    ∃ segments o, e = .path segments o ∧ fieldPath segments o = .ok path := by
  cases e with
  | path segments o =>
    obtain ⟨path, found, same⟩ := map_eq_ok.mp field
    cases same
    exact ⟨segments, o, rfl, found⟩
  | call receiver method args o =>
    unfold toOperand at field
    split at field
    · cases field
    · split at field
      · obtain ⟨_, -, same⟩ := map_eq_ok.mp field
        cases same
      · obtain ⟨_, -, same⟩ := map_eq_ok.mp field
        cases same
      · split at field
        · obtain ⟨_, -, same⟩ := map_eq_ok.mp field
          cases same
        · cases field
      · cases field
  | literal | capture | staticCall | hasValue | compare | and | or | not => cases field

/-- A field with the method for its label is the label of the field. -/
theorem SpellsOperand.label {parameter : Option String} {path : FieldPath}
    (field : SpellsOperand parameter a (.field path)) (before : IsReceiver a) :
    SpellsOperand parameter (DocStore.called a "ToString" "") (.label path) := by
  let ctx : Context := ⟨parameter, (DocStore.called a "ToString" "").utf8ByteSize⟩
  have receiver : SpellsOperand ctx.parameter a (.field path) := field
  obtain ⟨tokens, t, args, o, cuts, phrase, means, none⟩ :=
    receiver.called before (by decide : Token.isName "ToString") spellsArguments_nil 0
  refine ⟨tokens, _, cuts.scan, phrase, ?_⟩
  obtain ⟨e, read, lowered⟩ := bind_eq_ok.mp means
  obtain ⟨segments, start, rfl, found⟩ := Expr.eq_path_of_field lowered
  obtain ⟨es, read', lowered'⟩ := bind_eq_ok.mp none
  cases es with
  | nil =>
    have label : (Expr.call (.path segments start) "ToString" [] o).toOperand = .ok (.label path) :=
      map_eq_ok.mpr ⟨path, found, rfl⟩
    show (SyntaxTree.call t "ToString" args o).toOperand ctx = _
    simp only [SyntaxTree.toOperand, SyntaxTree.toExpr, read, read', bind, Except.bind, pure,
      Except.pure, label]
  | cons e es =>
    rw [List.mapM_cons] at lowered'
    obtain ⟨_, -, further⟩ := bind_eq_ok.mp lowered'
    obtain ⟨_, -, further⟩ := bind_eq_ok.mp further
    cases further

end DocStore
