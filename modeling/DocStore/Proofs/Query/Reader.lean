import DocStore.Proofs.Check.Derivation
import DocStore.Proofs.Query.Grammar
import DocStore.Query.Reading

/-!
# The reader follows the grammar

The reader of expressions looks one token ahead and spends fuel at each step.  It accepts what the
grammar has and nothing else, and answers with what the tree of the tokens means: an expression, or
the first refusal on the way to one.

* `SyntaxTree.toExpr`: what a tree means;
* `Category.reader`, `Chain.reader`: the part of the reader for each part of the grammar;
* `Phrase.read`: a phrase that what follows does not go on with is read as what its tree means;
* `soundAt`: what is read, with any fuel, is a phrase of a tree that means it.
-/

namespace DocStore

open DocStore.Expr (Outcome Context)

/-! ## What a tree means -/

namespace SyntaxTree

mutual

/-- The expression that a tree stands for: words and members get their meaning, from left to
right. -/
def toExpr (ctx : Context) : SyntaxTree → Outcome Expr
  | literal value => .ok (.literal value)
  | negative number offset =>
    match Expr.negated? number with
    | some value => .ok (.literal value)
    | none => .error (.malformed offset .literalOutOfRange)
  | capture name => .ok (.capture name)
  | word name offset => Expr.ofWord ctx name offset
  | static method args offset => (toExprs ctx args).map fun args => .staticCall method args offset
  | member receiver name offset => do
    let receiver ← toExpr ctx receiver
    Expr.memberOf receiver name offset
  | call receiver method args offset => do
    let receiver ← toExpr ctx receiver
    let args ← toExprs ctx args
    return .call receiver method args offset
  | compare op left right => do
    let left ← toExpr ctx left
    let right ← toExpr ctx right
    return .compare op left right
  | not operand => (toExpr ctx operand).map .not
  | and operands => (toExprs ctx operands).map .and
  | or operands => (toExprs ctx operands).map .or

/-- The expressions that trees stand for; the first refusal counts. -/
def toExprs (ctx : Context) : List SyntaxTree → Outcome (List Expr)
  | [] => .ok []
  | t :: rest => do
    let e ← toExpr ctx t
    let es ← toExprs ctx rest
    return e :: es

end

end SyntaxTree

open SyntaxTree

variable {ctx : Context}

theorem SyntaxTree.toExpr_chained {node : List SyntaxTree → SyntaxTree}
    {make : List Expr → Expr}
    (means : ∀ operands, (node operands).toExpr ctx = (toExprs ctx operands).map make)
    (t : SyntaxTree) (more : List SyntaxTree) :
    (chained node t more).toExpr ctx = do
      let e ← t.toExpr ctx
      let es ← toExprs ctx more
      return Expr.chain make e es := by
  cases more with
  | nil =>
    show t.toExpr ctx = _
    cases t.toExpr ctx <;> rfl
  | cons second more =>
    show (node (t :: second :: more)).toExpr ctx = _
    rw [means, toExprs, toExprs]
    cases t.toExpr ctx with
    | error => rfl
    | ok e =>
      cases second.toExpr ctx with
      | error => rfl
      | ok => cases toExprs ctx more <;> rfl

/-! ## Readers -/

/-- What follows an argument: the closing parenthesis, or a comma and further arguments. -/
def Expr.readArgTail (fuel : Nat) (ctx : Context) (tokens : List Token) :
    Outcome (List Expr × List Token) :=
  match tokens with
  | ⟨.closeParen, _⟩ :: tokens => .ok ([], tokens)
  | tokens => do
    let tokens ← ctx.expect .comma .expectedSeparator tokens
    readArgList fuel ctx tokens

theorem Expr.readArgList_succ (fuel : Nat) (ctx : Context) (tokens : List Token) :
    readArgList (fuel + 1) ctx tokens = do
      let (arg, tokens) ← readOr fuel ctx tokens
      let (args, tokens) ← readArgTail fuel ctx tokens
      return (arg :: args, tokens) := by
  rw [readArgList]
  rcases readOr fuel ctx tokens with e | ⟨arg, tokens⟩
  · rfl
  · rcases tokens with _ | ⟨⟨lexeme, o⟩, tokens⟩
    · rfl
    · cases lexeme <;> rfl

def Category.reader : Category → Nat → Context → List Token → Outcome (Expr × List Token)
  | or => Expr.readOr
  | and => Expr.readAnd
  | unary => Expr.readUnary
  | compare => Expr.readCompare
  | operand => Expr.readPostfix
  | primary => Expr.readPrimary

def Chain.reader : Chain → Nat → Context → List Token → Outcome (List Expr × List Token)
  | or => Expr.readOrTail
  | and => Expr.readAndTail
  | args => Expr.readArgTail

/-- What the reader of a chain leaves of the tokens after it: the arguments of a call are read with
the closing parenthesis. -/
def Chain.left : Chain → List Token → List Token
  | args, rest => rest.tail
  | _, rest => rest

/-- How much fuel the reader of a category needs besides what its tokens take. -/
def Category.fuel : Category → Nat
  | or => 6
  | and => 5
  | unary => 4
  | compare => 3
  | operand => 2
  | primary => 1

theorem map_rest_bind {α β : Type} (outcome : Outcome α) (rest : List Token)
    (f : α × List Token → Outcome β) :
    (outcome.map fun a => (a, rest)) >>= f = outcome >>= fun a => f (a, rest) := by
  cases outcome <;> rfl

theorem bind_map {α β γ : Type} (outcome : Outcome α) (f : α → Outcome β) (g : β → γ) :
    (outcome >>= f).map g = outcome >>= fun a => (f a).map g := by
  cases outcome <;> rfl

theorem Chain.read_done {chain : Chain} {rest : List Token} (ends : Ends chain.grip rest)
    (closed : chain = args → Closed rest) (fuel : Nat) (ctx : Context) :
    chain.reader (fuel + 1) ctx rest = .ok ([], chain.left rest) := by
  cases chain with
  | or =>
    show Expr.readOrTail (fuel + 1) ctx rest = _
    rw [Expr.readOrTail]
    · rfl
    · rintro o tokens rfl
      exact absurd (ends_cons.mp ends) (by decide)
  | and =>
    show Expr.readAndTail (fuel + 1) ctx rest = _
    rw [Expr.readAndTail]
    · rfl
    · rintro o tokens rfl
      exact absurd (ends_cons.mp ends) (by decide)
  | args =>
    obtain ⟨o, after, rfl⟩ := (closed rfl).eq_cons
    rfl

/-- A reader of a chain goes on after a separator. -/
theorem Chain.reader_next (chain : Chain) (fuel o : Nat) (ctx : Context) (tokens : List Token) :
    chain.reader (fuel + 1) ctx (⟨chain.separator, o⟩ :: tokens) =
      chain.item.reader fuel ctx tokens >>= fun first =>
        chain.reader fuel ctx first.2 >>= fun more => pure (first.1 :: more.1, more.2) := by
  cases chain with
  | or => rfl
  | and => rfl
  | args => exact Expr.readArgList_succ fuel ctx tokens

/-- The reader of a category that is a chain: a phrase, and what further ones follow it. -/
def Chain.readAll (chain : Chain) (make : List Expr → Expr) (fuel : Nat) (ctx : Context)
    (tokens : List Token) : Outcome (Expr × List Token) := do
  let (first, tokens) ← chain.item.reader fuel ctx tokens
  let (more, tokens) ← chain.reader fuel ctx tokens
  return (Expr.chain make first more, tokens)

theorem Expr.readOr_succ (fuel : Nat) (ctx : Context) (tokens : List Token) :
    readOr (fuel + 1) ctx tokens = Chain.or.readAll .or fuel ctx tokens :=
  rfl

theorem Expr.readAnd_succ (fuel : Nat) (ctx : Context) (tokens : List Token) :
    readAnd (fuel + 1) ctx tokens = Chain.and.readAll .and fuel ctx tokens :=
  rfl

/-- Fuel that is enough can be used. -/
theorem used_of_enough {need fuel : Nat} (enough : need + 1 ≤ fuel) :
    ∃ left, fuel = left + 1 ∧ need ≤ left :=
  ⟨fuel - 1, by omega, by omega⟩

/-! ## Completeness -/

/-- A chain is read as what its trees mean together. -/
theorem Chain.readAll_eq (chain : Chain) {node : List SyntaxTree → SyntaxTree}
    {make : List Expr → Expr} {fuel : Nat} {tokens middle rest : List Token} {t : SyntaxTree}
    {more : List SyntaxTree}
    (means : ∀ operands, (node operands).toExpr ctx = (toExprs ctx operands).map make)
    (head : chain.item.reader fuel ctx tokens = (t.toExpr ctx).map fun e => (e, middle))
    (tail : chain.reader fuel ctx middle = (toExprs ctx more).map fun es => (es, rest)) :
    chain.readAll make fuel ctx tokens =
      ((chained node t more).toExpr ctx).map fun e => (e, rest) := by
  rw [toExpr_chained means, readAll, head, map_rest_bind]
  simp only [tail, map_rest_bind, bind_map]
  rfl

namespace Expr

/-- An operand that no operator follows is read alone. -/
theorem readCompare_alone {fuel : Nat} {tokens rest : List Token} {outcome : Outcome Expr}
    (operand : readPostfix fuel ctx tokens = outcome.map fun e => (e, rest))
    (ends : Ends Category.compare.grip rest) :
    readCompare (fuel + 1) ctx tokens = outcome.map fun e => (e, rest) := by
  rw [readCompare, operand, map_rest_bind]
  cases outcome with
  | error => rfl
  | ok e =>
    simp only [Except.map, bind, Except.bind]
    split
    · exact absurd (ends_cons.mp ends) (Nat.lt_irrefl _)
    · rfl

/-- A name that no parenthesis follows is read as a member. -/
theorem readMembers_member {o o' fuel : Nat} {receiver : Expr} {name : String}
    {tokens : List Token} (single : ∀ o'' after, tokens ≠ ⟨.openParen, o''⟩ :: after) :
    readMembers (fuel + 1) ctx receiver (⟨.dot, o⟩ :: ⟨.ident name, o'⟩ :: tokens) =
      memberOf receiver name o' >>= fun member => readMembers fuel ctx member tokens := by
  have word : ctx.identifier (⟨.ident name, o'⟩ :: tokens) = pure ((name, o'), tokens) := rfl
  rw [readMembers, word, pure_bind]
  dsimp only
  split
  · exact absurd rfl (single _ _)
  · rfl

/-- The call of a method is read with its arguments. -/
theorem readMembers_call {o o' o'' fuel : Nat} {receiver : Expr} {name : String}
    {tokens rest : List Token} {outcome : Outcome (List Expr)}
    (inside : readArgs fuel ctx tokens = outcome.map fun args => (args, rest)) :
    readMembers (fuel + 1) ctx receiver
        (⟨.dot, o⟩ :: ⟨.ident name, o'⟩ :: ⟨.openParen, o''⟩ :: tokens) =
      outcome >>= fun args => readMembers fuel ctx (.call receiver name args o') rest := by
  show (readArgs fuel ctx tokens >>= fun r =>
    readMembers fuel ctx (.call receiver name r.1 o') r.2) = _
  rw [inside, map_rest_bind]

theorem readPrimary_negative {v : Value} {o o' fuel : Nat} {rest : List Token} :
    readPrimary (fuel + 1) ctx (⟨.minus, o⟩ :: ⟨.number v, o'⟩ :: rest) =
      (toExpr ctx (.negative v o)).map fun e => (e, rest) := by
  rw [readPrimary, toExpr]
  cases negated? v <;> rfl

theorem readPrimary_static {o o₁ o₂ o₃ fuel : Nat} {method : String} {tokens rest : List Token}
    {outcome : Outcome (List Expr)}
    (inside : readArgs fuel ctx tokens = outcome.map fun args => (args, rest)) :
    readPrimary (fuel + 1) ctx (⟨.ident "string", o⟩ :: ⟨.dot, o₁⟩ :: ⟨.ident method, o₂⟩ ::
        ⟨.openParen, o₃⟩ :: tokens) =
      outcome.map fun args => (.staticCall method args o₂, rest) := by
  show (readArgs fuel ctx tokens >>= fun r => pure (staticCall method r.1 o₂, r.2)) = _
  rw [inside, map_rest_bind]
  cases outcome <;> rfl

theorem readPrimary_group {o o' fuel : Nat} {tokens rest : List Token} {outcome : Outcome Expr}
    (inside : readOr fuel ctx tokens = outcome.map fun e => (e, ⟨.closeParen, o'⟩ :: rest)) :
    readPrimary (fuel + 1) ctx (⟨.openParen, o⟩ :: tokens) = outcome.map fun e => (e, rest) := by
  show (readOr fuel ctx tokens >>= fun r =>
    ctx.expect .closeParen .expectedClosing r.2 >>= fun rest => pure (r.1, rest)) = _
  rw [inside, map_rest_bind]
  cases outcome <;> rfl

/-- A word that does not start a static call is read as what it means. -/
theorem readPrimary_word {name : String} {o fuel : Nat} {rest : List Token}
    (single : name = "string" → ∀ o', rest.head? ≠ some ⟨.dot, o'⟩) :
    readPrimary (fuel + 1) ctx (⟨.ident name, o⟩ :: rest) =
      (ofWord ctx name o).map fun e => (e, rest) := by
  unfold readPrimary
  dsimp only
  split
  · exact absurd rfl (single rfl _)
  · rfl

end Expr

mutual

/-- A phrase that what follows does not go on with is read as what its tree means.  No more than
eight readers are entered for a token, so eight units of fuel for each token are enough. -/
theorem Phrase.read {category : Category} {tokens rest : List Token} {t : SyntaxTree} :
    Phrase category tokens t rest → ∀ (ctx : Context) (fuel : Nat),
      8 * tokens.length + category.fuel ≤ fuel → Ends category.grip rest →
        category.reader fuel ctx tokens = (t.toExpr ctx).map fun e => (e, rest)
  | .or first more, ctx, fuel, enough, ends => by
    obtain ⟨fuel, rfl, spare⟩ := used_of_enough enough
    have shorter := first.shorter
    have head := first.read ctx fuel spare (more.ends ends)
    have tail := more.read ctx fuel (by omega) ends nofun
    exact Chain.readAll_eq .or (fun _ => rfl) head tail
  | .and first more, ctx, fuel, enough, ends => by
    obtain ⟨fuel, rfl, spare⟩ := used_of_enough enough
    have shorter := first.shorter
    have head := first.read ctx fuel spare (more.ends ends)
    have tail := more.read ctx fuel (by omega) ends nofun
    exact Chain.readAll_eq .and (fun _ => rfl) head tail
  | .not inner, ctx, fuel, enough, ends => by
    obtain ⟨fuel, rfl, spare⟩ := used_of_enough enough
    have operand : Expr.readUnary fuel ctx _ = _ :=
      inner.read ctx fuel (by simp only [List.length_cons, Category.fuel] at *; omega) ends
    show Expr.readUnary (fuel + 1) ctx _ = _
    rw [Expr.readUnary, operand, toExpr, map_rest_bind]
    cases toExpr ctx _ <;> rfl
  | .plain inner, ctx, fuel, enough, ends => by
    obtain ⟨fuel, rfl, spare⟩ := used_of_enough enough
    have operand : Expr.readCompare fuel ctx _ = _ := inner.read ctx fuel spare ends
    show Expr.readUnary (fuel + 1) ctx _ = _
    rw [Expr.readUnary, operand]
    rintro o after rfl
    exact inner.not_bang
  | .compare left right, ctx, fuel, enough, ends => by
    obtain ⟨fuel, rfl, spare⟩ := used_of_enough enough
    have shorter := left.shorter
    simp only [List.length_cons] at shorter
    have first : Expr.readPostfix fuel ctx _ = _ := left.read ctx fuel spare ends_comparison
    have second : Expr.readPostfix fuel ctx _ = _ :=
      right.read ctx fuel (by simp only [Category.fuel]; omega) (ends.mono (by decide))
    show Expr.readCompare (fuel + 1) ctx _ = _
    rw [Expr.readCompare, first, map_rest_bind]
    simp only [second, map_rest_bind, toExpr, bind_map]
    rfl
  | .alone inner, ctx, fuel, enough, ends => by
    obtain ⟨fuel, rfl, spare⟩ := used_of_enough enough
    exact Expr.readCompare_alone (inner.read ctx fuel spare (ends.mono (by decide))) ends
  | .operand first more, ctx, fuel, enough, ends => by
    obtain ⟨fuel, rfl, spare⟩ := used_of_enough enough
    have shorter := first.shorter
    have head : Expr.readPrimary fuel ctx _ = _ := first.read ctx fuel spare (ends_primary _)
    show Expr.readPostfix (fuel + 1) ctx _ = _
    rw [Expr.readPostfix, head, map_rest_bind]
    exact more.read ctx fuel (by omega) ends
  | .number, ctx, fuel, enough, _ => by
    obtain ⟨fuel, rfl, -⟩ := used_of_enough enough
    rfl
  | .string, ctx, fuel, enough, _ => by
    obtain ⟨fuel, rfl, -⟩ := used_of_enough enough
    rfl
  | .negative, ctx, fuel, enough, _ => by
    obtain ⟨fuel, rfl, -⟩ := used_of_enough enough
    simp only [Category.reader, Expr.readPrimary_negative]
  | .capture, ctx, fuel, enough, _ => by
    obtain ⟨fuel, rfl, -⟩ := used_of_enough enough
    rfl
  | .static arguments, ctx, fuel, enough, _ => by
    obtain ⟨fuel, rfl, spare⟩ := used_of_enough enough
    simp only [List.length_cons] at spare
    have inside := arguments.read ctx fuel (by omega) closed_cons
    simp only [Category.reader, Expr.readPrimary_static inside, toExpr]
    cases toExprs ctx _ <;> rfl
  | .word single, ctx, fuel, enough, _ => by
    obtain ⟨fuel, rfl, -⟩ := used_of_enough enough
    exact Expr.readPrimary_word single
  | .group inner, ctx, fuel, enough, _ => by
    obtain ⟨fuel, rfl, spare⟩ := used_of_enough enough
    have inside : Expr.readOr fuel ctx _ = _ :=
      inner.read ctx fuel (by simp only [List.length_cons, Category.fuel] at *; omega)
        (closed_cons.ends (by decide))
    simp only [Category.reader, Expr.readPrimary_group inside]
termination_by structural phrase => phrase

theorem Further.read {chain : Chain} {tokens rest : List Token} {more : List SyntaxTree} :
    Further chain tokens more rest → ∀ (ctx : Context) (fuel : Nat),
      8 * tokens.length + 1 ≤ fuel → Ends chain.grip rest → (chain = .args → Closed rest) →
        chain.reader fuel ctx tokens = (toExprs ctx more).map fun es => (es, chain.left rest)
  | .done, ctx, fuel, enough, ends, closed => by
    obtain ⟨fuel, rfl, -⟩ := used_of_enough enough
    exact Chain.read_done ends closed fuel ctx
  | .next first more, ctx, fuel, enough, ends, closed => by
    obtain ⟨fuel, rfl, spare⟩ := used_of_enough enough
    have shorter := first.shorter
    have little : chain.item.fuel ≤ 6 := by cases chain <;> decide
    simp only [List.length_cons] at spare
    have head := first.read ctx fuel (by omega) (more.ends ends)
    have tail := more.read ctx fuel (by omega) ends closed
    rw [Chain.reader_next, head, map_rest_bind]
    simp only [tail, map_rest_bind, toExprs, bind_map]
    rfl
termination_by structural further => further

theorem Trailing.read {t t' : SyntaxTree} {tokens rest : List Token} :
    Trailing t tokens t' rest → ∀ (ctx : Context) (fuel : Nat),
      8 * tokens.length + 1 ≤ fuel → Ends Category.operand.grip rest →
        (t.toExpr ctx >>= fun receiver => Expr.readMembers fuel ctx receiver tokens) =
          (t'.toExpr ctx).map fun e => (e, rest)
  | .done, ctx, fuel, enough, ends => by
    obtain ⟨fuel, rfl, -⟩ := used_of_enough enough
    cases t.toExpr ctx with
    | error => rfl
    | ok receiver =>
      show Expr.readMembers (fuel + 1) ctx receiver _ = _
      rw [Expr.readMembers]
      · rfl
      · rintro o after rfl
        exact absurd (ends_cons.mp ends) (Nat.lt_irrefl _)
  | .member more, ctx, fuel, enough, ends => by
    obtain ⟨fuel, rfl, spare⟩ := used_of_enough enough
    simp only [List.length_cons] at spare
    have tail := more.read ctx fuel (by omega) ends
    rw [toExpr, bind_assoc] at tail
    simp only [Expr.readMembers_member (more.not_openParen ends)]
    exact tail
  | .call arguments more, ctx, fuel, enough, ends => by
    obtain ⟨fuel, rfl, spare⟩ := used_of_enough enough
    have shorter := arguments.noLonger
    simp only [List.length_cons] at spare shorter
    have inside := arguments.read ctx fuel (by omega) closed_cons
    have tail := more.read ctx fuel (by omega) ends
    simp only [toExpr, bind_assoc, pure_bind] at tail
    simp only [Expr.readMembers_call inside]
    exact tail
termination_by structural trailing => trailing

theorem Arguments.read {tokens rest : List Token} {args : List SyntaxTree} :
    Arguments tokens args rest → ∀ (ctx : Context) (fuel : Nat),
      8 * tokens.length + 8 ≤ fuel → Closed rest →
        Expr.readArgs fuel ctx tokens = (toExprs ctx args).map fun es => (es, rest.tail)
  | .none, ctx, fuel, enough, closed => by
    obtain ⟨fuel, rfl, -⟩ := used_of_enough enough
    obtain ⟨o, after, rfl⟩ := closed.eq_cons
    rfl
  | .some first more, ctx, fuel, enough, closed => by
    obtain ⟨fuel, rfl, spare⟩ := used_of_enough enough
    obtain ⟨fuel, rfl, left⟩ := used_of_enough spare
    have ends : Ends Chain.args.grip rest := closed.ends (by decide)
    have shorter := first.shorter
    have head : Expr.readOr fuel ctx _ = _ := first.read ctx fuel left (more.ends ends)
    have tail : Expr.readArgTail fuel ctx _ = _ :=
      more.read ctx fuel (by omega) ends fun _ => closed
    rw [Expr.readArgs, Expr.readArgList_succ, head, map_rest_bind]
    · simp only [tail, map_rest_bind, toExprs, bind_map]
      rfl
    · rintro o after rfl
      exact first.not_closed closed_cons
termination_by structural arguments => arguments

end

/-! ## Soundness -/

namespace Expr.Context

theorem identifier_eq_ok {tokens rest : List Token} {name : String} {o : Nat} :
    ctx.identifier tokens = .ok ((name, o), rest) ↔ tokens = ⟨.ident name, o⟩ :: rest := by
  rcases tokens with _ | ⟨⟨lexeme, o'⟩, tokens⟩
  · simp [identifier, fault]
  · cases lexeme <;> simp [identifier, fault, and_assoc]

theorem expect_eq_ok {lexeme : Lexeme} {f : SyntaxFault} {tokens rest : List Token} :
    ctx.expect lexeme f tokens = .ok rest ↔ ∃ o, tokens = ⟨lexeme, o⟩ :: rest := by
  rcases tokens with _ | ⟨⟨lexeme', o⟩, tokens⟩
  · simp [expect, fault]
  · by_cases same : lexeme' = lexeme <;> simp [expect, fault, same]

end Expr.Context

/-- What is read with some fuel is what the grammar has, and means what its trees mean. -/
structure SoundAt (fuel : Nat) : Prop where
  phrase : ∀ category {ctx tokens e rest}, category.reader fuel ctx tokens = .ok (e, rest) →
    ∃ t, Phrase category tokens t rest ∧ t.toExpr ctx = .ok e
  further : ∀ chain {ctx tokens es rest}, chain.reader fuel ctx tokens = .ok (es, rest) →
    ∃ more after, Further chain tokens more after ∧ toExprs ctx more = .ok es ∧
      chain.left after = rest ∧ (chain = .args → Closed after)
  trailing : ∀ {ctx t receiver tokens e rest}, t.toExpr ctx = .ok receiver →
    Expr.readMembers fuel ctx receiver tokens = .ok (e, rest) →
      ∃ t', Trailing t tokens t' rest ∧ t'.toExpr ctx = .ok e
  arguments : ∀ {ctx tokens es rest}, Expr.readArgs fuel ctx tokens = .ok (es, rest) →
    ∃ args o, Arguments tokens args (⟨.closeParen, o⟩ :: rest) ∧ toExprs ctx args = .ok es
  list : ∀ {ctx tokens es rest}, Expr.readArgList fuel ctx tokens = .ok (es, rest) →
    ∃ args o, Arguments tokens args (⟨.closeParen, o⟩ :: rest) ∧ toExprs ctx args = .ok es

namespace SoundAt

variable {fuel : Nat} {tokens rest : List Token} {e : Expr} {es : List Expr}

theorem readAll (sound : SoundAt fuel) {chain : Chain} {make : List Expr → Expr}
    (node : List SyntaxTree → SyntaxTree)
    (means : ∀ operands, (node operands).toExpr ctx = (toExprs ctx operands).map make)
    (read : chain.readAll make fuel ctx tokens = .ok (e, rest)) :
    ∃ t middle more after, Phrase chain.item tokens t middle ∧ Further chain middle more after ∧
      chain.left after = rest ∧ (chained node t more).toExpr ctx = .ok e := by
  obtain ⟨⟨first, middle⟩, head, read⟩ := bind_eq_ok.mp read
  obtain ⟨⟨es, after⟩, tail, read⟩ := bind_eq_ok.mp read
  cases pure_eq_ok.mp read
  obtain ⟨t, phrase, meansFirst⟩ := sound.phrase chain.item head
  obtain ⟨more, after, further, meansMore, left, -⟩ := sound.further chain tail
  refine ⟨t, middle, more, after, phrase, further, left, ?_⟩
  rw [toExpr_chained means, meansFirst, meansMore]
  rfl

theorem or (sound : SoundAt fuel) (read : Expr.readOr (fuel + 1) ctx tokens = .ok (e, rest)) :
    ∃ t, Phrase .or tokens t rest ∧ t.toExpr ctx = .ok e := by
  rw [Expr.readOr_succ] at read
  obtain ⟨t, middle, more, after, phrase, further, rfl, means⟩ :=
    sound.readAll .or (fun _ => rfl) read
  exact ⟨_, .or phrase further, means⟩

theorem and (sound : SoundAt fuel) (read : Expr.readAnd (fuel + 1) ctx tokens = .ok (e, rest)) :
    ∃ t, Phrase .and tokens t rest ∧ t.toExpr ctx = .ok e := by
  rw [Expr.readAnd_succ] at read
  obtain ⟨t, middle, more, after, phrase, further, rfl, means⟩ :=
    sound.readAll .and (fun _ => rfl) read
  exact ⟨_, .and phrase further, means⟩

theorem unary (sound : SoundAt fuel) (read : Expr.readUnary (fuel + 1) ctx tokens = .ok (e, rest)) :
    ∃ t, Phrase .unary tokens t rest ∧ t.toExpr ctx = .ok e := by
  by_cases negated : ∃ o inner, tokens = ⟨.bang, o⟩ :: inner
  · obtain ⟨o, inner, rfl⟩ := negated
    rw [Expr.readUnary] at read
    obtain ⟨⟨operand, after⟩, inside, read⟩ := bind_eq_ok.mp read
    cases pure_eq_ok.mp read
    obtain ⟨t, phrase, means⟩ := sound.phrase .unary inside
    exact ⟨_, .not phrase, by rw [toExpr, means]; rfl⟩
  · rw [Expr.readUnary] at read
    · obtain ⟨t, phrase, means⟩ := sound.phrase .compare read
      exact ⟨t, .plain phrase, means⟩
    · exact fun o inner bang => negated ⟨o, inner, bang⟩

theorem compare (sound : SoundAt fuel)
    (read : Expr.readCompare (fuel + 1) ctx tokens = .ok (e, rest)) :
    ∃ t, Phrase .compare tokens t rest ∧ t.toExpr ctx = .ok e := by
  rw [Expr.readCompare] at read
  obtain ⟨⟨left, middle⟩, first, read⟩ := bind_eq_ok.mp read
  obtain ⟨t, phrase, means⟩ := sound.phrase .operand first
  simp only at read
  split at read
  · obtain ⟨⟨right, after⟩, second, read⟩ := bind_eq_ok.mp read
    cases pure_eq_ok.mp read
    obtain ⟨t', phrase', means'⟩ := sound.phrase .operand second
    exact ⟨_, .compare phrase phrase', by rw [toExpr, means, means']; rfl⟩
  · cases pure_eq_ok.mp read
    exact ⟨t, .alone phrase, means⟩

theorem operand (sound : SoundAt fuel)
    (read : Expr.readPostfix (fuel + 1) ctx tokens = .ok (e, rest)) :
    ∃ t, Phrase .operand tokens t rest ∧ t.toExpr ctx = .ok e := by
  rw [Expr.readPostfix] at read
  obtain ⟨⟨receiver, middle⟩, first, read⟩ := bind_eq_ok.mp read
  obtain ⟨t, phrase, means⟩ := sound.phrase .primary first
  obtain ⟨t', trailing, means'⟩ := sound.trailing means read
  exact ⟨t', .operand phrase trailing, means'⟩

theorem primary_word (sound : SoundAt fuel) {name : String} {o : Nat}
    (read : Expr.readPrimary (fuel + 1) ctx (⟨.ident name, o⟩ :: tokens) = .ok (e, rest)) :
    ∃ t, Phrase .primary (⟨.ident name, o⟩ :: tokens) t rest ∧ t.toExpr ctx = .ok e := by
  by_cases static : name = "string" ∧ ∃ o' after, tokens = ⟨.dot, o'⟩ :: after
  · obtain ⟨rfl, o', after, rfl⟩ := static
    change (ctx.identifier after >>= fun r => ctx.expect .openParen .expectedStaticCall r.2 >>=
      fun inside => Expr.readArgs fuel ctx inside >>= fun s =>
        pure (Expr.staticCall r.1.1 s.1 r.1.2, s.2)) = .ok (e, rest) at read
    obtain ⟨⟨⟨method, o₂⟩, called⟩, named, read⟩ := bind_eq_ok.mp read
    obtain ⟨inside, opened, read⟩ := bind_eq_ok.mp read
    obtain ⟨⟨es, last⟩, args, read⟩ := bind_eq_ok.mp read
    cases pure_eq_ok.mp read
    obtain rfl := Expr.Context.identifier_eq_ok.mp named
    obtain ⟨o₃, rfl⟩ := Expr.Context.expect_eq_ok.mp opened
    obtain ⟨args, o₄, arguments, means⟩ := sound.arguments args
    exact ⟨_, .static arguments, by rw [toExpr, means]; rfl⟩
  · have single : name = "string" → ∀ o', tokens.head? ≠ some ⟨.dot, o'⟩ := by
      intro same o' next
      obtain ⟨after, rfl⟩ := List.head?_eq_some_iff.mp next
      exact static ⟨same, o', after, rfl⟩
    rw [Expr.readPrimary_word single] at read
    obtain ⟨e, means, read⟩ := map_eq_ok.mp read
    cases read
    exact ⟨_, .word single, means⟩

theorem primary (sound : SoundAt fuel)
    (read : Expr.readPrimary (fuel + 1) ctx tokens = .ok (e, rest)) :
    ∃ t, Phrase .primary tokens t rest ∧ t.toExpr ctx = .ok e := by
  rcases tokens with _ | ⟨⟨lexeme, o⟩, tokens⟩
  · cases read
  cases lexeme with
  | number v =>
    cases read
    exact ⟨_, .number, rfl⟩
  | string s =>
    cases read
    exact ⟨_, .string, rfl⟩
  | ident name => exact sound.primary_word read
  | atSign =>
    change (ctx.identifier tokens >>= fun r => pure (Expr.capture r.1.1, r.2)) = _ at read
    obtain ⟨⟨⟨name, o'⟩, after⟩, named, read⟩ := bind_eq_ok.mp read
    cases pure_eq_ok.mp read
    obtain rfl := Expr.Context.identifier_eq_ok.mp named
    exact ⟨_, .capture, rfl⟩
  | openParen =>
    change (Expr.readOr fuel ctx tokens >>= fun r =>
      ctx.expect .closeParen .expectedClosing r.2 >>= fun rest => pure (r.1, rest)) = _ at read
    obtain ⟨⟨inner, after⟩, inside, read⟩ := bind_eq_ok.mp read
    obtain ⟨last, closed, read⟩ := bind_eq_ok.mp read
    cases pure_eq_ok.mp read
    obtain ⟨o', rfl⟩ := Expr.Context.expect_eq_ok.mp closed
    obtain ⟨t, phrase, means⟩ := sound.phrase .or inside
    exact ⟨t, .group phrase, means⟩
  | minus =>
    rcases tokens with _ | ⟨⟨lexeme, o'⟩, tokens⟩
    · cases read
    cases lexeme with
    | number v =>
      rw [Expr.readPrimary_negative] at read
      obtain ⟨e, means, read⟩ := map_eq_ok.mp read
      cases read
      exact ⟨_, .negative, means⟩
    | ident | string | comparison | arrow | orOr | andAnd | bang | dot | comma | minus | atSign
    | openParen | closeParen => cases read
  | comparison | arrow | orOr | andAnd | bang | dot | comma | closeParen => cases read

/-- A reader of a chain stops where its separator does not follow. -/
theorem stopped {chain : Chain} {n : Nat}
    (other : ¬ ∃ o inner, tokens = ⟨chain.separator, o⟩ :: inner)
    (read : chain.reader n ctx tokens = .ok (es, rest)) :
    es = [] ∧ chain.left tokens = rest ∧ (chain = .args → Closed tokens) := by
  cases chain with
  | or =>
    cases n with
    | zero => cases read
    | succ n =>
      simp only [Chain.reader] at read
      rw [Expr.readOrTail] at read
      · cases read
        exact ⟨rfl, rfl, nofun⟩
      · exact fun o inner same => other ⟨o, inner, same⟩
  | and =>
    cases n with
    | zero => cases read
    | succ n =>
      simp only [Chain.reader] at read
      rw [Expr.readAndTail] at read
      · cases read
        exact ⟨rfl, rfl, nofun⟩
      · exact fun o inner same => other ⟨o, inner, same⟩
  | args =>
    -- The reader of arguments insists on a comma or the closing parenthesis.
    change Expr.readArgTail n ctx tokens = _ at read
    unfold Expr.readArgTail at read
    split at read
    · cases read
      exact ⟨rfl, rfl, fun _ => closed_cons⟩
    · obtain ⟨inner, comma, -⟩ := bind_eq_ok.mp read
      obtain ⟨o, same⟩ := Expr.Context.expect_eq_ok.mp comma
      exact absurd ⟨o, inner, same⟩ other

/-- A reader of a chain stops, or goes on after a separator. -/
theorem further_succ (sound : SoundAt fuel) {chain : Chain}
    (read : chain.reader (fuel + 1) ctx tokens = .ok (es, rest)) :
    ∃ more after, Further chain tokens more after ∧ toExprs ctx more = .ok es ∧
      chain.left after = rest ∧ (chain = .args → Closed after) := by
  by_cases separated : ∃ o inner, tokens = ⟨chain.separator, o⟩ :: inner
  · obtain ⟨o, inner, rfl⟩ := separated
    rw [Chain.reader_next] at read
    obtain ⟨⟨e, middle⟩, head, read⟩ := bind_eq_ok.mp read
    obtain ⟨⟨es, last⟩, tail, read⟩ := bind_eq_ok.mp read
    cases pure_eq_ok.mp read
    obtain ⟨t, phrase, means⟩ := sound.phrase chain.item head
    obtain ⟨more, after, further, meanMore, left, closed⟩ := sound.further chain tail
    exact ⟨t :: more, after, .next phrase further, by rw [toExprs, means, meanMore]; rfl, left,
      closed⟩
  · obtain ⟨rfl, left, closed⟩ := stopped separated read
    exact ⟨[], tokens, .done, rfl, left, closed⟩

theorem trailing_succ (sound : SoundAt fuel) {t : SyntaxTree} {receiver : Expr}
    (means : t.toExpr ctx = .ok receiver)
    (read : Expr.readMembers (fuel + 1) ctx receiver tokens = .ok (e, rest)) :
    ∃ t', Trailing t tokens t' rest ∧ t'.toExpr ctx = .ok e := by
  by_cases dotted : ∃ o inner, tokens = ⟨.dot, o⟩ :: inner
  · obtain ⟨o, inner, rfl⟩ := dotted
    rw [Expr.readMembers] at read
    obtain ⟨⟨⟨name, o'⟩, after⟩, named, next⟩ := bind_eq_ok.mp read
    obtain rfl := Expr.Context.identifier_eq_ok.mp named
    simp only at next
    split at next
    · obtain ⟨⟨args, last⟩, inside, read⟩ := bind_eq_ok.mp next
      obtain ⟨args, o'', arguments, meanArgs⟩ := sound.arguments inside
      obtain ⟨t', trailing, means'⟩ :=
        sound.trailing (t := .call t name args o') (by rw [toExpr, means, meanArgs]; rfl) read
      exact ⟨t', .call arguments trailing, means'⟩
    · obtain ⟨member, found, read⟩ := bind_eq_ok.mp next
      obtain ⟨t', trailing, means'⟩ :=
        sound.trailing (t := .member t name o') (by rw [toExpr, means]; exact found) read
      exact ⟨t', .member trailing, means'⟩
  · rw [Expr.readMembers] at read
    · cases read
      exact ⟨t, .done, means⟩
    · exact fun o inner same => dotted ⟨o, inner, same⟩

theorem list_succ (sound : SoundAt fuel)
    (read : Expr.readArgList (fuel + 1) ctx tokens = .ok (es, rest)) :
    ∃ args o, Arguments tokens args (⟨.closeParen, o⟩ :: rest) ∧ toExprs ctx args = .ok es := by
  rw [Expr.readArgList_succ] at read
  obtain ⟨⟨e, middle⟩, head, read⟩ := bind_eq_ok.mp read
  obtain ⟨⟨es, last⟩, tail, read⟩ := bind_eq_ok.mp read
  cases pure_eq_ok.mp read
  obtain ⟨t, phrase, means⟩ := sound.phrase .or head
  obtain ⟨more, after, further, meanMore, rfl, closed⟩ := sound.further .args tail
  obtain ⟨o, after, rfl⟩ := (closed rfl).eq_cons
  exact ⟨t :: more, o, .some phrase further, by rw [toExprs, means, meanMore]; rfl⟩

theorem arguments_succ (sound : SoundAt fuel)
    (read : Expr.readArgs (fuel + 1) ctx tokens = .ok (es, rest)) :
    ∃ args o, Arguments tokens args (⟨.closeParen, o⟩ :: rest) ∧ toExprs ctx args = .ok es := by
  by_cases closed : ∃ o after, tokens = ⟨.closeParen, o⟩ :: after
  · obtain ⟨o, after, rfl⟩ := closed
    cases read
    exact ⟨[], o, .none, rfl⟩
  · rw [Expr.readArgs] at read
    · exact sound.list read
    · exact fun o after same => closed ⟨o, after, same⟩

theorem zero : SoundAt 0 where
  phrase category _ _ _ _ read := by cases category <;> cases read
  further chain _ tokens _ _ read := by
    by_cases separated : ∃ o inner, tokens = ⟨chain.separator, o⟩ :: inner
    · obtain ⟨o, inner, rfl⟩ := separated
      cases chain <;> cases read
    · obtain ⟨rfl, left, closed⟩ := stopped separated read
      exact ⟨[], tokens, .done, rfl, left, closed⟩
  trailing _ read := by cases read
  arguments read := by cases read
  list read := by cases read

theorem succ (sound : SoundAt fuel) : SoundAt (fuel + 1) where
  phrase category _ _ _ _ read := by
    cases category with
    | or => exact sound.or read
    | and => exact sound.and read
    | unary => exact sound.unary read
    | compare => exact sound.compare read
    | operand => exact sound.operand read
    | primary => exact sound.primary read
  further _ _ _ _ _ read := sound.further_succ read
  trailing means read := sound.trailing_succ means read
  arguments read := sound.arguments_succ read
  list read := sound.list_succ read

end SoundAt

theorem soundAt (fuel : Nat) : SoundAt fuel := by
  induction fuel with
  | zero => exact .zero
  | succ fuel sound => exact sound.succ

end DocStore
