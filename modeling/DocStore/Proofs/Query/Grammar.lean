import DocStore.Query.Expr

/-!
# The grammar of predicate texts

The rules of the grammar as relations between tokens, the tree that they spell and the tokens after
them, said without the reader.  Nothing is looked at ahead, except that the word `string` before a
dot always starts a static call.

    sentence ::= [ident =>] or
    or       ::= and (|| and)*
    and      ::= unary (&& unary)*
    unary    ::= ! unary | compare
    compare  ::= operand [op operand]
    operand  ::= primary (. ident [( args )])*
    primary  ::= literal | - number | @ ident | string . ident ( args ) | ident | ( or )
    args     ::= [or (, or)*]

* `SyntaxTree`: what is spelled, before any word has a meaning;
* `Phrase`, `Further`, `Trailing`, `Arguments`: the rules;
* `Sentence`: a whole sequence of tokens;
* `Phrase.unique`, `Sentence.unique`: tokens spell one tree.
-/

namespace DocStore

/-- What tokens spell.  Parentheses leave no trace, and a chain of one connective is one node. -/
inductive SyntaxTree where
  | literal (value : Value)
  | negative (number : Value) (offset : Nat)
  | capture (name : String)
  | word (name : String) (offset : Nat)
  | static (method : String) (args : List SyntaxTree) (offset : Nat)
  | member (receiver : SyntaxTree) (name : String) (offset : Nat)
  | call (receiver : SyntaxTree) (method : String) (args : List SyntaxTree) (offset : Nat)
  | compare (op : CompareOp) (left right : SyntaxTree)
  | not (operand : SyntaxTree)
  | and (operands : List SyntaxTree)
  | or (operands : List SyntaxTree)
deriving Repr

/-- The categories of phrases that spell one tree. -/
inductive Category where
  | or
  | and
  | unary
  | compare
  | operand
  | primary

/-- The phrases that are repeated with a separator between them. -/
inductive Chain where
  | or
  | and
  | args

namespace Chain

def separator : Chain → Lexeme
  | or => .orOr
  | and => .andAnd
  | args => .comma

def item : Chain → Category
  | or => .and
  | and => .unary
  | args => .or

end Chain

/-- A chain as one node; a single operand stands for itself. -/
def SyntaxTree.chained (node : List SyntaxTree → SyntaxTree) (first : SyntaxTree)
    (more : List SyntaxTree) : SyntaxTree :=
  if more.isEmpty then first else node (first :: more)

mutual

/-- Tokens that start with a phrase of a category, the tree that it spells, and the tokens after
it. -/
inductive Phrase : Category → List Token → SyntaxTree → List Token → Prop
  | or {tokens t middle more rest} : Phrase .and tokens t middle → Further .or middle more rest →
      Phrase .or tokens (.chained .or t more) rest
  | and {tokens t middle more rest} : Phrase .unary tokens t middle →
      Further .and middle more rest → Phrase .and tokens (.chained .and t more) rest
  | not {o tokens t rest} : Phrase .unary tokens t rest →
      Phrase .unary (⟨.bang, o⟩ :: tokens) (.not t) rest
  | plain {tokens t rest} : Phrase .compare tokens t rest → Phrase .unary tokens t rest
  | compare {op o tokens left middle right rest} :
      Phrase .operand tokens left (⟨.comparison op, o⟩ :: middle) →
      Phrase .operand middle right rest → Phrase .compare tokens (.compare op left right) rest
  | alone {tokens t rest} : Phrase .operand tokens t rest → Phrase .compare tokens t rest
  | operand {tokens t middle t' rest} : Phrase .primary tokens t middle →
      Trailing t middle t' rest → Phrase .operand tokens t' rest
  | number {v o rest} : Phrase .primary (⟨.number v, o⟩ :: rest) (.literal v) rest
  | string {s o rest} : Phrase .primary (⟨.string s, o⟩ :: rest) (.literal (.text s)) rest
  | negative {v o o' rest} :
      Phrase .primary (⟨.minus, o⟩ :: ⟨.number v, o'⟩ :: rest) (.negative v o) rest
  | capture {name o o' rest} :
      Phrase .primary (⟨.atSign, o⟩ :: ⟨.ident name, o'⟩ :: rest) (.capture name) rest
  | static {o o₁ method o₂ o₃ tokens args o₄ rest} :
      Arguments tokens args (⟨.closeParen, o₄⟩ :: rest) → Phrase .primary
        (⟨.ident "string", o⟩ :: ⟨.dot, o₁⟩ :: ⟨.ident method, o₂⟩ :: ⟨.openParen, o₃⟩ :: tokens)
        (.static method args o₂) rest
  | word {name o rest} : (name = "string" → ∀ o', rest.head? ≠ some ⟨.dot, o'⟩) →
      Phrase .primary (⟨.ident name, o⟩ :: rest) (.word name o) rest
  | group {o o' tokens t rest} : Phrase .or tokens t (⟨.closeParen, o'⟩ :: rest) →
      Phrase .primary (⟨.openParen, o⟩ :: tokens) t rest

/-- Tokens that go on with further phrases of a chain, each after a separator. -/
inductive Further : Chain → List Token → List SyntaxTree → List Token → Prop
  | done {chain rest} : Further chain rest [] rest
  | next {chain : Chain} {o tokens t middle more rest} : Phrase chain.item tokens t middle →
      Further chain middle more rest →
      Further chain (⟨chain.separator, o⟩ :: tokens) (t :: more) rest

/-- Tokens that go on with members and calls of a receiver, and the tree with them. -/
inductive Trailing : SyntaxTree → List Token → SyntaxTree → List Token → Prop
  | done {t rest} : Trailing t rest t rest
  | member {o t name o' tokens t' rest} : Trailing (.member t name o') tokens t' rest →
      Trailing t (⟨.dot, o⟩ :: ⟨.ident name, o'⟩ :: tokens) t' rest
  | call {o t name o₁ o₂ tokens args o₃ middle t' rest} :
      Arguments tokens args (⟨.closeParen, o₃⟩ :: middle) →
      Trailing (.call t name args o₁) middle t' rest →
      Trailing t (⟨.dot, o⟩ :: ⟨.ident name, o₁⟩ :: ⟨.openParen, o₂⟩ :: tokens) t' rest

/-- Tokens that start with the arguments of a call. -/
inductive Arguments : List Token → List SyntaxTree → List Token → Prop
  | none {rest} : Arguments rest [] rest
  | some {tokens t middle more rest} : Phrase .or tokens t middle →
      Further .args middle more rest → Arguments tokens (t :: more) rest

end

/-! ## What phrases start with and leave -/

/-- Whether a phrase of a category may start with `!`. -/
def Category.negates : Category → Bool
  | .or | .and | .unary => true
  | .compare | .operand | .primary => false

theorem Phrase.starts {category : Category} {tokens rest : List Token} {t : SyntaxTree} :
    Phrase category tokens t rest → ∀ token ∈ tokens.head?,
      token.lexeme ≠ .closeParen ∧ (token.lexeme = .bang → category.negates)
  | .or first _, token, mem => ⟨(Phrase.starts first token mem).1, fun _ => rfl⟩
  | .and first _, token, mem => ⟨(Phrase.starts first token mem).1, fun _ => rfl⟩
  | .not _, _, rfl => ⟨nofun, fun _ => rfl⟩
  | .plain inner, token, mem => ⟨(Phrase.starts inner token mem).1, fun _ => rfl⟩
  | .compare left _, token, mem => Phrase.starts left token mem
  | .alone inner, token, mem => Phrase.starts inner token mem
  | .operand first _, token, mem => Phrase.starts first token mem
  | .number, _, rfl | .string, _, rfl | .negative, _, rfl | .capture, _, rfl | .static _, _, rfl
  | .word _, _, rfl | .group _, _, rfl => ⟨nofun, nofun⟩

/-- Whether the next token is a closing parenthesis. -/
def Closed (tokens : List Token) : Prop := ∃ token ∈ tokens.head?, token.lexeme = .closeParen

theorem closed_cons {o : Nat} {rest : List Token} : Closed (⟨.closeParen, o⟩ :: rest) :=
  ⟨_, rfl, rfl⟩

theorem Closed.eq_cons {tokens : List Token} (closed : Closed tokens) :
    ∃ o rest, tokens = ⟨.closeParen, o⟩ :: rest := by
  obtain ⟨⟨lexeme, o⟩, mem, closing⟩ := closed
  obtain ⟨rest, rfl⟩ := List.head?_eq_some_iff.mp mem
  cases closing
  exact ⟨o, rest, rfl⟩

theorem Phrase.not_closed {category : Category} {tokens rest : List Token} {t : SyntaxTree}
    (phrase : Phrase category tokens t rest) : ¬ Closed tokens :=
  fun ⟨token, mem, closing⟩ => (phrase.starts token mem).1 closing

theorem Phrase.not_bang {o : Nat} {tokens rest : List Token} {t : SyntaxTree} :
    ¬ Phrase .compare (⟨.bang, o⟩ :: tokens) t rest :=
  fun phrase => nomatch (phrase.starts _ rfl).2 rfl

mutual

/-- A phrase is of one token at least. -/
theorem Phrase.shorter {category : Category} {tokens rest : List Token} {t : SyntaxTree} :
    Phrase category tokens t rest → rest.length < tokens.length
  | .or first more | .and first more => Nat.lt_of_le_of_lt more.noLonger first.shorter
  | .not inner => Nat.lt_succ_of_lt inner.shorter
  | .plain inner | .alone inner => inner.shorter
  | .compare left right => Nat.lt_trans right.shorter (Nat.lt_of_succ_lt left.shorter)
  | .operand first more => Nat.lt_of_le_of_lt more.noLonger first.shorter
  | .number | .string | .word _ => Nat.lt_succ_self _
  | .negative | .capture => Nat.lt_succ_of_lt (Nat.lt_succ_self _)
  | .static arguments => by
    have inside := arguments.noLonger
    simp only [List.length_cons] at inside ⊢
    omega
  | .group inner => Nat.lt_succ_of_lt (Nat.lt_of_succ_lt inner.shorter)

theorem Further.noLonger {chain : Chain} {tokens rest : List Token} {more : List SyntaxTree} :
    Further chain tokens more rest → rest.length ≤ tokens.length
  | .done => Nat.le_refl _
  | .next first more => Nat.le_succ_of_le (Nat.le_trans more.noLonger (Nat.le_of_lt first.shorter))

theorem Trailing.noLonger {t t' : SyntaxTree} {tokens rest : List Token} :
    Trailing t tokens t' rest → rest.length ≤ tokens.length
  | .done => Nat.le_refl _
  | .member more => Nat.le_succ_of_le (Nat.le_succ_of_le more.noLonger)
  | .call arguments more => by
    have inside := arguments.noLonger
    have after := more.noLonger
    simp only [List.length_cons] at inside ⊢
    omega

theorem Arguments.noLonger {tokens rest : List Token} {args : List SyntaxTree} :
    Arguments tokens args rest → rest.length ≤ tokens.length
  | .none => Nat.le_refl _
  | .some first more => Nat.le_trans more.noLonger (Nat.le_of_lt first.shorter)

end

/-! ## What ends a phrase -/

/-- How tightly a lexeme holds on to what stands before it. -/
def Lexeme.grip : Lexeme → Nat
  | .comma => 1
  | .orOr => 2
  | .andAnd => 3
  | .comparison _ => 4
  | .dot | .openParen => 5
  | _ => 0

/-- How tight a lexeme must hold to go on with a phrase of a category. -/
def Category.grip : Category → Nat
  | .or => 2
  | .and => 3
  | .unary | .compare => 4
  | .operand => 5
  | .primary => 6

/-- How tightly the separator of a chain holds on to its phrases. -/
def Chain.grip (chain : Chain) : Nat := chain.separator.grip

/-- Whether tokens do not go on with what stands before them, being held on to less than `grip`. -/
def Ends (grip : Nat) (rest : List Token) : Prop := ∀ token ∈ rest.head?, token.lexeme.grip < grip

theorem ends_nil (grip : Nat) : Ends grip [] := nofun

theorem ends_cons {grip o : Nat} {lexeme : Lexeme} {rest : List Token} :
    Ends grip (⟨lexeme, o⟩ :: rest) ↔ lexeme.grip < grip := by
  simp [Ends]

theorem ends_comparison {op : CompareOp} {o : Nat} {rest : List Token} :
    Ends Category.operand.grip (⟨.comparison op, o⟩ :: rest) :=
  ends_cons.mpr (Nat.lt_succ_self 4)

theorem Closed.ends {grip : Nat} {rest : List Token} (closed : Closed rest) (positive : 0 < grip) :
    Ends grip rest := by
  obtain ⟨o, after, rfl⟩ := closed.eq_cons
  exact ends_cons.mpr positive

/-- Nothing that follows a primary belongs to it. -/
theorem ends_primary (rest : List Token) : Ends Category.primary.grip rest := by
  intro token _
  unfold Lexeme.grip Category.grip
  split <;> decide

theorem Ends.mono {grip grip' : Nat} {rest : List Token} (ends : Ends grip rest)
    (le : grip ≤ grip') : Ends grip' rest :=
  fun token mem => Nat.lt_of_lt_of_le (ends token mem) le

/-- What goes on with a chain ends each of its phrases. -/
theorem Further.ends {chain : Chain} {tokens rest : List Token} {more : List SyntaxTree}
    (further : Further chain tokens more rest) (ends : Ends chain.grip rest) :
    Ends chain.item.grip tokens := by
  cases further with
  | done => cases chain <;> exact ends.mono (by decide)
  | next =>
    rw [ends_cons]
    cases chain <;> decide

/-- A name that is followed by a parenthesis is no member. -/
theorem Trailing.not_openParen {t t' : SyntaxTree} {tokens rest : List Token}
    (trailing : Trailing t tokens t' rest) (ends : Ends Category.operand.grip rest) (o : Nat)
    (after : List Token) : tokens ≠ ⟨.openParen, o⟩ :: after := by
  rintro rfl
  cases trailing with
  | done => exact absurd (ends_cons.mp ends) (Nat.lt_irrefl _)

/-! ## One tree -/

mutual

/-- Tokens start with one phrase of a category that what follows does not go on with, and it spells
one tree. -/
theorem Phrase.unique {category : Category} {tokens rest rest' : List Token} {t t' : SyntaxTree} :
    Phrase category tokens t rest → Phrase category tokens t' rest' →
      Ends category.grip rest → Ends category.grip rest' → t = t' ∧ rest = rest'
  | .or first more, other, ends, ends' => by
    cases other with
    | or first' more' =>
      obtain ⟨rfl, rfl⟩ := first.unique first' (more.ends ends) (more'.ends ends')
      obtain ⟨rfl, rfl⟩ := more.unique more' ends ends'
      exact ⟨rfl, rfl⟩
  | .and first more, other, ends, ends' => by
    cases other with
    | and first' more' =>
      obtain ⟨rfl, rfl⟩ := first.unique first' (more.ends ends) (more'.ends ends')
      obtain ⟨rfl, rfl⟩ := more.unique more' ends ends'
      exact ⟨rfl, rfl⟩
  | .not inner, other, ends, ends' => by
    cases other with
    | not inner' =>
      obtain ⟨rfl, rfl⟩ := inner.unique inner' ends ends'
      exact ⟨rfl, rfl⟩
    | plain inner' => exact absurd inner' Phrase.not_bang
  | .plain inner, other, ends, ends' => by
    cases other with
    | plain inner' => exact inner.unique inner' ends ends'
    | not => exact absurd inner Phrase.not_bang
  | .compare left right, other, ends, ends' => by
    cases other with
    | compare left' right' =>
      obtain ⟨rfl, same⟩ := left.unique left' ends_comparison ends_comparison
      cases same
      obtain ⟨rfl, rfl⟩ := right.unique right' (ends.mono (by decide)) (ends'.mono (by decide))
      exact ⟨rfl, rfl⟩
    | alone inner' =>
      -- The operand alone leaves an operator, which would go on with it.
      obtain ⟨-, rfl⟩ := left.unique inner' ends_comparison (ends'.mono (by decide))
      exact absurd (ends_cons.mp ends') (Nat.lt_irrefl _)
  | .alone inner, other, ends, ends' => by
    cases other with
    | compare left' right' =>
      obtain ⟨-, rfl⟩ := inner.unique left' (ends.mono (by decide)) ends_comparison
      exact absurd (ends_cons.mp ends) (Nat.lt_irrefl _)
    | alone inner' => exact inner.unique inner' (ends.mono (by decide)) (ends'.mono (by decide))
  | .operand first more, other, ends, ends' => by
    cases other with
    | operand first' more' =>
      obtain ⟨rfl, rfl⟩ := first.unique first' (ends_primary _) (ends_primary _)
      exact more.unique more' ends ends'
  | .number, other, _, _ => by
    cases other with
    | number => exact ⟨rfl, rfl⟩
  | .string, other, _, _ => by
    cases other with
    | string => exact ⟨rfl, rfl⟩
  | .negative, other, _, _ => by
    cases other with
    | negative => exact ⟨rfl, rfl⟩
  | .capture, other, _, _ => by
    cases other with
    | capture => exact ⟨rfl, rfl⟩
  | .static arguments, other, _, _ => by
    cases other with
    | static arguments' =>
      obtain ⟨rfl, same⟩ := arguments.unique arguments' closed_cons closed_cons
      cases same
      exact ⟨rfl, rfl⟩
    | word single => exact absurd rfl (single rfl _)
  | .word single, other, _, _ => by
    cases other with
    | static => exact absurd rfl (single rfl _)
    | word => exact ⟨rfl, rfl⟩
  | .group inner, other, _, _ => by
    cases other with
    | group inner' =>
      obtain ⟨rfl, same⟩ :=
        inner.unique inner' (closed_cons.ends (by decide)) (closed_cons.ends (by decide))
      cases same
      exact ⟨rfl, rfl⟩
termination_by structural phrase => phrase

theorem Further.unique {chain : Chain} {tokens rest rest' : List Token}
    {more more' : List SyntaxTree} :
    Further chain tokens more rest → Further chain tokens more' rest' →
      Ends chain.grip rest → Ends chain.grip rest' → more = more' ∧ rest = rest'
  | .done, other, ends, _ => by
    cases other with
    | done => exact ⟨rfl, rfl⟩
    | next => exact absurd (ends_cons.mp ends) (Nat.lt_irrefl _)
  | .next first more, other, ends, ends' => by
    cases other with
    | done => exact absurd (ends_cons.mp ends') (Nat.lt_irrefl _)
    | next first' more' =>
      obtain ⟨rfl, rfl⟩ := first.unique first' (more.ends ends) (more'.ends ends')
      obtain ⟨rfl, rfl⟩ := more.unique more' ends ends'
      exact ⟨rfl, rfl⟩
termination_by structural further => further

theorem Trailing.unique {t t₁ t₂ : SyntaxTree} {tokens rest rest' : List Token} :
    Trailing t tokens t₁ rest → Trailing t tokens t₂ rest' →
      Ends Category.operand.grip rest → Ends Category.operand.grip rest' → t₁ = t₂ ∧ rest = rest'
  | .done, other, ends, _ => by
    cases other with
    | done => exact ⟨rfl, rfl⟩
    | member => exact absurd (ends_cons.mp ends) (Nat.lt_irrefl _)
    | call => exact absurd (ends_cons.mp ends) (Nat.lt_irrefl _)
  | .member more, other, ends, ends' => by
    cases other with
    | done => exact absurd (ends_cons.mp ends') (Nat.lt_irrefl _)
    | member more' => exact more.unique more' ends ends'
    | call => exact absurd rfl (more.not_openParen ends _ _)
  | .call arguments more, other, ends, ends' => by
    cases other with
    | done => exact absurd (ends_cons.mp ends') (Nat.lt_irrefl _)
    | member more' => exact absurd rfl (more'.not_openParen ends' _ _)
    | call arguments' more' =>
      obtain ⟨rfl, same⟩ := arguments.unique arguments' closed_cons closed_cons
      cases same
      exact more.unique more' ends ends'
termination_by structural trailing => trailing

theorem Arguments.unique {tokens rest rest' : List Token} {args args' : List SyntaxTree} :
    Arguments tokens args rest → Arguments tokens args' rest' → Closed rest → Closed rest' →
      args = args' ∧ rest = rest'
  | .none, other, closed, _ => by
    cases other with
    | none => exact ⟨rfl, rfl⟩
    | some first' => exact absurd closed first'.not_closed
  | .some first more, other, closed, closed' => by
    cases other with
    | none => exact absurd closed' first.not_closed
    | some first' more' =>
      have ends : Ends Chain.args.grip rest := closed.ends (by decide)
      have ends' : Ends Chain.args.grip rest' := closed'.ends (by decide)
      obtain ⟨rfl, rfl⟩ := first.unique first' (more.ends ends) (more'.ends ends')
      obtain ⟨rfl, rfl⟩ := more.unique more' ends ends'
      exact ⟨rfl, rfl⟩
termination_by structural arguments => arguments

end

/-! ## Sentences -/

/-- A whole sequence of tokens: the tree that it spells, and the parameter that is named in front of
it, if any. -/
inductive Sentence : List Token → Option String → SyntaxTree → Prop
  | plain {tokens t} : Phrase .or tokens t [] → Sentence tokens none t
  | lambda {name o o' tokens t} : Phrase .or tokens t [] →
      Sentence (⟨.ident name, o⟩ :: ⟨.arrow, o'⟩ :: tokens) (some name) t

/-- A word is a phrase of every category. -/
theorem Phrase.lone {name : String} {o : Nat} {rest : List Token}
    (single : name = "string" → ∀ o', rest.head? ≠ some ⟨.dot, o'⟩) :
    Phrase .or (⟨.ident name, o⟩ :: rest) (.word name o) rest :=
  .or (.and (.plain (.alone (.operand (.word single) .done))) .done) .done

/-- The head of a lambda does not start a phrase that the sentence ends with. -/
theorem Phrase.not_head {name : String} {o o' : Nat} {tokens : List Token} {t : SyntaxTree} :
    ¬ Phrase .or (⟨.ident name, o⟩ :: ⟨.arrow, o'⟩ :: tokens) t [] := by
  intro phrase
  have word : Phrase .or (⟨.ident name, o⟩ :: ⟨.arrow, o'⟩ :: tokens) _ (⟨.arrow, o'⟩ :: tokens) :=
    .lone (by simp)
  cases (phrase.unique word (ends_nil _) (ends_cons.mpr (by decide))).2

/-- A sequence of tokens spells one sentence. -/
theorem Sentence.unique {tokens : List Token} {parameter parameter' : Option String}
    {t t' : SyntaxTree} (sentence : Sentence tokens parameter t)
    (other : Sentence tokens parameter' t') : parameter = parameter' ∧ t = t' := by
  cases sentence with
  | plain phrase =>
    cases other with
    | plain phrase' => exact ⟨rfl, (phrase.unique phrase' (ends_nil _) (ends_nil _)).1⟩
    | lambda => exact absurd phrase Phrase.not_head
  | lambda phrase =>
    cases other with
    | plain phrase' => exact absurd phrase' Phrase.not_head
    | lambda phrase' => exact ⟨rfl, (phrase.unique phrase' (ends_nil _) (ends_nil _)).1⟩

end DocStore
