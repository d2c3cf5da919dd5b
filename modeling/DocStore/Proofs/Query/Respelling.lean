import DocStore.Proofs.Query.Exchange
import DocStore.Proofs.Query.Lookahead
import DocStore.Proofs.Query.Parsing

/-!
# Respelled sentences

The tokens of a sentence may be moved, a string among them may be exchanged for another, and a
parameter may be put before each name that a path starts with.  The grammar has the new tokens where
it has the old, and they mean the same but for the exchanged strings.

* `Lexeme.isRoot`: the names that paths start with;
* `Respelled`: tokens and the same tokens respelled;
* `Phrase.respelled`: a respelled phrase is a phrase of a tree that means the same;
* `Sentence.exchanged`, `Sentence.qualified`: sentences with a string exchanged, and with a
  parameter.
-/

namespace DocStore

open DocStore.Expr (Outcome Context)
open SyntaxTree

/-- Whether a lexeme that stands between others is a name that a path starts with: no member, no
capture, no constant and no head of a static call. -/
def Lexeme.isRoot (opened : Bool) (rest : List Token) : Lexeme → Bool
  | .ident name => opened && name ∉ ["true", "false", "null"] &&
      !(name = "string" && rest.head?.any (·.lexeme = .dot))
  | _ => false

theorem Lexeme.isRoot_word {name : String} {rest : List Token}
    (free : name ∉ ["true", "false", "null"])
    (single : name = "string" → ∀ o, rest.head? ≠ some ⟨.dot, o⟩) :
    (Lexeme.ident name).isRoot true rest := by
  cases rest with
  | nil => simpa [isRoot] using free
  | cons token rest =>
    obtain ⟨lexeme, o⟩ := token
    simp only [isRoot, Bool.and_eq_true, decide_eq_true_eq, Bool.not_eq_true', Bool.and_eq_false_iff,
      true_and]
    refine ⟨free, ?_⟩
    by_cases same : name = "string"
    · have other : lexeme ≠ .dot := by
        rintro rfl
        exact single same o rfl
      exact .inr (by simpa using other)
    · exact .inl (decide_eq_false same)

theorem Lexeme.free_of_isRoot {name : String} {opened : Bool} {rest : List Token}
    (root : (Lexeme.ident name).isRoot opened rest) : name ∉ ["true", "false", "null"] := by
  simp only [isRoot, Bool.and_eq_true, decide_eq_true_eq] at root
  exact root.1.2

/-- Tokens and the same tokens elsewhere, with `old` exchanged for `new` in a number of strings and,
if there is a parameter, with it put before each root. -/
inductive Respelled (parameter : Option String) (old new : String) :
    Nat → Bool → List Token → List Token → Prop
  | done {opened} : Respelled parameter old new 0 opened [] []
  | kept {n opened lexeme o o' tokens tokens'} : (lexeme.isRoot opened tokens → parameter = none) →
      Respelled parameter old new n lexeme.opens tokens tokens' →
      Respelled parameter old new n opened (⟨lexeme, o⟩ :: tokens) (⟨lexeme, o'⟩ :: tokens')
  | exchanged {n opened o o' tokens tokens'} : Respelled parameter old new n false tokens tokens' →
      Respelled parameter old new (n + 1) opened (⟨.string old, o⟩ :: tokens)
        (⟨.string new, o'⟩ :: tokens')
  | qualified {n v opened name o o₁ o₂ o₃ tokens tokens'} : parameter = some v →
      (Lexeme.ident name).isRoot opened tokens → name ≠ "HasValue" →
      Respelled parameter old new n false tokens tokens' →
      Respelled parameter old new n opened (⟨.ident name, o⟩ :: tokens)
        (⟨.ident v, o₁⟩ :: ⟨.dot, o₂⟩ :: ⟨.ident name, o₃⟩ :: tokens')

/-- What is around the tokens and the respelled tokens: the same parameter, or none and the one that
is put before roots. -/
structure Respelling (parameter : Option String) (ctx ctx' : Context) : Prop where
  same : parameter = none → ctx'.parameter = ctx.parameter
  fresh : ∀ v, parameter = some v → ctx.parameter = none ∧ ctx'.parameter = some v ∧
    v ∉ ["true", "false", "null"] ∧ v ≠ "string"

section

variable {parameter : Option String} {old new : String} {ctx ctx' : Context}

/-! ## Meanings -/

/-- Whether one tree means what another does, with a number of strings exchanged. -/
def Means (old new : String) (ctx ctx' : Context) (n : Nat) (t t' : SyntaxTree) : Prop :=
  ∀ e, t.toExpr ctx = .ok e →
    ∃ e', t'.toExpr ctx' = .ok e' ∧ Expr.Exchange (.text old) (.text new) n e e'

def MeansAll (old new : String) (ctx ctx' : Context) (n : Nat) (ts ts' : List SyntaxTree) : Prop :=
  ∀ es, toExprs ctx ts = .ok es →
    ∃ es', toExprs ctx' ts' = .ok es' ∧ Expr.ExchangeAll (.text old) (.text new) n es es'

/-- A member of what is alike is alike. -/
theorem Expr.Exchange.memberOf {a b : Value} {n o o' : Nat} {r r' e : Expr} {name : String}
    (exchange : Exchange a b n r r') (found : memberOf r name o = .ok e) :
    ∃ e', memberOf r' name o' = .ok e' ∧ Exchange a b n e e' := by
  unfold Expr.memberOf at found ⊢
  split at found
  · rename_i reserved
    rw [if_pos reserved]
    cases found
    exact ⟨_, rfl, .hasValue exchange⟩
  · rename_i plain
    rw [if_neg plain]
    cases exchange with
    | path =>
      cases found
      exact ⟨_, rfl, .path⟩
    | literal | exchanged | capture | call | static | hasValue | compare | and | or | not =>
      cases found

namespace Means

variable {m n o o' : Nat} {t t' u u' : SyntaxTree} {name : String} {ts ts' : List SyntaxTree}

theorem member (means : Means old new ctx ctx' n t t') :
    Means old new ctx ctx' n (.member t name o) (.member t' name o') := by
  intro e read
  obtain ⟨r, receiver, read⟩ := bind_eq_ok.mp read
  obtain ⟨r', receiver', exchange⟩ := means r receiver
  obtain ⟨e', read', exchange'⟩ := exchange.memberOf read
  exact ⟨e', bind_eq_ok.mpr ⟨r', receiver', read'⟩, exchange'⟩

theorem call (means : Means old new ctx ctx' m t t') (args : MeansAll old new ctx ctx' n ts ts') :
    Means old new ctx ctx' (m + n) (.call t name ts o) (.call t' name ts' o') := by
  intro e read
  obtain ⟨r, receiver, read⟩ := bind_eq_ok.mp read
  obtain ⟨es, inside, read⟩ := bind_eq_ok.mp read
  cases pure_eq_ok.mp read
  obtain ⟨r', receiver', exchange⟩ := means r receiver
  obtain ⟨es', inside', exchange'⟩ := args es inside
  refine ⟨.call r' name es' o', ?_, .call exchange exchange'⟩
  rw [toExpr, receiver', inside']
  rfl

theorem static (args : MeansAll old new ctx ctx' n ts ts') :
    Means old new ctx ctx' n (.static name ts o) (.static name ts' o') := by
  intro e read
  obtain ⟨es, inside, rfl⟩ := map_eq_ok.mp read
  obtain ⟨es', inside', exchange⟩ := args es inside
  exact ⟨_, map_eq_ok.mpr ⟨es', inside', rfl⟩, .static exchange⟩

theorem compare {op : CompareOp} (left : Means old new ctx ctx' m t t')
    (right : Means old new ctx ctx' n u u') :
    Means old new ctx ctx' (m + n) (.compare op t u) (.compare op t' u') := by
  intro e read
  obtain ⟨l, first, read⟩ := bind_eq_ok.mp read
  obtain ⟨r, second, read⟩ := bind_eq_ok.mp read
  cases pure_eq_ok.mp read
  obtain ⟨l', first', exchange⟩ := left l first
  obtain ⟨r', second', exchange'⟩ := right r second
  refine ⟨_, ?_, .compare exchange exchange'⟩
  rw [toExpr, first', second']
  rfl

theorem not (means : Means old new ctx ctx' n t t') :
    Means old new ctx ctx' n (.not t) (.not t') := by
  intro e read
  obtain ⟨e, operand, rfl⟩ := map_eq_ok.mp read
  obtain ⟨e', operand', exchange⟩ := means e operand
  exact ⟨_, map_eq_ok.mpr ⟨e', operand', rfl⟩, .not exchange⟩

theorem chained {node : List SyntaxTree → SyntaxTree} {make : List Expr → Expr}
    (means : ∀ ctx operands, (node operands).toExpr ctx = (toExprs ctx operands).map make)
    (made : ∀ {n es es'}, Expr.ExchangeAll (.text old) (.text new) n es es' →
      Expr.Exchange (.text old) (.text new) n (make es) (make es'))
    (first : Means old new ctx ctx' m t t') (more : MeansAll old new ctx ctx' n ts ts') :
    Means old new ctx ctx' (m + n) (chained node t ts) (chained node t' ts') := by
  intro e read
  rw [toExpr_chained (means ctx)] at read
  obtain ⟨e, head, read⟩ := bind_eq_ok.mp read
  obtain ⟨es, tail, read⟩ := bind_eq_ok.mp read
  cases pure_eq_ok.mp read
  obtain ⟨e', head', exchange⟩ := first e head
  obtain ⟨es', tail', exchange'⟩ := more es tail
  refine ⟨Expr.chain make e' es', ?_, ?_⟩
  · rw [toExpr_chained (means ctx'), head', tail']
    rfl
  · cases exchange' with
    | nil => exact exchange
    | cons second others => exact made (.cons exchange (.cons second others))

end Means

namespace Means

variable {v : Value} {name : String} {o o' : Nat}

theorem literal : Means old new ctx ctx' 0 (.literal v) (.literal v) := by
  rintro e ⟨⟩
  exact ⟨_, rfl, .literal⟩

theorem exchanged : Means old new ctx ctx' 1 (.literal (.text old)) (.literal (.text new)) := by
  rintro e ⟨⟩
  exact ⟨_, rfl, .exchanged⟩

theorem capture : Means old new ctx ctx' 0 (.capture name) (.capture name) := by
  rintro e ⟨⟩
  exact ⟨_, rfl, .capture⟩

theorem negative : Means old new ctx ctx' 0 (.negative v o) (.negative v o') := by
  intro e read
  rw [toExpr] at read ⊢
  split at read
  · cases read
    exact ⟨_, rfl, .literal⟩
  · cases read

end Means

namespace MeansAll

variable {m n : Nat} {t t' : SyntaxTree} {ts ts' : List SyntaxTree}

theorem nil : MeansAll old new ctx ctx' 0 [] [] := by
  rintro es ⟨⟩
  exact ⟨_, rfl, .nil⟩

theorem cons (first : Means old new ctx ctx' m t t') (more : MeansAll old new ctx ctx' n ts ts') :
    MeansAll old new ctx ctx' (m + n) (t :: ts) (t' :: ts') := by
  intro es read
  obtain ⟨e, head, read⟩ := bind_eq_ok.mp read
  obtain ⟨es, tail, read⟩ := bind_eq_ok.mp read
  cases pure_eq_ok.mp read
  obtain ⟨e', head', exchange⟩ := first e head
  obtain ⟨es', tail', exchange'⟩ := more es tail
  refine ⟨_, ?_, .cons exchange exchange'⟩
  rw [toExprs, head', tail']
  rfl

end MeansAll

/-! ## Words -/

/-- A constant, or a root that no parameter is put before, keeps its meaning. -/
theorem Means.word {name : String} {o o' : Nat} (respelling : Respelling parameter ctx ctx')
    (kept : name ∉ ["true", "false", "null"] → parameter = none) :
    Means old new ctx ctx' 0 (.word name o) (.word name o') := by
  intro e read
  by_cases free : name ∉ ["true", "false", "null"]
  · have same := respelling.same (kept free)
    simp only [List.mem_cons, List.not_mem_nil, or_false, not_or] at free
    simp only [toExpr, Expr.ofWord, same, free, if_false] at read ⊢
    cases around : ctx.parameter with
    | none =>
      rw [around] at read
      cases read
      exact ⟨_, rfl, .path⟩
    | some p =>
      rw [around] at read
      dsimp only at read ⊢
      split at read
      · rename_i same
        cases read
        exact ⟨_, if_pos same, .path⟩
      · cases read
  · simp only [List.mem_cons, List.not_mem_nil, or_false, not_not] at free
    rcases free with rfl | rfl | rfl
    all_goals
      cases read
      exact ⟨_, rfl, .literal⟩

/-- A root means the member of the parameter that has its name. -/
theorem Means.qualified {v name : String} {o o₁ o₂ : Nat}
    (respelling : Respelling parameter ctx ctx') (put : parameter = some v)
    (free : name ∉ ["true", "false", "null"]) (plain : name ≠ "HasValue") :
    Means old new ctx ctx' 0 (.word name o) (.member (.word v o₁) name o₂) := by
  obtain ⟨bare, put, constant, -⟩ := respelling.fresh v put
  intro e read
  simp only [List.mem_cons, List.not_mem_nil, or_false, not_or] at free constant
  simp only [toExpr, Expr.ofWord, bare, free, if_false] at read
  cases read
  refine ⟨.path [name] o₁, ?_, .path⟩
  simp [toExpr, Expr.ofWord, constant, put, bind, Except.bind, Expr.memberOf, plain]

/-! ## Phrases -/

namespace Respelled

variable {n : Nat} {opened : Bool} {lexeme : Lexeme} {o : Nat} {tokens tokens' : List Token}

/-- A lexeme that is no root and no string is kept. -/
theorem tail (respelled : Respelled parameter old new n opened (⟨lexeme, o⟩ :: tokens) tokens')
    (steady : lexeme.isRoot opened tokens = false) (other : ∀ s, lexeme ≠ .string s) :
    ∃ o' rest', tokens' = ⟨lexeme, o'⟩ :: rest' ∧
      Respelled parameter old new n lexeme.opens tokens rest' := by
  cases respelled with
  | kept _ further => exact ⟨_, _, rfl, further⟩
  | exchanged => exact absurd rfl (other _)
  | qualified _ root => exact absurd root (by simp [steady])

/-- What starts with no dot is not respelled to start with one. -/
theorem no_dot (respelled : Respelled parameter old new n false tokens tokens')
    (none : ∀ o, tokens.head? ≠ some ⟨.dot, o⟩) : ∀ o, tokens'.head? ≠ some ⟨.dot, o⟩ := by
  intro o
  cases respelled with
  | done => exact nofun
  | kept =>
    rintro ⟨⟩
    exact none _ rfl
  | exchanged => exact nofun
  | qualified => exact nofun

theorem member {name : String} {o o' : Nat} (respelled : Respelled parameter old new n opened
      (⟨.dot, o⟩ :: ⟨.ident name, o'⟩ :: tokens) tokens') :
    ∃ o₁ o₂ rest', tokens' = ⟨.dot, o₁⟩ :: ⟨.ident name, o₂⟩ :: rest' ∧
      Respelled parameter old new n false tokens rest' := by
  obtain ⟨o₁, named, rfl, further⟩ := respelled.tail rfl nofun
  obtain ⟨o₂, rest', rfl, last⟩ := further.tail rfl nofun
  exact ⟨o₁, o₂, rest', rfl, last⟩

theorem call {name : String} {o o' o'' : Nat} (respelled : Respelled parameter old new n opened
      (⟨.dot, o⟩ :: ⟨.ident name, o'⟩ :: ⟨.openParen, o''⟩ :: tokens) tokens') :
    ∃ o₁ o₂ o₃ rest', tokens' = ⟨.dot, o₁⟩ :: ⟨.ident name, o₂⟩ :: ⟨.openParen, o₃⟩ :: rest' ∧
      Respelled parameter old new n true tokens rest' := by
  obtain ⟨o₁, o₂, called, rfl, further⟩ := respelled.member
  obtain ⟨o₃, rest', rfl, last⟩ := further.tail rfl nofun
  exact ⟨o₁, o₂, o₃, rest', rfl, last⟩

/-- After a separator a path may start. -/
theorem separator {chain : Chain}
    (respelled : Respelled parameter old new n false (⟨chain.separator, o⟩ :: tokens) tokens') :
    ∃ o' rest', tokens' = ⟨chain.separator, o'⟩ :: rest' ∧
      Respelled parameter old new n true tokens rest' := by
  cases chain <;> exact respelled.tail rfl nofun

end Respelled

/-- What tokens of a category start with; a primary may have members already. -/
def Category.Spells : Category → List Token → SyntaxTree → List Token → Prop
  | .primary, tokens, t, rest =>
    ∀ t' last, Trailing t rest t' last → Phrase .operand tokens t' last
  | category, tokens, t, rest => Phrase category tokens t rest

theorem Phrase.spells {category : Category} {tokens rest : List Token} {t : SyntaxTree}
    (phrase : Phrase category tokens t rest) : category.Spells tokens t rest := by
  cases category with
  | primary => exact fun _ _ trailing => .operand phrase trailing
  | or | and | unary | compare | operand => exact phrase

theorem Chain.item_spells {chain : Chain} {tokens rest : List Token} {t : SyntaxTree}
    (spells : chain.item.Spells tokens t rest) : Phrase chain.item tokens t rest := by
  cases chain <;> exact spells

/-- A word is respelled as itself, or as the member of the parameter that has its name. -/
theorem Respelled.word (respelling : Respelling parameter ctx ctx') {n o : Nat} {name : String}
    {rest tokens' : List Token} (single : name = "string" → ∀ o', rest.head? ≠ some ⟨.dot, o'⟩)
    (respelled : Respelled parameter old new n true (⟨.ident name, o⟩ :: rest) tokens') :
    ∃ t' rest', Category.primary.Spells tokens' t' rest' ∧
      Respelled parameter old new n false rest rest' ∧ Means old new ctx ctx' 0 (.word name o) t' := by
  cases respelled with
  | @kept _ _ _ _ o' _ rest' root further =>
    have word : Phrase .primary (⟨.ident name, o'⟩ :: rest') (.word name o') rest' :=
      .word fun same => further.no_dot (single same)
    exact ⟨_, _, word.spells, further,
      .word respelling fun free => root (Lexeme.isRoot_word free single)⟩
  | @qualified _ v _ _ _ o₁ _ o₂ _ rest' put root plain further =>
    have other : v ≠ "string" := (respelling.fresh v put).2.2.2
    refine ⟨.member (.word v o₁) name o₂, rest', fun t' last trailing => ?_, further,
      .qualified respelling put (Lexeme.free_of_isRoot root) plain⟩
    exact .operand (.word fun same => absurd same other) (.member trailing)

-- The induction is on the phrase.  Of the strings that are exchanged in the tokens, `k` lie in the
-- phrase, which counts them in its meaning, and `m` are left for the tokens after it.

mutual

/-- A respelled phrase is a phrase that means the same but for the strings exchanged in it. -/
theorem Phrase.respelled (respelling : Respelling parameter ctx ctx') {category : Category}
    {tokens rest : List Token} {t : SyntaxTree} : Phrase category tokens t rest →
    ∀ {n : Nat} {tokens' : List Token},
      Respelled parameter old new n true tokens tokens' →
      ∃ k m t' rest', n = k + m ∧ category.Spells tokens' t' rest' ∧
        Respelled parameter old new m false rest rest' ∧ Means old new ctx ctx' k t t'
  | .or first more, n, tokens', respelled => by
    obtain ⟨k, m, t', middle', rfl, head, respelled, means⟩ := first.respelled respelling respelled
    obtain ⟨k', m, more', rest', rfl, tail, respelled, meansMore⟩ := more.respelled respelling respelled
    exact ⟨k + k', m, _, rest', (Nat.add_assoc ..).symm, .or head tail, respelled,
      means.chained (fun _ _ => rfl) .or meansMore⟩
  | .and first more, n, tokens', respelled => by
    obtain ⟨k, m, t', middle', rfl, head, respelled, means⟩ := first.respelled respelling respelled
    obtain ⟨k', m, more', rest', rfl, tail, respelled, meansMore⟩ := more.respelled respelling respelled
    exact ⟨k + k', m, _, rest', (Nat.add_assoc ..).symm, .and head tail, respelled,
      means.chained (fun _ _ => rfl) .and meansMore⟩
  | .not inner, n, tokens', respelled => by
    obtain ⟨o', inside, rfl, further⟩ := respelled.tail rfl nofun
    obtain ⟨k, m, t', rest', rfl, phrase, respelled, means⟩ := inner.respelled respelling further
    exact ⟨k, m, _, rest', rfl, .not phrase, respelled, means.not⟩
  | .plain inner, n, tokens', respelled => by
    obtain ⟨k, m, t', rest', rfl, phrase, respelled, means⟩ := inner.respelled respelling respelled
    exact ⟨k, m, t', rest', rfl, .plain phrase, respelled, means⟩
  | .compare left right, n, tokens', respelled => by
    obtain ⟨k, m, t', middle', rfl, first, respelled, means⟩ := left.respelled respelling respelled
    obtain ⟨o', middle', rfl, further⟩ := respelled.tail rfl nofun
    obtain ⟨k', m, u', rest', rfl, second, respelled, means'⟩ := right.respelled respelling further
    exact ⟨k + k', m, _, rest', (Nat.add_assoc ..).symm, .compare first second, respelled,
      means.compare means'⟩
  | .alone inner, n, tokens', respelled => by
    obtain ⟨k, m, t', rest', rfl, phrase, respelled, means⟩ := inner.respelled respelling respelled
    exact ⟨k, m, t', rest', rfl, .alone phrase, respelled, means⟩
  | .operand first more, n, tokens', respelled => by
    -- A root that became a member of the parameter has the members after it as further ones.
    obtain ⟨k, m, t', middle', rfl, head, respelled, means⟩ := first.respelled respelling respelled
    obtain ⟨k', m, u', rest', rfl, tail, respelled, means'⟩ := more.respelled respelling means respelled
    exact ⟨k + k', m, u', rest', (Nat.add_assoc ..).symm, head _ _ tail, respelled, means'⟩
  | .number, n, tokens', respelled => by
    obtain ⟨o', rest', rfl, further⟩ := respelled.tail rfl nofun
    exact ⟨0, n, _, rest', (Nat.zero_add n).symm, Phrase.number.spells, further, .literal⟩
  | .string, n, tokens', respelled => by
    cases respelled with
    | kept _ further =>
      exact ⟨0, n, _, _, (Nat.zero_add n).symm, Phrase.string.spells, further, .literal⟩
    | @exchanged n _ _ _ _ _ further =>
      exact ⟨1, n, _, _, Nat.add_comm n 1, Phrase.string.spells, further, .exchanged⟩
  | .negative, n, tokens', respelled => by
    obtain ⟨o', middle', rfl, number⟩ := respelled.tail rfl nofun
    obtain ⟨o'', rest', rfl, further⟩ := number.tail rfl nofun
    exact ⟨0, n, _, rest', (Nat.zero_add n).symm, Phrase.negative.spells, further, .negative⟩
  | .capture, n, tokens', respelled => by
    obtain ⟨o', middle', rfl, name⟩ := respelled.tail rfl nofun
    obtain ⟨o'', rest', rfl, further⟩ := name.tail rfl nofun
    exact ⟨0, n, _, rest', (Nat.zero_add n).symm, Phrase.capture.spells, further, .capture⟩
  | .static arguments, n, tokens', respelled => by
    obtain ⟨o', dotted, rfl, head⟩ := respelled.tail rfl nofun
    obtain ⟨o₁, o₂, o₃, inside, rfl, called⟩ := head.call
    obtain ⟨k, m, args', middle', _, rfl, phrases, closing, means⟩ :=
      arguments.respelled respelling called
    obtain ⟨o₄, rest', rfl, further⟩ := closing.tail rfl nofun
    exact ⟨k, m, _, rest', rfl, (Phrase.static phrases).spells, further, .static means⟩
  | .word single, n, tokens', respelled => by
    obtain ⟨t', rest', spells, further, means⟩ := respelled.word respelling single
    exact ⟨0, n, t', rest', (Nat.zero_add n).symm, spells, further, means⟩
  | .group inner, n, tokens', respelled => by
    obtain ⟨o', inside, rfl, further⟩ := respelled.tail rfl nofun
    obtain ⟨k, m, t', middle', rfl, phrase, respelled, means⟩ := inner.respelled respelling further
    obtain ⟨o'', rest', rfl, further⟩ := respelled.tail rfl nofun
    exact ⟨k, m, t', rest', rfl, (Phrase.group phrase).spells, further, means⟩
termination_by structural phrase => phrase

theorem Further.respelled (respelling : Respelling parameter ctx ctx') {chain : Chain}
    {tokens rest : List Token} {more : List SyntaxTree} : Further chain tokens more rest →
    ∀ {n : Nat} {tokens' : List Token},
      Respelled parameter old new n false tokens tokens' →
      ∃ k m more' rest', n = k + m ∧ Further chain tokens' more' rest' ∧
        Respelled parameter old new m false rest rest' ∧ MeansAll old new ctx ctx' k more more'
  | .done, n, tokens', respelled => ⟨0, n, [], tokens', (Nat.zero_add n).symm, .done, respelled, .nil⟩
  | .next first more, n, tokens', respelled => by
    obtain ⟨o', inside, rfl, further⟩ := respelled.separator
    obtain ⟨k, m, t', middle', rfl, head, further, means⟩ := first.respelled respelling further
    obtain ⟨k', m, more', rest', rfl, tail, respelled, meansMore⟩ := more.respelled respelling further
    exact ⟨k + k', m, _, rest', (Nat.add_assoc ..).symm, .next (Chain.item_spells head) tail,
      respelled, .cons means meansMore⟩
termination_by structural further => further

/-- What is in front has been respelled already, with `j` strings exchanged in it. -/
theorem Trailing.respelled (respelling : Respelling parameter ctx ctx') {t t' : SyntaxTree}
    {tokens rest : List Token} : Trailing t tokens t' rest →
    ∀ {j n : Nat} {u : SyntaxTree} {tokens' : List Token},
      Means old new ctx ctx' j t u → Respelled parameter old new n false tokens tokens' →
      ∃ k m u' rest', n = k + m ∧ Trailing u tokens' u' rest' ∧
        Respelled parameter old new m false rest rest' ∧ Means old new ctx ctx' (j + k) t' u'
  | .done, j, n, u, tokens', means, respelled =>
    ⟨0, n, u, tokens', (Nat.zero_add n).symm, .done, respelled, means⟩
  | .member more, j, n, u, tokens', means, respelled => by
    obtain ⟨o₁, o₂, after, rfl, named⟩ := respelled.member
    obtain ⟨k, m, u', rest', rfl, tail, further, means'⟩ := more.respelled respelling means.member named
    exact ⟨k, m, u', rest', rfl, .member tail, further, means'⟩
  | .call arguments more, j, n, u, tokens', means, respelled => by
    obtain ⟨o₁, o₂, o₃, inside, rfl, called⟩ := respelled.call
    obtain ⟨k, m, args', middle', _, rfl, phrases, closing, meansArgs⟩ :=
      arguments.respelled respelling called
    obtain ⟨o₄, after, rfl, left⟩ := closing.tail rfl nofun
    obtain ⟨k', m, u', rest', rfl, tail, further, means'⟩ :=
      more.respelled respelling (means.call meansArgs) left
    exact ⟨k + k', m, u', rest', (Nat.add_assoc ..).symm, .call phrases tail, further,
      Nat.add_assoc j k k' ▸ means'⟩
termination_by structural trailing => trailing

theorem Arguments.respelled (respelling : Respelling parameter ctx ctx')
    {tokens rest : List Token} {args : List SyntaxTree} : Arguments tokens args rest →
    ∀ {n : Nat} {tokens' : List Token},
      Respelled parameter old new n true tokens tokens' →
      ∃ k m args' rest' opened, n = k + m ∧ Arguments tokens' args' rest' ∧
        Respelled parameter old new m opened rest rest' ∧ MeansAll old new ctx ctx' k args args'
  | .none, n, tokens', respelled =>
    ⟨0, n, [], tokens', true, (Nat.zero_add n).symm, .none, respelled, .nil⟩
  | .some first more, n, tokens', respelled => by
    obtain ⟨k, m, t', middle', rfl, head, respelled, means⟩ := first.respelled respelling respelled
    obtain ⟨k', m, more', rest', rfl, tail, respelled, meansMore⟩ := more.respelled respelling respelled
    exact ⟨k + k', m, _, rest', false, (Nat.add_assoc ..).symm, .some head tail, respelled,
      .cons means meansMore⟩
termination_by structural arguments => arguments

end

end

/-! ## Sentences -/

theorem Respelled.nil {parameter : Option String} {old new : String} {n : Nat} {opened : Bool}
    {tokens' : List Token} (respelled : Respelled parameter old new n opened [] tokens') :
    n = 0 ∧ tokens' = [] := by
  cases respelled
  exact ⟨rfl, rfl⟩

/-- A respelled phrase that is left with nothing after it. -/
theorem Phrase.respelled_all {parameter : Option String} {old new : String} {ctx ctx' : Context}
    (respelling : Respelling parameter ctx ctx') {n : Nat} {tokens tokens' : List Token}
    {t : SyntaxTree} (phrase : Phrase .or tokens t [])
    (respelled : Respelled parameter old new n true tokens tokens') :
    ∃ t', Phrase .or tokens' t' [] ∧ Means old new ctx ctx' n t t' := by
  obtain ⟨k, m, t', rest', rfl, phrase', rest, means⟩ := phrase.respelled respelling respelled
  obtain ⟨rfl, rfl⟩ := rest.nil
  exact ⟨t', phrase', means⟩

/-- A sentence with strings exchanged is a sentence that means the same but for them. -/
theorem Sentence.exchanged {old new : String} {n length length' : Nat} {tokens tokens' : List Token}
    {parameter : Option String} {t : SyntaxTree} (sentence : Sentence tokens parameter t)
    (respelled : Respelled none old new n true tokens tokens') :
    ∃ t', Sentence tokens' parameter t' ∧
      Means old new ⟨parameter, length⟩ ⟨parameter, length'⟩ n t t' := by
  have respelling : Respelling none ⟨parameter, length⟩ ⟨parameter, length'⟩ := ⟨fun _ => rfl, nofun⟩
  cases sentence with
  | plain phrase =>
    obtain ⟨t', phrase', means⟩ := phrase.respelled_all respelling respelled
    exact ⟨t', .plain phrase', means⟩
  | lambda phrase =>
    cases respelled with
    | qualified put => cases put
    | kept _ arrow =>
      obtain ⟨o', body', rfl, body⟩ := arrow.tail rfl nofun
      obtain ⟨t', phrase', means⟩ := phrase.respelled_all respelling body
      exact ⟨t', .lambda phrase', means⟩

/-- A sentence without parameter becomes one with a parameter that is put before each root. -/
theorem Sentence.qualified {v old new : String} {n length length' o o' : Nat}
    {tokens tokens' : List Token} {t : SyntaxTree} (sentence : Sentence tokens none t)
    (respelled : Respelled (some v) old new n true tokens tokens')
    (free : v ∉ ["true", "false", "null"]) (other : v ≠ "string") :
    ∃ t', Sentence (⟨.ident v, o⟩ :: ⟨.arrow, o'⟩ :: tokens') (some v) t' ∧
      Means old new ⟨none, length⟩ ⟨some v, length'⟩ n t t' := by
  have respelling : Respelling (some v) ⟨none, length⟩ ⟨some v, length'⟩ :=
    ⟨nofun, by rintro v ⟨⟩; exact ⟨rfl, rfl, free, other⟩⟩
  cases sentence with
  | plain phrase =>
    obtain ⟨t', phrase', means⟩ := phrase.respelled_all respelling respelled
    exact ⟨t', .lambda phrase', means⟩

theorem Predicate.ofText_eq {s : String} {tokens : List Token}
    (scanned : Token.scan s = .ok tokens) :
    Predicate.ofText s = Expr.ofTokens s.utf8ByteSize tokens >>= Expr.toPredicate := by
  unfold Predicate.ofText Expr.ofText
  rw [scanned]
  rfl

/-- If a text is read as a predicate and its sentence means, but for exchanged strings, what the
sentence of another text does, so is the other. -/
theorem Predicate.ofText_exchanged {s s' old new : String} {n : Nat} {tokens tokens' : List Token}
    {parameter parameter' : Option String} {t t' : SyntaxTree} {p : Predicate}
    (scanned : Token.scan s = .ok tokens) (scanned' : Token.scan s' = .ok tokens')
    (sentence : Sentence tokens parameter t) (sentence' : Sentence tokens' parameter' t')
    (means : Means old new ⟨parameter, s.utf8ByteSize⟩ ⟨parameter', s'.utf8ByteSize⟩ n t t')
    (read : Predicate.ofText s = .ok p) :
    ∃ p', Predicate.ofText s' = .ok p' ∧ Predicate.Exchange (.text old) (.text new) n p p' := by
  rw [ofText_eq scanned, sentence.read] at read
  obtain ⟨e, spelled, read⟩ := bind_eq_ok.mp read
  obtain ⟨e', spelled', exchange⟩ := means e spelled
  obtain ⟨p', read', exchange'⟩ := exchange.toPredicate read
  refine ⟨p', ?_, exchange'⟩
  rw [ofText_eq scanned', sentence'.read]
  exact bind_eq_ok.mpr ⟨e', spelled', read'⟩

/-- What is read as a predicate is a text of a sentence. -/
theorem Predicate.sentence_of_ofText {s : String} {p : Predicate}
    (read : Predicate.ofText s = .ok p) :
    ∃ tokens parameter t, Token.scan s = .ok tokens ∧ Sentence tokens parameter t := by
  unfold Predicate.ofText Expr.ofText at read
  obtain ⟨e, parsed, -⟩ := bind_eq_ok.mp read
  obtain ⟨tokens, scanned, parsed⟩ := bind_eq_ok.mp parsed
  obtain ⟨parameter, t, sentence, -⟩ := Sentence.of_read parsed
  exact ⟨tokens, parameter, t, scanned, sentence⟩

end DocStore
