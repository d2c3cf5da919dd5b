import DocStore.Proofs.Query.Operands

/-!
# Where paths and captures are written

What is read of some tokens names fields and captures by words of these tokens.  A path starts where
an operand may start, and goes on with members behind dots.  In a lambda the parameter stands at the
start of each path and is none of its segments.

* `isWord`, `Token.scan_words`: the words of a text;
* `Members`, `Spells`: the segments of a path as they stand among tokens;
* `Expr.Formed`: expressions with such paths and captures, and with no chain of one operand;
* `Phrase.origin`, `Sentence.formed`: what a phrase and a sentence mean is formed in this way.
-/

namespace DocStore

open DocStore.Expr (Outcome Context)
open SyntaxTree (toExprs)

/-! ## Words -/

def isLetter (c : Char) : Bool :=
  ('A' ≤ c && c ≤ 'Z') || ('a' ≤ c && c ≤ 'z') || c = '_'

/-- Whether a text has the form `[A-Za-z_][A-Za-z0-9_]*`. -/
def isWord (s : String) : Bool :=
  match s.toList with
  | c :: rest => isLetter c && rest.all fun d => isLetter d || ('0' ≤ d && d ≤ '9')
  | [] => false

namespace Token

theorem isIdentStart_eq (c : Char) : isIdentStart c = isLetter c := by
  simp [isIdentStart, isLetter, Char.isAlpha, Char.isUpper, Char.isLower, Char.le_def]

theorem isIdentChar_eq (c : Char) : isIdentChar c = (isLetter c || ('0' ≤ c && c ≤ '9')) := by
  rw [← isIdentStart_eq]
  simp [isIdentChar, isIdentStart, Char.isAlphanum, Char.isDigit, Char.le_def, Bool.or_right_comm]

theorem isName_eq (s : String) : isName s = isWord s := by
  have inside : isIdentChar = fun c => isLetter c || ('0' ≤ c && c ≤ '9') := funext isIdentChar_eq
  unfold isName isWord
  cases s.toList with
  | nil => rfl
  | cons c rest => simp only [isIdentStart_eq, inside]

/-- A number is not read as a name. -/
theorem readNumber_ne_ident {offset : Nat} {cs : List Char} {name : String}
    {after : Nat × List Char} : readNumber offset cs ≠ .ok (.ident name, after) := by
  intro read
  unfold readNumber at read
  dsimp only at read
  split at read
  · split at read <;>
    · obtain ⟨v, -, same⟩ := map_eq_ok.mp read
      cases same
  · obtain ⟨v, -, same⟩ := map_eq_ok.mp read
    cases same

/-- What is read as a name is a word. -/
theorem isWord_of_read {offset : Nat} {c : Char} {rest : List Char} {name : String}
    {after : Nat × List Char} (read : Token.read offset c rest = .ok (.ident name, after)) :
    isWord name := by
  unfold Token.read at read
  split at read
  -- A string, and operators of one or two characters.
  case h_7 =>
    obtain ⟨text, -, same⟩ := map_eq_ok.mp read
    cases same
  case h_8 => split at read <;> cases read
  case h_9 | h_10 | h_11 =>
    unfold oneOrTwo at read
    split at read
    · split at read <;> cases read
    · cases read
  -- Doubled characters, digits and names.
  case h_12 =>
    split at read
    · cases read
    split at read
    · cases read
    split at read
    · exact absurd read readNumber_ne_ident
    split at read
    · rename_i starts
      cases read
      rw [← isName_eq, isName, String.toList_ofList]
      exact Bool.and_eq_true_iff.mpr
        ⟨starts, List.all_eq_true.mpr fun d mem => List.mem_takeWhile_imp mem⟩
    · cases read
  all_goals cases read

theorem Cuts.words {offset : Nat} {cs : List Char} {tokens : List Token}
    (cuts : Cuts offset cs tokens) :
    ∀ {name : String} {o : Nat}, ⟨.ident name, o⟩ ∈ tokens → isWord name := by
  induction cuts with
  | done => exact nofun
  | spacing _ _ ih => exact ih
  | lexeme _ found _ _ ih =>
    intro name o mem
    rcases List.mem_cons.mp mem with same | mem
    · cases same
      exact isWord_of_read found
    · exact ih mem

/-- The names among the tokens of a text are words. -/
theorem scan_words {s : String} {tokens : List Token} (scanned : scan s = .ok tokens)
    {name : String} {o : Nat} (mem : ⟨.ident name, o⟩ ∈ tokens) : isWord name :=
  (scan_eq_ok_iff.mp scanned).words mem

end Token

/-! ## Paths among tokens -/

/-- Tokens that go on with members, perhaps behind closing parentheses: their names, and the tokens
after them. -/
inductive Members : List Token → List String → List Token → Prop
  | done {rest} : Members rest [] rest
  | closing {o tokens names rest} : Members tokens names rest →
      Members (⟨.closeParen, o⟩ :: tokens) names rest
  | dot {o o' name tokens names rest} : Members tokens names rest →
      Members (⟨.dot, o⟩ :: ⟨.ident name, o'⟩ :: tokens) (name :: names) rest

theorem Members.trans {tokens middle rest : List Token} {names more : List String}
    (first : Members tokens names middle) (further : Members middle more rest) :
    Members tokens (names ++ more) rest := by
  induction first with
  | done => exact further
  | closing _ ih => exact .closing (ih further)
  | dot _ ih => exact .dot (ih further)

theorem Members.mem {tokens rest : List Token} {names : List String}
    (members : Members tokens names rest) :
    ∀ name ∈ names, ∃ o, ⟨.ident name, o⟩ ∈ tokens := by
  induction members with
  | done => exact nofun
  | closing _ ih =>
    intro name mem
    obtain ⟨o, found⟩ := ih name mem
    exact ⟨o, List.mem_cons_of_mem _ found⟩
  | @dot _ o' _ _ _ _ _ ih =>
    intro name mem
    rcases List.mem_cons.mp mem with rfl | mem
    · exact ⟨o', List.mem_cons_of_mem _ List.mem_cons_self⟩
    · obtain ⟨o, found⟩ := ih name mem
      exact ⟨o, List.mem_cons_of_mem _ (List.mem_cons_of_mem _ found)⟩

/-- Whether an operand may start after some tokens. -/
def Opens (before : List Token) : Prop := ∀ token ∈ before.getLast?, token.lexeme.opens

theorem opens_nil : Opens [] := nofun

theorem opens_concat {before : List Token} {token : Token} (opens : token.lexeme.opens) :
    Opens (before ++ [token]) := by
  simpa [Opens] using opens

/-- The segments of a path as they stand among tokens, and the tokens after them.  Without a
parameter the first segment stands where an operand may start.  In a lambda the parameter stands
there, and all segments are members behind it. -/
inductive Spells (parameter : Option String) (whole : List Token) :
    List String → List Token → Prop
  | bare {before name o after names rest} : parameter = none →
      whole = before ++ ⟨.ident name, o⟩ :: after → Opens before → Members after names rest →
      Spells parameter whole (name :: names) rest
  | lambda {before v o after names rest} : parameter = some v →
      whole = before ++ ⟨.ident v, o⟩ :: after → Opens before → Members after names rest →
      Spells parameter whole names rest

namespace Spells

variable {parameter : Option String} {whole middle rest : List Token} {names more : List String}

theorem trans (spells : Spells parameter whole names middle) (further : Members middle more rest) :
    Spells parameter whole (names ++ more) rest := by
  cases spells with
  | bare none here opens members => exact .bare none here opens (members.trans further)
  | lambda some here opens members => exact .lambda some here opens (members.trans further)

theorem mem (spells : Spells parameter whole names rest) :
    ∀ name ∈ names, ∃ o, ⟨.ident name, o⟩ ∈ whole := by
  cases spells with
  | @bare _ _ o _ _ _ _ here _ members =>
    subst here
    intro name mem
    rcases List.mem_cons.mp mem with rfl | mem
    · exact ⟨o, List.mem_append_right _ List.mem_cons_self⟩
    · obtain ⟨o, found⟩ := members.mem name mem
      exact ⟨o, List.mem_append_right _ (List.mem_cons_of_mem _ found)⟩
  | lambda _ here _ members =>
    subst here
    intro name mem
    obtain ⟨o, found⟩ := members.mem name mem
    exact ⟨o, List.mem_append_right _ (List.mem_cons_of_mem _ found)⟩

end Spells

/-! ## Expressions -/

/-- An expression whose paths and captures are of some kind, and whose chains have two operands at
least. -/
inductive Expr.Formed (path : List String → Prop) (capture : String → Prop) : Expr → Prop
  | path {segments o} (written : path segments) : Formed path capture (.path segments o)
  | literal {v} : Formed path capture (.literal v)
  | capture {name} (written : capture name) : Formed path capture (.capture name)
  | call {receiver method args o} (inner : Formed path capture receiver)
      (each : ∀ a ∈ args, Formed path capture a) :
      Formed path capture (.call receiver method args o)
  | static {method args o} (each : ∀ a ∈ args, Formed path capture a) :
      Formed path capture (.staticCall method args o)
  | hasValue {receiver o} (inner : Formed path capture receiver) :
      Formed path capture (.hasValue receiver o)
  | compare {op left right} (first : Formed path capture left)
      (second : Formed path capture right) : Formed path capture (.compare op left right)
  | and {operands} (several : 2 ≤ operands.length)
      (each : ∀ e ∈ operands, Formed path capture e) : Formed path capture (.and operands)
  | or {operands} (several : 2 ≤ operands.length)
      (each : ∀ e ∈ operands, Formed path capture e) : Formed path capture (.or operands)
  | not {operand} (inner : Formed path capture operand) : Formed path capture (.not operand)

variable {ctx : Context} {whole : List Token}

/-- Whether the paths and captures of an expression stand among some tokens. -/
def Expr.FormedIn (ctx : Context) (whole : List Token) : Expr → Prop :=
  Formed (fun segments => ∃ rest, Spells ctx.parameter whole segments rest)
    fun name => ∃ o, ⟨.ident name, o⟩ ∈ whole

/-- What a phrase among some tokens means, if `rest` comes after it: if the phrase is a path, its
segments stand right before `rest`. -/
structure Expr.Origin (ctx : Context) (whole rest : List Token) (e : Expr) : Prop where
  formed : e.FormedIn ctx whole
  path : ∀ segments o, e = .path segments o → Spells ctx.parameter whole segments rest

namespace Expr

theorem FormedIn.origin {e : Expr} {rest : List Token} (formed : e.FormedIn ctx whole)
    (other : ∀ segments o, e ≠ .path segments o) : e.Origin ctx whole rest :=
  ⟨formed, fun segments o same => absurd same (other segments o)⟩

theorem Origin.closing {e : Expr} {o : Nat} {rest : List Token}
    (origin : e.Origin ctx whole (⟨.closeParen, o⟩ :: rest)) : e.Origin ctx whole rest :=
  ⟨origin.formed, fun segments o same =>
    List.append_nil segments ▸ (origin.path segments o same).trans (.closing .done)⟩

theorem Origin.word {before rest : List Token} {name : String} {o : Nat} {e : Expr}
    (here : whole = before ++ ⟨.ident name, o⟩ :: rest) (opens : Opens before)
    (read : ofWord ctx name o = .ok e) : e.Origin ctx whole rest := by
  have spelled {segments : List String} (spells : Spells ctx.parameter whole segments rest) :
      Origin ctx whole rest (.path segments o) :=
    ⟨.path ⟨rest, spells⟩, by rintro _ _ ⟨⟩; exact spells⟩
  unfold ofWord at read
  split at read
  · cases read
    exact FormedIn.origin .literal nofun
  split at read
  · cases read
    exact FormedIn.origin .literal nofun
  split at read
  · cases read
    exact FormedIn.origin .literal nofun
  split at read
  · rename_i bare
    cases read
    exact spelled (.bare bare here opens .done)
  · rename_i parameter named
    split at read
    · rename_i same
      subst same
      cases read
      exact spelled (.lambda named here opens .done)
    · cases read

theorem Origin.member {rest : List Token} {name : String} {o o' : Nat} {receiver e : Expr}
    (origin : receiver.Origin ctx whole (⟨.dot, o⟩ :: ⟨.ident name, o'⟩ :: rest))
    (read : memberOf receiver name o' = .ok e) : e.Origin ctx whole rest := by
  unfold memberOf at read
  split at read
  · cases read
    exact FormedIn.origin (.hasValue origin.formed) nofun
  · split at read
    · rename_i segments start
      cases read
      have spells := (origin.path segments start rfl).trans (.dot .done)
      exact ⟨.path ⟨rest, spells⟩, by rintro _ _ ⟨⟩; exact spells⟩
    · cases read

/-- A chain means its operand, which nothing comes after, or has two operands at least. -/
theorem Origin.chain {make : List Expr → Expr} {first : Expr} {more : List Expr}
    {middle rest : List Token} (origin : first.Origin ctx whole middle)
    (others : ∀ e ∈ more, e.FormedIn ctx whole) (single : more = [] → middle = rest)
    (formed : ∀ operands, 2 ≤ operands.length → (∀ e ∈ operands, e.FormedIn ctx whole) →
      (make operands).FormedIn ctx whole)
    (other : ∀ operands segments o, make operands ≠ .path segments o) :
    (Expr.chain make first more).Origin ctx whole rest := by
  cases more with
  | nil => exact single rfl ▸ origin
  | cons second more =>
    exact (formed _ (by simp) (List.forall_mem_cons.mpr ⟨origin.formed, others⟩)).origin (other _)

end Expr

/-! ## Phrases -/

theorem SyntaxTree.length_toExprs {ts : List SyntaxTree} {es : List Expr}
    (read : toExprs ctx ts = .ok es) : es.length = ts.length := by
  induction ts generalizing es with
  | nil =>
    cases read
    rfl
  | cons t ts ih =>
    obtain ⟨e, -, read⟩ := bind_eq_ok.mp read
    obtain ⟨es, others, read⟩ := bind_eq_ok.mp read
    cases pure_eq_ok.mp read
    rw [List.length_cons, List.length_cons, ih others]

/-- After no further phrases come the same tokens. -/
theorem Further.eq_rest {chain : Chain} {tokens rest : List Token} {more : List SyntaxTree}
    {es : List Expr} (further : Further chain tokens more rest) (read : toExprs ctx more = .ok es)
    (none : es = []) : tokens = rest := by
  cases further with
  | done => rfl
  | next =>
    have length := SyntaxTree.length_toExprs read
    rw [none] at length
    cases length

theorem Chain.opens_separator (chain : Chain) : chain.separator.opens := by
  cases chain <;> rfl

theorem Phrase.behind {category : Category} {tokens rest before : List Token} {t : SyntaxTree}
    (phrase : Phrase category tokens t rest) (here : whole = before ++ tokens) :
    ∃ later, whole = later ++ rest := by
  obtain ⟨taken, rfl, -⟩ := phrase.instead
  exact ⟨before ++ taken, here.trans (List.append_assoc ..).symm⟩

theorem Arguments.behind {tokens rest before : List Token} {args : List SyntaxTree}
    (arguments : Arguments tokens args rest) (here : whole = before ++ tokens) :
    ∃ later, whole = later ++ rest := by
  obtain ⟨taken, rfl, -⟩ := arguments.instead
  exact ⟨before ++ taken, here.trans (List.append_assoc ..).symm⟩

-- The induction is on the phrase, wherever it stands among the tokens.

mutual

/-- What a phrase means has its paths and captures from the tokens that the phrase stands among. -/
theorem Phrase.origin {category : Category} {tokens rest : List Token} {t : SyntaxTree} :
    Phrase category tokens t rest → ∀ {before : List Token}, whole = before ++ tokens →
      Opens before → ∀ {e : Expr}, t.toExpr ctx = .ok e → e.Origin ctx whole rest
  | .or first more, before, here, opens, e, read => by
    obtain ⟨later, behind⟩ := first.behind here
    rw [SyntaxTree.toExpr_chained fun _ => rfl] at read
    obtain ⟨head, readHead, read⟩ := bind_eq_ok.mp read
    obtain ⟨es, readMore, read⟩ := bind_eq_ok.mp read
    cases pure_eq_ok.mp read
    exact (first.origin here opens readHead).chain (more.origin behind readMore)
      (more.eq_rest readMore) (fun _ several each => .or several each) nofun
  | .and first more, before, here, opens, e, read => by
    obtain ⟨later, behind⟩ := first.behind here
    rw [SyntaxTree.toExpr_chained fun _ => rfl] at read
    obtain ⟨head, readHead, read⟩ := bind_eq_ok.mp read
    obtain ⟨es, readMore, read⟩ := bind_eq_ok.mp read
    cases pure_eq_ok.mp read
    exact (first.origin here opens readHead).chain (more.origin behind readMore)
      (more.eq_rest readMore) (fun _ several each => .and several each) nofun
  | .not inner, before, here, opens, e, read => by
    obtain ⟨operand, readOperand, rfl⟩ := map_eq_ok.mp read
    have origin := inner.origin (here.trans (List.append_cons ..)) (opens_concat rfl) readOperand
    exact Expr.FormedIn.origin (.not origin.formed) nofun
  | .plain inner, before, here, opens, e, read => inner.origin here opens read
  | .compare left right, before, here, opens, e, read => by
    obtain ⟨later, behind⟩ := left.behind here
    obtain ⟨l, readLeft, read⟩ := bind_eq_ok.mp read
    obtain ⟨r, readRight, read⟩ := bind_eq_ok.mp read
    cases pure_eq_ok.mp read
    have first := left.origin here opens readLeft
    have second :=
      right.origin (behind.trans (List.append_cons ..)) (opens_concat rfl) readRight
    exact Expr.FormedIn.origin (.compare first.formed second.formed) nofun
  | .alone inner, before, here, opens, e, read => inner.origin here opens read
  | .operand first more, before, here, opens, e, read => by
    obtain ⟨later, behind⟩ := first.behind here
    exact more.origin behind (fun readFirst => first.origin here opens readFirst) read
  | .number, _, _, _, _, rfl | .string, _, _, _, _, rfl => Expr.FormedIn.origin .literal nofun
  | .negative, before, here, opens, e, read => by
    unfold SyntaxTree.toExpr at read
    split at read
    · cases read
      exact Expr.FormedIn.origin .literal nofun
    · cases read
  | @Phrase.capture name _ o' rest, before, here, opens, _, rfl => by
    have mem : ⟨.ident name, o'⟩ ∈ whole := by simp [here]
    exact Expr.FormedIn.origin (.capture ⟨o', mem⟩) nofun
  | .static arguments, before, here, opens, e, read => by
    obtain ⟨args, readArgs, rfl⟩ := map_eq_ok.mp read
    have behind := here.trans (List.append_assoc before [_, _, _] _).symm
    have each := arguments.origin (behind.trans (List.append_cons ..)) (opens_concat rfl) readArgs
    exact Expr.FormedIn.origin (.static each) nofun
  | .word _, before, here, opens, e, read => .word here opens read
  | .group inner, before, here, opens, e, read =>
    (inner.origin (here.trans (List.append_cons ..)) (opens_concat rfl) read).closing
termination_by structural phrase => phrase

theorem Further.origin {chain : Chain} {tokens rest : List Token} {more : List SyntaxTree} :
    Further chain tokens more rest → ∀ {before : List Token}, whole = before ++ tokens →
      ∀ {es : List Expr}, toExprs ctx more = .ok es → ∀ e ∈ es, e.FormedIn ctx whole
  | .done, before, here, _, rfl => nofun
  | .next first more, before, here, es, read => by
    have inside := here.trans (List.append_cons ..)
    obtain ⟨later, behind⟩ := first.behind inside
    obtain ⟨e, readFirst, read⟩ := bind_eq_ok.mp read
    obtain ⟨es, readMore, read⟩ := bind_eq_ok.mp read
    cases pure_eq_ok.mp read
    have head := first.origin inside (opens_concat (Chain.opens_separator _)) readFirst
    exact List.forall_mem_cons.mpr ⟨head.formed, more.origin behind readMore⟩
termination_by structural further => further

theorem Trailing.origin {t t' : SyntaxTree} {tokens rest : List Token} :
    Trailing t tokens t' rest → ∀ {before : List Token}, whole = before ++ tokens →
      (∀ {e : Expr}, t.toExpr ctx = .ok e → e.Origin ctx whole tokens) →
      ∀ {e : Expr}, t'.toExpr ctx = .ok e → e.Origin ctx whole rest
  | .done, before, here, receiver, e, read => receiver read
  | .member more, before, here, receiver, e, read => by
    refine more.origin (here.trans (List.append_assoc before [_, _] _).symm) (fun read => ?_) read
    obtain ⟨r, readReceiver, read⟩ := bind_eq_ok.mp read
    exact (receiver readReceiver).member read
  | .call arguments more, before, here, receiver, e, read => by
    have inside := (here.trans (List.append_assoc before [_, _] _).symm).trans
      (List.append_cons ..)
    obtain ⟨later, behind⟩ := arguments.behind inside
    refine more.origin (behind.trans (List.append_cons ..)) (fun read => ?_) read
    obtain ⟨r, readReceiver, read⟩ := bind_eq_ok.mp read
    obtain ⟨args, readArgs, read⟩ := bind_eq_ok.mp read
    cases pure_eq_ok.mp read
    have each := arguments.origin inside (opens_concat rfl) readArgs
    exact Expr.FormedIn.origin (.call (receiver readReceiver).formed each) nofun
termination_by structural trailing => trailing

theorem Arguments.origin {tokens rest : List Token} {args : List SyntaxTree} :
    Arguments tokens args rest → ∀ {before : List Token}, whole = before ++ tokens →
      Opens before → ∀ {es : List Expr}, toExprs ctx args = .ok es → ∀ e ∈ es, e.FormedIn ctx whole
  | .none, before, here, opens, _, rfl => nofun
  | .some first more, before, here, opens, es, read => by
    obtain ⟨later, behind⟩ := first.behind here
    obtain ⟨e, readFirst, read⟩ := bind_eq_ok.mp read
    obtain ⟨es, readMore, read⟩ := bind_eq_ok.mp read
    cases pure_eq_ok.mp read
    exact List.forall_mem_cons.mpr
      ⟨(first.origin here opens readFirst).formed, more.origin behind readMore⟩
termination_by structural arguments => arguments

end

/-- What a sentence means has its paths and captures from its tokens. -/
theorem Sentence.formed {tokens : List Token} {parameter : Option String} {t : SyntaxTree}
    {length : Nat} {e : Expr} (sentence : Sentence tokens parameter t)
    (read : t.toExpr ⟨parameter, length⟩ = .ok e) : e.FormedIn ⟨parameter, length⟩ tokens := by
  cases sentence with
  | plain phrase => exact (phrase.origin (List.nil_append _).symm opens_nil read).formed
  | lambda phrase =>
    exact (phrase.origin (List.append_cons [_] _ _) (opens_concat rfl) read).formed

end DocStore
