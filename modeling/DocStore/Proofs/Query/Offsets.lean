import DocStore.Proofs.Query.Bytewise
import DocStore.Proofs.Query.Parsing

/-!
# Offsets lie in the text

The offsets of tokens, and those that errors blame, are positions of the text at which one of its
characters starts, or its end.

* `Within`: what a reader of tokens leaves and blames is among its tokens, or the end of the text;
* `withinAt`: it is so for every reader of expressions, with any fuel;
* `Token.scanFrom_blames`: what is blamed where a text is not cut into tokens;
* `parsing_stays_in_text`: no text is cut or blamed inside a character.
-/

namespace DocStore

open DocStore.Expr (Outcome Context)

/-! ## Readers -/

/-- Whether an outcome of reading tokens leaves the last of them, and blames the start of one of
them or the end of the text. -/
structure Within {α : Type} (ctx : Context) (tokens : List Token)
    (outcome : Outcome (α × List Token)) : Prop where
  leaves : ∀ a rest, outcome = .ok (a, rest) → rest <:+ tokens
  blames : ∀ o f, outcome = .error (.malformed o f) → o ∈ ctx.length :: tokens.map Token.offset

namespace Within

variable {α β : Type} {ctx : Context} {tokens rest : List Token}

theorem ok (a : α) (suffix : rest <:+ tokens) : Within ctx tokens (.ok (a, rest)) where
  leaves _ _ same := by
    cases same
    exact suffix
  blames := nofun

/-- A fault is at the next token, or at the end of the text. -/
theorem fault {f : SyntaxFault} (inside : ∀ token ∈ rest.head?, token ∈ tokens) :
    Within ctx tokens (ctx.fault rest f : Outcome (α × List Token)) where
  leaves := nofun
  blames _ _ same := by
    cases same
    cases rest with
    | nil => exact List.mem_cons_self
    | cons token rest => exact List.mem_cons_of_mem _ (List.mem_map_of_mem (inside token rfl))

theorem fault_here {f : SyntaxFault} :
    Within ctx tokens (ctx.fault tokens f : Outcome (α × List Token)) :=
  fault fun _ => List.mem_of_mem_head?

theorem fault_end {f : SyntaxFault} :
    Within ctx tokens (ctx.fault [] f : Outcome (α × List Token)) :=
  fault nofun

theorem later {outcome : Outcome (α × List Token)} (within : Within ctx rest outcome)
    (suffix : rest <:+ tokens) : Within ctx tokens outcome where
  leaves a left same := (within.leaves a left same).trans suffix
  blames o f same := by
    have mem := within.blames o f same
    exact (List.cons_subset_cons _ (List.map_subset _ suffix.subset)) mem

theorem bind {outcome : Outcome (α × List Token)} (within : Within ctx tokens outcome)
    {f : α × List Token → Outcome (β × List Token)}
    (next : ∀ a rest, Within ctx rest (f (a, rest))) : Within ctx tokens (outcome >>= f) := by
  cases outcome with
  | ok r => exact (next r.1 r.2).later (within.leaves r.1 r.2 rfl)
  | error e =>
    refine ⟨nofun, fun o f same => ?_⟩
    cases same
    exact within.blames o f rfl

/-- What is not malformed blames nothing. -/
theorem of_blameless {outcome : Outcome α} (blameless : Blameless outcome)
    {f : α → Outcome (β × List Token)} (next : ∀ a, Within ctx tokens (f a)) :
    Within ctx tokens (outcome >>= f) := by
  cases outcome with
  | ok a => exact next a
  | error e =>
    refine ⟨nofun, fun o f same => ?_⟩
    cases same
    exact absurd rfl (blameless o f)

theorem map_blameless {outcome : Outcome α} (blameless : Blameless outcome)
    (suffix : rest <:+ tokens) : Within ctx tokens (outcome.map fun a => (a, rest)) := by
  cases outcome with
  | ok a => exact .ok a suffix
  | error e =>
    refine ⟨nofun, fun o f same => ?_⟩
    cases same
    exact absurd rfl (blameless o f)

theorem identifier (ctx : Context) (tokens : List Token) :
    Within ctx tokens (ctx.identifier tokens) := by
  unfold Expr.Context.identifier
  split
  · exact .ok _ (List.suffix_cons _ _)
  · exact .fault_here

theorem expect {lexeme : Lexeme} {f : SyntaxFault} {next : List Token → Outcome (α × List Token)}
    (further : ∀ rest, Within ctx rest (next rest)) :
    Within ctx tokens (ctx.expect lexeme f tokens >>= next) := by
  unfold Expr.Context.expect
  split
  · split
    · exact (further _).later (List.suffix_cons _ _)
    · exact .fault_here
  · exact .fault_here

end Within

/-- What readers leave and blame with some fuel. -/
structure WithinAt (fuel : Nat) : Prop where
  phrase (category : Category) (ctx : Context) (tokens : List Token) :
    Within ctx tokens (category.reader fuel ctx tokens)
  further (chain : Chain) (ctx : Context) (tokens : List Token) :
    Within ctx tokens (chain.reader fuel ctx tokens)
  trailing (ctx : Context) (receiver : Expr) (tokens : List Token) :
    Within ctx tokens (Expr.readMembers fuel ctx receiver tokens)
  arguments (ctx : Context) (tokens : List Token) :
    Within ctx tokens (Expr.readArgs fuel ctx tokens)
  list (ctx : Context) (tokens : List Token) :
    Within ctx tokens (Expr.readArgList fuel ctx tokens)

namespace WithinAt

variable {fuel : Nat}

theorem readAll (within : WithinAt fuel) (chain : Chain) (make : List Expr → Expr) (ctx : Context)
    (tokens : List Token) : Within ctx tokens (chain.readAll make fuel ctx tokens) :=
  (within.phrase chain.item ctx tokens).bind fun _ _ =>
    (within.further chain ctx _).bind fun _ _ => .ok _ (List.suffix_refl _)

theorem unary (within : WithinAt fuel) (ctx : Context) (tokens : List Token) :
    Within ctx tokens (Expr.readUnary (fuel + 1) ctx tokens) := by
  by_cases negated : ∃ o inner, tokens = ⟨.bang, o⟩ :: inner
  · obtain ⟨o, inner, rfl⟩ := negated
    rw [Expr.readUnary]
    refine Within.later ?_ (List.suffix_cons _ _)
    exact (within.phrase .unary ctx inner).bind fun _ _ => .ok _ (List.suffix_refl _)
  · rw [Expr.readUnary]
    · exact within.phrase .compare ctx tokens
    · exact fun o inner same => negated ⟨o, inner, same⟩

theorem compare (within : WithinAt fuel) (ctx : Context) (tokens : List Token) :
    Within ctx tokens (Expr.readCompare (fuel + 1) ctx tokens) := by
  rw [Expr.readCompare]
  refine (within.phrase .operand ctx tokens).bind fun left rest => ?_
  dsimp only
  split
  · refine Within.later ?_ (List.suffix_cons _ _)
    exact (within.phrase .operand ctx _).bind fun _ _ => .ok _ (List.suffix_refl _)
  · exact .ok _ (List.suffix_refl _)

theorem operand (within : WithinAt fuel) (ctx : Context) (tokens : List Token) :
    Within ctx tokens (Expr.readPostfix (fuel + 1) ctx tokens) := by
  rw [Expr.readPostfix]
  exact (within.phrase .primary ctx tokens).bind fun _ _ => within.trailing ctx _ _

theorem primary (within : WithinAt fuel) (ctx : Context) (tokens : List Token) :
    Within ctx tokens (Expr.readPrimary (fuel + 1) ctx tokens) := by
  rcases tokens with _ | ⟨token, tokens⟩
  · exact .fault_end
  have after {α : Type} {outcome : Outcome (α × List Token)} (within : Within ctx tokens outcome) :
      Within ctx (token :: tokens) outcome := within.later (List.suffix_cons _ _)
  unfold Expr.readPrimary
  dsimp only
  split
  · exact after (.ok _ (List.suffix_refl _))
  · exact after (.ok _ (List.suffix_refl _))
  · split
    · split
      · exact after (.ok _ (List.suffix_cons _ _))
      · exact .fault (by simp)
    · exact .fault_here
  · exact after ((Within.identifier ctx tokens).bind fun _ _ => .ok _ (List.suffix_refl _))
  · exact after ((within.phrase .or ctx tokens).bind fun _ _ => .expect fun _ =>
      .ok _ (List.suffix_refl _))
  · split
    · refine after (Within.later ?_ (List.suffix_cons _ _))
      exact (Within.identifier ctx _).bind fun _ _ => .expect fun _ =>
        (within.arguments ctx _).bind fun _ _ => .ok _ (List.suffix_refl _)
    · exact .map_blameless (Expr.blameless_ofWord _ _ _) (List.suffix_cons _ _)
  · exact .fault_here

theorem argTail (list : ∀ ctx tokens, Within ctx tokens (Expr.readArgList fuel ctx tokens))
    (ctx : Context) (tokens : List Token) :
    Within ctx tokens (Expr.readArgTail fuel ctx tokens) := by
  unfold Expr.readArgTail
  split
  · exact .ok _ (List.suffix_cons _ _)
  · exact .expect fun rest => list ctx rest

theorem list_succ (within : WithinAt fuel) (ctx : Context) (tokens : List Token) :
    Within ctx tokens (Expr.readArgList (fuel + 1) ctx tokens) := by
  rw [Expr.readArgList_succ]
  exact (within.phrase .or ctx tokens).bind fun _ _ => (argTail within.list ctx _).bind fun _ _ =>
    .ok _ (List.suffix_refl _)

theorem further_succ (within : WithinAt fuel) (chain : Chain) (ctx : Context)
    (tokens : List Token) : Within ctx tokens (chain.reader (fuel + 1) ctx tokens) := by
  by_cases separated : ∃ o inner, tokens = ⟨chain.separator, o⟩ :: inner
  · obtain ⟨o, inner, rfl⟩ := separated
    rw [Chain.reader_next]
    refine Within.later ?_ (List.suffix_cons _ _)
    exact (within.phrase chain.item ctx inner).bind fun _ _ =>
      (within.further chain ctx _).bind fun _ _ => .ok _ (List.suffix_refl _)
  · cases chain with
    | or =>
      simp only [Chain.reader]
      rw [Expr.readOrTail]
      · exact .ok _ (List.suffix_refl _)
      · exact fun o inner same => separated ⟨o, inner, same⟩
    | and =>
      simp only [Chain.reader]
      rw [Expr.readAndTail]
      · exact .ok _ (List.suffix_refl _)
      · exact fun o inner same => separated ⟨o, inner, same⟩
    | args => exact argTail within.list_succ ctx tokens

theorem members (within : WithinAt fuel) (ctx : Context) (receiver : Expr) (tokens : List Token) :
    Within ctx tokens (Expr.readMembers (fuel + 1) ctx receiver tokens) := by
  by_cases dotted : ∃ o inner, tokens = ⟨.dot, o⟩ :: inner
  · obtain ⟨o, inner, rfl⟩ := dotted
    rw [Expr.readMembers]
    refine Within.later ?_ (List.suffix_cons _ _)
    refine (Within.identifier ctx inner).bind fun named rest => ?_
    dsimp only
    split
    · refine Within.later ?_ (List.suffix_cons _ _)
      exact (within.arguments ctx _).bind fun _ _ => within.trailing ctx _ _
    · exact .of_blameless (Expr.blameless_memberOf _ _ _) fun _ => within.trailing ctx _ _
  · rw [Expr.readMembers]
    · exact .ok _ (List.suffix_refl _)
    · exact fun o inner same => dotted ⟨o, inner, same⟩

theorem succ (within : WithinAt fuel) : WithinAt (fuel + 1) where
  phrase category ctx tokens := by
    cases category with
    | or => exact within.readAll .or .or ctx tokens
    | and => exact within.readAll .and .and ctx tokens
    | unary => exact within.unary ctx tokens
    | compare => exact within.compare ctx tokens
    | operand => exact within.operand ctx tokens
    | primary => exact within.primary ctx tokens
  further := within.further_succ
  trailing := within.members
  arguments ctx tokens := by
    by_cases closed : ∃ o after, tokens = ⟨.closeParen, o⟩ :: after
    · obtain ⟨o, after, rfl⟩ := closed
      exact .ok _ (List.suffix_cons _ _)
    · rw [Expr.readArgs]
      · exact within.list ctx tokens
      · exact fun o after same => closed ⟨o, after, same⟩
  list := within.list_succ

theorem zero : WithinAt 0 where
  phrase category ctx tokens := by
    cases category <;> exact .fault_end
  further chain ctx tokens := by
    cases chain with
    | or | and => exact .fault_end
    | args => exact argTail (fun _ _ => .fault_end) ctx tokens
  trailing ctx receiver tokens := .fault_end
  arguments ctx tokens := .fault_end
  list ctx tokens := .fault_end

end WithinAt

theorem withinAt (fuel : Nat) : WithinAt fuel := by
  induction fuel with
  | zero => exact .zero
  | succ fuel within => exact within.succ

theorem Expr.splitHead_suffix (tokens : List Token) : (splitHead tokens).2 <:+ tokens := by
  unfold splitHead
  split
  · exact ⟨[_, _], rfl⟩
  · exact List.suffix_refl _

/-- Where tokens are no sentence, one of them is blamed or the end of the text. -/
theorem Expr.ofTokens_blames {length o : Nat} {tokens : List Token} {f : SyntaxFault}
    (failed : ofTokens length tokens = .error (.malformed o f)) :
    o ∈ length :: tokens.map Token.offset := by
  have within : Within ⟨(splitHead tokens).1, length⟩ tokens
      (readOr (8 * tokens.length + 8) ⟨(splitHead tokens).1, length⟩ (splitHead tokens).2) :=
    ((withinAt (8 * tokens.length + 8)).phrase .or ⟨(splitHead tokens).1, length⟩ _).later
      (splitHead_suffix tokens)
  rw [ofTokens] at failed
  rcases read : readOr (8 * tokens.length + 8) ⟨(splitHead tokens).1, length⟩
      (splitHead tokens).2 with e | ⟨e, rest⟩
  · rw [read] at failed
    cases failed
    exact within.blames o f read
  · rw [read] at failed
    cases rest with
    | nil => cases failed
    | cons token rest =>
      cases failed
      have mem := (within.leaves e _ read).mem List.mem_cons_self
      exact List.mem_cons_of_mem _ (List.mem_map_of_mem mem)

/-! ## Tokens -/

namespace Token

/-- A text that is not cut into tokens is blamed at one of its places. -/
theorem scanFrom_blames {fuel offset o : Nat} {cs : List Char} {f : SyntaxFault}
    (failed : scanFrom fuel offset cs = .error (.malformed o f)) :
    ∃ left, Reaches offset cs o left := by
  induction fuel generalizing offset cs with
  | zero => cases failed
  | succ fuel ih =>
    cases cs with
    | nil => cases failed
    | cons c rest =>
      rw [scanFrom] at failed
      split at failed
      · rename_i blank
        obtain ⟨left, reaches⟩ := ih failed
        exact ⟨left, (Reaches.one (utf8Size_of_isSpacing blank)).trans reaches⟩
      split at failed
      · rename_i found
        cases failed
        exact read_fault found
      · rename_i lexeme next after found
        have further : scanFrom fuel next after = .error (.malformed o f) := by
          cases rest : scanFrom fuel next after with
          | error e =>
            rw [rest] at failed
            cases failed
            rfl
          | ok tokens =>
            rw [rest] at failed
            cases failed
        obtain ⟨left, reaches⟩ := ih further
        exact ⟨left, (reaches_of_read found).trans reaches⟩

/-- Each token starts at a character. -/
theorem Cuts.starts {offset : Nat} {cs : List Char} {tokens : List Token}
    (cuts : Cuts offset cs tokens) :
    ∀ token ∈ tokens, ∃ left, left ≠ [] ∧ Reaches offset cs token.offset left := by
  induction cuts with
  | done => exact nofun
  | spacing blank _ ih =>
    intro token mem
    obtain ⟨left, filled, reaches⟩ := ih token mem
    exact ⟨left, filled, (Reaches.one (utf8Size_of_isSpacing blank)).trans reaches⟩
  | lexeme _ found _ _ ih =>
    refine List.forall_mem_cons.mpr ⟨⟨_, List.cons_ne_nil _ _, .stay⟩, fun token mem => ?_⟩
    obtain ⟨left, filled, reaches⟩ := ih token mem
    exact ⟨left, filled, (reaches_of_read found).trans reaches⟩

/-- A place in a text is a boundary of its characters. -/
theorem Reaches.isValid {s : String} {o : Nat} {left : List Char}
    (reaches : Reaches 0 s.toList o left) : (⟨o⟩ : String.Pos.Raw).IsValid s := by
  obtain ⟨before, whole, rfl⟩ := reaches
  rw [← splitAt?_isSome_iff, whole, Nat.zero_add, splitAt?_append]
  rfl

end Token

theorem Predicate.ofText_blames {s : String} {o : Nat} {f : SyntaxFault}
    (failed : Predicate.ofText s = .error (.malformed o f)) :
    ∃ left, Token.Reaches 0 s.toList o left := by
  unfold Predicate.ofText Expr.ofText at failed
  cases scanned : Token.scan s with
  | error e =>
    rw [scanned] at failed
    cases failed
    exact Token.scanFrom_blames scanned
  | ok tokens =>
    rw [scanned] at failed
    cases parsed : Expr.ofTokens s.utf8ByteSize tokens with
    | ok e =>
      -- What an expression means blames no place.
      change (Expr.ofTokens s.utf8ByteSize tokens >>= Expr.toPredicate) = _ at failed
      rw [parsed] at failed
      exact absurd failed (Expr.blameless_toPredicate e o f)
    | error e =>
      change (Expr.ofTokens s.utf8ByteSize tokens >>= Expr.toPredicate) = _ at failed
      rw [parsed] at failed
      cases failed
      rcases List.mem_cons.mp (Expr.ofTokens_blames parsed) with rfl | mem
      · exact ⟨[], s.toList, (List.append_nil _).symm, by rw [String.utf8Len_toList, Nat.zero_add]⟩
      · obtain ⟨token, found, rfl⟩ := List.mem_map.mp mem
        obtain ⟨left, -, reaches⟩ := (Token.scan_eq_ok_iff.mp scanned).starts token found
        exact ⟨left, reaches⟩

/-- Walked by bytes, a text is never cut inside a character or beyond its end.  Tokens start at
characters, each after the one before it, and where a text is refused for its form, the boundary of
a character in it is blamed, or its end. -/
theorem parsing_stays_in_text (s : String) :
    Bytewise.scan s = some (Token.scan s) ∧
      (∀ tokens, Token.scan s = .ok tokens →
        (∀ token ∈ tokens, (⟨token.offset⟩ : String.Pos.Raw).IsValid s ∧
          token.offset < s.utf8ByteSize) ∧
        tokens.Pairwise fun a b => a.offset < b.offset) ∧
      ∀ offset fault, Predicate.ofText s = .error (.malformed offset fault) →
        (⟨offset⟩ : String.Pos.Raw).IsValid s ∧ offset ≤ s.utf8ByteSize := by
  refine ⟨Bytewise.scan_eq s, fun tokens scanned => ?_, fun offset fault failed => ?_⟩
  · have cuts := Token.scan_eq_ok_iff.mp scanned
    refine ⟨fun token mem => ?_, cuts.increasing⟩
    obtain ⟨left, filled, reaches⟩ := cuts.starts token mem
    exact ⟨reaches.isValid, (Bytewise.At.lt_iff reaches).mpr filled⟩
  · obtain ⟨left, reaches⟩ := Predicate.ofText_blames failed
    exact ⟨reaches.isValid, reaches.isValid.le_utf8ByteSize⟩

/-- A character of two bytes before a token, and before what is blamed. -/
theorem parsing_stays_in_text_of_wide :
    Bytewise.scan "\"é\" == g" =
        some (.ok [⟨.string "é", 0⟩, ⟨.comparison .eq, 5⟩, ⟨.ident "g", 8⟩]) ∧
      (⟨8⟩ : String.Pos.Raw).IsValid "\"é\" == g" ∧
      Predicate.ofText "f == \"é\" é" = .error (.malformed 10 (.unexpectedCharacter 'é')) ∧
      (⟨10⟩ : String.Pos.Raw).IsValid "f == \"é\" é" := by
  have scanned : Token.scan "\"é\" == g" =
      .ok [⟨.string "é", 0⟩, ⟨.comparison .eq, 5⟩, ⟨.ident "g", 8⟩] := by cbv
  have failed : Predicate.ofText "f == \"é\" é" =
      .error (.malformed 10 (.unexpectedCharacter 'é')) := by cbv
  obtain ⟨walked, starts, -⟩ := parsing_stays_in_text "\"é\" == g"
  obtain ⟨-, -, blames⟩ := parsing_stays_in_text "f == \"é\" é"
  exact ⟨by rw [walked, scanned], ((starts _ scanned).1 ⟨.ident "g", 8⟩ (by simp)).1, failed,
    (blames _ _ failed).1⟩

end DocStore
