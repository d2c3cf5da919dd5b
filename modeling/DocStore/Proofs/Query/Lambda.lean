import DocStore.Proofs.Query.Respelling

/-!
# Lambda and bare forms

A text without a parameter names the fields of the document directly.  Put before each name that a
path starts with, a parameter and a dot make it the body of a lambda, which is read as the same
predicate.  The parameter may have the name of anything in the text.

* `rootTokens`: the tokens that paths start with;
* `lambdaForm`: a text as a lambda;
* `Token.Cuts.qualified`: what is put before roots is cut from what was there;
* `lambda_form_read`: a text and its lambda form are read as the same predicate.
-/

namespace DocStore

/-- The tokens that paths start with; `opened` tells whether an operand may start. -/
def rootTokens : Bool → List Token → List Token
  | _, [] => []
  | opened, token :: rest =>
    if token.lexeme.isRoot opened rest then token :: rootTokens token.lexeme.opens rest
    else rootTokens token.lexeme.opens rest

/-- The offsets at which paths start in a text of some tokens. -/
def rootOffsets (opened : Bool) (tokens : List Token) : List Nat :=
  (rootTokens opened tokens).map Token.offset

/-- Characters with a parameter and a dot put before those at some offsets. -/
def qualify (v : List Char) (roots : List Nat) : Nat → List Char → List Char
  | _, [] => []
  | offset, c :: rest =>
    if offset ∈ roots then v ++ '.' :: c :: qualify v roots (offset + c.utf8Size) rest
    else c :: qualify v roots (offset + c.utf8Size) rest

/-- A text as the body of a lambda with a parameter, which is put before each root. -/
def lambdaForm (v s : String) (tokens : List Token) : String :=
  v ++ " => " ++ String.ofList (qualify v.toList (rootOffsets true tokens) 0 s.toList)

/-! ## Roots -/

theorem rootTokens_sublist (opened : Bool) (tokens : List Token) :
    (rootTokens opened tokens).Sublist tokens := by
  induction tokens generalizing opened with
  | nil => exact .slnil
  | cons token rest ih =>
    rw [rootTokens]
    split
    · exact (ih _).cons_cons token
    · exact (ih _).cons token

theorem mem_rootOffsets_cons {opened : Bool} {lexeme : Lexeme} {offset o : Nat}
    {tokens : List Token} : o ∈ rootOffsets opened (⟨lexeme, offset⟩ :: tokens) ↔
      lexeme.isRoot opened tokens ∧ o = offset ∨ o ∈ rootOffsets lexeme.opens tokens := by
  rw [rootOffsets, rootTokens]
  split
  · rename_i root
    simp [root, rootOffsets]
  · rename_i other
    simp [other, rootOffsets]

theorem rootTokens_tail (opened : Bool) (token : Token) (tokens : List Token) :
    rootTokens token.lexeme.opens tokens ⊆ rootTokens opened (token :: tokens) := by
  rw [rootTokens]
  split
  · exact List.subset_cons_self _ _
  · exact List.Subset.refl _

theorem Lexeme.eq_ident_of_isRoot {lexeme : Lexeme} {opened : Bool} {rest : List Token}
    (root : lexeme.isRoot opened rest) : ∃ name, lexeme = .ident name := by
  unfold isRoot at root
  split at root
  · exact ⟨_, rfl⟩
  · cases root

namespace Token

theorem Cuts.le_of_mem_rootOffsets {offset o : Nat} {cs : List Char} {tokens : List Token}
    {opened : Bool} (cuts : Cuts offset cs tokens) (mem : o ∈ rootOffsets opened tokens) :
    offset ≤ o := by
  obtain ⟨root, found, rfl⟩ := List.mem_map.mp mem
  exact cuts.le root ((rootTokens_sublist _ _).mem found)

/-- Where no operand may start, no path starts before the next token. -/
theorem Cuts.not_mem_rootOffsets {offset : Nat} {cs : List Char} {tokens : List Token}
    (cuts : Cuts offset cs tokens) : offset ∉ rootOffsets false tokens := by
  intro mem
  obtain ⟨root, found, same⟩ := List.mem_map.mp mem
  cases tokens with
  | nil => cases found
  | cons token rest =>
    have steady : token.lexeme.isRoot false rest = false := by
      unfold Lexeme.isRoot
      split <;> rfl
    rw [rootTokens, if_neg (by simp [steady])] at found
    have later := List.rel_of_pairwise_cons cuts.increasing ((rootTokens_sublist _ _).mem found)
    have least := cuts.le token List.mem_cons_self
    omega

end Token

/-! ## Texts -/

/-- Characters that no path starts at are left as they are. -/
theorem qualify_append {v : List Char} {roots : List Nat} {offset : Nat} {taken : List Char}
    (after : List Char)
    (inside : ∀ o, offset ≤ o → o < offset + String.utf8Len taken → o ∉ roots) :
    qualify v roots offset (taken ++ after) =
      taken ++ qualify v roots (offset + String.utf8Len taken) after := by
  induction taken generalizing offset with
  | nil => rfl
  | cons c taken ih =>
    have positive := c.utf8Size_pos
    simp only [String.utf8Len_cons] at inside
    have first : offset ∉ roots := inside offset (Nat.le_refl _) (by omega)
    have later (o : Nat) (least : offset + c.utf8Size ≤ o)
        (most : o < offset + c.utf8Size + String.utf8Len taken) : o ∉ roots :=
      inside o (by omega) (by omega)
    rw [List.cons_append, qualify, if_neg first, ih later, String.utf8Len_cons,
      Nat.add_comm (String.utf8Len taken), Nat.add_assoc, List.cons_append]

namespace Token

theorem starts_of_isName {v : String} (named : isName v) :
    ∃ c rest, v.toList = c :: rest ∧ isIdentStart c := by
  unfold isName at named
  split at named
  · rename_i c rest spelled
    exact ⟨c, rest, spelled, ((Bool.and_eq_true _ _).mp named).1⟩
  · cases named

section

variable {v : String} (named : isName v) {roots : List Nat}

include named

/-- What a qualified text starts with: a name, or what the text starts with. -/
theorem head_qualify {offset : Nat} {c : Char} {after rest : List Char}
    (same : qualify v.toList roots offset after = c :: rest) :
    offset ∈ roots ∧ isIdentStart c ∨ offset ∉ roots ∧ ∃ rest', after = c :: rest' ∧
      rest = qualify v.toList roots (offset + c.utf8Size) rest' := by
  cases after with
  | nil => cases same
  | cons d after =>
    rw [qualify] at same
    split at same
    · rename_i root
      obtain ⟨c', rest', spelled, starts⟩ := starts_of_isName named
      rw [spelled] at same
      cases same
      exact .inl ⟨root, starts⟩
    · rename_i other
      cases same
      exact .inr ⟨other, after, rfl, rfl⟩

/-- What is put before roots does not go on with the lexeme before them. -/
theorem follows_qualify {lexeme : Lexeme} {offset : Nat}
    (closed : lexeme.opens = false → offset ∉ roots) (after : List Char) :
    Follows lexeme after (qualify v.toList roots offset after) where
  sign mem := by
    obtain ⟨rest, same⟩ := List.head?_eq_some_iff.mp mem
    rcases head_qualify named same with ⟨-, starts⟩ | ⟨-, rest', rfl, -⟩
    · exact absurd starts (by decide)
    · rfl
  word steady c mem _ := by
    obtain ⟨rest, same⟩ := List.head?_eq_some_iff.mp mem
    rcases head_qualify named same with ⟨root, -⟩ | ⟨-, rest', rfl, -⟩
    · exact absurd root (closed steady)
    · rfl
  point steady d rest same digit := by
    rcases head_qualify named same with ⟨root, -⟩ | ⟨-, rest', rfl, further⟩
    · exact absurd root (closed steady)
    · rcases head_qualify named further.symm with ⟨-, starts⟩ | ⟨-, rest'', rfl, -⟩
      · exact absurd digit (not_isDigit_of_isIdentStart starts)
      · exact ⟨d, rest'', rfl, digit⟩

/-- Where paths start, a parameter and a dot are cut from what is put before them. -/
theorem Cuts.qualified {offset : Nat} {cs : List Char} {tokens : List Token}
    (cuts : Cuts offset cs tokens) {opened : Bool}
    (marked : ∀ o, offset ≤ o → (o ∈ roots ↔ o ∈ rootOffsets opened tokens))
    (plain : ∀ token ∈ rootTokens opened tokens, token.lexeme ≠ .ident "HasValue")
    (offset' : Nat) :
    ∃ tokens', Cuts offset' (qualify v.toList roots offset cs) tokens' ∧
      Respelled (some v) "" "" 0 opened tokens tokens' := by
  induction cuts generalizing opened offset' with
  | done => exact ⟨[], .done, .done⟩
  | @spacing offset c cs tokens blank further ih =>
    have later (o : Nat) (least : offset + 1 ≤ o) := marked o (Nat.le_of_succ_le least)
    obtain ⟨tokens', cuts', respelled⟩ := ih later plain (offset' + 1)
    have other : offset ∉ roots := fun root =>
      Nat.not_succ_le_self offset
        (further.le_of_mem_rootOffsets ((marked offset (Nat.le_refl _)).mp root))
    refine ⟨tokens', ?_, respelled⟩
    rw [qualify, if_neg other, utf8Size_of_isSpacing blank]
    exact .spacing blank cuts'
  | @lexeme offset c cs lexeme next after tokens solid found shorter further ih =>
    have before := lt_of_read found
    obtain ⟨taken, rfl, rfl, again⟩ := read_follows found
    have next_le {o : Nat} (root : o ∈ rootOffsets lexeme.opens tokens) :=
      further.le_of_mem_rootOffsets root
    -- The roots after the lexeme are those of the tokens after it.
    have later (o : Nat) (least : offset < o) :
        o ∈ roots ↔ o ∈ rootOffsets lexeme.opens tokens := by
      rw [marked o (Nat.le_of_lt least), mem_rootOffsets_cons]
      simp [Nat.ne_of_gt least]
    have inside (o : Nat) (least : offset + c.utf8Size ≤ o)
        (most : o < offset + c.utf8Size + String.utf8Len taken) : o ∉ roots := by
      have positive := c.utf8Size_pos
      intro root
      exact Nat.not_le_of_lt most (next_le ((later o (by omega)).mp root))
    have steady : lexeme.opens = false → offset + c.utf8Size + String.utf8Len taken ∉ roots := by
      intro steady root
      have root := (later _ before).mp root
      rw [steady] at root
      exact further.not_mem_rootOffsets root
    have again := again _ (follows_qualify named steady after)
    have here : offset ∈ roots ↔ lexeme.isRoot opened tokens := by
      rw [marked offset (Nat.le_refl _), mem_rootOffsets_cons]
      have other : offset ∉ rootOffsets lexeme.opens tokens :=
        fun root => Nat.not_le_of_lt before (next_le root)
      simp [other]
    have ih := ih (fun o least => later o (Nat.lt_of_lt_of_le before least))
      fun token mem => plain token (rootTokens_tail opened ⟨lexeme, offset⟩ tokens mem)
    rw [qualify, qualify_append after inside]
    by_cases root : lexeme.isRoot opened tokens
    · obtain ⟨name, rfl⟩ := Lexeme.eq_ident_of_isRoot root
      have named' : name ≠ "HasValue" := by
        rintro rfl
        exact plain ⟨.ident "HasValue", offset⟩ (by rw [rootTokens, if_pos root]; simp) rfl
      obtain ⟨tokens', cuts', respelled⟩ :=
        ih (offset' + v.length + 1 + c.utf8Size + String.utf8Len taken)
      have name := Cuts.lexeme solid (again (offset' + v.length + 1)) (by simp) cuts'
      have dot : Cuts (offset' + v.length) ('.' :: c :: _) (⟨.dot, offset' + v.length⟩ :: _) :=
        .lexeme rfl rfl (Nat.le_refl _) name
      have ends : ∀ d ∈ ('.' :: c :: (taken ++ qualify v.toList roots
          (offset + c.utf8Size + String.utf8Len taken) after)).head?, isIdentChar d = false := by
        rintro d ⟨⟩
        decide
      rw [if_pos (here.mpr root)]
      exact ⟨_, (passes_name named ends offset').cuts dot, .qualified rfl root named' respelled⟩
    · obtain ⟨tokens', cuts', respelled⟩ := ih (offset' + c.utf8Size + String.utf8Len taken)
      rw [if_neg (fun mem => root (here.mp mem))]
      exact ⟨_, .lexeme solid (again offset') (by simp) cuts',
          .kept (fun is => absurd is root) respelled⟩

end

end Token

/-- A text without parameter that is read as a predicate is read as the same predicate in its lambda
form, whatever the parameter is named, as long as no path starts with the reserved member. -/
theorem lambda_form_read {s v : String} {tokens : List Token} {p : Predicate}
    (scanned : Token.scan s = .ok tokens) (bare : (Expr.splitHead tokens).1 = none)
    (read : Predicate.ofText s = .ok p) (named : Token.isName v)
    (free : v ∉ ["true", "false", "null", "string"])
    (plain : ∀ token ∈ rootTokens true tokens, token.lexeme ≠ .ident "HasValue") :
    Predicate.ofText (lambdaForm v s tokens) = .ok p := by
  obtain ⟨tokens, parameter, t, scanned', sentence⟩ := Predicate.sentence_of_ofText read
  cases scanned.symm.trans scanned'
  have cuts := Token.scan_eq_ok_iff.mp scanned
  obtain ⟨tokens', cuts', respelled⟩ :=
    cuts.qualified named (fun _ _ => Iff.rfl) plain (v.length + 4)
  have text : (lambdaForm v s tokens).toList = v.toList ++
      (" => ".toList ++ qualify v.toList (rootOffsets true tokens) 0 s.toList) := by
    simp only [lambdaForm, String.toList_append, String.toList_ofList, List.append_assoc]
  have lambda : Token.Cuts 0 (lambdaForm v s tokens).toList
      (⟨.ident v, 0⟩ :: ⟨.arrow, v.length + 1⟩ :: tokens') := by
    have ends : ∀ d ∈ (" => ".toList ++ qualify v.toList (rootOffsets true tokens) 0
        s.toList).head?, Token.isIdentChar d = false := by
      rintro d ⟨⟩
      decide
    have head := Token.passes_name named ends 0
    rw [Nat.zero_add] at head
    rw [text]
    exact head.cuts (.spacing rfl (.lexeme rfl rfl (by simp) (.spacing rfl cuts')))
  cases sentence with
  | lambda => cases bare
  | plain phrase =>
    have constant : v ∉ ["true", "false", "null"] :=
      fun mem => free (List.mem_append_left ["string"] mem)
    have head : v ≠ "string" := by
      rintro rfl
      exact free (by decide)
    obtain ⟨t', sentence', means⟩ := (Sentence.plain phrase).qualified respelled constant head
    obtain ⟨p', read', exchange⟩ :=
      Predicate.ofText_exchanged scanned lambda.scan (.plain phrase) sentence' means read
    rw [read', exchange.eq rfl]

/-- A text in which one name is that of a field, a member and a capture. -/
def crowdedText : String := "f.f == @f && string.Equals(g, \"f\")"

/-- The tokens of the text. -/
def crowdedTokens : List Token :=
  [⟨.ident "f", 0⟩, ⟨.dot, 1⟩, ⟨.ident "f", 2⟩, ⟨.comparison .eq, 4⟩, ⟨.atSign, 7⟩, ⟨.ident "f", 8⟩,
    ⟨.andAnd, 10⟩, ⟨.ident "string", 13⟩, ⟨.dot, 19⟩, ⟨.ident "Equals", 20⟩, ⟨.openParen, 26⟩,
    ⟨.ident "g", 27⟩, ⟨.comma, 28⟩, ⟨.string "f", 30⟩, ⟨.closeParen, 33⟩]

/-- What the text means. -/
def crowdedPredicate : Predicate :=
  .logical .and
    [.comparison .eq (.field ⟨["f", "f"]⟩) (.constant (.captured "f")),
      .textual .equals (.field ⟨["g"]⟩) [.constant (.literal (.text "f"))]]

/-- The parameter may have that name, too. -/
theorem lambda_form_read_of_crowded :
    lambdaForm "f" crowdedText crowdedTokens =
        "f => f.f.f == @f && string.Equals(f.g, \"f\")" ∧
      Predicate.ofText (lambdaForm "f" crowdedText crowdedTokens) = .ok crowdedPredicate := by
  have scanned : Token.scan crowdedText = .ok crowdedTokens := by cbv
  have read : Predicate.ofText crowdedText = .ok crowdedPredicate := by cbv
  exact ⟨by decide, lambda_form_read scanned rfl read (by decide) (by decide) (by decide)⟩

/-- The reserved member is no field of a parameter. -/
example : Predicate.ofText "HasValue == 1" =
      .ok (.comparison .eq (.field ⟨["HasValue"]⟩) (.constant (.literal (.int32 1)))) ∧
    Predicate.ofText "x => x.HasValue == 1" = .error (.unsupported .hasValueIsPredicate) := by
  constructor <;> cbv

end DocStore
