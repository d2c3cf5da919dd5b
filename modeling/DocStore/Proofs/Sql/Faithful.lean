import DocStore.Proofs.Check.Enumerated
import DocStore.Proofs.Sql.Operand
import DocStore.Proofs.Sql.Rendering
import DocStore.Proofs.Trees

/-!
# Expressions read back

The text of an expression that a filter is translated to is read as an expression that has the value
of the one that was written.

* `SqlExpr.Means`: an expression and what its text is read as, one lemma for each form;
* `SqlExpr.renders_caseOf`, `SqlOperand.caseOf_value?`: case distinctions;
* `Means.all`, `Means.any`: conditions joined by a connective.
-/

namespace DocStore

open DocStore.Text

/-- A text equals a key just if they are the same. -/
theorem Engine.Documented.compares_text {engine : Engine} (documented : engine.Documented)
    (s t : String) : engine.compares .eq false (.ofText s) (.ofText t) = (s == t) := by
  have ordered : (Value.text s).compare? (.text t) = some (compare s t) := rfl
  have equal : engine.compares .eq false (.ofText s) (.ofText t) =
      CompareOp.eq.holds (compare s t) := documented.compares ordered fun _ => .inr rfl
  rw [equal, CompareOp.holds_compare_text rfl, Bool.eq_iff_iff]
  simp

/-! ## Values of what is read -/

theorem sqlAnd_true_left (t : Option Bool) : sqlAnd (some true) t = t := by
  rcases t with _ | _ | _ <;> rfl

theorem sqlOr_false_left (t : Option Bool) : sqlOr (some false) t = t := by
  rcases t with _ | _ | _ <;> rfl

namespace SqlOperand

/-- What an arm yields, as it is read. -/
def ofConst : SqlConst → SqlOperand
  | .text s => .literal s
  | .bigint i => .cast (.integer i) .bigint
  | .truth b => .truth b

/-- A pattern around a text, as it is read. -/
def around (pattern : Pattern) (p : SqlOperand) : SqlOperand :=
  match pattern with
  | .atStart => .concat p (.literal "%")
  | .atEnd => .concat (.literal "%") p
  | .anywhere => .concat (.concat (.literal "%") p) (.literal "%")
  | .anywhereIgnoreCase => .concat (.concat (.literal "%") p) (.literal "%")

/-- The arms of a case distinction, as they are read. -/
def ofArms (arms : List (String × SqlConst)) (rest : SqlArms) : SqlArms :=
  arms.foldr (fun arm rest => .when (.literal arm.1) (ofConst arm.2) rest) rest

/-- Whether an item equals what there is to an element of an array, as it is read.  What is no array
has no elements. -/
def anyEqual (o p item : SqlOperand) : SqlOperand :=
  .caseWhen (.when (.compare .eq false (.typeOf o) (.literal "array"))
    (.anyElement o (.compare .eq false p item)) (.otherwise (.truth false)))

section

attribute [local simp] value?

variable {engine : Engine} {scope : SqlScope}

theorem around_value? (pattern : Pattern) (p : SqlOperand) :
    (around pattern p).value? engine scope =
      ((p.value? engine scope).bind Datum.text?).map fun part =>
        .ofText (String.ofList (pattern.around part.toList)) := by
  cases pattern <;> simp only [around, value?, Pattern.around] <;>
    cases (p.value? engine scope).bind Datum.text? <;>
    simp [Datum.ofText, Datum.text?, String.ext_iff]

theorem ofConst_value? (c : SqlConst) :
    (ofConst c).value? engine scope = some c.datum := by
  cases c <;> rfl

/-- The first arm counts whose key a text equals, and none for null. -/
theorem ofArms_value? (documented : engine.Documented) (arms : List (String × SqlConst))
    (rest : SqlArms) (stored : Option String) :
    (ofArms arms rest).value? engine scope (engine.equates (stored.map .ofText)) =
      match stored.bind fun s => arms.lookup s with
      | some c => some c.datum
      | none => rest.value? engine scope (engine.equates (stored.map .ofText)) := by
  induction arms with
  | nil => cases stored <;> rfl
  | cons arm arms ih =>
    obtain ⟨key, c⟩ := arm
    rw [ofArms, List.foldr_cons, ← ofArms, SqlArms.value?, ih, ofConst_value?]
    cases stored with
    | none => rfl
    | some s =>
      simp only [Option.map_some, Option.bind_some, value?, Engine.equates,
        documented.compares_text, List.lookup_cons]
      cases s == key <;> rfl

/-- A case distinction on a text. -/
theorem caseOf_value? (documented : engine.Documented) {o : SqlOperand}
    {stored : Option String} (value : o.value? engine scope = stored.map .ofText)
    (arms : List (String × SqlConst)) (elseSubject : Bool) :
    (caseOf o (ofArms arms
        (if elseSubject then .otherwise o else .none))).value? engine scope =
      match stored.bind fun s => arms.lookup s with
      | some c => some c.datum
      | none => if elseSubject then stored.map .ofText else none := by
  rw [value?, value, ofArms_value? documented]
  cases elseSubject
  · rfl
  · simp [SqlArms.value?, value]

theorem anyEqual_value? (documented : engine.Documented) (o p item : SqlOperand) :
    (anyEqual o p item).value? engine scope =
      match (o.value? engine scope).bind Datum.json? with
      | some (.array items) => some (.ofTruth (items.any fun j =>
          engine.equates (p.value? engine { scope with element := j.extracted? })
            (item.value? engine { scope with element := j.extracted? })))
      | _ => some (.ofTruth false) := by
  have equates (scope : SqlScope) :
      (((compare .eq false p item).value? engine scope).bind Datum.truth? == some true) =
        engine.equates (p.value? engine scope) (item.value? engine scope) := by
    rw [value?]
    cases p.value? engine scope with
    | none => rfl
    | some l =>
      cases item.value? engine scope with
      | none => rfl
      | some r => cases compared : engine.compares .eq false l r <;> simp [Engine.equates, compared]
  have typed := documented.compares_text
  cases found : (o.value? engine scope).bind Datum.json? with
  | none => simp [anyEqual, SqlArms.value?, found]
  | some j =>
    cases j with
    | array items =>
      have array : engine.compares .eq false (.ofText (Json.array items).typeName)
          (.ofText "array") = true := typed _ _
      simp only [anyEqual, value?, SqlArms.value?, found, Option.map_some, Option.bind_some,
        Option.bind_eq_bind, array]
      exact congrArg (fun any => some (Datum.ofTruth any))
        (congrArg items.any (funext fun j => equates _))
    | _ => simp [anyEqual, SqlArms.value?, found, typed, Json.typeName]

theorem truth?_and (o p : SqlOperand) :
    (and o p).truth? engine scope = sqlAnd (o.truth? engine scope) (p.truth? engine scope) := by
  simp only [truth?, value?]
  cases sqlAnd ((o.value? engine scope).bind Datum.truth?)
    ((p.value? engine scope).bind Datum.truth?) <;> rfl

theorem truth?_or (o p : SqlOperand) :
    (or o p).truth? engine scope = sqlOr (o.truth? engine scope) (p.truth? engine scope) := by
  simp only [truth?, value?]
  cases sqlOr ((o.value? engine scope).bind Datum.truth?)
    ((p.value? engine scope).bind Datum.truth?) <;> rfl

/-- Whether an expression has nothing but a truth value or null for its value. -/
def Judges (engine : Engine) (scope : SqlScope) (o : SqlOperand) : Prop :=
  o.value? engine scope = (o.truth? engine scope).map .ofTruth

theorem judges_and (o p : SqlOperand) : (and o p).Judges engine scope := by
  rw [Judges, truth?_and]
  rfl

theorem judges_or (o p : SqlOperand) : (or o p).Judges engine scope := by
  rw [Judges, truth?_or]
  rfl

/-- A chain of `AND` has the value of the chain of the truth values. -/
theorem foldl_and_value? (os : List SqlOperand) {o : SqlOperand} (judges : o.Judges engine scope) :
    (os.foldl and o).value? engine scope =
      ((os.map (truth? engine scope)).foldl sqlAnd (o.truth? engine scope)).map .ofTruth := by
  induction os generalizing o with
  | nil => exact judges
  | cons p os ih =>
    rw [List.foldl_cons, ih (judges_and o p), truth?_and, List.map_cons, List.foldl_cons]

theorem foldl_or_value? (os : List SqlOperand) {o : SqlOperand} (judges : o.Judges engine scope) :
    (os.foldl or o).value? engine scope =
      ((os.map (truth? engine scope)).foldl sqlOr (o.truth? engine scope)).map .ofTruth := by
  induction os generalizing o with
  | nil => exact judges
  | cons p os ih =>
    rw [List.foldl_cons, ih (judges_or o p), truth?_or, List.map_cons, List.foldl_cons]

end

end SqlOperand

/-! ## Texts of expressions -/

namespace SqlExpr

open Piece SqlOperand

/-- Whether an expression is written so that it is read as another one, needs no parentheses, and
has the value of that in some rows. -/
structure Means (engine : Engine) (rows : Row → Prop) (e : SqlExpr) (o : SqlOperand) : Prop where
  renders : Renders [none] (tokens e.pieces) o
  value : ∀ row, rows row → o.value? engine row.scope = e.value? engine row

/-- Whether an expression has a text or nothing for its value. -/
def IsText (engine : Engine) (e : SqlExpr) : Prop :=
  ∀ row, ∃ s : Option String, e.value? engine row = s.map .ofText

/-- Whether an expression has nothing but a truth value or null for its value in some rows. -/
def Judges (engine : Engine) (rows : Row → Prop) (e : SqlExpr) : Prop :=
  ∀ row, rows row → e.value? engine row = (e.truth? engine row).map .ofTruth

namespace Means

variable {engine : Engine} {rows : Row → Prop} {e f : SqlExpr} {o p : SqlOperand}

theorem ofText (means : Means engine rows e o) : SqlOperand.ofText e.text = some o := by
  rw [SqlOperand.ofText, ofText_text, Option.bind_some, ofTokens_eq_some_iff]
  exact means.renders.whole

theorem truth (means : Means engine rows e o) (row : Row) (allowed : rows row) :
    o.truth? engine row.scope = e.truth? engine row := by
  rw [SqlOperand.truth?, means.value row allowed, SqlExpr.truth?]

theorem mono (means : Means engine rows e o) {fewer : Row → Prop}
    (within : ∀ row, fewer row → rows row) : Means engine fewer e o where
  renders := means.renders
  value row allowed := means.value row (within row allowed)

theorem document : Means engine rows .document (.column none .document) where
  renders := .column (List.mem_singleton_self _) .document
  value _ _ := rfl

theorem element : Means engine rows .element .element where
  renders := .element
  value _ _ := rfl

theorem placeholder (index : Nat) (type : SqlType) :
    Means engine rows (.placeholder index type) (.parameter index (some type)) where
  renders := by
    rw [pieces, tokens_placeholder]
    exact .parameter index type
  value _ _ := rfl

theorem nullCode : Means engine rows .nullCode (.cast .null .bigint) where
  renders := .cast Renders.null.whole .bigint
  value _ _ := rfl

/-! ### Members of JSON values -/

/-- What is taken from a JSON value stands in parentheses, after the value and an operator. -/
theorem accessed {whole : SqlExpr} {operator name : String} (means : Means engine rows e o)
    (written : whole.pieces =
      code "(" :: e.pieces ++ [code operator, Piece.literal name, code ")"])
    (starts : (SqlLexeme.codes operator).head?.any SqlLexeme.isLoose)
    (ends : (SqlLexeme.codes operator).getLast?.all SqlLexeme.isLoose)
    (reads : ∀ {ts}, Renders [none] ts o → RendersOperand [none]
      (ts ++ (SqlToken.ofLexemes (SqlLexeme.codes operator) ++ [SqlToken.literal name])) p) :
    Renders [none] (tokens whole.pieces) p := by
  rw [written, List.cons_append, tokens_code (by decide), tokens_between _ starts ends,
    tokens_literal]
  have closed := (reads means.renders).closed
  rw [List.append_assoc] at closed
  exact closed

theorem member (means : Means engine rows e o) (name : String) :
    Means engine rows (.member e name) (.member o name) where
  renders := means.accessed rfl (by decide) (by decide) fun renders => .member renders name
  value row allowed := by rw [SqlOperand.value?, means.value row allowed, SqlExpr.value?]

theorem memberText (means : Means engine rows e o) (name : String) :
    Means engine rows (.memberText e name) (.memberText o name) where
  renders := means.accessed rfl (by decide) (by decide) fun renders => .memberText renders name
  value row allowed := by rw [SqlOperand.value?, means.value row allowed, SqlExpr.value?]

theorem wholeText (means : Means engine rows e o) :
    Means engine rows (.wholeText e) (.wholeText o) where
  renders := means.accessed rfl (by decide) (by decide) fun renders => .wholeText renders
  value row allowed := by rw [SqlOperand.value?, means.value row allowed, SqlExpr.value?]

theorem members (means : Means engine rows e o) (names : List String) :
    Means engine rows (names.foldl SqlExpr.member e) (names.foldl SqlOperand.member o) := by
  induction names generalizing e o with
  | nil => exact means
  | cons name names ih => exact ih (means.member name)

theorem node (path : FieldPath) : ∃ o, Means engine rows (SqlExpr.node path) o :=
  ⟨_, document.members path.segments⟩

theorem leafText (path : FieldPath) : ∃ o, Means engine rows (SqlExpr.leafText path) o := by
  unfold SqlExpr.leafText
  split
  · exact ⟨_, document.wholeText⟩
  · exact ⟨_, (document.members _).memberText _⟩

/-! ### Functions -/

/-- A function is written before the parentheses around what it is applied to. -/
theorem applied {whole : SqlExpr} {opening : String} (means : Means engine rows e o)
    (written : whole.pieces = code opening :: e.pieces ++ [code ")"])
    (ends : (SqlLexeme.codes opening).getLast?.all SqlLexeme.isLoose)
    (reads : ∀ {ts}, RendersWhole [none] ts o →
      Renders [none]
        (SqlToken.ofLexemes (SqlLexeme.codes opening) ++ (ts ++ [SqlToken.code ")"])) p) :
    Renders [none] (tokens whole.pieces) p := by
  rw [written, List.cons_append, tokens_code ends, tokens_append_code _ (by decide)]
  exact reads means.renders.whole

theorem lower (means : Means engine rows e o) : Means engine rows (.lower e) (.lower o) where
  renders := means.applied rfl (by decide) fun whole => Renders.lower whole
  value row allowed := by rw [SqlOperand.value?, means.value row allowed, SqlExpr.value?]

theorem upper (means : Means engine rows e o) : Means engine rows (.upper e) (.upper o) where
  renders := means.applied rfl (by decide) fun whole => Renders.upper whole
  value row allowed := by rw [SqlOperand.value?, means.value row allowed, SqlExpr.value?]

theorem replace (means : Means engine rows e o) (what replacement : String) :
    Means engine rows (.replace e what replacement)
      (.replace o (.literal what) (.literal replacement)) where
  renders := by
    rw [pieces, List.cons_append, tokens_code (by decide), tokens_between _ (by decide) (by decide),
      tokens_literal, tokens_code (by decide), tokens_literal]
    exact Renders.replace means.renders.whole what replacement
  value row allowed := by
    rw [SqlOperand.value?, means.value row allowed, SqlExpr.value?]
    cases (e.value? engine row).bind Datum.text? <;> rfl

theorem escaped (means : Means engine rows e o) : ∃ p, Means engine rows e.escaped p :=
  ⟨_, ((means.replace _ _).replace _ _).replace _ _⟩

/-- A text is cast as it is read. -/
theorem cast (means : Means engine rows e o) (text : e.IsText engine) (type : SqlType) :
    Means engine rows (.cast e type) (.cast o type) where
  renders := by
    have mark : SqlToken.ofLexemes (SqlLexeme.codes " AS ") = [.code "AS"] := by decide
    have closing : tokens [.code ")"] = [.code ")"] := by decide
    have bounds : tokens [.code " AS ", .code type.name, .code ")"] =
        .code "AS" :: (SqlToken.ofLexemes (SqlLexeme.codes type.name) ++ [.code ")"]) := by
      rw [tokens_code (by decide), ← List.singleton_append, tokens_append_code _ (by decide),
        tokens_singleton, mark, closing]
      rfl
    have apart := tokens_append_code e.pieces (s := " AS ") (by decide) [.code type.name, .code ")"]
    rw [pieces, List.cons_append, tokens_code (by decide), apart, bounds]
    exact Renders.cast means.renders.whole type
  value row allowed := by
    obtain ⟨s, value⟩ := text row
    rw [SqlOperand.value?, means.value row allowed, SqlExpr.value?, value]
    cases s <;> rfl

/-! ### Case distinctions -/

end Means

theorem renders_const (c : SqlConst) : Renders [none] (tokens c.pieces) (ofConst c) := by
  cases c with
  | text s =>
    rw [SqlConst.pieces, tokens_literal]
    exact .literal s
  | bigint i =>
    have written : Renders [none] _ (.integer i) := .integer i
    have renders := Renders.cast written.whole .bigint
    have number := tokens_append_code [.code (intText i.toInt)] (s := " AS bigint)") (by decide) []
    rw [List.singleton_append, tokens_singleton] at number
    rw [SqlConst.pieces, tokens_code (by decide), number]
    exact renders
  | truth b =>
    cases b with
    | false => exact Renders.truth false
    | true => exact Renders.truth true

/-- The arms of a case distinction, up to its end. -/
theorem renders_arms {ts : List SqlToken} {a : SqlArms} (arms : List (String × SqlConst))
    (rest : RendersArms [none] ts a) :
    RendersArms [none] (tokens (armsPieces arms) ++ ts) (ofArms arms a) := by
  have opening : SqlToken.ofLexemes (SqlLexeme.codes "WHEN ") = [.code "WHEN"] := by decide
  have middle : SqlToken.ofLexemes (SqlLexeme.codes " THEN ") = [.code "THEN"] := by decide
  rw [armsPieces, tokens_joined, List.flatMap_map]
  induction arms with
  | nil => exact rest
  | cons arm arms ih =>
    have renders := RendersArms.when (Renders.literal arm.1).whole (renders_const arm.2) ih
    rw [List.flatMap_cons, tokens_code (by decide), tokens_literal, tokens_code (by decide),
      opening, middle]
    simpa [ofArms] using renders

/-- A case distinction with an arm is read as one, whatever its subject is read as. -/
theorem renders_caseOf {e : SqlExpr} {o : SqlOperand}
    (subject : RendersWhole [none] (tokens e.pieces) o) {arms : List (String × SqlConst)}
    (filled : arms ≠ []) (elseSubject : Bool) :
    Renders [none] (tokens (caseOf e arms elseSubject).pieces)
      (.caseOf o (ofArms arms (if elseSubject then .otherwise o else .none))) := by
  have when (rest : SqlArms) : (ofArms arms rest).isFilled := by
    cases arms with
    | nil => exact absurd rfl filled
    | cons => rfl
  rw [pieces]
  simp only [List.append_assoc, List.cons_append]
  rw [tokens_code (by decide), tokens_between _ (by decide) (by decide)]
  cases elseSubject with
  | false =>
    have whole := (Renders.caseOf subject (renders_arms arms .none) (when _)).whole
    have closed := Renders.closed whole
    rw [if_neg Bool.false_ne_true, List.nil_append, tokens_append_code _ (by decide)]
    simp only [List.append_assoc, List.cons_append] at closed
    exact closed
  | true =>
    have whole := (Renders.caseOf subject (renders_arms arms (.otherwise subject)) (when _)).whole
    have closed := Renders.closed whole
    rw [if_pos rfl, List.cons_append, tokens_between _ (by decide) (by decide),
      tokens_append_code _ (by decide)]
    simp only [List.append_assoc, List.cons_append] at closed
    exact closed

namespace Means

variable {engine : Engine} {rows : Row → Prop} {e f : SqlExpr} {o p : SqlOperand}

theorem caseOf (documented : engine.Documented) (means : Means engine rows e o)
    (text : e.IsText engine) {arms : List (String × SqlConst)} (filled : arms ≠ [])
    (elseSubject : Bool) :
    Means engine rows (.caseOf e arms elseSubject)
      (.caseOf o (ofArms arms (if elseSubject then .otherwise o else .none))) where
  renders := renders_caseOf means.renders.whole filled elseSubject
  value row allowed := by
    obtain ⟨s, value⟩ := text row
    have read := means.value row allowed
    rw [value] at read
    rw [caseOf_value? documented read, SqlExpr.value?, value]
    cases s with
    | none => cases elseSubject <;> rfl
    | some s => cases found : arms.lookup s <;> simp [found]

/-! ### Conditions -/

theorem compare (op : CompareOp) (bytewise : Bool) (left : Means engine rows e o)
    (right : Means engine rows f p) :
    Means engine rows (.compare op e f bytewise) (.compare op bytewise o p) where
  renders := by
    have token : SqlToken.ofLexemes (SqlLexeme.codes op.token) = [.code op.token] := by
      cases op <;> decide
    have between (ps : List Piece) : tokens (.code op.token :: .code " " :: ps) =
        .code op.token :: tokens ps := by
      rw [← List.singleton_append, tokens_between _ (by decide) (by decide), tokens_singleton,
        token]
      rfl
    rw [pieces]
    simp only [List.append_assoc, List.cons_append]
    rw [tokens_code (by decide), tokens_between _ (by decide) (by decide), between]
    cases bytewise with
    | false =>
      rw [if_neg Bool.false_ne_true, tokens_append_code _ (by decide)]
      have closed := (RendersConjunct.compare op left.renders.operand
        right.renders.operand).closed
      exact closed
    | true =>
      rw [if_pos rfl, tokens_append_code _ (by decide)]
      have closed := (RendersConjunct.compareBytewise op left.renders.operand
        right.renders.operand).closed
      rw [List.cons_append, List.append_assoc] at closed
      exact closed
  value row allowed := by
    rw [SqlOperand.value?, left.value row allowed, right.value row allowed, SqlExpr.value?]

theorem isNull (means : Means engine rows e o) (negated : Bool) :
    Means engine rows (.isNull e negated) (.isNull o negated) where
  renders := by
    rw [pieces, List.cons_append, tokens_code (by decide)]
    cases negated with
    | false =>
      rw [if_neg Bool.false_ne_true, tokens_append_code _ (by decide)]
      exact (RendersConjunct.isNull means.renders.operand).closed
    | true =>
      rw [if_pos rfl, tokens_append_code _ (by decide)]
      exact (RendersConjunct.isNotNull means.renders.operand).closed
  value row allowed := by rw [SqlOperand.value?, means.value row allowed, SqlExpr.value?]

theorem not (means : Means engine rows e o) : Means engine rows (.not e) (.not o) where
  renders := by
    rw [pieces, List.cons_append, tokens_code (by decide), tokens_append_code _ (by decide)]
    have inner := Renders.closed means.renders.whole
    have closed := Renders.closed (RendersConjunct.not inner).disjunct.whole
    simp only [List.append_assoc, List.cons_append] at closed
    exact closed
  value row allowed := by rw [SqlOperand.value?, means.value row allowed, SqlExpr.value?]

theorem renders_like (receiver : Means engine rows e o) {ps : List Piece} {q : SqlOperand}
    (pattern : RendersOperand [none] (tokens ps) q) (ignoreCase : Bool) :
    Renders [none] (tokens (code "(" :: e.pieces ++
      code (if ignoreCase then " ILIKE (" else " LIKE (") :: ps ++ [code "))"]))
      (.like ignoreCase o q) := by
  have inner := (Renders.closed pattern.conjunct.disjunct.whole).operand
  simp only [List.append_assoc, List.cons_append]
  cases ignoreCase with
  | false =>
    have closed := (RendersConjunct.like receiver.renders.operand inner).closed
    rw [if_neg Bool.false_ne_true, tokens_code (by decide),
      tokens_between _ (by decide) (by decide), tokens_append_code _ (by decide)]
    simp only [List.append_assoc, List.cons_append] at closed
    exact closed
  | true =>
    have closed := (RendersConjunct.ilike receiver.renders.operand inner).closed
    rw [if_pos rfl, tokens_code (by decide), tokens_between _ (by decide) (by decide),
      tokens_append_code _ (by decide)]
    simp only [List.append_assoc, List.cons_append] at closed
    exact closed

/-- A search: the pattern is a text with wildcards at the ends where more may follow. -/
theorem like (pattern : Pattern) (receiver : Means engine rows e o)
    (argument : Means engine rows f p) :
    Means engine rows (.like pattern e f)
      (.like (pattern == .anywhereIgnoreCase) o (around pattern p)) where
  renders := by
    have more : Renders [none] [.literal "%"] (.literal "%") := .literal "%"
    have wildcard : tokens [.literal "%"] = [.literal "%"] := tokens_literal "%" []
    have joint : SqlToken.ofLexemes (SqlLexeme.codes " || ") = [.code "||"] := by decide
    have start : RendersOperand [none] (tokens (f.pieces ++ [code " || ", Piece.literal "%"]))
        (.concat p (.literal "%")) := by
      rw [tokens_between _ (by decide) (by decide), joint, wildcard]
      exact .concat argument.renders more
    have finish : RendersOperand [none] (tokens (Piece.literal "%" :: code " || " :: f.pieces))
        (.concat (.literal "%") p) := by
      rw [tokens_literal, tokens_code (by decide), joint]
      exact .concat more argument.renders
    have both : RendersOperand [none]
        (tokens (Piece.literal "%" :: code " || " ::
          (f.pieces ++ [code " || ", Piece.literal "%"])))
        (.concat (.concat (.literal "%") p) (.literal "%")) := by
      rw [tokens_literal, tokens_code (by decide), tokens_between _ (by decide) (by decide), joint,
        wildcard]
      exact .concatBoth more argument.renders more
    have within := receiver.renders_like both false
    have ignoring := receiver.renders_like both true
    have starts := receiver.renders_like start false
    have finishes := receiver.renders_like finish false
    simp only [if_neg Bool.false_ne_true, if_pos, List.append_assoc, List.cons_append,
      List.nil_append] at within ignoring starts finishes
    rw [pieces]
    cases pattern <;> simp only [likePieces, List.append_assoc, List.cons_append]
    case atStart => exact starts
    case atEnd => exact finishes
    case anywhere => exact within
    case anywhereIgnoreCase => exact ignoring
  value row allowed := by
    simp only [SqlOperand.value?, around_value?, receiver.value row allowed,
      argument.value row allowed, SqlExpr.value?]
    cases (e.value? engine row).bind Datum.text? with
    | none => rfl
    | some s =>
      cases (f.value? engine row).bind Datum.text? with
      | none => rfl
      | some part => cases pattern <;> simp [Engine.like]

theorem blank (means : Means engine rows e o) :
    Means engine rows (.blank e)
      (.matchesPattern (.coalesce o (.literal "")) (.literal blankPattern)) where
  renders := by
    rw [pieces, List.cons_append, tokens_code (by decide), tokens_between _ (by decide) (by decide),
      tokens_literal, tokens_code (by decide), tokens_literal]
    have inner := Renders.coalesce means.renders.whole ""
    have closed := (RendersOperand.matchesPattern inner (.literal blankPattern)).closed
    simp only [List.append_assoc, List.cons_append] at closed
    exact closed
  value row allowed := by
    simp only [SqlOperand.value?, means.value row allowed, SqlExpr.value?]
    cases (e.value? engine row).bind Datum.text? <;> rfl

theorem containsElement (base : Means engine rows e o) (item : Means engine rows f p) :
    Means engine rows (.containsElement e f) (.containsElement o p) where
  renders := by
    rw [pieces]
    simp only [List.append_assoc, List.cons_append]
    rw [tokens_code (by decide), tokens_between _ (by decide) (by decide),
      tokens_append_code _ (by decide)]
    have closed := (RendersOperand.containsElement base.renders item.renders.whole).closed
    simp only [List.append_assoc, List.cons_append] at closed
    exact closed
  value row allowed := by
    simp only [SqlOperand.value?, base.value row allowed, item.value row allowed, SqlExpr.value?]

theorem renders_anyElement {g : SqlExpr} {q : SqlOperand}
    (base : Renders [none] (tokens e.pieces) o) (elementValue : Renders [none] (tokens f.pieces) p)
    (item : Renders [none] (tokens g.pieces) q) :
    Renders [none] (tokens (SqlExpr.anyElement e f g).pieces) (anyEqual o p q) := by
  have key := (RendersConjunct.compare .eq (Renders.typeOf base.whole).operand
    (Renders.literal "array").operand).disjunct.whole
  have condition := (RendersConjunct.compare .eq elementValue.operand item.operand).disjunct.whole
  have yield := Renders.anyElement base.whole condition
  have arms := RendersArms.when key yield (.otherwise (Renders.truth false).whole)
  have closed := Renders.closed (Renders.caseWhen arms).whole
  simp only [List.append_assoc, List.cons_append, List.nil_append] at closed
  have opening : SqlToken.ofLexemes (SqlLexeme.codes "(CASE WHEN jsonb_typeof(") =
      [.code "(", .code "CASE", .code "WHEN", .code "jsonb_typeof", .code "("] := by
    decide +kernel
  have array : SqlToken.ofLexemes (SqlLexeme.codes ") = ") = [.code ")", .code "="] := by decide
  have scan : SqlToken.ofLexemes
      (SqlLexeme.codes " THEN EXISTS (SELECT 1 FROM jsonb_array_elements_text(") =
        [.code "THEN", .code "EXISTS", .code "(", .code "SELECT", .code "1", .code "FROM",
          .code "jsonb_array_elements_text", .code "("] := by decide +kernel
  have aliased : SqlToken.ofLexemes (SqlLexeme.codes ") AS item(elem) WHERE ") =
      [.code ")", .code "AS", .code "item", .code "(", .code "elem", .code ")",
        .code "WHERE"] := by decide +kernel
  have equal : SqlToken.ofLexemes (SqlLexeme.codes " = ") = [.code "="] := by decide
  have ending : tokens [.code ") ELSE FALSE END)"] =
      [.code ")", .code "ELSE", .code "FALSE", .code "END", .code ")"] := by decide +kernel
  rw [pieces]
  simp only [List.append_assoc, List.cons_append]
  rw [tokens_code (by decide), tokens_between _ (by decide) (by decide), tokens_literal,
    tokens_code (by decide), tokens_between _ (by decide) (by decide),
    tokens_between _ (by decide) (by decide), tokens_append_code _ (by decide), opening, array,
    scan, aliased, equal, ending]
  simp only [List.cons_append, List.nil_append]
  exact closed

/-- A scan of an array for a parameter, which is the same for every element. -/
theorem anyElement (documented : engine.Documented) (base : Means engine rows e o)
    (elementValue : Means engine (fun _ => True) f p) (index : Nat) (type : SqlType) :
    Means engine rows (.anyElement e f (.placeholder index type))
      (anyEqual o p (.parameter index (some type))) where
  renders := by
    have item : Means engine rows (.placeholder index type) _ := placeholder index type
    exact renders_anyElement base.renders elementValue.renders item.renders
  value row allowed := by
    rw [anyEqual_value? documented, base.value row allowed, SqlExpr.value?]
    cases (e.value? engine row).bind Datum.json? with
    | none => rfl
    | some j =>
      cases j with
      | array items =>
        refine congrArg (fun any => some (Datum.ofTruth any)) (congrArg items.any (funext ?_))
        intro j
        have read : p.value? engine { row.scope with element := j.extracted? } =
            f.value? engine { row with element := j.extracted? } :=
          elementValue.value { row with element := j.extracted? } trivial
        rw [read]
        rfl
      | _ => rfl

/-! ### Junctions -/

/-- The pieces of an operand in parentheses. -/
def closedPieces (e : SqlExpr) : List Piece := code "(" :: e.pieces ++ [code ")"]

theorem tokens_closedPieces (e : SqlExpr) :
    tokens (closedPieces e) = SqlToken.code "(" :: (tokens e.pieces ++ [SqlToken.code ")"]) := by
  rw [closedPieces, List.cons_append, tokens_code (by decide), tokens_append_code _ (by decide)]
  rfl

theorem map_piecesOfAll (es : List SqlExpr) :
    (piecesOfAll es).map (fun ps => code "(" :: ps ++ [code ")"]) = es.map closedPieces := by
  rw [piecesOfAll_eq_map, List.map_map]
  rfl

theorem closed (means : Means engine rows e o) :
    RendersConjunct [none] (tokens (closedPieces e)) o := by
  rw [tokens_closedPieces]
  exact (Renders.closed means.renders.whole).operand.conjunct

/-- Operands with a connective between them. -/
theorem tokens_joined_closed {joiner mark : String}
    (starts : (SqlLexeme.codes joiner).head?.any SqlLexeme.isLoose)
    (ends : (SqlLexeme.codes joiner).getLast?.all SqlLexeme.isLoose)
    (token : SqlToken.ofLexemes (SqlLexeme.codes joiner) = [.code mark]) (e : SqlExpr)
    (es : List SqlExpr) :
    tokens (joined joiner ((e :: es).map closedPieces)) =
      tokens (closedPieces e) ++ es.flatMap fun e =>
        SqlToken.code mark :: tokens (closedPieces e) := by
  induction es generalizing e with
  | nil => rw [List.flatMap_nil, List.append_nil, List.map_singleton, joined]
  | cons f es ih =>
    rw [List.map_cons, List.map_cons, joined_cons_cons, tokens_between _ starts ends,
      ← List.map_cons, ih, token, List.flatMap_cons]
    rfl

theorem tokens_junction {joiner mark : String}
    (starts : (SqlLexeme.codes joiner).head?.any SqlLexeme.isLoose)
    (ends : (SqlLexeme.codes joiner).getLast?.all SqlLexeme.isLoose)
    (token : SqlToken.ofLexemes (SqlLexeme.codes joiner) = [.code mark]) (e : SqlExpr)
    (es : List SqlExpr) :
    tokens (junctionPieces joiner (piecesOfAll (e :: es))) = SqlToken.code "(" ::
      (tokens (closedPieces e) ++
          (es.flatMap fun e => SqlToken.code mark :: tokens (closedPieces e)) ++
        [SqlToken.code ")"]) := by
  rw [junctionPieces, map_piecesOfAll, List.cons_append, tokens_code (by decide),
    tokens_append_code _ (by decide), tokens_joined_closed starts ends token]
  rfl

/-- Operands in parentheses each, as they are read, if all of them are. -/
theorem operands {es : List SqlExpr} (each : ∀ e ∈ es, ∃ o, Means engine rows e o) :
    ∃ xs : List (List SqlToken × SqlOperand),
      (∀ mark, (xs.flatMap fun x => SqlToken.code mark :: x.1) =
        es.flatMap fun e => .code mark :: tokens (closedPieces e)) ∧
        (∀ x ∈ xs, RendersConjunct [none] x.1 x.2) ∧
        ∀ row, rows row →
          (xs.map (·.2)).map (SqlOperand.truth? engine row.scope) = truths engine row es := by
  induction es with
  | nil => exact ⟨[], fun _ => rfl, List.forall_mem_nil _, fun _ _ => rfl⟩
  | cons e es ih =>
    obtain ⟨⟨o, means⟩, others⟩ := List.forall_mem_cons.mp each
    obtain ⟨xs, written, renders, truths⟩ := ih others
    refine ⟨(tokens (closedPieces e), o) :: xs, fun mark => ?_,
      List.forall_mem_cons.mpr ⟨means.closed, renders⟩, fun row allowed => ?_⟩
    · rw [List.flatMap_cons, List.flatMap_cons, written]
    · rw [List.map_cons, List.map_cons, truths row allowed, SqlOperand.truth?,
        means.value row allowed, SqlExpr.truths]

/-- Conditions joined by `AND`. -/
theorem all {es : List SqlExpr} (each : ∀ e ∈ es, ∃ o, Means engine rows e o)
    (judges : ∀ e ∈ es, e.Judges engine rows) : ∃ o, Means engine rows (.all es) o := by
  cases es with
  | nil => exact ⟨.truth true, Renders.truth true, fun row _ => rfl⟩
  | cons e es =>
    obtain ⟨⟨o, means⟩, others⟩ := List.forall_mem_cons.mp each
    obtain ⟨xs, written, renders, truths⟩ := operands others
    refine ⟨(xs.map (·.2)).foldl .and o, ?_, fun row allowed => ?_⟩
    · rw [pieces, List.isEmpty_cons, if_neg Bool.false_ne_true,
        tokens_junction (by decide) (by decide) (by decide : _ = [SqlToken.code "AND"]), ← written]
      exact Renders.closed (RendersDisjunct.joined means.closed renders).whole
    · have truth := means.truth row allowed
      have first : o.Judges engine row.scope := by
        rw [SqlOperand.Judges, means.value row allowed, truth]
        exact judges e (List.mem_cons_self ..) row allowed
      rw [foldl_and_value? _ first, truths row allowed, SqlExpr.value?, SqlExpr.truths,
        List.foldl_cons, truth, sqlAnd_true_left]
      rfl

/-- Conditions joined by `OR`. -/
theorem any {es : List SqlExpr} (each : ∀ e ∈ es, ∃ o, Means engine rows e o)
    (judges : ∀ e ∈ es, e.Judges engine rows) : ∃ o, Means engine rows (.any es) o := by
  cases es with
  | nil => exact ⟨.truth false, Renders.truth false, fun row _ => rfl⟩
  | cons e es =>
    obtain ⟨⟨o, means⟩, others⟩ := List.forall_mem_cons.mp each
    obtain ⟨xs, written, renders, truths⟩ := operands others
    refine ⟨(xs.map (·.2)).foldl .or o, ?_, fun row allowed => ?_⟩
    · have disjuncts : ∀ x ∈ xs, RendersDisjunct [none] x.1 x.2 :=
        fun x mem => (renders x mem).disjunct
      rw [pieces, List.isEmpty_cons, if_neg Bool.false_ne_true,
        tokens_junction (by decide) (by decide) (by decide : _ = [SqlToken.code "OR"]), ← written]
      exact Renders.closed (RendersWhole.joined means.closed.disjunct disjuncts)
    · have truth := means.truth row allowed
      have first : o.Judges engine row.scope := by
        rw [SqlOperand.Judges, means.value row allowed, truth]
        exact judges e (List.mem_cons_self ..) row allowed
      rw [foldl_or_value? _ first, truths row allowed, SqlExpr.value?, SqlExpr.truths,
        List.foldl_cons, truth, sqlOr_false_left]
      rfl

end Means

end SqlExpr

end DocStore
