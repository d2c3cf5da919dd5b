import DocStore.Proofs.Sql.Spacing

/-!
# Parentheses of expressions

Whatever names and labels stand in an expression, its text closes every parenthesis that it opens,
and no other: the templates balance, and the names are inside literals.

* `balanced_pieces`: the pieces of every expression balance.
-/

namespace DocStore

open DocStore.Text

namespace Piece

open SqlLexeme

theorem lexemesOf_append (ps qs : List Piece) :
    lexemesOf (ps ++ qs) = lexemesOf ps ++ lexemesOf qs := List.flatMap_append

/-- Whether pieces close what they open, and nothing else. -/
def Balanced (ps : List Piece) : Prop := ∀ depth, depthAfter depth (lexemesOf ps) = some depth

theorem Balanced.append {ps qs : List Piece} (first : Balanced ps) (second : Balanced qs) :
    Balanced (ps ++ qs) := by
  intro depth
  rw [lexemesOf_append, depthAfter_append, first depth]
  exact second depth

theorem Balanced.parenthesized {ps : List Piece} (h : Balanced ps) :
    Balanced (.code "(" :: ps ++ [Piece.code ")"]) := by
  intro depth
  simp only [lexemesOf_append, lexemesOf_cons, depthAfter_append, h _]
  rfl

theorem balanced_plain {s : String} (plain : ∀ c ∈ s.toList, c ≠ '(' ∧ c ≠ ')') :
    Balanced [.code s] := by
  intro depth
  simpa [lexemesOf, lexemes, codes] using depthAfter_plain plain depth

theorem balanced_joined {separator : String} {pss : List (List Piece)}
    (each : ∀ ps ∈ pss, Balanced ps) (plain : ∀ c ∈ separator.toList, c ≠ '(' ∧ c ≠ ')') :
    Balanced (joined separator pss) := by
  induction pss with
  | nil => exact fun _ => rfl
  | cons ps others ih =>
    cases others with
    | nil => exact each ps (List.mem_cons_self ..)
    | cons qs others =>
      rw [joined_cons_cons]
      refine (each ps (List.mem_cons_self ..)).append ((balanced_plain plain).append ?_)
      exact ih fun p hp => each p (List.mem_cons_of_mem _ hp)

theorem depthAfter_intText (depth : Nat) (i : Int) :
    depthAfter depth (lexemes (.code (intText i))) = some depth := by
  refine depthAfter_plain (fun c hc => ?_) depth
  constructor <;> rintro rfl <;> rcases mem_intText hc with h | h <;> exact absurd h (by decide)

theorem depthAfter_typeName (depth : Nat) (type : SqlType) :
    depthAfter depth (lexemes (.code type.name)) = some depth := by
  refine depthAfter_plain (fun c hc => ?_) depth
  constructor <;> rintro rfl <;> rcases mem_typeName hc with h | h <;> exact absurd h (by decide)

theorem depthAfter_token (depth : Nat) (op : CompareOp) :
    depthAfter depth (lexemes (.code op.token)) = some depth := by
  cases op <;> rfl

theorem balanced_placeholder (index : Nat) (type : SqlType) :
    Balanced [.placeholder index type] := by
  intro depth
  have plain : ∀ c ∈ (SqlExpr.placeholderText index type).toList, c ≠ '(' ∧ c ≠ ')' := by
    intro c hc
    constructor <;> rintro rfl <;> rcases mem_placeholderText hc with h | h | h | h | h <;>
      exact absurd h (by decide)
  simpa [lexemesOf, lexemes, codes] using depthAfter_plain plain depth

theorem balanced_const (c : SqlConst) : Balanced c.pieces := by
  intro depth
  cases c with
  | text s => rfl
  | bigint i =>
    simp only [SqlConst.pieces, lexemesOf_cons, depthAfter_append, depthAfter_intText]
    rfl
  | truth b => cases b <;> rfl

theorem balanced_arms (arms : List (String × SqlConst)) : Balanced (SqlExpr.armsPieces arms) := by
  refine balanced_joined ?_ (by simp)
  intro ps mem
  obtain ⟨arm, _, rfl⟩ := List.mem_map.mp mem
  have before : Balanced [.code "WHEN ", .literal arm.1, .code " THEN "] := fun _ => rfl
  exact before.append (balanced_const arm.2)

theorem balanced_junction {joiner : String} {es : List SqlExpr}
    (each : ∀ e ∈ es, Balanced e.pieces) (plain : ∀ c ∈ joiner.toList, c ≠ '(' ∧ c ≠ ')') :
    Balanced (SqlExpr.junctionPieces joiner (SqlExpr.piecesOfAll es)) := by
  refine (balanced_joined ?_ plain).parenthesized
  intro ps mem
  rw [SqlExpr.piecesOfAll_eq_map, List.map_map] at mem
  obtain ⟨e, he, rfl⟩ := List.mem_map.mp mem
  exact (each e he).parenthesized

/-- Every expression closes what it opens, and nothing else. -/
theorem balanced_pieces (e : SqlExpr) : Balanced e.pieces := by
  induction e with
  | all operands ih =>
    cases operands with
    | nil => exact fun _ => rfl
    | cons => exact balanced_junction ih (by simp)
  | any operands ih =>
    cases operands with
    | nil => exact fun _ => rfl
    | cons => exact balanced_junction ih (by simp)
  | document | element | nullCode => exact fun _ => rfl
  | truth b => exact balanced_const (.truth b)
  | placeholder index type => exact balanced_placeholder index type
  | caseOf subject arms elseSubject ih =>
    intro depth
    simp only [SqlExpr.pieces, lexemesOf_append, lexemesOf_cons, depthAfter_append, ih _,
      balanced_arms arms _]
    cases elseSubject with
    | true => simp only [if_true, lexemesOf_cons, depthAfter_append, ih _]; rfl
    | false => rfl
  | compare op left right bytewise hl hr =>
    intro depth
    simp only [SqlExpr.pieces, lexemesOf_append, lexemesOf_cons, depthAfter_append, hl _, hr _,
      depthAfter_token]
    cases bytewise <;> rfl
  | isNull operand negated ih =>
    intro depth
    simp only [SqlExpr.pieces, lexemesOf_append, lexemesOf_cons, depthAfter_append, ih _]
    cases negated <;> rfl
  | cast operand type ih =>
    intro depth
    simp only [SqlExpr.pieces, lexemesOf_append, lexemesOf_cons, depthAfter_append, ih _,
      depthAfter_typeName]
    rfl
  | like pattern receiver argument hr ha =>
    intro depth
    cases pattern <;>
      simp only [SqlExpr.pieces, SqlExpr.likePieces, lexemesOf_append, lexemesOf_cons,
        depthAfter_append, hr _, ha _] <;>
      rfl
  | containsElement base item hb hi =>
    intro depth
    simp only [SqlExpr.pieces, lexemesOf_append, lexemesOf_cons, depthAfter_append, hb _, hi _]
    rfl
  | anyElement base elementValue item hb he hi =>
    intro depth
    simp only [SqlExpr.pieces, lexemesOf_append, lexemesOf_cons, depthAfter_append, hb _, he _,
      hi _]
    rfl
  | member base name ih | memberText base name ih | wholeText base ih | lower base ih
  | upper base ih | not base ih | replace base what replacement ih | blank base ih =>
    intro depth
    simp only [SqlExpr.pieces, lexemesOf_append, lexemesOf_cons, depthAfter_append, ih _]
    rfl

end Piece

end DocStore
