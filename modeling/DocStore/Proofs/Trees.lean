import DocStore.Evaluate
import DocStore.Sql.Compile

/-!
# Induction over trees

Predicates, checks and expressions of the database hold lists of trees of their own kind.  For each
of them, what holds of a tree whenever it holds of all its operands holds of every tree; and what is
done to the operands one after another is what `List.map` does.
-/

namespace DocStore

/-- Induction over predicates. -/
@[induction_eliminator]
theorem Predicate.induction {motive : Predicate → Prop}
    (comparison : ∀ op left right, motive (.comparison op left right))
    (logical : ∀ connective operands, (∀ p ∈ operands, motive p) →
      motive (.logical connective operands))
    (textual : ∀ op receiver args, motive (.textual op receiver args))
    (member : ∀ path value, motive (.member path value))
    (hasValue : ∀ path, motive (.hasValue path))
    (flag : ∀ path, motive (.flag path))
    (constant : ∀ value, motive (.constant value)) (p : Predicate) : motive p :=
  @Predicate.rec motive (fun ps => ∀ p ∈ ps, motive p) comparison logical textual member hasValue
    flag constant (fun _ h => nomatch h)
    (fun _ _ head tail => List.forall_mem_cons.mpr ⟨head, tail⟩) p

/-- Induction over checks. -/
@[induction_eliminator]
theorem Check.induction {motive : Check → Prop}
    (compare : ∀ op comparand left right, motive (.compare op comparand left right))
    (isNull : ∀ term negated, motive (.isNull term negated))
    (search : ∀ pattern receiver argument, motive (.search pattern receiver argument))
    (blank : ∀ term, motive (.blank term))
    (member : ∀ path element comparand value, motive (.member path element comparand value))
    (hasValue : ∀ path, motive (.hasValue path))
    (flag : ∀ path, motive (.flag path))
    (literal : ∀ b, motive (.literal b))
    (all : ∀ operands, (∀ c ∈ operands, motive c) → motive (.all operands))
    (any : ∀ operands, (∀ c ∈ operands, motive c) → motive (.any operands))
    (not : ∀ operand, motive operand → motive (.not operand)) (c : Check) : motive c :=
  @Check.rec motive (fun cs => ∀ c ∈ cs, motive c) compare isNull search blank member hasValue flag
    literal all any not (fun _ h => nomatch h)
    (fun _ _ head tail => List.forall_mem_cons.mpr ⟨head, tail⟩) c

/-- Induction over expressions of the database. -/
@[induction_eliminator]
theorem SqlExpr.induction {motive : SqlExpr → Prop}
    (document : motive .document)
    (member : ∀ base name, motive base → motive (.member base name))
    (memberText : ∀ base name, motive base → motive (.memberText base name))
    (wholeText : ∀ base, motive base → motive (.wholeText base))
    (element : motive .element)
    (placeholder : ∀ index type, motive (.placeholder index type))
    (truth : ∀ b, motive (.truth b))
    (nullCode : motive .nullCode)
    (cast : ∀ operand type, motive operand → motive (.cast operand type))
    (caseOf : ∀ subject arms elseSubject, motive subject →
      motive (.caseOf subject arms elseSubject))
    (lower : ∀ operand, motive operand → motive (.lower operand))
    (upper : ∀ operand, motive operand → motive (.upper operand))
    (replace : ∀ operand what replacement, motive operand →
      motive (.replace operand what replacement))
    (compare : ∀ op left right bytewise, motive left → motive right →
      motive (.compare op left right bytewise))
    (isNull : ∀ operand negated, motive operand → motive (.isNull operand negated))
    (like : ∀ pattern receiver argument, motive receiver → motive argument →
      motive (.like pattern receiver argument))
    (blank : ∀ operand, motive operand → motive (.blank operand))
    (containsElement : ∀ base item, motive base → motive item → motive (.containsElement base item))
    (anyElement : ∀ base elementValue item, motive base → motive elementValue → motive item →
      motive (.anyElement base elementValue item))
    (all : ∀ operands, (∀ e ∈ operands, motive e) → motive (.all operands))
    (any : ∀ operands, (∀ e ∈ operands, motive e) → motive (.any operands))
    (not : ∀ operand, motive operand → motive (.not operand)) (e : SqlExpr) : motive e :=
  @SqlExpr.rec motive (fun es => ∀ e ∈ es, motive e) document member memberText wholeText element
    placeholder truth nullCode cast caseOf lower upper replace compare isNull like blank
    containsElement anyElement all any not (fun _ h => nomatch h)
    (fun _ _ head tail => List.forall_mem_cons.mpr ⟨head, tail⟩) e

/-! ## Operands one after another -/

theorem SqlExpr.piecesOfAll_eq_map (es : List SqlExpr) :
    SqlExpr.piecesOfAll es = es.map SqlExpr.pieces := by
  induction es with
  | nil => rfl
  | cons e rest ih => simp only [SqlExpr.piecesOfAll, ih, List.map_cons]

theorem Check.evalAll_eq_map (doc : Json) (cs : List Check) :
    Check.evalAll doc cs = cs.map (Check.eval doc) := by
  induction cs with
  | nil => rfl
  | cons c rest ih => simp only [Check.evalAll, ih, List.map_cons]

end DocStore
