import DocStore.Proofs.Check.Symmetry
import DocStore.Proofs.Text.Case

/-!
# Operations on two texts

An operation on two operands that are texts always passes its check.  A search that ignores case
finds what an exact search finds, unless the text that is sought has a capital sigma whose form is
up to what stands around it.

* `Scope.textual_of_texts`: what the operations are checked to;
* `contains_ignore_case_of_contains`: the searches inside a text, exact and folded.
-/

namespace DocStore

open DocStore.Text

namespace Scope

variable {scope : Scope} {a b : Operand} {s t : Term}

/-- A leaf is no array. -/
theorem Reads.arrayField_eq {o : Operand} {typed : Option TypedTerm} (read : scope.Reads o typed)
    (op : TextOp) : scope.arrayField op o = .ok none := by
  cases read with
  | @field path field type resolved leaf =>
    cases op with
    | contains =>
      simp only [arrayField, resolved, bind, Except.bind, leaf]
      rfl
    | _ => rfl
  | _ => cases op <;> rfl

theorem textOperand_eq (read : scope.Reads a (some ⟨s, .text⟩)) (op : TextOp) :
    scope.textOperand op a = .ok s := by
  rw [textOperand, read.operand_eq]
  rfl

/-- An operation on two texts always passes its check. -/
theorem textual_of_texts (receiver : scope.Reads a (some ⟨s, .text⟩))
    (argument : scope.Reads b (some ⟨t, .text⟩)) {op : TextOp} (binary : op.arity = 1) :
    scope.textual op a [b] = .ok (match patternOf op with
      | some pattern => .search pattern s t
      | none => .compare .eq (.typed .text) s t) := by
  have arity : ¬ [b].length ≠ op.arity := not_not_intro binary.symm
  rw [textual, if_neg arity, receiver.arrayField_eq]
  simp only [textCheck, bind, Except.bind, textOperand_eq receiver, textOperand_eq argument]
  cases patternOf op <;> rfl

theorem textual_search (receiver : scope.Reads a (some ⟨s, .text⟩))
    (argument : scope.Reads b (some ⟨t, .text⟩)) {op : TextOp} {pattern : Pattern}
    (sought : patternOf op = some pattern) :
    scope.textual op a [b] = .ok (.search pattern s t) := by
  have binary : op.arity = 1 := by
    cases op <;> first | rfl | exact absurd sought nofun
  rw [textual_of_texts receiver argument binary, sought]

end Scope

/-! ## Searches -/

/-- A search is null if and only if one of the texts is. -/
theorem Check.eval_search_eq_none {pattern : Pattern} {s t : Term} {doc : Json} :
    (Check.search pattern s t).eval doc = none ↔ s.text? doc = none ∨ t.text? doc = none := by
  rw [Check.eval]
  cases s.text? doc <;> cases t.text? doc <;> simp

theorem Check.eval_search_eq_true {pattern : Pattern} {s t : Term} {doc : Json} :
    (Check.search pattern s t).eval doc = some true ↔
      ∃ text part, s.text? doc = some text ∧ t.text? doc = some part ∧ pattern.holds text part := by
  rw [Check.eval]
  cases s.text? doc <;> cases t.text? doc <;> simp

/-- On operands that are texts both searches pass their checks, and on every document both are null
or neither is.  Where the exact search is true, the one that ignores case is true too, if the text
that is sought is settled.  No larger class of texts has this property. -/
theorem contains_ignore_case_of_contains {schema : Schema} {captures : Captures} {a b : Operand}
    {s t : Term} (receiver : Scope.operand ⟨schema, captures⟩ a = .ok (some ⟨s, .text⟩))
    (argument : Scope.operand ⟨schema, captures⟩ b = .ok (some ⟨t, .text⟩)) :
    ∃ exact folded,
      Filter.check ⟨.textual .contains a [b], captures⟩ schema = .ok exact ∧
      Filter.check ⟨.textual .containsIgnoreCase a [b], captures⟩ schema = .ok folded ∧
      (∀ doc, exact.eval doc = none ↔ folded.eval doc = none) ∧
      (∀ doc, (∀ part, t.text? doc = some part → Case.isSettled part.toList) →
        exact.eval doc = some true → folded.eval doc = some true) ∧
      ∀ part, Case.isSettled part.toList ↔
        ∀ text, Pattern.anywhere.holds text part → Pattern.anywhereIgnoreCase.holds text part := by
  have text := Scope.reads_of_operand receiver
  have sought := Scope.reads_of_operand argument
  have exact : Scope.textual ⟨schema, captures⟩ .contains a [b] = .ok (.search .anywhere s t) :=
    Scope.textual_search text sought rfl
  have folded : Scope.textual ⟨schema, captures⟩ .containsIgnoreCase a [b] =
      .ok (.search .anywhereIgnoreCase s t) := Scope.textual_search text sought rfl
  refine ⟨_, _, exact, folded, ?_, ?_, isSettled_iff⟩
  · intro doc
    rw [Check.eval_search_eq_none, Check.eval_search_eq_none]
  · intro doc settled found
    obtain ⟨text, part, hs, ht, inside⟩ := Check.eval_search_eq_true.mp found
    exact Check.eval_search_eq_true.mpr
      ⟨text, part, hs, ht, contains_lower (settled part ht) inside⟩

/-- Words in a field. -/
def wordSchema : Schema := (Schema.empty "Entry").declare "word" (.required (.scalar .text))

/-- A search for a text in the word of an entry. -/
def wordFilter (op : TextOp) (part : String) : Filter :=
  ⟨.textual op (.field ⟨["word"]⟩) [.constant (.literal (.text part))], []⟩

/-- A sigma with letters after it is settled. -/
theorem contains_ignore_case_within_word :
    ∃ exact folded,
      (wordFilter .contains "ΣΟΦ").check wordSchema = .ok exact ∧
      (wordFilter .containsIgnoreCase "ΣΟΦ").check wordSchema = .ok folded ∧
      folded.eval (.object [("word", .string "ΦΙΛΟΣΟΦΟΣ")]) = some true := by
  have receiver : Scope.operand ⟨wordSchema, []⟩ (.field ⟨["word"]⟩) =
      .ok (some ⟨.field ⟨["word"]⟩ .text, .text⟩) := rfl
  have argument : Scope.operand ⟨wordSchema, []⟩ (.constant (.literal (.text "ΣΟΦ"))) =
      .ok (some ⟨.constant (.text "ΣΟΦ"), .text⟩) := rfl
  obtain ⟨exact, folded, passed, passed', -, extended, -⟩ :=
    contains_ignore_case_of_contains receiver argument
  refine ⟨exact, folded, passed, passed', extended _ ?_ ?_⟩
  · rintro part ⟨⟩
    decide +kernel
  · cases passed
    decide

/-- A sigma at the end of the text that is sought, and amid a word in the text that is searched:
the exact search is true, and the one that ignores case is not. -/
theorem contains_ignore_case_misses_sigma :
    ∃ exact folded,
      (wordFilter .contains "ΑΣ").check wordSchema = .ok exact ∧
      (wordFilter .containsIgnoreCase "ΑΣ").check wordSchema = .ok folded ∧
      exact.eval (.object [("word", .string "ΑΣΑ")]) = some true ∧
      folded.eval (.object [("word", .string "ΑΣΑ")]) = some false :=
  ⟨_, _, rfl, rfl, by decide +kernel, by decide +kernel⟩

end DocStore
