import DocStore.Proofs.Check.Derivation
import DocStore.Proofs.Sql.Meaning

/-!
# Conjunctions and disjunctions

A conjunction and a disjunction of any number of operands differ in the value that a single operand
imposes on the whole, and in nothing else.  What matters of the operands is which of them there are:
not their order, not how often they occur, and not how they are grouped.

* `Junction`: the two connectives, with the value that dominates each;
* `Junction.search`: the value found operand by operand, stopping at the first that dominates;
* `Junction.leaves`: the operands that a predicate joins, however it groups them;
* `Scope.evaluate_leaves`: a predicate has the value of its leaves taken together;
* `connectives_kleene`: what follows for reordering, repeating, regrouping, negating and joining.
-/

namespace DocStore

/-! ## Values -/

/-- A connective of any number of operands. -/
inductive Junction where
  | conjunction
  | disjunction
deriving DecidableEq, Repr

namespace Junction

def connective : Junction → Connective
  | conjunction => .and
  | disjunction => .or

/-- The value that one operand imposes on the whole. -/
def dominant : Junction → Bool
  | conjunction => false
  | disjunction => true

def dual : Junction → Junction
  | conjunction => disjunction
  | disjunction => conjunction

/-- The junction of two values, as the database has it. -/
def both : Junction → Option Bool → Option Bool → Option Bool
  | conjunction => sqlAnd
  | disjunction => sqlOr

/-- The junction of any number of values. -/
def value : Junction → List (Option Bool) → Option Bool
  | conjunction => kleeneAll
  | disjunction => kleeneAny

/-- The junction of two predicates; one on the left is extended. -/
def join : Junction → Predicate → Predicate → Predicate
  | conjunction => Predicate.conj
  | disjunction => Predicate.disj

/-- The junction of some values found one by one: the dominant value ends the search, and a null is
remembered until then. -/
def search (j : Junction) : (result : Option Bool) → List (Option Bool) → Option Bool
  | result, [] => result
  | _, none :: rest => search j none rest
  | result, some b :: rest => if b = j.dominant then some b else search j result rest

variable (j : Junction)

theorem value_nil : j.value [] = some !j.dominant := by
  cases j <;> rfl

theorem value_cons (v : Option Bool) (vs : List (Option Bool)) :
    j.value (v :: vs) = j.both v (j.value vs) := by
  cases j with
  | conjunction => exact kleeneAll_cons v vs
  | disjunction => exact kleeneAny_cons v vs

theorem both_assoc (a b c : Option Bool) : j.both (j.both a b) c = j.both a (j.both b c) := by
  cases j with
  | conjunction => exact sqlAnd_assoc a b c
  | disjunction => exact sqlOr_assoc a b c

/-- The value that does not dominate makes no difference. -/
theorem neutral_both (v : Option Bool) : j.both (some !j.dominant) v = v := by
  cases j <;> rcases v with _ | _ | _ <;> rfl

theorem both_neutral (v : Option Bool) : j.both v (some !j.dominant) = v := by
  cases j <;> rcases v with _ | _ | _ <;> rfl

theorem dominant_both (v : Option Bool) : j.both (some j.dominant) v = some j.dominant := by
  cases j <;> rcases v with _ | _ | _ <;> rfl

theorem value_append (vs ws : List (Option Bool)) :
    j.value (vs ++ ws) = j.both (j.value vs) (j.value ws) := by
  induction vs with
  | nil => rw [List.nil_append, value_nil, neutral_both]
  | cons v vs ih => rw [List.cons_append, value_cons, value_cons, ih, both_assoc]

/-- The three values, each with what there has to be for it. -/
theorem value_eq (vs : List (Option Bool)) :
    j.value vs =
      if some j.dominant ∈ vs then some j.dominant
      else if none ∈ vs then none
      else some !j.dominant := by
  cases j <;> simp [value, kleeneAll, kleeneAny, dominant]

theorem value_eq_dominant (vs : List (Option Bool)) :
    j.value vs = some j.dominant ↔ some j.dominant ∈ vs := by
  rw [value_eq]
  split_ifs with imposed <;> simp [imposed]

theorem value_eq_none (vs : List (Option Bool)) :
    j.value vs = none ↔ some j.dominant ∉ vs ∧ none ∈ vs := by
  rw [value_eq]
  split_ifs with imposed null
  · simp [imposed]
  · simp [imposed, null]
  · simp [null]

theorem value_eq_neutral (vs : List (Option Bool)) :
    j.value vs = some (!j.dominant) ↔ ∀ v ∈ vs, v = some !j.dominant := by
  induction vs with
  | nil => simp [value_nil]
  | cons v vs ih =>
    rw [value_cons, List.forall_mem_cons, ← ih]
    cases j <;> rcases v with _ | _ | _ <;> rcases value _ vs with _ | _ | _ <;> decide

/-- Which values there are decides, not where they stand nor how often. -/
theorem value_congr {vs ws : List (Option Bool)} (same : ∀ v, v ∈ vs ↔ v ∈ ws) :
    j.value vs = j.value ws := by
  rw [value_eq, value_eq]
  simp only [same]

/-- What has been found of values none of which dominates is joined to what is yet to come. -/
theorem search_eq_both {result : Option Bool} (undecided : result ≠ some j.dominant)
    (vs : List (Option Bool)) : j.search result vs = j.both result (j.value vs) := by
  induction vs generalizing result with
  | nil => rw [search, value_nil, both_neutral]
  | cons v vs ih =>
    rw [value_cons, ← both_assoc]
    match v with
    | none =>
      have remembered : j.both result none = none := by
        cases j <;> rcases result with _ | _ | _ <;> first | rfl | exact absurd rfl undecided
      rw [search, ih (Option.some_ne_none _).symm, remembered]
    | some b =>
      rw [search]
      by_cases dominates : b = j.dominant
      · have imposed : j.both result (some j.dominant) = some j.dominant := by
          cases j <;> rcases result with _ | _ | _ <;> rfl
        rw [if_pos dominates, dominates, imposed, dominant_both]
      · have neutral : b = !j.dominant := Bool.eq_not_of_ne dominates
        rw [if_neg dominates, ih undecided, neutral, both_neutral]

/-- The search that stops early finds the value of the whole. -/
theorem search_eq (vs : List (Option Bool)) : j.search (some !j.dominant) vs = j.value vs := by
  have undecided : (some !j.dominant) ≠ some j.dominant := by
    cases j <;> decide
  rw [j.search_eq_both undecided, neutral_both]

theorem not_both (a b : Option Bool) :
    (j.both a b).map (!·) = j.dual.both (a.map (!·)) (b.map (!·)) := by
  cases j <;> rcases a with _ | _ | _ <;> rcases b with _ | _ | _ <;> rfl

/-- A negation is passed on to the values, and the connective turned into the other. -/
theorem not_value (vs : List (Option Bool)) :
    (j.value vs).map (!·) = j.dual.value (vs.map (Option.map (!·))) := by
  induction vs with
  | nil => cases j <;> rfl
  | cons v vs ih => rw [value_cons, not_both, ih, List.map_cons, value_cons]

/-! ## Predicates -/

mutual

/-- The operands that a predicate joins by a junction, however it groups them; a predicate that is
no such junction joins itself alone. -/
def leaves (j : Junction) : Predicate → List Predicate
  | .logical connective operands =>
    if connective = j.connective then leavesOfAll j operands else [.logical connective operands]
  | p => [p]

/-- The leaves of some predicates one after another. -/
def leavesOfAll (j : Junction) : List Predicate → List Predicate
  | [] => []
  | p :: rest => leaves j p ++ leavesOfAll j rest

end

theorem leavesOfAll_append (ps qs : List Predicate) :
    j.leavesOfAll (ps ++ qs) = j.leavesOfAll ps ++ j.leavesOfAll qs := by
  induction ps with
  | nil => rfl
  | cons p rest ih =>
    rw [List.cons_append, leavesOfAll, leavesOfAll, ih, List.append_assoc]

theorem leaves_logical (ps : List Predicate) :
    j.leaves (.logical j.connective ps) = j.leavesOfAll ps := by
  rw [leaves, if_pos rfl]

/-- A predicate that is the junction already is extended, and any other is paired. -/
theorem join_cases (p q : Predicate) :
    (∃ ps, p = .logical j.connective ps ∧ j.join p q = .logical j.connective (ps ++ [q])) ∨
      j.join p q = .logical j.connective [p, q] := by
  cases j with
  | conjunction =>
    show (∃ ps, p = .logical .and ps ∧ p.conj q = _) ∨ p.conj q = _
    unfold Predicate.conj
    split
    · exact .inl ⟨_, rfl, rfl⟩
    · exact .inr rfl
  | disjunction =>
    show (∃ ps, p = .logical .or ps ∧ p.disj q = _) ∨ p.disj q = _
    unfold Predicate.disj
    split
    · exact .inl ⟨_, rfl, rfl⟩
    · exact .inr rfl

/-- Either way the leaves of the first come before those of the second. -/
theorem leaves_join (p q : Predicate) : j.leaves (j.join p q) = j.leaves p ++ j.leaves q := by
  rcases j.join_cases p q with ⟨ps, rfl, extended⟩ | paired
  · rw [extended, leaves_logical, leaves_logical, leavesOfAll_append, leavesOfAll, leavesOfAll,
      List.append_nil]
  · rw [paired, leaves_logical, leavesOfAll, leavesOfAll, leavesOfAll, List.append_nil]

end Junction

namespace Scope

variable (scope : Scope) (doc : Json) (j : Junction)

/-- The value of a predicate on a document, or why it is refused. -/
def evaluate (p : Predicate) : Except QueryError (Option Bool) :=
  (scope.check p).map (Check.eval doc)

/-- The junction of the values of some predicates, or why the first of them is refused that is. -/
def evaluateAll (ps : List Predicate) : Except QueryError (Option Bool) :=
  (ps.mapM (scope.evaluate doc)).map j.value

theorem evaluate_neg (p : Predicate) :
    scope.evaluate doc p.neg = (scope.evaluate doc p).map (Option.map (!·)) := by
  rw [evaluate, check_neg, evaluate]
  cases scope.check p <;> rfl

/-- Checking predicates and then evaluating them is evaluating them one after another. -/
theorem checkAll_map_evalAll (ps : List Predicate) :
    (scope.checkAll ps).map (Check.evalAll doc) = ps.mapM (scope.evaluate doc) := by
  induction ps with
  | nil => rfl
  | cons p rest ih =>
    rw [checkAll, List.mapM_cons, ← ih, evaluate]
    cases scope.check p <;> cases scope.checkAll rest <;> rfl

theorem evaluate_logical (ps : List Predicate) :
    scope.evaluate doc (.logical j.connective ps) = scope.evaluateAll doc j ps := by
  rw [evaluateAll, ← checkAll_map_evalAll, evaluate, check]
  cases scope.checkAll ps <;> cases j <;> rfl

theorem evaluateAll_append (ps qs : List Predicate) :
    scope.evaluateAll doc j (ps ++ qs) = (do
      let v ← scope.evaluateAll doc j ps
      let w ← scope.evaluateAll doc j qs
      return j.both v w) := by
  simp only [evaluateAll, List.mapM_append]
  cases ps.mapM (scope.evaluate doc) with
  | error e => rfl
  | ok vs =>
    cases qs.mapM (scope.evaluate doc) with
    | error e => rfl
    | ok ws => exact congrArg Except.ok (j.value_append vs ws)

theorem evaluateAll_singleton (p : Predicate) :
    scope.evaluateAll doc j [p] = scope.evaluate doc p := by
  rw [evaluateAll, List.mapM_cons, List.mapM_nil]
  cases scope.evaluate doc p with
  | error e => rfl
  | ok v =>
    refine congrArg Except.ok ?_
    rw [j.value_cons, j.value_nil, j.both_neutral]

/-- A predicate has the value of its leaves taken together, and is refused as they are. -/
theorem evaluate_leaves (p : Predicate) :
    scope.evaluate doc p = scope.evaluateAll doc j (j.leaves p) := by
  induction p with
  | logical connective ps ih =>
    rw [Junction.leaves]
    split
    · next same =>
      rw [same, evaluate_logical]
      clear same
      induction ps with
      | nil => rfl
      | cons p rest ihRest =>
        obtain ⟨first, others⟩ := List.forall_mem_cons.mp ih
        rw [Junction.leavesOfAll, evaluateAll_append, ← first, ← ihRest others,
          ← evaluateAll_singleton, ← evaluateAll_append]
        rfl
    · exact (evaluateAll_singleton ..).symm
  | _ => exact (evaluateAll_singleton ..).symm

/-- The values of some predicates, if none of them is refused. -/
theorem exists_values {ps : List Predicate}
    (passed : ∀ p ∈ ps, ∃ v, scope.evaluate doc p = .ok v) :
    ∃ vs, ps.mapM (scope.evaluate doc) = .ok vs ∧
      ∀ v, v ∈ vs ↔ ∃ p ∈ ps, scope.evaluate doc p = .ok v := by
  induction ps with
  | nil => exact ⟨[], rfl, by simp⟩
  | cons p rest ih =>
    obtain ⟨⟨v, here⟩, others⟩ := List.forall_mem_cons.mp passed
    obtain ⟨vs, found, mem⟩ := ih others
    refine ⟨v :: vs, ?_, fun w => ?_⟩
    · rw [List.mapM_cons, here, found]
      rfl
    · simp only [List.mem_cons, mem, exists_eq_or_imp, here, Except.ok.injEq]
      exact or_congr_left eq_comm

variable {scope doc j}

theorem evaluate_value {ps : List Predicate}
    (passed : ∀ p ∈ ps, ∃ v, scope.evaluate doc p = .ok v) :
    ∃ v, scope.evaluate doc (.logical j.connective ps) = .ok v ∧
      (v = some j.dominant ↔ ∃ p ∈ ps, scope.evaluate doc p = .ok (some j.dominant)) ∧
      (v = none ↔ (¬ ∃ p ∈ ps, scope.evaluate doc p = .ok (some j.dominant)) ∧
        ∃ p ∈ ps, scope.evaluate doc p = .ok none) ∧
      (v = some (!j.dominant) ↔ ∀ p ∈ ps, scope.evaluate doc p = .ok (some !j.dominant)) := by
  obtain ⟨vs, found, mem⟩ := exists_values scope doc passed
  have value : scope.evaluate doc (.logical j.connective ps) = .ok (j.value vs) := by
    rw [evaluate_logical, evaluateAll, found]
    rfl
  have neutral : (∀ v ∈ vs, v = some !j.dominant) ↔
      ∀ p ∈ ps, scope.evaluate doc p = .ok (some !j.dominant) := by
    constructor
    · intro all p operand
      obtain ⟨v, here⟩ := passed p operand
      rw [here, all v ((mem v).mpr ⟨p, operand, here⟩)]
    · intro all v found
      obtain ⟨p, operand, here⟩ := (mem v).mp found
      exact Except.ok.inj (here.symm.trans (all p operand))
  rw [← mem, ← mem, ← neutral]
  exact ⟨j.value vs, value, j.value_eq_dominant vs, j.value_eq_none vs, j.value_eq_neutral vs⟩

/-- Predicates with the same leaves have the same value. -/
theorem evaluate_arranged {p q : Predicate} (same : ∀ r, r ∈ j.leaves p ↔ r ∈ j.leaves q)
    (passed : ∀ r ∈ j.leaves p, ∃ v, scope.evaluate doc r = .ok v) :
    ∃ v, scope.evaluate doc p = .ok v ∧ scope.evaluate doc q = .ok v := by
  obtain ⟨vs, found, mem⟩ := exists_values scope doc passed
  obtain ⟨ws, found', mem'⟩ :=
    exists_values scope doc fun r leaf => passed r ((same r).mpr leaf)
  have values (v : Option Bool) : v ∈ vs ↔ v ∈ ws := by
    simp only [mem, mem', same]
  refine ⟨j.value vs, ?_, ?_⟩
  · rw [scope.evaluate_leaves doc j p, evaluateAll, found]
    rfl
  · rw [scope.evaluate_leaves doc j q, evaluateAll, found', j.value_congr values]
    rfl

theorem evaluateAll_neg (ps : List Predicate) :
    scope.evaluateAll doc j.dual (ps.map .neg) =
      (scope.evaluateAll doc j ps).map (Option.map (!·)) := by
  have negated : (ps.map .neg).mapM (scope.evaluate doc) =
      (ps.mapM (scope.evaluate doc)).map (List.map (Option.map (!·))) := by
    induction ps with
    | nil => rfl
    | cons p rest ih =>
      rw [List.map_cons, List.mapM_cons, List.mapM_cons, ih, evaluate_neg]
      cases scope.evaluate doc p <;> cases rest.mapM (scope.evaluate doc) <;> rfl
  rw [evaluateAll, evaluateAll, negated]
  cases ps.mapM (scope.evaluate doc) with
  | error e => rfl
  | ok vs => exact congrArg Except.ok (j.not_value vs).symm

/-- What a junction says of the values of its operands. -/
structure Kleene (scope : Scope) (doc : Json) (j : Junction) : Prop where
  /-- A single operand can impose its value, and otherwise a single null can; the operands must all
  have the other value for the whole to have it. -/
  value : ∀ {ps : List Predicate}, (∀ p ∈ ps, ∃ v, scope.evaluate doc p = .ok v) →
    ∃ v, scope.evaluate doc (.logical j.connective ps) = .ok v ∧
      (v = some j.dominant ↔ ∃ p ∈ ps, scope.evaluate doc p = .ok (some j.dominant)) ∧
      (v = none ↔ (¬ ∃ p ∈ ps, scope.evaluate doc p = .ok (some j.dominant)) ∧
        ∃ p ∈ ps, scope.evaluate doc p = .ok none) ∧
      (v = some (!j.dominant) ↔ ∀ p ∈ ps, scope.evaluate doc p = .ok (some !j.dominant))
  /-- The operands can be gone through one by one, up to the first that dominates. -/
  searched : ∀ ps : List Predicate, scope.evaluate doc (.logical j.connective ps) =
    (ps.mapM (scope.evaluate doc)).map (j.search (some !j.dominant))
  /-- Predicates that join the same operands have the same value, in whatever order the operands
  stand, however often each occurs, and however they are grouped. -/
  arranged : ∀ {p q : Predicate}, (∀ r, r ∈ j.leaves p ↔ r ∈ j.leaves q) →
    (∀ r ∈ j.leaves p, ∃ v, scope.evaluate doc r = .ok v) →
    ∃ v, scope.evaluate doc p = .ok v ∧ scope.evaluate doc q = .ok v
  /-- A negation is passed on to the operands, and the connective turned into the other. -/
  negated : ∀ ps : List Predicate, scope.evaluate doc (.neg (.logical j.connective ps)) =
    scope.evaluate doc (.logical j.dual.connective (ps.map .neg))
  /-- Two predicates joined have their values joined, also where the first is extended. -/
  joined : ∀ p q : Predicate, scope.evaluate doc (j.join p q) = (do
    let v ← scope.evaluate doc p
    let w ← scope.evaluate doc q
    return j.both v w)

end Scope

/-- And and Or, each the other's dual, are Kleene's connectives of any number of operands. -/
theorem connectives_kleene (scope : Scope) (doc : Json) (j : Junction) : scope.Kleene doc j where
  value := Scope.evaluate_value
  searched ps := by
    have value : j.search (some !j.dominant) = j.value := funext j.search_eq
    rw [Scope.evaluate_logical, Scope.evaluateAll, value]
  arranged := Scope.evaluate_arranged
  negated ps := by
    rw [Scope.evaluate_neg, Scope.evaluate_logical, Scope.evaluate_logical, Scope.evaluateAll_neg]
  joined p q := by
    rw [scope.evaluate_leaves doc j, Junction.leaves_join, Scope.evaluateAll_append,
      ← Scope.evaluate_leaves, ← Scope.evaluate_leaves]

/-- Orders with three flags. -/
def orderScope : Scope where
  schema := (((Schema.empty "Order").declare "paid" (.required (.scalar .bool))).declare "sent"
    (.required (.scalar .bool))).declare "gift" (.optional (.scalar .bool))
  captures := []

/-- An order that is paid and not sent, and of which it is not known whether it is a gift. -/
def paidOrder : Json := .object [("paid", .bool true), ("sent", .bool false)]

theorem connectives_kleene_of_order :
    let evaluate := orderScope.evaluate paidOrder
    let paid : Predicate := .flag ⟨["paid"]⟩
    let sent : Predicate := .flag ⟨["sent"]⟩
    let gift : Predicate := .flag ⟨["gift"]⟩
    (∀ p ∈ [gift, paid, sent], ∃ v, evaluate p = .ok v) ∧
      evaluate (.logical .and [gift, paid, sent]) = .ok (some false) ∧
      (∀ r, r ∈ Junction.disjunction.leaves (.logical .or [.logical .or [], sent, gift, sent]) ↔
        r ∈ Junction.disjunction.leaves (.logical .or [.logical .or [gift], sent])) ∧
      (∃ v, evaluate (.logical .or [.logical .or [], sent, gift, sent]) = .ok v ∧
        evaluate (.logical .or [.logical .or [gift], sent]) = .ok v) ∧
      evaluate (.neg (.logical .and [gift, paid])) =
        evaluate (.logical .or [gift.neg, paid.neg]) ∧
      evaluate ((gift.disj sent).disj paid) = .ok (some true) := by
  intro evaluate paid sent gift
  have valued : ∀ p ∈ [gift, paid, sent], ∃ v, evaluate p = .ok v := by
    simp only [List.forall_mem_cons]
    exact ⟨⟨none, rfl⟩, ⟨some true, rfl⟩, ⟨some false, rfl⟩, nofun⟩
  have conjunction := connectives_kleene orderScope paidOrder .conjunction
  have disjunction := connectives_kleene orderScope paidOrder .disjunction
  have same : ∀ r,
      r ∈ Junction.disjunction.leaves (.logical .or [.logical .or [], sent, gift, sent]) ↔
        r ∈ Junction.disjunction.leaves (.logical .or [.logical .or [gift], sent]) := by
    intro r
    show r ∈ [sent, gift, sent] ↔ r ∈ [gift, sent]
    simp only [List.mem_cons, List.not_mem_nil, or_false]
    tauto
  obtain ⟨v, found, imposed, -⟩ := conjunction.value valued
  have dominated : v = some false := imposed.mpr ⟨sent, by simp, rfl⟩
  refine ⟨valued, found.trans (congrArg Except.ok dominated), same, ?_, conjunction.negated _, ?_⟩
  · refine disjunction.arranged same fun r leaf => valued r ?_
    have leaf : r ∈ [sent, gift, sent] := leaf
    simp only [List.mem_cons, List.not_mem_nil, or_false] at leaf ⊢
    tauto
  · exact (disjunction.joined (gift.disj sent) paid).trans rfl

end DocStore
