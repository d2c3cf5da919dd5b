import DocStore.Proofs.Sql.Binding
import DocStore.Proofs.Trees
import Mathlib.Data.List.Nodup

/-!
# The numbers of placeholders

Parameters are numbered one after another from where a translation starts; the numbers are 64-bit
words, and no two parameters share one unless there are more parameters than words.

* `Check.toSql_numbered`: the parameters of a check;
* `nodup_indexAt`: consecutive positions have different indexes.
-/

namespace DocStore

namespace Binding

variable {α β : Type}

/-- Whether a translation numbers its parameters one after another. -/
def Numbered (x : Binding α) : Prop :=
  ∀ n, (x n).2.map Parameter.index = (List.range' n (x n).2.length).map indexAt

theorem Numbered.pure (a : α) : (Pure.pure a : Binding α).Numbered := fun _ => rfl

theorem Numbered.constant (value : Value) (type : SqlType) : (constant value type).Numbered :=
  fun _ => rfl

theorem Numbered.bind {x : Binding α} {f : α → Binding β} (first : x.Numbered)
    (next : ∀ a, (f a).Numbered) : (x >>= f).Numbered := by
  intro n
  rw [bind_apply, List.map_append, List.length_append, first n, next (x n).1 _,
    ← List.range'_append_1, List.map_append]

/-- As many consecutive positions as there are words have different indexes. -/
theorem nodup_indexAt (n : Nat) {length : Nat} (fits : length ≤ UInt64.size) :
    ((List.range' n length).map indexAt).Nodup := by
  refine List.Nodup.map_on ?_ List.nodup_range'
  intro i hi j hj same
  rw [List.mem_range'_1] at hi hj
  simp only [indexAt, UInt64.size] at same fits
  omega

end Binding

open Binding

namespace Term

theorem toText_numbered (term : Term) : term.toText.Numbered := by
  induction term with
  | field | node | label => exact .pure _
  | lower inner ih => exact ih.bind fun _ => .pure _
  | upper inner ih => exact ih.bind fun _ => .pure _
  | constant v => exact .constant _ _

theorem toSql_numbered (comparand : Comparand) (term : Term) : (term.toSql comparand).Numbered := by
  by_cases constant : ∃ v, term = .constant v
  · obtain ⟨v, rfl⟩ := constant
    exact .constant _ _
  · have read : ∀ v, term ≠ .constant v := fun v h => constant ⟨v, h⟩
    intro n
    have text := term.toText_numbered n
    cases comparand with
    | typed type => rwa [toSql_typed read]
    | label variants => rwa [toSql_label read]
    | code variants => rwa [toSql_code read]

theorem toNatural_numbered (term : Term) : term.toNatural.Numbered := by
  cases term with
  | constant v => exact .constant _ _
  | _ => exact toText_numbered _

end Term

namespace Check

theorem toSqlAll_numbered {cs : List Check} (each : ∀ c ∈ cs, c.toSql.Numbered) :
    (toSqlAll cs).Numbered := by
  induction cs with
  | nil => exact .pure _
  | cons c rest ih =>
    obtain ⟨first, others⟩ := List.forall_mem_cons.mp each
    exact first.bind fun _ => (ih others).bind fun _ => .pure _

/-- The parameters of a check are numbered one after another. -/
theorem toSql_numbered (c : Check) : c.toSql.Numbered := by
  induction c with
  | compare op comparand left right =>
    exact (left.toSql_numbered comparand).bind fun _ =>
      (right.toSql_numbered comparand).bind fun _ => .pure _
  | isNull term negated => exact term.toNatural_numbered.bind fun _ => .pure _
  | search pattern receiver argument =>
    exact receiver.toText_numbered.bind fun _ => argument.toText_numbered.bind fun _ => .pure _
  | blank term => exact term.toText_numbered.bind fun _ => .pure _
  | member path element comparand value =>
    refine (Numbered.constant _ _).bind fun _ => ?_
    split <;> exact .pure _
  | hasValue | flag => exact .pure _
  | literal b => exact .constant _ _
  | all operands ih => exact (toSqlAll_numbered ih).bind fun _ => .pure _
  | any operands ih => exact (toSqlAll_numbered ih).bind fun _ => .pure _
  | not operand ih => exact ih.bind fun _ => .pure _

end Check

end DocStore
