import DocStore.Store.Records
import Mathlib.Order.Compare

/-!
# Keys and instants in order

Keys are ordered totally by their parts, and so are instants.
-/

namespace DocStore

/-! ## Keys -/

instance : Std.TransOrd Key :=
  inferInstanceAs (Std.TransCmp (compareLex (compareOn Key.partition) (compareOn Key.id)))

instance : Std.LawfulEqOrd Key where
  compare_self {key} := by
    show Key.order key key = .eq
    simp [Key.order, Std.compare_self]
  eq_of_compare {a b} same := by
    obtain ⟨partition, id⟩ := Ordering.then_eq_eq.mp same
    cases a
    cases b
    rw [Key.mk.injEq]
    exact ⟨Std.LawfulEqOrd.eq_of_compare partition, Std.LawfulEqOrd.eq_of_compare id⟩

/-! ## Instants -/

namespace Instant

instance : Std.TransCmp Instant.order :=
  inferInstanceAs (Std.TransCmp (compareLex (compareOn Instant.second) (compareOn Instant.nano)))

theorem le_iff {a b : Instant} : a ≤ b ↔ (a.order b).isLE := by
  show a.order b ≠ .gt ↔ _
  cases a.order b <;> decide

theorem not_le_iff {a b : Instant} : ¬ a ≤ b ↔ b.order a = .lt := by
  have swap : a.order b = (b.order a).swap := Std.OrientedCmp.eq_swap
  rw [le_iff, swap]
  cases b.order a <;> decide

theorem order_beq_lt (a b : Instant) : (a.order b == .lt) = !decide (b ≤ a) := by
  rw [Bool.eq_iff_iff, beq_iff_eq, ← not_le_iff, ← decide_not, decide_eq_true_eq]

theorem le_refl (a : Instant) : a ≤ a := by
  have same : a.order a = .eq := Std.ReflCmp.compare_self
  rw [le_iff, same]
  rfl

theorem le_trans {a b c : Instant} (first : a ≤ b) (second : b ≤ c) : a ≤ c := by
  rw [le_iff] at *
  exact Std.TransCmp.isLE_trans first second

end Instant

end DocStore
