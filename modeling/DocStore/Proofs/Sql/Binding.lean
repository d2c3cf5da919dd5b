import DocStore.Proofs.Check.Values
import DocStore.Sql.Compile

/-!
# Bindings one after another

What a binding yields at a position, and which parameters it binds there.

* `Term.toSql_typed`, `Term.toSql_label`, `Term.toSql_code`: operands that are no constants.
-/

namespace DocStore

/-- Where a parameter stands and of which type it is, whatever its value. -/
def Parameter.slot (p : Parameter) : Nat × SqlType := (p.index, p.type)

namespace Binding

variable {α β : Type}

@[simp] theorem pure_apply (a : α) (n : Nat) : (Pure.pure a : Binding α) n = (a, []) := rfl

@[simp] theorem bind_apply (x : Binding α) (f : α → Binding β) (n : Nat) :
    (x >>= f) n = ((f (x n).1 (n + (x n).2.length)).1,
      (x n).2 ++ (f (x n).1 (n + (x n).2.length)).2) := rfl

@[simp] theorem constant_apply (value : Value) (type : SqlType) (n : Nat) :
    constant value type n =
      (.placeholder (indexAt n) type, [⟨indexAt n, value, type⟩]) := rfl

end Binding

namespace Term

variable {term : Term}

theorem variantsOr_eq (term : Term) (variants : List EnumVariant) :
    term.variantsOr variants = term.ownVariants?.getD variants := by
  unfold variantsOr ownVariants?
  split <;> simp_all

theorem toSql_typed (read : ∀ v, term ≠ .constant v) (type : SqlType) (n : Nat) :
    term.toSql (.typed type) n = (SqlExpr.castTo type (term.toText n).1, (term.toText n).2) := by
  cases term with
  | constant v => exact absurd rfl (read v)
  | _ => simp [toSql]

theorem toSql_label (read : ∀ v, term ≠ .constant v) (variants : List EnumVariant) (n : Nat) :
    term.toSql (.label variants) n =
      (SqlExpr.labelOf (term.variantsOr []) (term.toText n).1, (term.toText n).2) := by
  rw [variantsOr_eq]
  cases term with
  | constant v => exact absurd rfl (read v)
  | field path type => cases type <;> simp [toSql, ownVariants?, SqlExpr.labelOf]
  | _ => simp [toSql, ownVariants?, SqlExpr.labelOf]

theorem toSql_code (read : ∀ v, term ≠ .constant v) (variants : List EnumVariant) (n : Nat) :
    term.toSql (.code variants) n =
      (SqlExpr.codeOf (term.variantsOr variants) (term.toText n).1, (term.toText n).2) := by
  rw [variantsOr_eq]
  cases term with
  | constant v => exact absurd rfl (read v)
  | _ => simp [toSql]

end Term

end DocStore
