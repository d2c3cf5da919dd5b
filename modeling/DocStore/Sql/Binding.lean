import DocStore.Sql.Expr

/-!
# Binding constants

Constants reach an expression as placeholders.  A binding is a translation that takes the index of
its first placeholder and yields, with its result, the parameters it has bound, in the order of
their placeholders.  The next index is told by how many there are, so translations compose without
shared state.
-/

namespace DocStore

/-- A constant bound to a placeholder. -/
structure Parameter where
  index : Nat
  value : Value
  type : SqlType
deriving DecidableEq, Repr

/-- The placeholder as it stands in the text. -/
def Parameter.placeholder (p : Parameter) : String := SqlExpr.placeholderText p.index p.type

/-- A translation that binds constants from a given position on. -/
def Binding (α : Type) := Nat → α × List Parameter

namespace Binding

/-- The index of the placeholder at a position; indexes are 64-bit words. -/
def indexAt (position : Nat) : Nat := position % UInt64.size

def pure {α : Type} (a : α) : Binding α := fun _ => (a, [])

def bind {α β : Type} (x : Binding α) (f : α → Binding β) : Binding β := fun position =>
  let first := x position
  let second := f first.1 (position + first.2.length)
  (second.1, first.2 ++ second.2)

instance : Monad Binding where
  pure := pure
  bind := bind

/-- A constant as a placeholder of a database type. -/
def constant (value : Value) (type : SqlType) : Binding SqlExpr := fun position =>
  (.placeholder (indexAt position) type, [⟨indexAt position, value, type⟩])

/-- The position of the first placeholder; index zero does not exist. -/
def firstPosition (first : Nat) : Nat := max first 1

end Binding

end DocStore
