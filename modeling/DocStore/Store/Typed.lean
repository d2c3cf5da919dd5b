import DocStore.Json.Record
import DocStore.Store.Basic

/-!
# Typed access

Reading and writing the documents of a store as values of a type that declares its schema.  A
document that is not of the type is an error of its own, found when the document is read, and so is
a value that is no document, found before it is written.
-/

namespace DocStore

/-- A type of documents. -/
class Document (α : Type) where
  /-- The schema that filters on such documents are checked against. -/
  schema : Schema
  /-- The value that a stored document stands for. -/
  ofJson? : Json → Option α

def decode {α : Type} (read? : Json → Option α) (value : Json) : Except StoreError α :=
  match read? value with
  | some a => .ok a
  | none => .error .undecodable

namespace Store

/-- Writes the document that `document?` makes of a value.  The key is looked at first. -/
def writeWith {α : Type} (document? : α → Option Json) (store : Store) (mode : WriteMode)
    (partition id : String) (value : α) (expires : Option Instant) (now : Instant) : Reply Bool :=
  store.onKey partition id fun _ =>
    match document? value with
    | some document => store.write mode partition id document expires now
    | none => (.error .undecodable, store)

/-- The value under a key, read by `read?`. -/
def getWith {α : Type} (read? : Json → Option α) (store : Store) (partition id : String)
    (now : Instant) : Reply (Option α) :=
  match store.get partition id now with
  | (.error e, store) => (.error e, store)
  | (.ok none, store) => (.ok none, store)
  | (.ok (some value), store) => ((decode read? value).map some, store)

def getAs (α : Type) [Document α] (store : Store) (partition id : String) (now : Instant) :
    Reply (Option α) :=
  store.getWith (Document.ofJson? : Json → Option α) partition id now

/-- The values of a partition that a filter holds of, each read on its own. -/
def listAs (α : Type) [Document α] (store : Store) (partition : String) (filter : Option Filter)
    (page : Page) (now : Instant) : Reply (List (Except StoreError α)) :=
  let (answer, store) := store.list partition (Document.schema α) filter page now
  (answer.map fun values => values.map (decode Document.ofJson?), store)

/-- How many live records of a partition a filter on the type holds of. -/
def countAs (α : Type) [Document α] (store : Store) (partition : String) (filter : Option Filter)
    (now : Instant) : Reply Nat :=
  store.count partition (Document.schema α) filter now

/-- Removes the records of a partition that a filter on the type holds of. -/
def removeAllAs (α : Type) [Document α] (store : Store) (partition : String)
    (filter : Option Filter) : Reply Nat :=
  store.removeAll partition (Document.schema α) filter

end Store

/-- A named quantity, the plainest type of documents. -/
structure Item where
  name : String
  quantity : Int32
deriving DecidableEq, Repr

namespace Item

/-- A quantity: a word of 32 bits with a sign. -/
def quantity? (j : Json) : Option Int32 :=
  (j.intIn? .signed32).map Int32.ofInt

/-- An item from its members or from the array of them. -/
def ofJson? : Json → Option Item
  | .object members => do
    let name ← (Json.required? "name" members).bind Json.string?
    let quantity ← (Json.required? "qty" members).bind quantity?
    return ⟨name, quantity⟩
  | .array [name, quantity] => do
    let name ← name.string?
    let quantity ← quantity? quantity
    return ⟨name, quantity⟩
  | _ => none

def schema : Schema :=
  ((Schema.empty "Item").declare "name" (.required (.scalar .text))).declare "qty"
    (.required (.scalar .int32))

instance : Document Item := ⟨schema, ofJson?⟩

end Item

end DocStore
