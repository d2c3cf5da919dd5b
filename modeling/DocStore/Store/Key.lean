import DocStore.Store.Error

/-!
# Keys

A record is stored under a partition and an id, each of 1 to 255 characters.  Keys are ordered by
partition and then by id, code point by code point, so that the keys of one partition stand
together.
-/

namespace DocStore

/-- The place of a record. -/
structure Key where
  partition : String
  id : String
deriving DecidableEq, Repr

namespace Key

/-- The order of keys. -/
def order (a b : Key) : Ordering := (compare a.partition b.partition).then (compare a.id b.id)

instance : Ord Key := ⟨order⟩

def text (key : Key) : String := key.partition ++ "/" ++ key.id

/-- A text as a part of a key. -/
def checkPart (part : KeyPart) (s : String) : Except StoreError Unit :=
  if s.length = 0 ∨ maxKeyLength < s.length then .error (.invalidKey part s.length) else .ok ()

/-- The key of a partition and an id, if they can be a key's parts; the partition is looked at
first. -/
def ofParts (partition id : String) : Except StoreError Key :=
  match checkPart .partition partition with
  | .error e => .error e
  | .ok () =>
    match checkPart .id id with
    | .error e => .error e
    | .ok () => .ok ⟨partition, id⟩

end Key

end DocStore
