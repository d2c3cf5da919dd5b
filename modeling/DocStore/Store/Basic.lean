import DocStore.Store.Metrics
import DocStore.Store.Records

/-!
# The store

Documents under keys, with counters.  An operation first looks at its key, then at its filter, which
is counted as compiled or rejected, then counts itself if it reads, and only then touches the
records.  Every operation takes the instant at which it happens, and answers together with the store
that it leaves; after an error the records are as they were.

* `Store.write`, `Store.remove`, `Store.removeAll`, `Store.sweep`: writing and deleting;
* `Store.get`, `Store.contains`, `Store.count`, `Store.list`: reading;
* `Store.step`, `Store.run`: the same as one function on operations, and runs of them.
-/

namespace DocStore

/-- A store of documents. -/
structure Store where
  records : Records
  metrics : Metrics
deriving Repr

namespace Store

/-- What an operation answers, and the store that it leaves. -/
abbrev Reply (α : Type) := Except StoreError α × Store

/-- A store without records that has done nothing. -/
def empty : Store := ⟨.empty, .zero⟩

/-- The store after something has been counted. -/
def counted (store : Store) (event : Count) : Store :=
  { store with metrics := store.metrics.add event }

def withRecords (store : Store) (records : Records) : Store := { store with records }

/-- A filter checked against a schema, and counted. -/
def prepare (store : Store) (schema : Schema) (filter : Option Filter) : Reply (Option Check) :=
  match filter with
  | none => (.ok none, store)
  | some filter =>
    match filter.check schema with
    | .ok check => (.ok (some check), store.counted .compiled)
    | .error cause => (.error (.query cause), store.counted .rejected)

/-- What an operation on a key does: nothing if the key is invalid. -/
def onKey {α : Type} (store : Store) (partition id : String) (act : Key → Reply α) : Reply α :=
  match Key.ofParts partition id with
  | .error e => (.error e, store)
  | .ok key => act key

/-- What an operation on the documents of a partition does: nothing if the partition or the filter
is invalid, except that the filter is counted. -/
def onPartition {α : Type} (store : Store) (partition : String) (schema : Schema)
    (filter : Option Filter) (act : Option Check → Store → Reply α) : Reply α :=
  match Key.checkPart .partition partition with
  | .error e => (.error e, store)
  | .ok () =>
    match store.prepare schema filter with
    | (.error e, store) => (.error e, store)
    | (.ok condition, store) => act condition store

/-! ## Writing and deleting -/

/-- Writes a document.  Answers whether it was written. -/
def write (store : Store) (mode : WriteMode) (partition id : String) (value : Json)
    (expires : Option Instant) (now : Instant) : Reply Bool :=
  store.onKey partition id fun key =>
    match store.records.write mode key value expires now with
    | (true, records) => (.ok true, (store.withRecords records).counted .written)
    | (false, _) => (.ok false, store.counted .conflict)

/-- Removes a record, expired or not.  Answers whether there was one. -/
def remove (store : Store) (partition id : String) : Reply Bool :=
  store.onKey partition id fun key =>
    match store.records.delete key with
    | (true, records) => (.ok true, (store.withRecords records).counted (.removed 1))
    | (false, _) => (.ok false, store)

/-- Removes the records of a partition that a filter holds of, expired or not; all of them without a
filter.  Answers how many there were. -/
def removeAll (store : Store) (partition : String) (schema : Schema) (filter : Option Filter) :
    Reply Nat :=
  store.onPartition partition schema filter fun condition store =>
    let (n, records) := store.records.deleteMatching partition condition
    (.ok n, (store.withRecords records).counted (.removed (.ofNat n)))

/-- Removes the expired records of a partition.  Answers how many there were. -/
def sweep (store : Store) (partition : String) (now : Instant) : Reply Nat :=
  match Key.checkPart .partition partition with
  | .error e => (.error e, store)
  | .ok () =>
    let (n, records) := store.records.deleteExpired partition now
    (.ok n, (store.withRecords records).counted (.expired (.ofNat n)))

/-! ## Reading -/

/-- The document under a key, if it is live. -/
def get (store : Store) (partition id : String) (now : Instant) : Reply (Option Json) :=
  store.onKey partition id fun key =>
    (.ok ((store.records.findLive? key now).map (·.value)), store.counted .read)

/-- Whether there is a live record under a key. -/
def contains (store : Store) (partition id : String) (now : Instant) : Reply Bool :=
  store.onKey partition id fun key =>
    (.ok (store.records.findLive? key now).isSome, store.counted .read)

/-- How many live records of a partition a filter holds of. -/
def count (store : Store) (partition : String) (schema : Schema) (filter : Option Filter)
    (now : Instant) : Reply Nat :=
  store.onPartition partition schema filter fun condition store =>
    (.ok (store.records.count partition condition now), store.counted .read)

/-- The live documents of a partition that a filter holds of, in id order, on a page. -/
def list (store : Store) (partition : String) (schema : Schema) (filter : Option Filter)
    (page : Page) (now : Instant) : Reply (List Json) :=
  store.onPartition partition schema filter fun condition store =>
    (.ok (store.records.list partition condition page now), store.counted .read)

/-! ## Operations as values -/

/-- An operation on a store. -/
inductive Operation where
  | write (mode : WriteMode) (partition id : String) (value : Json) (expires : Option Instant)
  | remove (partition id : String)
  | removeAll (partition : String) (schema : Schema) (filter : Option Filter)
  | sweep (partition : String)
  | get (partition id : String)
  | contains (partition id : String)
  | count (partition : String) (schema : Schema) (filter : Option Filter)
  | list (partition : String) (schema : Schema) (filter : Option Filter) (page : Page)
deriving Repr

/-- What an operation answers. -/
inductive Answer where
  | truth (value : Bool)
  | number (value : Nat)
  | document (value : Option Json)
  | documents (values : List Json)
deriving Repr

/-- A reply with its answer as a value among all answers. -/
def Reply.as {α : Type} (wrap : α → Answer) (reply : Reply α) : Reply Answer :=
  (reply.1.map wrap, reply.2)

/-- What an operation does at an instant. -/
def step (store : Store) (now : Instant) : Operation → Reply Answer
  | .write mode partition id value expires =>
    Reply.as .truth (store.write mode partition id value expires now)
  | .remove partition id => Reply.as .truth (store.remove partition id)
  | .removeAll partition schema filter =>
    Reply.as .number (store.removeAll partition schema filter)
  | .sweep partition => Reply.as .number (store.sweep partition now)
  | .get partition id => Reply.as .document (store.get partition id now)
  | .contains partition id => Reply.as .truth (store.contains partition id now)
  | .count partition schema filter => Reply.as .number (store.count partition schema filter now)
  | .list partition schema filter page =>
    Reply.as .documents (store.list partition schema filter page now)

/-- A run of operations, each at its instant: what each answers, and the store that is left. -/
def run (store : Store) : List (Instant × Operation) → List (Except StoreError Answer) × Store
  | [] => ([], store)
  | (now, operation) :: rest =>
    let (answer, store) := store.step now operation
    let (answers, store) := run store rest
    (answer :: answers, store)

end Store

end DocStore
