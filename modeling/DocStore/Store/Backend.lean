import DocStore.Sql.Compile
import DocStore.Store.Basic
import DocStore.Store.Table

/-!
# Filters in two layers

The store translates a filter for a database before it hands it to what holds the records.  Records
in memory have no use for the translation: they check the filter again, and go through the keys of a
partition, which stand together.

* `PreparedFilter`: a filter with its translation;
* `Records.range`, `Records.matching`, `Records.scan`: the records of a partition by their keys;
* `Store.translate`: a filter translated and counted;
* `Store.items`, `Store.countItems`, `Store.removeItems`: listing, counting and removing by way of a
  translated filter.
-/

namespace DocStore

/-- A filter with its schema and what it is translated to. -/
structure PreparedFilter where
  schema : Schema
  filter : Filter
  compiled : CompiledQuery
deriving Repr

/-- The condition of a prepared filter on documents in memory, which is found by another check. -/
def PreparedFilter.lowered (prepared : Option PreparedFilter) : Except StoreError (Option Check) :=
  match prepared with
  | none => .ok none
  | some prepared =>
    match prepared.filter.check prepared.schema with
    | .ok check => .ok (some check)
    | .error cause => .error (.query cause)

namespace Records

/-- The records of a partition: from the least key that it could have on, while it lasts. -/
def range (records : Records) (partition : String) : List (Key × Record) :=
  (records.entries.dropWhile fun entry => compare entry.1 ⟨partition, ""⟩ == .lt).takeWhile
    fun entry => entry.1.partition == partition

/-- The live records of a partition that a prepared filter holds of, in id order. -/
def matching (records : Records) (partition : String) (prepared : Option PreparedFilter)
    (now : Instant) : Except StoreError (List (Key × Record)) :=
  (PreparedFilter.lowered prepared).map fun condition =>
    (records.range partition).filter fun entry =>
      !entry.2.isExpired now && meets condition entry.2.value

/-- The documents of a partition on a page, or one error in their place. -/
def scan (records : Records) (partition : String) (prepared : Option PreparedFilter) (page : Page)
    (now : Instant) : List (Except StoreError Json) :=
  match records.matching partition prepared now with
  | .ok rows => (page.slice rows).map fun entry => .ok entry.2.value
  | .error e => [.error e]

/-- Deletes the records of a partition that a prepared filter holds of, expired or not. -/
def deletePrepared (records : Records) (partition : String) (prepared : Option PreparedFilter) :
    Except StoreError (Nat × Records) :=
  (PreparedFilter.lowered prepared).map fun condition =>
    records.deleteMatching partition condition

end Records

namespace Store

/-- A filter translated for a database, and counted. -/
def translate (store : Store) (schema : Schema) (filter : Option Filter) :
    Reply (Option PreparedFilter) :=
  match filter with
  | none => (.ok none, store)
  | some filter =>
    match filter.compileFrom schema filterFirstIndex with
    | .ok compiled => (.ok (some ⟨schema, filter, compiled⟩), store.counted .compiled)
    | .error cause => (.error (.query cause), store.counted .rejected)

/-- What an operation on the documents of a partition does with a translated filter. -/
def onTranslated {α : Type} (store : Store) (partition : String) (schema : Schema)
    (filter : Option Filter) (act : Option PreparedFilter → Store → Reply α) : Reply α :=
  match Key.checkPart .partition partition with
  | .error e => (.error e, store)
  | .ok () =>
    match store.translate schema filter with
    | (.error e, store) => (.error e, store)
    | (.ok prepared, store) => act prepared store

/-- The live documents of a partition that a filter holds of, each an item of its own. -/
def items (store : Store) (partition : String) (schema : Schema) (filter : Option Filter)
    (page : Page) (now : Instant) : Reply (List (Except StoreError Json)) :=
  store.onTranslated partition schema filter fun prepared store =>
    (.ok (store.records.scan partition prepared page now), store.counted .read)

/-- How many live records of a partition a filter holds of. -/
def countItems (store : Store) (partition : String) (schema : Schema) (filter : Option Filter)
    (now : Instant) : Reply Nat :=
  store.onTranslated partition schema filter fun prepared store =>
    ((store.records.matching partition prepared now).map List.length, store.counted .read)

/-- Removes the records of a partition that a filter holds of, expired or not. -/
def removeItems (store : Store) (partition : String) (schema : Schema) (filter : Option Filter) :
    Reply Nat :=
  store.onTranslated partition schema filter fun prepared store =>
    match store.records.deletePrepared partition prepared with
    | .error e => (.error e, store)
    | .ok (n, records) => (.ok n, (store.withRecords records).counted (.removed (.ofNat n)))

end Store

end DocStore
