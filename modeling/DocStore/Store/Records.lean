import DocStore.Evaluate
import DocStore.KeyList
import DocStore.Store.Key
import DocStore.Store.Record

/-!
# Records in memory

The records of a store in key order, and what each operation does to them at an instant.  Reading
passes over expired records; deleting does not.

* `Records.live`: the live records of a partition that a condition holds of, in id order, which is
  what every reading of a partition goes by;
* `Records.write`: writing under a key in one of the three modes;
* `Records.deleteMatching`, `Records.deleteExpired`: deleting from a partition, and how many.
-/

namespace DocStore

/-- Which part of the documents to list. -/
structure Page where
  limit : Option UInt64
  offset : Option UInt64
deriving DecidableEq, Repr

namespace Page

def whole : Page := ⟨none, none⟩

/-- The part of a list that lies on a page. -/
def slice {α : Type} (page : Page) (items : List α) : List α :=
  let rest := match page.offset with
    | some offset => items.drop offset.toNat
    | none => items
  match page.limit with
  | some limit => rest.take limit.toNat
  | none => rest

end Page

/-- Records in key order. -/
structure Records where
  entries : List (Key × Record)
deriving Repr

namespace Records

def empty : Records := ⟨[]⟩

/-- How many records there are, expired ones included. -/
def size (records : Records) : Nat := records.entries.length

/-- The record under a key, expired or not. -/
def find? (records : Records) (key : Key) : Option Record := KeyList.find? key records.entries

/-- The live record under a key. -/
def findLive? (records : Records) (key : Key) (now : Instant) : Option Record :=
  (records.find? key).filter fun record => !record.isExpired now

/-- The records with one put under a key. -/
def insert (records : Records) (key : Key) (record : Record) : Records :=
  ⟨KeyList.insert key record records.entries⟩

def keep (records : Records) (test : Key → Record → Bool) : Records :=
  ⟨records.entries.filter fun entry => test entry.1 entry.2⟩

/-- Whether a document meets a condition; without one, every document does. -/
def meets (condition : Option Check) (value : Json) : Bool :=
  match condition with
  | some check => check.holdsOf value
  | none => true

/-- The live records of a partition that meet a condition, in id order. -/
def live (records : Records) (partition : String) (condition : Option Check) (now : Instant) :
    List (Key × Record) :=
  records.entries.filter fun entry =>
    entry.1.partition == partition && !entry.2.isExpired now && meets condition entry.2.value

/-- The documents of a partition on a page. -/
def list (records : Records) (partition : String) (condition : Option Check) (page : Page)
    (now : Instant) : List Json :=
  page.slice ((records.live partition condition now).map fun entry => entry.2.value)

/-- How many live records of a partition meet a condition. -/
def count (records : Records) (partition : String) (condition : Option Check) (now : Instant) :
    Nat :=
  (records.live partition condition now).length

/-- Writes under a key.  Answers whether anything was written. -/
def write (records : Records) (mode : WriteMode) (key : Key) (value : Json)
    (expires : Option Instant) (now : Instant) : Bool × Records :=
  match mode.written (records.find? key) value now expires with
  | some record => (true, records.insert key record)
  | none => (false, records)

/-- Deletes a record, expired or not.  Answers whether there was one. -/
def delete (records : Records) (key : Key) : Bool × Records :=
  ((records.find? key).isSome, records.keep fun k _ => k ≠ key)

/-- Keeps what passes a test.  Answers how many records are gone. -/
def prune (records : Records) (test : Key → Record → Bool) : Nat × Records :=
  let kept := records.keep test
  (records.size - kept.size, kept)

/-- Deletes the records of a partition that meet a condition, expired or not. -/
def deleteMatching (records : Records) (partition : String) (condition : Option Check) :
    Nat × Records :=
  records.prune fun key record => key.partition != partition || !meets condition record.value

/-- Deletes the expired records of a partition. -/
def deleteExpired (records : Records) (partition : String) (now : Instant) : Nat × Records :=
  records.prune fun key record => key.partition != partition || !record.isExpired now

end Records

end DocStore
