import DocStore.Proofs.KeyList
import DocStore.Proofs.Store.Order
import DocStore.Store.Basic

/-!
# What operations do to the records

An operation looks at its key, its partition and its filter before it touches the records.  What is
left is an access to them: the key is a key, and the filter is a check.

* `Store.Operation.access`: the access of an operation, or why it is refused;
* `Records.perform`: what an access does to the records;
* `Store.step_perform`: a step performs the access of its operation, and nothing if it is refused;
* `Records.Ordered.perform`: accesses keep records in key order.
-/

namespace DocStore

open Store (Answer Operation)

/-- Whether the parts of a key can be a key's parts. -/
def Key.Valid (key : Key) : Prop := Key.ofParts key.partition key.id = .ok key

theorem Key.checkPart_eq_ok (part : KeyPart) {s : String} :
    checkPart part s = .ok () ↔ 1 ≤ s.length ∧ s.length ≤ maxKeyLength := by
  unfold checkPart
  by_cases refused : s.length = 0 ∨ maxKeyLength < s.length
  · rw [if_pos refused]
    constructor
    · intro passed
      cases passed
    · intro bounds
      omega
  · rw [if_neg refused]
    constructor
    · intro _
      omega
    · intro _
      rfl

/-- A key has parts of at least one character and no more than the table allows. -/
theorem Key.valid_iff {key : Key} :
    key.Valid ↔ (1 ≤ key.partition.length ∧ key.partition.length ≤ maxKeyLength) ∧
      (1 ≤ key.id.length ∧ key.id.length ≤ maxKeyLength) := by
  rw [← checkPart_eq_ok .partition, ← checkPart_eq_ok .id]
  unfold Valid ofParts
  cases checkPart .partition key.partition <;> cases checkPart .id key.id <;> simp

/-- What an operation does with the records, its key and its filter having been looked at. -/
inductive Access where
  | write (mode : WriteMode) (key : Key) (value : Json) (expires : Option Instant)
  | delete (key : Key)
  | deleteMatching (partition : String) (condition : Option Check)
  | deleteExpired (partition : String)
  | get (key : Key)
  | contains (key : Key)
  | count (partition : String) (condition : Option Check)
  | list (partition : String) (condition : Option Check) (page : Page)
deriving Repr

/-- What the records answer to an access at an instant, and the records that it leaves. -/
def Records.perform (records : Records) (now : Instant) : Access → Answer × Records
  | .write mode key value expires =>
    let (written, records) := records.write mode key value expires now
    (.truth written, records)
  | .delete key =>
    let (found, records) := records.delete key
    (.truth found, records)
  | .deleteMatching partition condition =>
    let (n, records) := records.deleteMatching partition condition
    (.number n, records)
  | .deleteExpired partition =>
    let (n, records) := records.deleteExpired partition now
    (.number n, records)
  | .get key => (.document ((records.findLive? key now).map (·.value)), records)
  | .contains key => (.truth (records.findLive? key now).isSome, records)
  | .count partition condition => (.number (records.count partition condition now), records)
  | .list partition condition page =>
    (.documents (records.list partition condition page now), records)

/-- A filter as a condition on documents, if the schema allows it. -/
def conditionOf (schema : Schema) : Option Filter → Except StoreError (Option Check)
  | none => .ok none
  | some filter =>
    match filter.check schema with
    | .ok check => .ok (some check)
    | .error cause => .error (.query cause)

/-- The condition of a filter on the documents of a partition; the partition is looked at first. -/
def partitionCondition (partition : String) (schema : Schema) (filter : Option Filter) :
    Except StoreError (Option Check) :=
  match Key.checkPart .partition partition with
  | .error e => .error e
  | .ok () => conditionOf schema filter

/-- The access of an operation, or why it is refused. -/
def Store.Operation.access : Operation → Except StoreError Access
  | .write mode partition id value expires =>
    (Key.ofParts partition id).map fun key => .write mode key value expires
  | .remove partition id => (Key.ofParts partition id).map .delete
  | .removeAll partition schema filter =>
    (partitionCondition partition schema filter).map (.deleteMatching partition)
  | .sweep partition =>
    (Key.checkPart .partition partition).map fun _ => .deleteExpired partition
  | .get partition id => (Key.ofParts partition id).map .get
  | .contains partition id => (Key.ofParts partition id).map .contains
  | .count partition schema filter =>
    (partitionCondition partition schema filter).map (.count partition)
  | .list partition schema filter page =>
    (partitionCondition partition schema filter).map fun condition =>
      .list partition condition page

theorem Records.keep_others_of_absent {records : Records} {key : Key}
    (absent : records.find? key = none) : (records.keep fun k _ => k ≠ key) = records := by
  have different := List.lookup_eq_none_iff.mp absent
  apply congrArg Records.mk
  apply List.filter_eq_self.mpr
  intro entry mem
  exact decide_eq_true (bne_iff_ne.mp (different entry mem)).symm

namespace Records

/-- Whether some records stand in key order, each key once. -/
def Ordered (records : Records) : Prop := KeyList.Ordered records.entries

theorem ordered_empty : empty.Ordered := .nil

theorem Ordered.keep {records : Records} (ordered : records.Ordered)
    (test : Key → Record → Bool) : (records.keep test).Ordered :=
  KeyList.Ordered.filter ordered _

/-- Every access leaves records in key order. -/
theorem Ordered.perform {records : Records} (ordered : records.Ordered) (now : Instant)
    (access : Access) : (records.perform now access).2.Ordered := by
  cases access with
  | write mode key value expires =>
    simp only [Records.perform, write]
    cases mode.written (records.find? key) value now expires with
    | none => exact ordered
    | some record => exact KeyList.Ordered.insert ordered key record
  | delete => exact ordered.keep _
  | deleteMatching => exact ordered.keep _
  | deleteExpired => exact ordered.keep _
  | get => exact ordered
  | contains => exact ordered
  | count => exact ordered
  | list => exact ordered

end Records

/-- The records that an access leaves, or the same where there is none. -/
def Records.performed (records : Records) (now : Instant) :
    Except StoreError Access → Records
  | .ok access => (records.perform now access).2
  | .error _ => records

namespace Store

theorem prepare_answer (store : Store) (schema : Schema) (filter : Option Filter) :
    (store.prepare schema filter).1 = conditionOf schema filter := by
  cases filter with
  | none => rfl
  | some filter =>
    simp only [prepare, conditionOf]
    cases filter.check schema <;> rfl

/-- Looking at a filter leaves the records as they are. -/
theorem prepare_records (store : Store) (schema : Schema) (filter : Option Filter) :
    (store.prepare schema filter).2.records = store.records := by
  cases filter with
  | none => rfl
  | some filter =>
    simp only [prepare]
    cases filter.check schema <;> rfl

/-- An operation on a key performs the access that it makes of the key. -/
theorem onKey_perform {α : Type} {store : Store} {partition id : String} {now : Instant}
    {act : Key → Reply α} {wrap : α → Answer} {ask : Key → Access}
    (answers : ∀ key, (act key).1.map wrap = .ok (store.records.perform now (ask key)).1)
    (leaves : ∀ key, (act key).2.records = (store.records.perform now (ask key)).2) :
    (store.onKey partition id act).1.map wrap =
        ((Key.ofParts partition id).map ask).map (fun r => (store.records.perform now r).1) ∧
      (store.onKey partition id act).2.records =
        store.records.performed now ((Key.ofParts partition id).map ask) := by
  unfold onKey
  cases Key.ofParts partition id with
  | error e => exact ⟨rfl, rfl⟩
  | ok key => exact ⟨answers key, leaves key⟩

/-- An operation on a partition performs the access that it makes of its condition. -/
theorem onPartition_perform {α : Type} {store : Store} {partition : String} {schema : Schema}
    {filter : Option Filter} {now : Instant} {act : Option Check → Store → Reply α}
    {wrap : α → Answer} {ask : Option Check → Access}
    (answers : ∀ condition (next : Store), next.records = store.records →
      (act condition next).1.map wrap = .ok (store.records.perform now (ask condition)).1)
    (leaves : ∀ condition (next : Store), next.records = store.records →
      (act condition next).2.records = (store.records.perform now (ask condition)).2) :
    (store.onPartition partition schema filter act).1.map wrap =
        ((partitionCondition partition schema filter).map ask).map
          (fun r => (store.records.perform now r).1) ∧
      (store.onPartition partition schema filter act).2.records =
        store.records.performed now ((partitionCondition partition schema filter).map ask) := by
  have answer := store.prepare_answer schema filter
  have same := store.prepare_records schema filter
  unfold onPartition partitionCondition
  cases Key.checkPart .partition partition with
  | error e => exact ⟨rfl, rfl⟩
  | ok =>
    simp only [← answer]
    rcases prepared : store.prepare schema filter with ⟨e | condition, next⟩
    · rw [prepared] at same
      exact ⟨rfl, same⟩
    · rw [prepared] at same
      exact ⟨answers condition next same, leaves condition next same⟩

/-- A step performs the access of its operation; a refused one leaves the records alone. -/
theorem step_perform (store : Store) (now : Instant) (operation : Operation) :
    (store.step now operation).1 =
        operation.access.map (fun r => (store.records.perform now r).1) ∧
      (store.step now operation).2.records = store.records.performed now operation.access := by
  cases operation with
  | write mode partition id value expires =>
    apply onKey_perform
    all_goals
      intro key
      simp only [Records.perform, Records.write]
      cases mode.written (store.records.find? key) value now expires <;> rfl
  | remove partition id =>
    apply onKey_perform
    · intro key
      simp only [Records.perform, Records.delete]
      cases (store.records.find? key).isSome <;> rfl
    · intro key
      simp only [Records.perform, Records.delete]
      cases found : store.records.find? key with
      | none => exact (Records.keep_others_of_absent found).symm
      | some record => rfl
  | removeAll partition schema filter =>
    apply onPartition_perform
    all_goals
      intro condition next same
      simp only [Records.perform, same]
      rfl
  | sweep partition =>
    simp only [step, Store.sweep, Operation.access]
    cases Key.checkPart .partition partition <;> exact ⟨rfl, rfl⟩
  | get partition id => exact onKey_perform (fun _ => rfl) (fun _ => rfl)
  | contains partition id => exact onKey_perform (fun _ => rfl) (fun _ => rfl)
  | count partition schema filter =>
    apply onPartition_perform
    all_goals
      intro condition next same
      simp only [Records.perform, ← same]
      rfl
  | list partition schema filter page =>
    apply onPartition_perform
    all_goals
      intro condition next same
      simp only [Records.perform, ← same]
      rfl

end Store

end DocStore
