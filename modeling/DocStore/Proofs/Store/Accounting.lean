import DocStore.Proofs.Store.Layers
import DocStore.Store.Typed

/-!
# Counters account for every record

Every record that was ever written is still there, has been removed, has been swept, or has been
written over.  The counters of a store say how many went each way, as long as fewer operations were
done than a counter can count.

* `Store.moments`: the steps of a run, each with the store it starts from;
* `Tally`: how many steps there were of the kinds that matter;
* `Store.Accounts`: what the counters say of the records and of a tally;
* `Store.Accounts.step`: a step keeps the accounts;
* `counters_account`: the accounts of every run.
-/

namespace DocStore

open Store (Answer Operation)

/-! ## Steps of a run -/

/-- A step of a run: an operation at an instant, and the store that it finds. -/
structure Moment where
  before : Store
  now : Instant
  operation : Operation

namespace Moment

def answer (m : Moment) : Except StoreError Answer := (m.before.step m.now m.operation).1

def after (m : Moment) : Store := (m.before.step m.now m.operation).2

/-- Whether a write succeeds where there is a record, live or expired. -/
def overwrites (m : Moment) : Bool :=
  match m.operation, m.answer with
  | .write _ partition id _ _, .ok (.truth true) => (m.before.records.find? ⟨partition, id⟩).isSome
  | _, _ => false

/-- Whether a write answers false. -/
def conflicts (m : Moment) : Bool :=
  match m.operation, m.answer with
  | .write .., .ok (.truth false) => true
  | _, _ => false

/-- Whether documents of a valid partition are listed, counted or removed by a filter. -/
def filters (m : Moment) : Bool :=
  match m.operation with
  | .removeAll partition _ (some _) => (Key.checkPart .partition partition).isOk
  | .count partition _ (some _) => (Key.checkPart .partition partition).isOk
  | .list partition _ (some _) _ => (Key.checkPart .partition partition).isOk
  | _ => false

end Moment

/-- The steps of a run. -/
def Store.moments (store : Store) : List (Instant × Operation) → List Moment
  | [] => []
  | (now, operation) :: rest =>
    let m : Moment := ⟨store, now, operation⟩
    m :: moments m.after rest

/-- How many steps there were, and how many of them wrote over a record, were conflicts, and went
by a filter. -/
structure Tally where
  steps : Nat
  overwritten : Nat
  conflicts : Nat
  filtered : Nat
deriving DecidableEq, Repr

/-- The tally of some steps. -/
def Tally.of (moments : List Moment) : Tally where
  steps := moments.length
  overwritten := moments.countP Moment.overwrites
  conflicts := moments.countP Moment.conflicts
  filtered := moments.countP Moment.filters

/-- The tally with one step more. -/
def Tally.add (tally : Tally) (m : Moment) : Tally where
  steps := tally.steps + 1
  overwritten := tally.overwritten + m.overwrites.toNat
  conflicts := tally.conflicts + m.conflicts.toNat
  filtered := tally.filtered + m.filters.toNat

theorem Tally.of_append_singleton (past : List Moment) (m : Moment) :
    Tally.of (past ++ [m]) = (Tally.of past).add m := by
  simp only [Tally.of, Tally.add, List.length_append, List.countP_append, List.countP_singleton,
    List.length_singleton]
  cases m.overwrites <;> cases m.conflicts <;> cases m.filters <;> rfl

/-! ## How many records there are -/

namespace Records

variable {records : Records}

/-- The record under a key and the others are all there are. -/
theorem Ordered.size_others (ordered : records.Ordered) (key : Key) :
    (records.keep fun k _ => k ≠ key).size + (records.find? key).isSome.toNat = records.size := by
  have all := List.length_eq_length_filter_add (l := records.entries) fun entry => entry.1 == key
  have under := congrArg List.length (KeyList.Ordered.filter_key ordered key)
  have one : ((records.find? key).map fun v => (key, v)).toList.length =
      (records.find? key).isSome.toNat := by
    cases records.find? key <;> rfl
  have others : (fun entry : Key × Record => decide (entry.1 ≠ key)) =
      fun entry => !(entry.1 == key) := by
    funext entry
    by_cases same : entry.1 = key <;> simp [same]
  simp only [Records.keep, size, find?, others] at *
  omega

/-- A record put under a key is one more, unless there was one. -/
theorem Ordered.size_insert (ordered : records.Ordered) (key : Key) (record : Record) :
    (records.insert key record).size + (records.find? key).isSome.toNat = records.size + 1 := by
  have put := (KeyList.Ordered.insert_perm ordered key record).length_eq
  have others := ordered.size_others key
  have same : (fun entry : Key × Record => entry.1 != key) =
      fun entry => decide (entry.1 ≠ key) := by
    funext entry
    by_cases same : entry.1 = key <;> simp [same]
  simp only [same, List.length_cons] at put
  simp only [insert, Records.keep, size] at *
  omega

/-- What is pruned and what is kept is what there was. -/
theorem size_prune (records : Records) (test : Key → Record → Bool) :
    (records.prune test).2.size + (records.prune test).1 = records.size := by
  have fewer : (records.keep test).size ≤ records.size := List.length_filter_le ..
  simp only [prune]
  omega

end Records

/-! ## Counting -/

/-- A counter that does not go round counts in full. -/
theorem toNat_add_of_lt {a b : UInt64} (room : a.toNat + b.toNat < UInt64.size) :
    (a + b).toNat = a.toNat + b.toNat :=
  (UInt64.toNat_add a b).trans (Nat.mod_eq_of_lt room)

theorem toNat_ofNat_of_le {n m : Nat} (less : n ≤ m) (room : m < UInt64.size) :
    (UInt64.ofNat n).toNat = n :=
  UInt64.toNat_ofNat_of_lt' (Nat.lt_of_le_of_lt less room)

namespace Store

/-- What the counters of a store say of its records, and of the steps that have led to it. -/
structure Accounts (store : Store) (tally : Tally) : Prop where
  ordered : store.records.Ordered
  /-- What was written is there, is removed, is swept, or is written over. -/
  balanced : store.metrics.documentsWritten.toNat =
    store.records.size + store.metrics.documentsRemoved.toNat +
      store.metrics.expiredRemoved.toNat + tally.overwritten
  conflicts : store.metrics.writeConflicts.toNat = tally.conflicts
  filtered : store.metrics.predicatesCompiled.toNat + store.metrics.predicatesRejected.toNat =
    tally.filtered
  /-- No counter has gone round. -/
  bounded : store.metrics.documentsWritten.toNat ≤ tally.steps ∧ tally.conflicts ≤ tally.steps ∧
    tally.filtered ≤ tally.steps

variable {store : Store} {tally : Tally}

theorem accounts_empty : empty.Accounts ⟨0, 0, 0, 0⟩ :=
  ⟨Records.ordered_empty, rfl, rfl, rfl, by decide⟩

/-! ### What is counted -/

/-- A step of which nothing is counted. -/
theorem Accounts.tick (accounts : store.Accounts tally) :
    store.Accounts { tally with steps := tally.steps + 1 } := by
  obtain ⟨ordered, balanced, conflicts, filtered, bounded⟩ := accounts
  exact ⟨ordered, balanced, conflicts, filtered, by simp only; omega⟩

/-- Reading is counted apart. -/
theorem Accounts.read (accounts : store.Accounts tally) : (store.counted .read).Accounts tally :=
  ⟨accounts.ordered, accounts.balanced, accounts.conflicts, accounts.filtered, accounts.bounded⟩

theorem Accounts.conflict (accounts : store.Accounts tally)
    (few : tally.steps + 1 < UInt64.size) :
    (store.counted .conflict).Accounts
      { tally with steps := tally.steps + 1, conflicts := tally.conflicts + 1 } := by
  obtain ⟨ordered, balanced, conflicts, filtered, bounded⟩ := accounts
  have counted : (store.metrics.writeConflicts + 1).toNat = tally.conflicts + 1 := by
    rw [← conflicts]
    exact toNat_add_of_lt (by simp only [UInt64.toNat_one]; omega)
  exact ⟨ordered, balanced, counted, filtered, by
    simp only [Store.counted, Metrics.add]
    omega⟩

/-- A record that is written is one more, or is written over another. -/
theorem Accounts.write (accounts : store.Accounts tally) (few : tally.steps + 1 < UInt64.size)
    (key : Key) (record : Record) :
    ((store.withRecords (store.records.insert key record)).counted .written).Accounts
      { tally with
        steps := tally.steps + 1
        overwritten := tally.overwritten + (store.records.find? key).isSome.toNat } := by
  obtain ⟨ordered, balanced, conflicts, filtered, bounded⟩ := accounts
  have written : (store.metrics.documentsWritten + 1).toNat =
      store.metrics.documentsWritten.toNat + 1 :=
    toNat_add_of_lt (by simp only [UInt64.toNat_one]; omega)
  have size := ordered.size_insert key record
  refine ⟨KeyList.Ordered.insert ordered key record, ?_, conflicts, filtered, ?_⟩ <;>
  · simp only [Store.counted, withRecords, Metrics.add]
    omega

/-- A counter of records that are gone has room for more of those that were written. -/
theorem Accounts.toNat_gone (accounts : store.Accounts tally) (few : tally.steps < UInt64.size)
    {counter : UInt64} {n : Nat}
    (gone : counter.toNat + n ≤ store.metrics.documentsWritten.toNat) :
    (counter + .ofNat n).toNat = counter.toNat + n := by
  have bounded := accounts.bounded
  have number : (UInt64.ofNat n).toNat = n := by
    apply toNat_ofNat_of_le _ few
    omega
  rw [toNat_add_of_lt (by omega), number]

/-- Records that are removed are so many less. -/
theorem Accounts.remove (accounts : store.Accounts tally) (few : tally.steps < UInt64.size)
    {kept : Records} (ordered : kept.Ordered) {n : Nat}
    (size : kept.size + n = store.records.size) :
    ((store.withRecords kept).counted (.removed (.ofNat n))).Accounts tally := by
  have balanced := accounts.balanced
  have removed : (store.metrics.documentsRemoved + .ofNat n).toNat =
      store.metrics.documentsRemoved.toNat + n := by
    apply accounts.toNat_gone few
    omega
  refine ⟨ordered, ?_, accounts.conflicts, accounts.filtered, accounts.bounded⟩
  simp only [Store.counted, withRecords, Metrics.add]
  omega

/-- Records that are swept are so many less. -/
theorem Accounts.expire (accounts : store.Accounts tally) (few : tally.steps < UInt64.size)
    {kept : Records} (ordered : kept.Ordered) {n : Nat}
    (size : kept.size + n = store.records.size) :
    ((store.withRecords kept).counted (.expired (.ofNat n))).Accounts tally := by
  have balanced := accounts.balanced
  have swept : (store.metrics.expiredRemoved + .ofNat n).toNat =
      store.metrics.expiredRemoved.toNat + n := by
    apply accounts.toNat_gone few
    omega
  refine ⟨ordered, ?_, accounts.conflicts, accounts.filtered, accounts.bounded⟩
  simp only [Store.counted, withRecords, Metrics.add]
  omega

/-- A filter is counted once, whether it is compiled or rejected. -/
theorem Accounts.prepare (accounts : store.Accounts tally) (few : tally.steps + 1 < UInt64.size)
    (schema : Schema) (filter : Option Filter) :
    (store.prepare schema filter).2.Accounts
      { tally with
        steps := tally.steps + 1
        filtered := tally.filtered + filter.isSome.toNat } := by
  cases filter with
  | none => exact accounts.tick
  | some filter =>
    obtain ⟨ordered, balanced, conflicts, filtered, bounded⟩ := accounts
    have compiled : (store.metrics.predicatesCompiled + 1).toNat =
        store.metrics.predicatesCompiled.toNat + 1 :=
      toNat_add_of_lt (by simp only [UInt64.toNat_one]; omega)
    have rejected : (store.metrics.predicatesRejected + 1).toNat =
        store.metrics.predicatesRejected.toNat + 1 :=
      toNat_add_of_lt (by simp only [UInt64.toNat_one]; omega)
    simp only [Store.prepare]
    cases filter.check schema
    all_goals
      refine ⟨ordered, balanced, conflicts, ?_, ?_⟩ <;>
      · simp only [Store.counted, Metrics.add, Option.isSome_some, Bool.toNat_true]
        omega

/-! ### Operations -/

/-- An operation on the documents of a partition counts its filter if the partition is valid, and
then what it does. -/
theorem Accounts.onPartition {α : Type} (accounts : store.Accounts tally)
    (few : tally.steps + 1 < UInt64.size) (partition : String) (schema : Schema)
    (filter : Option Filter) {act : Option Check → Store → Reply α}
    (acts : ∀ condition (next : Store) (later : Tally), next.Accounts later →
      later.steps < UInt64.size → (act condition next).2.Accounts later) :
    (store.onPartition partition schema filter act).2.Accounts
      { tally with
        steps := tally.steps + 1
        filtered := tally.filtered +
          (filter.isSome && (Key.checkPart .partition partition).isOk).toNat } := by
  unfold Store.onPartition
  cases Key.checkPart .partition partition with
  | error e => simpa [Except.isOk, Except.toBool] using accounts.tick
  | ok =>
    have prepared := accounts.prepare few schema filter
    simp only [Except.isOk, Except.toBool, Bool.and_true]
    rcases found : store.prepare schema filter with ⟨e | condition, next⟩
    · rw [found] at prepared
      exact prepared
    · rw [found] at prepared
      exact acts condition next _ prepared few

/-- A write counts itself, or that it could not be made. -/
theorem Accounts.step_write (accounts : store.Accounts tally)
    (few : tally.steps + 1 < UInt64.size) (now : Instant) (mode : WriteMode)
    (partition id : String) (value : Json) (expires : Option Instant) :
    let m : Moment := ⟨store, now, .write mode partition id value expires⟩
    m.after.Accounts (tally.add m) := by
  simp only [Moment.after, Tally.add, Moment.overwrites, Moment.conflicts, Moment.filters,
    Moment.answer, step, Reply.as, Store.write, onKey]
  cases keyed : Key.ofParts partition id with
  | error e => exact accounts.tick
  | ok key =>
    obtain rfl := Key.eq_of_ofParts keyed
    simp only [Records.write]
    cases mode.written (store.records.find? ⟨partition, id⟩) value now expires with
    | none => exact accounts.conflict few
    | some record => exact accounts.write few ⟨partition, id⟩ record

theorem Accounts.step_remove (accounts : store.Accounts tally)
    (few : tally.steps + 1 < UInt64.size) (now : Instant) (partition id : String) :
    let m : Moment := ⟨store, now, .remove partition id⟩
    m.after.Accounts (tally.add m) := by
  simp only [Moment.after, step, Reply.as, Store.remove, onKey]
  cases Key.ofParts partition id with
  | error e => exact accounts.tick
  | ok key =>
    have others := accounts.ordered.size_others key
    simp only [Records.delete]
    cases found : (store.records.find? key).isSome with
    | false => exact accounts.tick
    | true =>
      rw [found] at others
      exact accounts.tick.remove few (accounts.ordered.keep _) others

/-- A step keeps the accounts. -/
theorem Accounts.step {m : Moment} (accounts : m.before.Accounts tally)
    (few : tally.steps + 1 < UInt64.size) : m.after.Accounts (tally.add m) := by
  obtain ⟨store, now, operation⟩ := m
  change store.Accounts tally at accounts
  have ordered (test : Key → Record → Bool) : (store.records.keep test).Ordered :=
    accounts.ordered.keep test
  cases operation with
  | write mode partition id value expires => exact accounts.step_write few ..
  | remove partition id => exact accounts.step_remove few ..
  | removeAll partition schema filter =>
    have acted : (store.removeAll partition schema filter).2.Accounts _ :=
      accounts.onPartition few partition schema filter fun condition next _ accounts few =>
        accounts.remove few (accounts.ordered.keep _) (Records.size_prune next.records
          fun key record => key.partition != partition || !Records.meets condition record.value)
    cases filter <;> exact acted
  | sweep partition =>
    simp only [Moment.after, Store.step, Reply.as, Store.sweep]
    cases Key.checkPart .partition partition with
    | error e => exact accounts.tick
    | ok =>
      exact accounts.tick.expire few (ordered _) (Records.size_prune store.records
        fun key record => key.partition != partition || !record.isExpired now)
  | get partition id =>
    simp only [Moment.after, Store.step, Reply.as, Store.get, onKey]
    cases Key.ofParts partition id with
    | error e => exact accounts.tick
    | ok key => exact accounts.tick.read
  | contains partition id =>
    simp only [Moment.after, Store.step, Reply.as, Store.contains, onKey]
    cases Key.ofParts partition id with
    | error e => exact accounts.tick
    | ok key => exact accounts.tick.read
  | count partition schema filter =>
    have acted : (store.count partition schema filter now).2.Accounts _ :=
      accounts.onPartition few partition schema filter fun _ _ _ accounts _ => accounts.read
    cases filter <;> exact acted
  | list partition schema filter page =>
    have acted : (store.list partition schema filter page now).2.Accounts _ :=
      accounts.onPartition few partition schema filter fun _ _ _ accounts _ => accounts.read
    cases filter <;> exact acted

/-- A run keeps the accounts. -/
theorem Accounts.run {past : List Moment} (accounts : store.Accounts (.of past))
    (history : List (Instant × Operation)) (few : past.length + history.length < UInt64.size) :
    (store.run history).2.Accounts (.of (past ++ store.moments history)) := by
  induction history generalizing store past with
  | nil =>
    rw [moments, List.append_nil]
    exact accounts
  | cons entry rest ih =>
    obtain ⟨now, operation⟩ := entry
    let m : Moment := ⟨store, now, operation⟩
    simp only [List.length_cons] at few
    have next : m.after.Accounts (.of (past ++ [m])) := by
      rw [Tally.of_append_singleton]
      exact Accounts.step accounts (by simp only [Tally.of]; omega)
    have last := ih next (by simp only [List.length_append, List.length_singleton]; omega)
    rw [List.append_assoc] at last
    exact last

end Store

/-! ## Typed access -/

/-- The store that typed access, or access by way of a translated filter, leaves: that of the
operation it stands for, or the same where a value to be written is no document. -/
structure Store.LeavesAsSteps (store : Store) : Prop where
  typed_get {α : Type} (read? : Json → Option α) (partition id now) :
    (store.getWith read? partition id now).2 = (store.step now (.get partition id)).2
  typed_write {α : Type} (document? : α → Option Json) (mode partition id value expires now) :
    (store.writeWith document? mode partition id value expires now).2 =
      match document? value with
      | some document => (store.step now (.write mode partition id document expires)).2
      | none => store
  typed_list (α : Type) [Document α] (partition filter page now) :
    (store.listAs α partition filter page now).2 =
      (store.step now (.list partition (Document.schema α) filter page)).2
  items (partition schema filter page now) :
    (store.items partition schema filter page now).2 =
      (store.step now (.list partition schema filter page)).2
  countItems (partition schema filter now) :
    (store.countItems partition schema filter now).2 =
      (store.step now (.count partition schema filter)).2
  removeItems (partition schema filter now) :
    (store.removeItems partition schema filter).2 =
      (store.step now (.removeAll partition schema filter)).2

theorem Store.leavesAsSteps {store : Store} (ordered : store.records.Ordered) :
    store.LeavesAsSteps where
  typed_get read? partition id now := by
    show _ = (store.get partition id now).2
    unfold getWith
    split <;> rename_i got <;> rw [got]
  typed_write document? mode partition id value expires now := by
    show _ = match document? value with
      | some document => (store.write mode partition id document expires now).2
      | none => store
    unfold writeWith onKey
    cases keyed : Key.ofParts partition id with
    | error e => cases document? value <;> simp only [Store.write, onKey, keyed]
    | ok key => cases document? value <;> rfl
  typed_list α _ partition filter page now := rfl
  items partition schema filter page now := congrArg Prod.snd (items_eq ordered page now)
  countItems partition schema filter now := congrArg Prod.snd (countItems_eq ordered now)
  removeItems partition schema filter now := congrArg Prod.snd removeItems_eq

/-- In every run of fewer operations than a counter can count, what was written is there, has been
removed, has been swept, or has been written over; the conflicts are the writes that answered false;
and the filters that were compiled or rejected are those that came with a valid partition.  Typed
access counts as the operation it stands for. -/
theorem counters_account {history : List (Instant × Operation)}
    (few : history.length < UInt64.size) :
    let store := (Store.empty.run history).2
    let moments := Store.empty.moments history
    store.metrics.documentsWritten.toNat =
        store.records.size + store.metrics.documentsRemoved.toNat +
          store.metrics.expiredRemoved.toNat + moments.countP Moment.overwrites ∧
      store.metrics.writeConflicts.toNat = moments.countP Moment.conflicts ∧
      store.metrics.predicatesCompiled.toNat + store.metrics.predicatesRejected.toNat =
        moments.countP Moment.filters ∧
      store.LeavesAsSteps := by
  have start : Store.empty.Accounts (.of []) := Store.accounts_empty
  have accounts := start.run history (by simpa using few)
  exact ⟨accounts.balanced, accounts.conflicts, accounts.filtered,
    Store.leavesAsSteps accounts.ordered⟩

/-- A run in which records expire, are written over, removed and swept, and filters are compiled,
rejected and never looked at. -/
def busyRun : List (Instant × Operation) :=
  let one : Filter := ⟨.constant (.literal (.bool true)), []⟩
  let bad : Filter := ⟨.flag ⟨["none"]⟩, []⟩
  [(⟨0, 0⟩, .write .create "p" "a" (.ofInt 1) (some ⟨5, 0⟩)),
    (⟨1, 0⟩, .write .create "p" "a" (.ofInt 2) none),
    (⟨5, 0⟩, .write .create "p" "a" (.ofInt 3) (some ⟨6, 0⟩)),
    (⟨5, 0⟩, .write .upsert "p" "b" (.ofInt 4) none),
    (⟨5, 0⟩, .write .update "q" "c" (.ofInt 5) none),
    (⟨6, 0⟩, .count "p" (.empty "Item") (some one)),
    (⟨6, 0⟩, .removeAll "p" (.empty "Item") (some bad)),
    (⟨6, 0⟩, .list "" (.empty "Item") (some one) .whole),
    (⟨6, 0⟩, .sweep "p"),
    (⟨6, 0⟩, .write .create "q" "c" (.ofInt 6) none),
    (⟨6, 0⟩, .write .update "q" "c" (.ofInt 7) none),
    (⟨7, 0⟩, .remove "q" "c")]

theorem counters_account_of_busy :
    busyRun.length < UInt64.size ∧
      (Store.empty.run busyRun).2.metrics = ⟨1, 1, 5, 2, 1, 1, 1⟩ ∧
      (Store.empty.run busyRun).2.records.size + 1 + 1 +
        (Store.empty.moments busyRun).countP Moment.overwrites = 5 ∧
      (Store.empty.moments busyRun).countP Moment.conflicts = 2 ∧
      (Store.empty.moments busyRun).countP Moment.filters = 2 := by
  have few : busyRun.length < UInt64.size := by decide
  have metrics : (Store.empty.run busyRun).2.metrics = ⟨1, 1, 5, 2, 1, 1, 1⟩ := rfl
  obtain ⟨balanced, conflicts, filtered, -⟩ := counters_account few
  simp only [metrics] at balanced conflicts filtered
  exact ⟨few, metrics, balanced.symm, conflicts.symm, filtered.symm⟩

end DocStore
