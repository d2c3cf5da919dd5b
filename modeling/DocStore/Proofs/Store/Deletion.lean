import DocStore.Proofs.Store.View

/-!
# Bulk deletions

Removing the records of a partition that a filter holds of, and sweeping those that have expired,
each take exactly these records and say how many they were.  Every other record is found as it was,
with its document and the instants of its life.

* `Records.Loses`: what some records lose, how many that is, and that the others stay;
* `Records.Ordered.prune_loses`: what fails the test is lost when records are pruned;
* `Store.removeAll_deletes`, `Store.sweep_deletes`: what the two operations do to the records, also
  where the partition is one that no key can have;
* `bulk_deletions_exact`: the two operations in every store that a run leaves.
-/

namespace DocStore

open Store (Operation)

/-- A record has expired at its expiry and ever after. -/
theorem Record.isExpired_iff {record : Record} {now : Instant} :
    record.isExpired now = true ↔ ∃ expiry, record.expires = some expiry ∧ expiry ≤ now := by
  unfold isExpired
  cases record.expires <;> simp

theorem Record.isExpired_of_le {record : Record} {instant later : Instant} (order : instant ≤ later)
    (expired : record.isExpired instant) : record.isExpired later := by
  obtain ⟨expiry, expires, reached⟩ := isExpired_iff.mp expired
  exact isExpired_iff.mpr ⟨expiry, expires, Instant.le_trans reached order⟩

namespace Records

variable {records : Records} {partition : String}

/-! ## Losses -/

/-- Whether what is lost from some records is what a target is true of, in a given number, and
everything else is found as it was. -/
structure Loses (before : Records) (target : Key → Record → Prop) (n : Nat) (after : Records) :
    Prop where
  found : ∀ key record, after.find? key = some record ↔
    before.find? key = some record ∧ ¬ target key record
  /-- Each key that has lost its record counts once. -/
  counted : ∃ gone : List Key, gone.Nodup ∧ gone.length = n ∧
    ∀ key, key ∈ gone ↔ ∃ record, before.find? key = some record ∧ target key record

/-- Pruned records lose those that fail the test. -/
theorem Ordered.prune_loses (ordered : records.Ordered) {test : Key → Record → Bool}
    {target : Key → Record → Prop}
    (decides : ∀ key record, target key record ↔ test key record = false) :
    records.Loses target (records.prune test).1 (records.prune test).2 where
  found key record := by
    show KeyList.find? key (records.entries.filter _) = some record ↔ _
    rw [KeyList.Ordered.find?_filter ordered, Option.filter_eq_some_iff, decides,
      Bool.not_eq_false]
    rfl
  counted := by
    have failed := KeyList.Ordered.filter ordered fun entry => !test entry.1 entry.2
    refine ⟨_, failed.keys_nodup, ?_, fun key => ?_⟩
    · rw [prune_number, List.length_map]
    · simp only [List.mem_map, List.mem_filter, Prod.exists, find?,
        KeyList.Ordered.find?_eq_some_iff ordered, decides, Bool.not_eq_true']
      constructor
      · rintro ⟨_, record, stored, rfl⟩
        exact ⟨record, stored⟩
      · rintro ⟨record, stored⟩
        exact ⟨key, record, stored, rfl⟩

/-- What is left passes the test, so nothing is lost to the same test again. -/
theorem prune_again (records : Records) {test again : Key → Record → Bool}
    (passes : ∀ key record, test key record → again key record) :
    ((records.prune test).2.prune again).1 = 0 := by
  rw [prune_number, List.length_eq_zero_iff, List.filter_eq_nil_iff]
  intro entry left
  have passed := (List.mem_filter.mp left).2
  rw [passes _ _ passed]
  decide

/-! ## Targets -/

/-- Whether a record is of a partition and the condition true of its document; without a condition
every record of the partition will do. -/
def Targeted (partition : String) (condition : Option Check) (key : Key) (record : Record) : Prop :=
  key.partition = partition ∧ ∀ check ∈ condition, check.eval record.value = some true

/-- Whether a record is of a partition and has expired. -/
def Lapsed (partition : String) (now : Instant) (key : Key) (record : Record) : Prop :=
  key.partition = partition ∧ ∃ expiry, record.expires = some expiry ∧ expiry ≤ now

theorem meets_iff (condition : Option Check) (value : Json) :
    meets condition value = true ↔ ∀ check ∈ condition, check.eval value = some true := by
  cases condition with
  | none => simp [meets]
  | some check => simp [meets, Check.holdsOf]

theorem Ordered.deleteMatching_loses (ordered : records.Ordered) (partition : String)
    (condition : Option Check) :
    records.Loses (Targeted partition condition) (records.deleteMatching partition condition).1
      (records.deleteMatching partition condition).2 := by
  apply ordered.prune_loses
  intro key record
  rw [Targeted, ← meets_iff]
  simp

theorem Ordered.deleteExpired_loses (ordered : records.Ordered) (partition : String)
    (now : Instant) :
    records.Loses (Lapsed partition now) (records.deleteExpired partition now).1
      (records.deleteExpired partition now).2 := by
  apply ordered.prune_loses
  intro key record
  rw [Lapsed, ← Record.isExpired_iff]
  simp

theorem Keyed.deleteMatching_refused (keyed : records.Keyed) {e : StoreError}
    (refused : Key.checkPart .partition partition = .error e) (condition : Option Check) :
    (records.deleteMatching partition condition).2 = records := by
  simp only [deleteMatching, prune]
  apply keyed.keep_refused refused
  intro key record outside
  simp [outside]

theorem Keyed.deleteExpired_refused (keyed : records.Keyed) {e : StoreError}
    (refused : Key.checkPart .partition partition = .error e) (now : Instant) :
    (records.deleteExpired partition now).2 = records := by
  simp only [deleteExpired, prune]
  apply keyed.keep_refused refused
  intro key record outside
  simp [outside]

theorem deleteMatching_again (records : Records) (partition : String) (condition : Option Check) :
    ((records.deleteMatching partition condition).2.deleteMatching partition condition).1 = 0 :=
  prune_again records fun _ _ kept => kept

/-- What has not expired had not expired earlier. -/
theorem deleteExpired_again (records : Records) (partition : String) {instant now : Instant}
    (order : instant ≤ now) :
    ((records.deleteExpired partition now).2.deleteExpired partition instant).1 = 0 := by
  refine prune_again records fun key record kept => ?_
  rw [Bool.or_eq_true, Bool.not_eq_true'] at kept ⊢
  refine kept.imp_right fun alive => ?_
  cases expired : record.isExpired instant with
  | false => rfl
  | true => exact absurd (Record.isExpired_of_le order expired) (by simp [alive])

/-- None of the records that are left in a partition meets the condition. -/
theorem live_deleteMatching (records : Records) (partition : String) (condition : Option Check)
    (now : Instant) :
    (records.deleteMatching partition condition).2.live partition condition now = [] := by
  simp only [live, deleteMatching, prune, keep, List.filter_filter, List.filter_eq_nil_iff]
  intro entry _
  by_cases here : entry.1.partition = partition
  · cases meets condition entry.2.value <;> simp [here]
  · simp [here]

end Records

namespace Store

variable {store : Store} {partition : String} {schema : Schema} {filter : Option Filter}
  {condition : Option Check}

/-! ## Operations -/

/-- A removal takes the records of which the condition is true, and answers their number where the
partition is not refused. -/
theorem removeAll_deletes (keyed : store.records.Keyed) (partition : String)
    (compiles : conditionOf schema filter = .ok condition) :
    (store.removeAll partition schema filter).1 =
        (Key.checkPart .partition partition).map
          (fun _ => (store.records.deleteMatching partition condition).1) ∧
      (store.removeAll partition schema filter).2.records =
        (store.records.deleteMatching partition condition).2 := by
  constructor
  · apply onPartition_answer compiles
    intro next same
    rw [same]
  · have performed := (store.step_perform ⟨0, 0⟩ (.removeAll partition schema filter)).2
    refine performed.trans ?_
    simp only [Operation.access, partitionCondition]
    cases refused : Key.checkPart .partition partition with
    | ok =>
      rw [compiles]
      rfl
    | error e => exact (keyed.deleteMatching_refused refused condition).symm

theorem sweep_deletes (keyed : store.records.Keyed) (partition : String) (now : Instant) :
    (store.sweep partition now).1 =
        (Key.checkPart .partition partition).map
          (fun _ => (store.records.deleteExpired partition now).1) ∧
      (store.sweep partition now).2.records =
        (store.records.deleteExpired partition now).2 := by
  unfold sweep
  cases refused : Key.checkPart .partition partition with
  | ok => exact ⟨rfl, rfl⟩
  | error e => exact ⟨rfl, (keyed.deleteExpired_refused refused now).symm⟩

variable (store partition schema filter condition) (now : Instant)

/-- What removing the records of a partition by a filter comes to, given its condition. -/
structure Clears : Prop where
  /-- All and only the records of the partition are lost of whose documents the condition is true,
  and their number is the answer. -/
  lost : ∃ n, (store.removeAll partition schema filter).1 =
      (Key.checkPart .partition partition).map (fun _ => n) ∧
    store.records.Loses (Records.Targeted partition condition) n
      (store.removeAll partition schema filter).2.records
  /-- The way by a translated filter is the same. -/
  translated : store.removeItems partition schema filter = store.removeAll partition schema filter
  counted : ∀ now,
    ((store.removeAll partition schema filter).2.count partition schema filter now).1 =
      (Key.checkPart .partition partition).map fun _ => 0
  listed : ∀ page now,
    ((store.removeAll partition schema filter).2.list partition schema filter page now).1 =
      (Key.checkPart .partition partition).map fun _ => []
  repeated : ((store.removeAll partition schema filter).2.removeAll partition schema filter).1 =
    (Key.checkPart .partition partition).map fun _ => 0

/-- What sweeping a partition at an instant comes to. -/
structure Sweeps : Prop where
  /-- All and only the records of the partition are lost that have expired, and their number is the
  answer. -/
  lost : ∃ n, (store.sweep partition now).1 =
      (Key.checkPart .partition partition).map (fun _ => n) ∧
    store.records.Loses (Records.Lapsed partition now) n (store.sweep partition now).2.records
  repeated : ∀ instant, instant ≤ now → ((store.sweep partition now).2.sweep partition instant).1 =
    (Key.checkPart .partition partition).map fun _ => 0

variable {store partition schema filter condition now}

theorem clears (ordered : store.records.Ordered) (keyed : store.records.Keyed)
    (compiles : conditionOf schema filter = .ok condition) :
    store.Clears partition schema filter condition := by
  obtain ⟨answer, left⟩ := removeAll_deletes keyed partition compiles
  have kept : (store.removeAll partition schema filter).2.records.Keyed := by
    rw [left]
    exact keyed.keep _
  have none_live (now : Instant) :
      documentsOf ((store.removeAll partition schema filter).2.view partition now) condition =
        [] := by
    rw [← live_documents, left, Records.live_deleteMatching]
    rfl
  refine ⟨⟨_, answer, ?_⟩, removeItems_eq, fun now => ?_, fun page now => ?_, ?_⟩
  · rw [left]
    exact ordered.deleteMatching_loses partition condition
  · rw [count_answer compiles, none_live]
    rfl
  · rw [list_answer compiles, none_live, Page.slice_eq]
    simp
  · rw [(removeAll_deletes kept partition compiles).1, left, Records.deleteMatching_again]

theorem sweeps (ordered : store.records.Ordered) (keyed : store.records.Keyed) :
    store.Sweeps partition now := by
  obtain ⟨answer, left⟩ := sweep_deletes keyed partition now
  have kept : (store.sweep partition now).2.records.Keyed := by
    rw [left]
    exact keyed.keep _
  refine ⟨⟨_, answer, ?_⟩, fun instant order => ?_⟩
  · rw [left]
    exact ordered.deleteExpired_loses partition now
  · rw [(sweep_deletes kept partition instant).1, left, Records.deleteExpired_again _ _ order]

end Store

/-- In every store that a run leaves, removing the records of a partition by a filter takes all and
only the records of the partition, live or expired, of whose documents the filter is true, leaves
every other record as it was, and answers how many are gone.  Nothing is then left to count, to list
or to remove by the filter.  Sweeping does the same with the records that have expired. -/
theorem bulk_deletions_exact (history : List (Instant × Operation)) (partition : String) :
    let store := (Store.empty.run history).2
    (∀ {schema filter condition}, conditionOf schema filter = .ok condition →
        store.Clears partition schema filter condition) ∧
      ∀ now, store.Sweeps partition now := by
  have ordered : (Store.empty.run history).2.records.Ordered :=
    Store.ordered_run history Records.ordered_empty
  have keyed : (Store.empty.run history).2.records.Keyed :=
    Store.keyed_run Records.keyed_empty history
  exact ⟨fun compiles => Store.clears ordered keyed compiles, fun now => Store.sweeps ordered keyed⟩

/-- A run that leaves an expired record, a record whose flag is down, one that has no flag, and a
record in another partition. -/
def clearedRun : List (Instant × Operation) :=
  [(⟨0, 0⟩, .write .create "p" "a" (flagged 1 true) (some ⟨10, 0⟩)),
    (⟨0, 0⟩, .write .create "p" "b" (flagged 2 true) none),
    (⟨0, 0⟩, .write .create "p" "c" (flagged 3 false) none),
    (⟨0, 0⟩, .write .create "p" "d" (.object [("n", .ofInt 4)]) none),
    (⟨0, 0⟩, .write .create "q" "a" (flagged 5 true) none)]

theorem bulk_deletions_exact_of_cleared :
    let store := (Store.empty.run clearedRun).2
    let schema := (Schema.empty "Item").declare "open" (.required (.scalar .bool))
    let opened : Option Filter := some ⟨.flag ⟨["open"]⟩, []⟩
    let condition : Option Check := some (.flag ⟨["open"]⟩)
    let cleared := (store.removeAll "p" schema opened).2
    conditionOf schema opened = .ok condition ∧
      (store.removeAll "p" schema opened).1 = .ok 2 ∧
      store.records.Loses (Records.Targeted "p" condition) 2 cleared.records ∧
      cleared.records.entries.map (·.1) = [⟨"p", "c"⟩, ⟨"p", "d"⟩, ⟨"q", "a"⟩] ∧
      (cleared.count "p" schema opened ⟨9, 0⟩).1 = .ok 0 ∧
      (cleared.removeAll "p" schema opened).1 = .ok 0 ∧
      store.records.Loses (Records.Lapsed "p" ⟨10, 0⟩) 1 (store.sweep "p" ⟨10, 0⟩).2.records := by
  intro store schema opened condition cleared
  obtain ⟨clears, sweeps⟩ := bulk_deletions_exact clearedRun "p"
  have compiles : conditionOf schema opened = .ok condition := rfl
  have clears := clears compiles
  obtain ⟨n, answer, lost⟩ := clears.lost
  obtain ⟨m, swept, lapsed⟩ := (sweeps ⟨10, 0⟩).lost
  have two : (store.removeAll "p" schema opened).1 = .ok 2 := rfl
  have one : (store.sweep "p" ⟨10, 0⟩).1 = .ok 1 := rfl
  obtain rfl : n = 2 := Except.ok.inj (answer.symm.trans two)
  obtain rfl : m = 1 := Except.ok.inj (swept.symm.trans one)
  exact ⟨compiles, two, lost, rfl, clears.counted ⟨9, 0⟩, clears.repeated, lapsed⟩

end DocStore
