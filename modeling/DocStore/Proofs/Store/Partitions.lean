import DocStore.Proofs.Check.Derivation
import DocStore.Proofs.Store.Access
import DocStore.Store.Backend
import Mathlib.Data.List.Basic

/-!
# Partitions are apart

An operation on a partition sees and changes no other.  So a run can be told for each partition on
its own: what is done to the others may as well not have been done.

* `Records.within`: the records of a partition;
* `Records.Ordered.range_eq`: going through the keys from the least one of a partition on finds
  just these, because the keys of a partition stand together;
* `Records.Ordered.perform_within`, `Records.Ordered.perform_apart`: an access to a partition, and
  to another;
* `partitions_apart`: a run and the part of it that is about a partition.
-/

namespace DocStore

open Store (Answer Operation)

/-! ## The keys of a partition -/

theorem compare_empty (s : String) : compare s "" ≠ .lt := by
  intro less
  have below : s < "" := compareOfLessAndEq_eq_lt.mp less
  exact List.not_lt_nil _ (String.lt_iff.mp below)

theorem Key.compare_eq (a b : Key) :
    compare a b = (compare a.partition b.partition).then (compare a.id b.id) :=
  rfl

/-- A key that does not come before the least one of a partition is of no earlier partition. -/
theorem Key.partition_of_not_before {key : Key} {partition : String}
    (start : compare key ⟨partition, ""⟩ ≠ .lt) : compare key.partition partition ≠ .lt := by
  rw [compare_eq] at start
  intro less
  rw [less] at start
  exact start rfl

theorem Key.partition_of_before {key : Key} {partition : String}
    (before : compare key ⟨partition, ""⟩ = .lt) : key.partition ≠ partition := by
  rintro rfl
  rw [compare_eq, Std.compare_self] at before
  exact compare_empty _ before

theorem takeWhile_eq_filter {α : Type} {test : α → Bool} {entries : List α}
    (first : entries.Pairwise fun a b => test b → test a) :
    entries.takeWhile test = entries.filter test := by
  induction entries with
  | nil => rfl
  | cons a rest ih =>
    obtain ⟨before, first⟩ := List.pairwise_cons.mp first
    cases passed : test a with
    | true => rw [List.takeWhile_cons_of_pos passed, List.filter_cons_of_pos passed, ih first]
    | false =>
      have failed : ¬ test a = true := by simp [passed]
      rw [List.takeWhile_cons_of_neg failed, List.filter_cons_of_neg failed]
      exact (List.filter_eq_nil_iff.mpr fun b mem found => failed (before b mem found)).symm

namespace Records

/-- The records of a partition. -/
def within (records : Records) (partition : String) : Records :=
  records.keep fun key _ => key.partition == partition

/-- The keys of a partition stand together, from the least that it could have on. -/
theorem Ordered.range_eq {records : Records} (ordered : records.Ordered) (partition : String) :
    records.range partition = (records.within partition).entries := by
  obtain ⟨entries⟩ := records
  simp only [range, within, Records.keep]
  induction entries with
  | nil => rfl
  | cons first rest ih =>
    obtain ⟨before, rest_ordered⟩ := List.pairwise_cons.mp ordered
    cases start : compare first.1 ⟨partition, ""⟩ == .lt with
    | true =>
      have other := Key.partition_of_before (beq_iff_eq.mp start)
      rw [List.dropWhile_cons, if_pos start, List.filter_cons_of_neg (by simpa using other)]
      exact ih rest_ordered
    | false =>
      rw [List.dropWhile_cons, if_neg (by simp [start])]
      apply takeWhile_eq_filter
      -- From here on no key comes before the partition, and later keys are of no earlier one.
      have reached : ∀ entry ∈ first :: rest, compare entry.1 ⟨partition, ""⟩ ≠ .lt := by
        intro entry mem less
        rcases List.mem_cons.mp mem with rfl | mem
        · simp [less] at start
        · simp [Std.TransCmp.lt_trans (before entry mem) less] at start
      refine List.Pairwise.imp_of_mem ?_ ordered
      intro a b memA _ less same
      have partitionB : b.1.partition = partition := by simpa using same
      have least := Key.partition_of_not_before (reached a memA)
      have greatest : compare a.1.partition partition ≠ .gt := by
        intro greater
        rw [Key.compare_eq, partitionB, greater] at less
        cases less
      cases order : compare a.1.partition partition with
      | lt => exact absurd order least
      | eq => simpa using Std.LawfulEqOrd.eq_of_compare order
      | gt => exact absurd order greatest

end Records

/-! ## Accesses -/

/-- The partition that an access is about. -/
def Access.partition : Access → String
  | .write _ key _ _ => key.partition
  | .delete key => key.partition
  | .deleteMatching partition _ => partition
  | .deleteExpired partition => partition
  | .get key => key.partition
  | .contains key => key.partition
  | .count partition _ => partition
  | .list partition _ _ => partition

/-- The partition that an operation is about. -/
def Store.Operation.partition : Operation → String
  | .write _ partition _ _ _ => partition
  | .remove partition _ => partition
  | .removeAll partition _ _ => partition
  | .sweep partition => partition
  | .get partition _ => partition
  | .contains partition _ => partition
  | .count partition _ _ => partition
  | .list partition _ _ _ => partition

/-- A valid key has the parts it is made of. -/
theorem Key.eq_of_ofParts {partition id : String} {key : Key}
    (valid : Key.ofParts partition id = .ok key) : key = ⟨partition, id⟩ := by
  unfold ofParts at valid
  split at valid
  · cases valid
  · split at valid
    · cases valid
    · cases valid
      rfl

theorem Key.partition_of_ofParts {partition id : String} {key : Key}
    (valid : Key.ofParts partition id = .ok key) : key.partition = partition :=
  congrArg Key.partition (eq_of_ofParts valid)

/-- The access of an operation is about its partition. -/
theorem access_partition {operation : Operation} {access : Access}
    (accessed : operation.access = .ok access) : access.partition = operation.partition := by
  cases operation <;> obtain ⟨a, found, rfl⟩ := map_eq_ok.mp accessed
  case write | remove | get | contains => exact Key.partition_of_ofParts found
  case removeAll | sweep | count | list => rfl

namespace Records

variable {records : Records} {partition : String}

/-! ## Keeping records -/

theorem within_within (records : Records) (partition : String) :
    (records.within partition).within partition = records.within partition := by
  simp only [within, keep, List.filter_filter, Bool.and_self]

/-- Keeping records and looking at a partition may change places. -/
theorem keep_within (records : Records) (partition : String) (test : Key → Record → Bool) :
    (records.within partition).keep test = (records.keep test).within partition := by
  simp only [within, keep]
  rw [List.filter_comm]

/-- What a partition keeps is as it was. -/
theorem within_keep_of_kept {test : Key → Record → Bool}
    (kept : ∀ key record, key.partition = partition → test key record) :
    (records.keep test).within partition = records.within partition := by
  simp only [within, keep, List.filter_filter]
  apply congrArg Records.mk
  apply List.filter_congr
  intro entry _
  by_cases here : entry.1.partition = partition
  · simp [here, kept entry.1 entry.2 here]
  · simp [here]

/-- How many records are gone is how many failed the test. -/
theorem prune_number (records : Records) (test : Key → Record → Bool) :
    (records.prune test).1 =
      (records.entries.filter fun entry => !test entry.1 entry.2).length := by
  have all := List.length_eq_length_filter_add (l := records.entries)
    fun entry => test entry.1 entry.2
  simp only [prune, size, keep]
  omega

/-- Where only records of a partition can fail a test, the partition settles how many do. -/
theorem prune_within (records : Records) (partition : String) (test : Key → Record → Bool)
    (kept : ∀ key record, key.partition ≠ partition → test key record) :
    ((records.within partition).prune test).1 = (records.prune test).1 ∧
      ((records.within partition).prune test).2.within partition =
        (records.prune test).2.within partition := by
  constructor
  · rw [prune_number, prune_number]
    simp only [within, keep, List.filter_filter]
    apply congrArg List.length
    apply List.filter_congr
    intro entry _
    by_cases here : entry.1.partition = partition
    · simp [here]
    · simp [kept entry.1 entry.2 here]
  · show ((records.within partition).keep test).within partition =
      (records.keep test).within partition
    rw [keep_within, within_within]

/-! ## Accesses within a partition -/

theorem Ordered.find?_within (ordered : records.Ordered) (key : Key) :
    (records.within key.partition).find? key = records.find? key := by
  have found := KeyList.Ordered.find?_filter ordered
    (fun entry => entry.1.partition == key.partition) key
  show KeyList.find? key (records.entries.filter _) = KeyList.find? key records.entries
  rw [found]
  cases KeyList.find? key records.entries with
  | none => rfl
  | some record => simp

theorem live_within (records : Records) (partition : String) (condition : Option Check)
    (now : Instant) :
    (records.within partition).live partition condition now =
      records.live partition condition now := by
  simp only [live, within, keep, List.filter_filter]
  apply List.filter_congr
  intro entry _
  cases entry.1.partition == partition <;> simp

/-- An access goes by the records of its partition alone. -/
theorem Ordered.perform_within (ordered : records.Ordered) (now : Instant) (access : Access) :
    ((records.within access.partition).perform now access).1 = (records.perform now access).1 ∧
      ((records.within access.partition).perform now access).2.within access.partition =
        (records.perform now access).2.within access.partition := by
  cases access with
  | write mode key value expires =>
    simp only [Access.partition, Records.perform, write, ordered.find?_within]
    cases mode.written (records.find? key) value now expires with
    | none => exact ⟨rfl, within_within ..⟩
    | some record =>
      exact ⟨rfl, congrArg Records.mk (KeyList.Ordered.filter_insert ordered _ key record)⟩
  | delete key =>
    simp only [Access.partition, Records.perform, delete, ordered.find?_within]
    exact ⟨trivial, by rw [keep_within, within_within]⟩
  | deleteMatching partition condition =>
    obtain ⟨number, kept⟩ := prune_within records partition
      (fun key record => key.partition != partition || !meets condition record.value)
      (by simp +contextual)
    exact ⟨congrArg Answer.number number, kept⟩
  | deleteExpired partition =>
    obtain ⟨number, kept⟩ := prune_within records partition
      (fun key record => key.partition != partition || !record.isExpired now)
      (by simp +contextual)
    exact ⟨congrArg Answer.number number, kept⟩
  | get key =>
    simp only [Access.partition, Records.perform, findLive?, ordered.find?_within]
    exact ⟨trivial, within_within ..⟩
  | contains key =>
    simp only [Access.partition, Records.perform, findLive?, ordered.find?_within]
    exact ⟨trivial, within_within ..⟩
  | count partition condition =>
    simp only [Access.partition, Records.perform, count, live_within]
    exact ⟨trivial, within_within ..⟩
  | list partition condition page =>
    simp only [Access.partition, Records.perform, list, live_within]
    exact ⟨trivial, within_within ..⟩

/-- An access leaves the other partitions as they are. -/
theorem Ordered.perform_apart (ordered : records.Ordered) (now : Instant) {access : Access}
    (apart : access.partition ≠ partition) :
    (records.perform now access).2.within partition = records.within partition := by
  cases access with
  | write mode key value expires =>
    simp only [Records.perform, write]
    cases mode.written (records.find? key) value now expires with
    | none => rfl
    | some record =>
      have outside : ∀ w : Record, ((key, w).1.partition == partition) = false :=
        fun _ => beq_eq_false_iff_ne.mpr apart
      exact congrArg Records.mk (KeyList.Ordered.filter_insert_of_not ordered
        (fun entry => entry.1.partition == partition) outside record)
  | delete key =>
    apply within_keep_of_kept
    rintro k _ rfl
    exact decide_eq_true fun same => apart (same ▸ rfl)
  | deleteMatching other condition =>
    apply within_keep_of_kept
    rintro k _ rfl
    have different : (k.partition != other) = true := bne_iff_ne.mpr (Ne.symm apart)
    rw [different, Bool.true_or]
  | deleteExpired other =>
    apply within_keep_of_kept
    rintro k _ rfl
    have different : (k.partition != other) = true := bne_iff_ne.mpr (Ne.symm apart)
    rw [different, Bool.true_or]
  | get | contains | count | list => rfl

end Records

/-! ## Steps and runs -/

namespace Store

variable {store own : Store} {partition : String} {operation : Operation}

/-- A step leaves records in key order. -/
theorem ordered_step (ordered : store.records.Ordered) (now : Instant) (operation : Operation) :
    (store.step now operation).2.records.Ordered := by
  rw [(store.step_perform now operation).2]
  cases operation.access with
  | error => exact ordered
  | ok access => exact ordered.perform now access

/-- A step on a partition goes by the records of the partition alone. -/
theorem step_within (ordered : store.records.Ordered) (ordered_own : own.records.Ordered)
    (same : store.records.within partition = own.records.within partition) (now : Instant)
    (about : operation.partition = partition) :
    (store.step now operation).1 = (own.step now operation).1 ∧
      (store.step now operation).2.records.within partition =
        (own.step now operation).2.records.within partition := by
  obtain ⟨answer, records⟩ := store.step_perform now operation
  obtain ⟨answer_own, records_own⟩ := own.step_perform now operation
  rw [answer, records, answer_own, records_own]
  cases accessed : operation.access with
  | error e => exact ⟨rfl, same⟩
  | ok access =>
    obtain rfl : access.partition = partition := (access_partition accessed).trans about
    obtain ⟨answers, leaves⟩ := ordered.perform_within now access
    obtain ⟨answers_own, leaves_own⟩ := ordered_own.perform_within now access
    simp only [Except.map, Records.performed]
    rw [← answers, ← leaves, ← answers_own, ← leaves_own, same]
    exact ⟨rfl, rfl⟩

/-- A step on another partition leaves the records of a partition alone. -/
theorem step_apart (ordered : store.records.Ordered) (now : Instant)
    (apart : operation.partition ≠ partition) :
    (store.step now operation).2.records.within partition = store.records.within partition := by
  rw [(store.step_perform now operation).2]
  cases accessed : operation.access with
  | error e => rfl
  | ok access =>
    exact ordered.perform_apart now fun same => apart ((access_partition accessed).symm.trans same)

/-- The operations of a run that are about a partition, each at its instant. -/
def operationsOn (partition : String) (operations : List (Instant × Operation)) :
    List (Instant × Operation) :=
  operations.filter fun entry => entry.2.partition == partition

/-- Of the answers to a run those to the operations on a partition. -/
def answersOn (partition : String) (operations : List (Instant × Operation))
    (answers : List (Except StoreError Answer)) : List (Except StoreError Answer) :=
  ((operations.zip answers).filter fun entry => entry.1.2.partition == partition).map (·.2)

theorem run_within (partition : String) (operations : List (Instant × Operation))
    (ordered : store.records.Ordered) (ordered_own : own.records.Ordered)
    (same : store.records.within partition = own.records.within partition) :
    answersOn partition operations (store.run operations).1 =
        (own.run (operationsOn partition operations)).1 ∧
      (store.run operations).2.records.within partition =
        (own.run (operationsOn partition operations)).2.records.within partition := by
  induction operations generalizing store own with
  | nil => exact ⟨rfl, same⟩
  | cons entry rest ih =>
    obtain ⟨now, operation⟩ := entry
    have ordered_next := ordered_step ordered now operation
    by_cases about : operation.partition = partition
    · obtain ⟨answer, next⟩ := step_within ordered ordered_own same now about
      obtain ⟨answers, left⟩ := ih ordered_next (ordered_step ordered_own now operation) next
      have kept : operationsOn partition ((now, operation) :: rest) =
          (now, operation) :: operationsOn partition rest :=
        List.filter_cons_of_pos (by simpa using about)
      rw [kept]
      simp only [run]
      refine ⟨?_, left⟩
      rw [← answers, ← answer]
      simp [answersOn, about]
    · have next := (step_apart ordered now about).trans same
      obtain ⟨answers, left⟩ := ih ordered_next ordered_own next
      have dropped : operationsOn partition ((now, operation) :: rest) =
          operationsOn partition rest :=
        List.filter_cons_of_neg (by simpa using about)
      rw [dropped]
      simp only [run]
      refine ⟨?_, left⟩
      rw [← answers]
      simp [answersOn, about]

theorem ordered_run (operations : List (Instant × Operation)) (ordered : store.records.Ordered) :
    (store.run operations).2.records.Ordered := by
  induction operations generalizing store with
  | nil => exact ordered
  | cons entry rest ih => exact ih (ordered_step ordered entry.1 entry.2)

/-- What a run does to a partition is what its operations on the partition do without the others.
Each of them answers the same, the same records are left in the partition, and they are the ones
that going through its keys finds. -/
theorem partitions_apart (operations : List (Instant × Operation)) (partition : String) :
    answersOn partition operations (Store.empty.run operations).1 =
        (Store.empty.run (operationsOn partition operations)).1 ∧
      (Store.empty.run operations).2.records.within partition =
        (Store.empty.run (operationsOn partition operations)).2.records.within partition ∧
      (Store.empty.run operations).2.records.range partition =
        ((Store.empty.run operations).2.records.within partition).entries ∧
      (Store.empty.run operations).2.records.range partition =
        (Store.empty.run (operationsOn partition operations)).2.records.range partition := by
  have ordered : Store.empty.records.Ordered := Records.ordered_empty
  obtain ⟨answers, left⟩ := run_within partition operations ordered ordered rfl
  refine ⟨answers, left, (ordered_run operations ordered).range_eq partition, ?_⟩
  rw [(ordered_run operations ordered).range_eq, (ordered_run _ ordered).range_eq, left]

end Store

end DocStore
