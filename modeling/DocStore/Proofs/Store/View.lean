import Mathlib
import DocStore.Proofs.Store.Layers
import DocStore.Proofs.Text.Bytes

/-!
# All reads describe one view

At an instant a partition shows some documents under their ids.  Reading a key, listing, counting
and sweeping each find out on their own which ones, and agree, for every mix of live and expired
records and every page.

* `Page.consecutive`, `Page.consecutive_flatten`: pages that follow each other tile what they are
  pages of;
* `Records.Keyed`: the keys of all records are valid, as they are in every run;
* `Store.view`, `Store.Shows`: what a partition shows, and that this is what can be got from it, in
  byte order of ids;
* `reads_share_view`: what every reading and a sweep have to do with the view.
-/

namespace DocStore

open Store (Answer Operation)

/-! ## Pages -/

namespace Page

theorem slice_eq {α : Type} (page : Page) (items : List α) :
    page.slice items =
      (items.drop (page.offset.elim 0 UInt64.toNat)).take
        (page.limit.elim items.length UInt64.toNat) := by
  have all {n : Nat} : (items.drop n).take items.length = items.drop n :=
    List.take_of_length_le (by simp)
  obtain ⟨_ | limit, _ | offset⟩ := page <;> simp [slice, all]

/-- Pages with some limits, each of them from where the one before it ends. -/
def consecutive (start : UInt64) : List UInt64 → List Page
  | [] => []
  | limit :: rest => ⟨some limit, some start⟩ :: consecutive (start + limit) rest

/-- Consecutive pages have between them what a single page with the sum of their limits has. -/
theorem consecutive_flatten {α : Type} (items : List α) {start : UInt64} {limits : List UInt64}
    (few : start.toNat + (limits.map UInt64.toNat).sum < UInt64.size) :
    ((consecutive start limits).map fun page => page.slice items).flatten =
      (items.drop start.toNat).take (limits.map UInt64.toNat).sum := by
  induction limits generalizing start with
  | nil => simp [consecutive]
  | cons limit rest ih =>
    simp only [List.map_cons, List.sum_cons] at few
    have next : (start + limit).toNat = start.toNat + limit.toNat := by
      rw [UInt64.toNat_add]
      exact Nat.mod_eq_of_lt (Nat.lt_of_le_of_lt (by omega) few)
    simp only [consecutive, List.map_cons, List.flatten_cons, List.sum_cons]
    rw [ih (by omega), next, List.take_add, List.drop_drop]
    rfl

end Page

/-! ## The keys of records -/

/-- A key that is made of parts is valid. -/
theorem Key.valid_of_ofParts {partition id : String} {key : Key}
    (made : Key.ofParts partition id = .ok key) : key.Valid := by
  obtain rfl := eq_of_ofParts made
  exact made

/-- The partition of a valid key is valid. -/
theorem Key.Valid.checkPart {key : Key} (valid : key.Valid) :
    Key.checkPart .partition key.partition = .ok () :=
  (Key.checkPart_eq_ok .partition).mpr (Key.valid_iff.mp valid).1

namespace Records

variable {records : Records}

/-- Whether the keys of all records are valid. -/
def Keyed (records : Records) : Prop := ∀ entry ∈ records.entries, entry.1.Valid

theorem keyed_empty : empty.Keyed := fun _ mem => nomatch mem

theorem Keyed.keep (keyed : records.Keyed) (test : Key → Record → Bool) :
    (records.keep test).Keyed :=
  fun entry mem => keyed entry (List.mem_filter.mp mem).1

theorem Keyed.insert (keyed : records.Keyed) {key : Key} (valid : key.Valid) (record : Record) :
    (records.insert key record).Keyed := by
  intro entry mem
  rcases KeyList.eq_or_mem_of_mem_insert mem with rfl | mem
  · exact valid
  · exact keyed entry mem

/-- No record is in a partition that no key can have, so it has none to lose. -/
theorem Keyed.keep_refused (keyed : records.Keyed) {partition : String} {e : StoreError}
    (refused : Key.checkPart .partition partition = .error e) {test : Key → Record → Bool}
    (kept : ∀ key record, key.partition ≠ partition → test key record) :
    records.keep test = records := by
  apply congrArg Records.mk
  apply List.filter_eq_self.mpr
  intro entry stored
  apply kept
  rintro rfl
  rw [(keyed entry stored).checkPart] at refused
  cases refused

/-- An access to valid keys leaves valid keys. -/
theorem Keyed.perform (keyed : records.Keyed) (now : Instant) {operation : Operation}
    {access : Access} (accessed : operation.access = .ok access) :
    (records.perform now access).2.Keyed := by
  cases access with
  | write mode key value expires =>
    have valid : key.Valid := by
      cases operation <;> obtain ⟨a, found, made⟩ := map_eq_ok.mp accessed <;> cases made
      exact Key.valid_of_ofParts found
    simp only [Records.perform, write]
    cases mode.written (records.find? key) value now expires with
    | none => exact keyed
    | some record => exact keyed.insert valid record
  | delete | deleteMatching | deleteExpired => exact keyed.keep _
  | get | contains | count | list => exact keyed

end Records

/-- A step leaves valid keys. -/
theorem Store.keyed_step {store : Store} (keyed : store.records.Keyed) (now : Instant)
    (operation : Operation) : (store.step now operation).2.records.Keyed := by
  rw [(store.step_perform now operation).2]
  cases accessed : operation.access with
  | error e => exact keyed
  | ok access => exact keyed.perform now accessed

/-- A run leaves valid keys. -/
theorem Store.keyed_run {store : Store} (keyed : store.records.Keyed)
    (history : List (Instant × Operation)) : (store.run history).2.records.Keyed := by
  induction history generalizing store with
  | nil => exact keyed
  | cons entry rest ih => exact ih (keyed_step keyed entry.1 entry.2)

/-! ## Live records -/

namespace Records

variable {records : Records} {partition : String} {now : Instant}

/-- The live records of a partition are those that are live under their keys. -/
theorem Ordered.mem_live (ordered : records.Ordered) {key : Key} {record : Record} :
    (key, record) ∈ records.live partition none now ↔
      key.partition = partition ∧ records.findLive? key now = some record := by
  unfold live findLive?
  rw [List.mem_filter, Option.filter_eq_some_iff, find?, KeyList.Ordered.find?_eq_some_iff ordered]
  simp only [meets, Bool.and_true, Bool.and_eq_true, beq_iff_eq]
  exact and_left_comm

/-- The live records that meet a condition are some of the live ones. -/
theorem live_meets (records : Records) (partition : String) (condition : Option Check)
    (now : Instant) :
    records.live partition condition now =
      (records.live partition none now).filter fun entry => meets condition entry.2.value := by
  simp only [live, List.filter_filter]
  apply List.filter_congr
  intro entry _
  simp only [meets, Bool.and_true]
  exact Bool.and_comm ..

/-- Live records of a partition stand in byte order of their ids. -/
theorem Ordered.live_ids (ordered : records.Ordered) (condition : Option Check) :
    (records.live partition condition now).Pairwise fun a b =>
      bytesOf a.1.id < bytesOf b.1.id := by
  have within {entry : Key × Record} (mem : entry ∈ records.live partition condition now) :
      entry.1.partition = partition := by
    have passed := (List.mem_filter.mp mem).2
    simp only [Bool.and_eq_true, beq_iff_eq] at passed
    exact passed.1.1
  refine (List.Pairwise.filter _ ordered).imp_of_mem ?_
  intro a b memA memB less
  rw [Key.compare_eq, within memA, within memB, Std.compare_self] at less
  exact compare_eq_lt_iff_bytes.mp less

end Records

/-! ## The view -/

namespace Store

variable {store : Store} {partition : String} {now : Instant}

/-- The live documents of a partition under their ids. -/
def view (store : Store) (partition : String) (now : Instant) : List (String × Json) :=
  (store.records.live partition none now).map fun entry => (entry.1.id, entry.2.value)

/-- Whether some ids and documents are what can be got from a partition at an instant, in byte order
of the ids and each id once. -/
structure Shows (store : Store) (partition : String) (now : Instant)
    (view : List (String × Json)) : Prop where
  ordered : view.Pairwise fun a b => bytesOf a.1 < bytesOf b.1
  got : ∀ id document,
    (id, document) ∈ view ↔ (store.get partition id now).1 = .ok (some document)

/-- What is got is the live document, if the key is valid. -/
theorem get_answer (store : Store) (partition id : String) (now : Instant) :
    (store.get partition id now).1 =
      (Key.ofParts partition id).map fun key =>
        (store.records.findLive? key now).map (·.value) := by
  unfold get onKey
  cases Key.ofParts partition id <;> rfl

theorem contains_answer (store : Store) (partition id : String) (now : Instant) :
    (store.contains partition id now).1 = (store.get partition id now).1.map Option.isSome := by
  unfold contains get onKey
  cases Key.ofParts partition id with
  | error e => rfl
  | ok key => exact congrArg Except.ok Option.isSome_map.symm

theorem shows_view (ordered : store.records.Ordered) (keyed : store.records.Keyed) :
    store.Shows partition now (store.view partition now) where
  ordered := List.pairwise_map.mpr (ordered.live_ids none)
  got id document := by
    rw [get_answer, map_eq_ok]
    constructor
    · intro mem
      obtain ⟨⟨key, record⟩, live, same⟩ := List.mem_map.mp mem
      cases same
      obtain ⟨rfl, found⟩ := ordered.mem_live.mp live
      have stored : (key, record) ∈ store.records.entries := (List.mem_filter.mp live).1
      exact ⟨key, keyed _ stored, by rw [found]; rfl⟩
    · rintro ⟨key, made, found⟩
      obtain rfl := Key.eq_of_ofParts made
      obtain ⟨record, live, rfl⟩ := Option.map_eq_some_iff.mp found
      exact List.mem_map.mpr ⟨_, ordered.mem_live.mpr ⟨rfl, live⟩, rfl⟩

/-- The ids of the view are those of the records of the partition that have not expired. -/
theorem mem_view_ids (ordered : store.records.Ordered) {entry : Key × Record}
    (stored : entry ∈ store.records.entries) (within : entry.1.partition = partition) :
    entry.1.id ∈ (store.view partition now).map (·.1) ↔ entry.2.isExpired now = false := by
  have found : store.records.find? entry.1 = some entry.2 :=
    (KeyList.Ordered.find?_eq_some_iff ordered).mpr stored
  constructor
  · intro mem
    obtain ⟨item, shown, same⟩ := List.mem_map.mp mem
    obtain ⟨⟨key, record⟩, live, rfl⟩ := List.mem_map.mp shown
    obtain ⟨here, foundLive⟩ := ordered.mem_live.mp live
    have keys : key = entry.1 := by
      cases key
      simp only at here same
      rw [here, same, ← within]
    obtain ⟨again, alive⟩ := Option.filter_eq_some_iff.mp foundLive
    rw [keys, found, Option.some_inj] at again
    simpa [again] using alive
  · intro alive
    have foundLive : store.records.findLive? entry.1 now = some entry.2 :=
      Option.filter_eq_some_iff.mpr ⟨found, by simp [alive]⟩
    have live := ordered.mem_live.mpr ⟨within, foundLive⟩
    exact List.mem_map.mpr ⟨_, List.mem_map.mpr ⟨_, live, rfl⟩, rfl⟩

/-- A sweep keeps what is in another partition or in the view. -/
theorem sweep_records (ordered : store.records.Ordered) (keyed : store.records.Keyed) :
    (store.sweep partition now).2.records =
      store.records.keep fun key _ =>
        key.partition ≠ partition ∨ key.id ∈ (store.view partition now).map (·.1) := by
  unfold sweep
  cases checked : Key.checkPart .partition partition with
  | error e => exact (keyed.keep_refused checked fun _ _ outside => by simp [outside]).symm
  | ok =>
    apply congrArg Records.mk
    apply List.filter_congr
    intro entry stored
    by_cases within : entry.1.partition = partition
    · have shown : entry.1.id ∈ (store.view partition now).map (·.1) ↔ _ :=
        mem_view_ids ordered stored within
      simp [within, shown]
    · simp [within]

/-! ## Readings of the view -/

/-- The documents of a view that meet a condition. -/
def documentsOf (view : List (String × Json)) (condition : Option Check) : List Json :=
  (view.filter fun shown => Records.meets condition shown.2).map (·.2)

theorem documentsOf_none (view : List (String × Json)) :
    documentsOf view none = view.map (·.2) := by
  simp [documentsOf, Records.meets]

/-- The documents of a view that meet a condition, as they are found among the live records. -/
theorem live_documents (store : Store) (partition : String) (condition : Option Check)
    (now : Instant) :
    ((store.records.live partition condition now).map fun entry => entry.2.value) =
      documentsOf (store.view partition now) condition := by
  rw [Records.live_meets, documentsOf, view, List.filter_map, List.map_map]
  rfl

/-- Whether what is read of a partition at an instant, and what a sweep does to it, goes by a view.
All that is said of a partition that no key can have is that it is refused. -/
structure ReadsAs (store : Store) (partition : String) (now : Instant)
    (view : List (String × Json)) : Prop where
  contains : ∀ id,
    (store.contains partition id now).1 = (store.get partition id now).1.map Option.isSome
  list : ∀ schema,
    (store.list partition schema none .whole now).1 =
      (Key.checkPart .partition partition).map fun _ => view.map (·.2)
  page : ∀ {schema filter condition}, conditionOf schema filter = .ok condition →
    ∀ limit offset, (store.list partition schema filter ⟨limit, offset⟩ now).1 =
      (Key.checkPart .partition partition).map fun _ =>
        ((documentsOf view condition).drop (offset.elim 0 UInt64.toNat)).take
          (limit.elim (documentsOf view condition).length UInt64.toNat)
  tiles : ∀ {schema filter condition}, conditionOf schema filter = .ok condition →
    Key.checkPart .partition partition = .ok () →
    ∀ limits : List UInt64, (limits.map UInt64.toNat).sum < UInt64.size →
      ((Page.consecutive 0 limits).mapM fun page =>
          (store.list partition schema filter page now).1).map List.flatten =
        .ok ((documentsOf view condition).take (limits.map UInt64.toNat).sum)
  count : ∀ {schema filter condition}, conditionOf schema filter = .ok condition →
    (store.count partition schema filter now).1 =
      (Key.checkPart .partition partition).map fun _ => (documentsOf view condition).length
  items : ∀ {schema filter page}, (store.items partition schema filter page now).1 =
    (store.list partition schema filter page now).1.map (List.map .ok)
  countItems : ∀ {schema filter}, (store.countItems partition schema filter now).1 =
    (store.count partition schema filter now).1
  sweep : (store.sweep partition now).2.records = store.records.keep fun key _ =>
    key.partition ≠ partition ∨ key.id ∈ view.map (·.1)

variable {schema : Schema} {filter : Option Filter} {condition : Option Check}

/-- An operation on a valid partition answers by the condition of its filter. -/
theorem onPartition_answer {α : Type} {act : Option Check → Store → Reply α} {answer : α}
    (compiles : conditionOf schema filter = .ok condition)
    (answers : ∀ next : Store, next.records = store.records →
      (act condition next).1 = .ok answer) :
    (store.onPartition partition schema filter act).1 =
      (Key.checkPart .partition partition).map fun _ => answer := by
  have prepared := store.prepare_answer schema filter
  have same := store.prepare_records schema filter
  unfold onPartition
  cases Key.checkPart .partition partition with
  | error e => rfl
  | ok =>
    rcases found : store.prepare schema filter with ⟨result, next⟩
    rw [found] at prepared same
    obtain rfl : result = .ok condition := prepared.trans compiles
    exact answers next same

theorem list_answer (compiles : conditionOf schema filter = .ok condition) (page : Page) :
    (store.list partition schema filter page now).1 =
      (Key.checkPart .partition partition).map fun _ =>
        page.slice (documentsOf (store.view partition now) condition) := by
  apply onPartition_answer compiles
  intro next same
  rw [same, Records.list, live_documents]

theorem count_answer (compiles : conditionOf schema filter = .ok condition) :
    (store.count partition schema filter now).1 =
      (Key.checkPart .partition partition).map fun _ =>
        (documentsOf (store.view partition now) condition).length := by
  apply onPartition_answer compiles
  intro next same
  rw [same, Records.count, ← live_documents, List.length_map]

/-- Consecutive pages of a partition have between them its first documents. -/
theorem list_consecutive (compiles : conditionOf schema filter = .ok condition)
    (valid : Key.checkPart .partition partition = .ok ()) {limits : List UInt64}
    (few : (limits.map UInt64.toNat).sum < UInt64.size) :
    ((Page.consecutive 0 limits).mapM fun page =>
        (store.list partition schema filter page now).1).map List.flatten =
      .ok ((documentsOf (store.view partition now) condition).take
        (limits.map UInt64.toNat).sum) := by
  have answers : (fun page => (store.list partition schema filter page now).1) = fun page =>
      pure (page.slice (documentsOf (store.view partition now) condition)) := by
    funext page
    rw [list_answer compiles, valid]
    rfl
  rw [answers, List.mapM_pure]
  exact congrArg Except.ok (Page.consecutive_flatten _ (by simpa using few))

theorem readsAs_view (ordered : store.records.Ordered) (keyed : store.records.Keyed) :
    store.ReadsAs partition now (store.view partition now) where
  contains id := store.contains_answer partition id now
  list schema := by
    have unfiltered : conditionOf schema none = .ok none := rfl
    rw [list_answer unfiltered, documentsOf_none]
    rfl
  page compiles limit offset := by rw [list_answer compiles, Page.slice_eq]
  tiles compiles valid _ few := list_consecutive compiles valid few
  count compiles := count_answer compiles
  items := congrArg Prod.fst (items_eq ordered _ now)
  countItems := congrArg Prod.fst (countItems_eq ordered now)
  sweep := sweep_records ordered keyed

end Store

/-- In every store that a run leaves, a partition shows one view at an instant: the documents that
can be got, in byte order of their ids.  A key exists where the view has it; a listing is the view,
its documents that meet the filter, or the part of these on a page; consecutive pages tile them; a
count is their number; and a sweep removes the records of the partition that the view leaves out. -/
theorem reads_share_view (history : List (Instant × Operation)) (partition : String)
    (now : Instant) :
    let store := (Store.empty.run history).2
    store.Shows partition now (store.view partition now) ∧
      store.ReadsAs partition now (store.view partition now) := by
  have ordered : (Store.empty.run history).2.records.Ordered :=
    Store.ordered_run history Records.ordered_empty
  have keyed : (Store.empty.run history).2.records.Keyed :=
    Store.keyed_run Records.keyed_empty history
  exact ⟨Store.shows_view ordered keyed, Store.readsAs_view ordered keyed⟩

/-- A document with a number and a flag. -/
def flagged (n : Int) (raised : Bool) : Json := .object [("n", .ofInt n), ("open", .bool raised)]

/-- A run that leaves live and expired records in two partitions.  The order of the ids is neither
that of their lengths nor that of their UTF-16 units. -/
def mixedRun : List (Instant × Operation) :=
  [(⟨0, 0⟩, .write .create "p" "𠀀" (flagged 1 true) none),
    (⟨0, 0⟩, .write .create "p" "～" (flagged 2 true) (some ⟨11, 0⟩)),
    (⟨0, 0⟩, .write .create "p" "aa" (flagged 3 false) none),
    (⟨0, 0⟩, .write .create "p" "b" (flagged 4 true) (some ⟨10, 0⟩)),
    (⟨0, 0⟩, .write .create "q" "b" (flagged 5 true) (some ⟨10, 0⟩))]

theorem reads_share_view_of_mixed :
    let store := (Store.empty.run mixedRun).2
    let now : Instant := ⟨10, 0⟩
    let schema := (Schema.empty "Item").declare "open" (.required (.scalar .bool))
    let opened : Option Filter := some ⟨.flag ⟨["open"]⟩, []⟩
    conditionOf schema opened = .ok (some (.flag ⟨["open"]⟩)) ∧
      store.view "p" now =
        [("aa", flagged 3 false), ("～", flagged 2 true), ("𠀀", flagged 1 true)] ∧
      (store.get "p" "～" now).1 = .ok (some (flagged 2 true)) ∧
      (store.list "p" schema none .whole now).1 =
        .ok [flagged 3 false, flagged 2 true, flagged 1 true] ∧
      (store.count "p" schema opened now).1 = .ok 2 ∧
      (store.list "p" schema opened ⟨some 5, some 1⟩ now).1 = .ok [flagged 1 true] ∧
      ((Page.consecutive 0 [1, 0, 18446744073709551614]).mapM fun page =>
          (store.list "p" schema opened page now).1).map List.flatten =
        .ok [flagged 2 true, flagged 1 true] ∧
      (store.sweep "p" now).2.records.entries.map (·.1) =
        [⟨"p", "aa"⟩, ⟨"p", "～"⟩, ⟨"p", "𠀀"⟩, ⟨"q", "b"⟩] := by
  intro store now schema opened
  obtain ⟨shows, reads⟩ := reads_share_view mixedRun "p" now
  have compiles : conditionOf schema opened = .ok (some (.flag ⟨["open"]⟩)) := rfl
  have few : ([1, 0, 18446744073709551614].map UInt64.toNat).sum < UInt64.size := by decide
  have second : ("～", flagged 2 true) ∈ store.view "p" now :=
    List.mem_cons_of_mem _ List.mem_cons_self
  exact ⟨compiles, rfl, (shows.got _ _).mp second, reads.list schema, reads.count compiles,
    reads.page compiles _ _, reads.tiles compiles rfl _ few,
    congrArg (fun records => records.entries.map (·.1)) reads.sweep⟩

end DocStore
