import DocStore.Proofs.Store.Partitions

/-!
# Two layers are one

The store translates a filter, and the records check it again.  The second check finds what the
first has found, so what is done by way of a translated filter is what is done by the check at once.

* `Store.translate_prepare`: a filter is translated where it passes its check, and then passes it
  again;
* `Store.items_eq`, `Store.countItems_eq`, `Store.removeItems_eq`: listing, counting and removing.
-/

namespace DocStore

theorem Page.slice_map {α β : Type} (page : Page) (f : α → β) (items : List α) :
    page.slice (items.map f) = (page.slice items).map f := by
  unfold slice
  cases page.offset <;> cases page.limit <;> simp [List.map_drop, List.map_take]

namespace Records

/-- What is found by the keys of a partition is what the condition holds of. -/
theorem Ordered.matching_eq {records : Records} (ordered : records.Ordered) (partition : String)
    {prepared : Option PreparedFilter} {condition : Option Check}
    (lowered : PreparedFilter.lowered prepared = .ok condition) (now : Instant) :
    records.matching partition prepared now = .ok (records.live partition condition now) := by
  rw [matching, lowered, ordered.range_eq, Except.map]
  simp only [within, Records.keep, live, List.filter_filter]
  congr 1
  apply List.filter_congr
  intro entry _
  cases entry.1.partition == partition <;> simp

end Records

namespace Store

variable {store : Store} {partition : String} {schema : Schema} {filter : Option Filter}

/-- A filter that is translated passes its check, and passes it again; one that does not pass is
refused and counted alike. -/
theorem translate_prepare (store : Store) (schema : Schema) (filter : Option Filter) :
    (∃ e next, store.translate schema filter = (.error e, next) ∧
        store.prepare schema filter = (.error e, next)) ∨
      ∃ prepared condition next, store.translate schema filter = (.ok prepared, next) ∧
        store.prepare schema filter = (.ok condition, next) ∧
        PreparedFilter.lowered prepared = .ok condition := by
  cases filter with
  | none => exact .inr ⟨none, none, store, rfl, rfl, rfl⟩
  | some filter =>
    cases checked : filter.check schema with
    | error cause =>
      refine .inl ⟨.query cause, store.counted .rejected, ?_, ?_⟩
      · simp only [translate, Filter.compileFrom, checked, Except.map]
      · simp only [prepare, checked]
    | ok check =>
      refine .inr ⟨some ⟨schema, filter, check.compileFrom filterFirstIndex⟩, some check,
        store.counted .compiled, ?_, ?_, ?_⟩
      · simp only [translate, Filter.compileFrom, checked, Except.map]
      · simp only [prepare, checked]
      · simp only [PreparedFilter.lowered, checked]

/-- Operations that agree on what the filter is lowered to agree. -/
theorem onTranslated_eq {α : Type} {actPrepared : Option PreparedFilter → Store → Reply α}
    {act : Option Check → Store → Reply α}
    (agree : ∀ prepared condition (next : Store), next.records = store.records →
      PreparedFilter.lowered prepared = .ok condition →
      actPrepared prepared next = act condition next) :
    store.onTranslated partition schema filter actPrepared =
      store.onPartition partition schema filter act := by
  have same := store.prepare_records schema filter
  unfold onTranslated onPartition
  cases Key.checkPart .partition partition with
  | error e => rfl
  | ok =>
    rcases store.translate_prepare schema filter with
      ⟨e, next, translated, prepared⟩ | ⟨filter', condition, next, translated, prepared, lowered⟩
    · rw [translated, prepared]
    · rw [prepared] at same
      rw [translated, prepared]
      exact agree filter' condition next same lowered

/-- A listing has an item for each document and none for an error. -/
theorem items_eq (ordered : store.records.Ordered) (page : Page) (now : Instant) :
    store.items partition schema filter page now =
      ((store.list partition schema filter page now).1.map (List.map .ok),
        (store.list partition schema filter page now).2) := by
  have listed : store.items partition schema filter page now =
      store.onPartition partition schema filter fun condition next =>
        (.ok ((next.records.list partition condition page now).map .ok), next.counted .read) := by
    apply onTranslated_eq
    intro prepared condition next same lowered
    have ordered_next : next.records.Ordered := same ▸ ordered
    have matched := ordered_next.matching_eq partition lowered now
    simp only [Records.scan, matched, Records.list, Page.slice_map, List.map_map]
    rfl
  rw [listed, list]
  unfold onPartition
  cases Key.checkPart .partition partition with
  | error e => rfl
  | ok =>
    simp only
    rcases store.prepare schema filter with ⟨e | condition, next⟩ <;> rfl

theorem countItems_eq (ordered : store.records.Ordered) (now : Instant) :
    store.countItems partition schema filter now = store.count partition schema filter now := by
  apply onTranslated_eq
  intro prepared condition next same lowered
  have ordered_next : next.records.Ordered := same ▸ ordered
  have matched := ordered_next.matching_eq partition lowered now
  rw [matched]
  rfl

theorem removeItems_eq :
    store.removeItems partition schema filter = store.removeAll partition schema filter := by
  apply onTranslated_eq
  intro prepared condition next same lowered
  simp only [Records.deletePrepared, lowered, Except.map]

end Store

end DocStore
