import DocStore.Proofs.Store.View

/-!
# The life of a record

A record begins when it is created, goes on through updates and upserts, and ends when it is deleted
or when it is created anew after it has expired.  Its instants tell this story in order.

* `Record.Dated`: the instants of a record in order, none of them after a given one;
* `WriteMode.written_cases`: a write begins a record or replaces one;
* `Change`, `Store.step_changes`: what any operation makes of what there is under any key;
* `Store.dated_run`: the instants are in order after every run whose own instants are;
* `records_live_in_order`: the stored records, and what the next operation makes of them.
-/

namespace DocStore

open Store (Operation)

/-- Whether the instants of a record are in order and have come by some instant. -/
structure Record.Dated (record : Record) (now : Instant) : Prop where
  created : record.created ≤ now
  updated : ∀ instant ∈ record.updated, record.created ≤ instant ∧ instant ≤ now

namespace Record

variable {record : Record} {now : Instant}

theorem Dated.later {next : Instant} (dated : record.Dated now) (order : now ≤ next) :
    record.Dated next where
  created := Instant.le_trans dated.created order
  updated instant updated :=
    have ⟨after, before⟩ := dated.updated instant updated
    ⟨after, Instant.le_trans before order⟩

theorem dated_ofValue (value : Json) (now : Instant) (expires : Option Instant) :
    (ofValue value now expires).Dated now where
  created := Instant.le_refl now
  updated _ never := nomatch never

theorem Dated.replace (dated : record.Dated now) (value : Json) (expires : Option Instant) :
    (record.replace value now expires).Dated now where
  created := dated.created
  updated instant updated := by
    obtain rfl : now = instant := Option.some.inj updated
    exact ⟨dated.created, Instant.le_refl now⟩

end Record

/-! ## Writes -/

variable {mode : WriteMode} {value : Json} {now : Instant} {expires : Option Instant}

/-- What is written is a new record, over nothing or over an expired record, or the one that was
found with another value. -/
theorem WriteMode.written_cases {found : Option Record} {record : Record}
    (written : mode.written found value now expires = some record) :
    (mode ≠ .update ∧ (∀ old ∈ found, mode = .create ∧ old.isExpired now) ∧
        record = .ofValue value now expires) ∨
      (mode ≠ .create ∧ ∃ old ∈ found, record = old.replace value now expires) := by
  cases found with
  | none =>
    left
    cases mode with
    | update => cases written
    | create | upsert =>
      cases written
      exact ⟨by decide, (fun _ never => nomatch never), rfl⟩
  | some old =>
    cases mode with
    | create =>
      left
      obtain ⟨expired, rfl⟩ : old.isExpired now ∧ Record.ofValue value now expires = record := by
        simpa [WriteMode.written] using written
      refine ⟨by decide, fun other found => ?_, rfl⟩
      obtain rfl : old = other := Option.some.inj found
      exact ⟨rfl, expired⟩
    | update =>
      right
      obtain ⟨-, rfl⟩ : old.isExpired now = false ∧ old.replace value now expires = record := by
        simpa [WriteMode.written] using written
      exact ⟨by decide, old, rfl, rfl⟩
    | upsert =>
      right
      cases written
      exact ⟨by decide, old, rfl, rfl⟩

namespace Store

variable {store : Store} {partition id : String}

/-- A write that answers true puts what its mode allows under its key. -/
theorem write_written
    (written : (store.write mode partition id value expires now).1 = .ok true) :
    ∃ record, mode.written (store.records.find? ⟨partition, id⟩) value now expires = some record ∧
      (store.write mode partition id value expires now).2.records.find? ⟨partition, id⟩ =
        some record := by
  unfold write onKey at written ⊢
  cases made : Key.ofParts partition id with
  | error e =>
    rw [made] at written
    cases written
  | ok key =>
    obtain rfl := Key.eq_of_ofParts made
    rw [made] at written
    simp only [Records.write] at written ⊢
    cases allowed : mode.written (store.records.find? ⟨partition, id⟩) value now expires with
    | none =>
      rw [allowed] at written
      cases written
    | some record =>
      refine ⟨record, rfl, ?_⟩
      exact (KeyList.find?_insert _ _ record store.records.entries).trans (by simp)

/-- A write with any other answer leaves the records as they are. -/
theorem write_unwritten
    (unwritten : (store.write mode partition id value expires now).1 ≠ .ok true) :
    (store.write mode partition id value expires now).2.records = store.records := by
  unfold write onKey at unwritten ⊢
  cases made : Key.ofParts partition id with
  | error e => rfl
  | ok key =>
    rw [made] at unwritten
    simp only [Records.write] at unwritten ⊢
    cases allowed : mode.written (store.records.find? key) value now expires with
    | none => rfl
    | some record =>
      rw [allowed] at unwritten
      exact absurd rfl unwritten

end Store

/-! ## Changes -/

/-- Whether an operation is there to delete records. -/
def Store.Operation.deletes : Operation → Bool
  | .remove .. | .removeAll .. | .sweep .. => true
  | _ => false

/-- What an operation at an instant makes of what there is under a key. -/
inductive Change (now : Instant) (key : Key) :
    Operation → Option Record → Option Record → Prop where
  | kept {operation found} : Change now key operation found found
  | began {mode value expires found} (begins : mode ≠ .update)
      (free : ∀ old ∈ found, mode = .create ∧ old.isExpired now) :
      Change now key (.write mode key.partition key.id value expires) found
        (some (.ofValue value now expires))
  | replaced {mode value expires old} (continues : mode ≠ .create) :
      Change now key (.write mode key.partition key.id value expires) (some old)
        (some (old.replace value now expires))
  | ended {operation found} (deletes : operation.deletes) : Change now key operation found none

theorem Change.dated {key : Key} {operation : Operation} {before after : Option Record}
    (change : Change now key operation before after)
    (dated : ∀ record ∈ before, record.Dated now) : ∀ record ∈ after, record.Dated now := by
  intro record found
  cases change with
  | kept => exact dated record found
  | began =>
    cases found
    exact Record.dated_ofValue ..
  | @replaced _ _ _ old =>
    cases found
    exact (dated old rfl).replace ..
  | ended => cases found

/-- Where the key was and stays taken, the instant of creation is kept by all but a create over an
expired record. -/
theorem Change.created {key : Key} {operation : Operation} {old record : Record}
    (change : Change now key operation (some old) (some record)) :
    record.created = old.created ∨
      old.isExpired now ∧ ∃ value expires,
        operation = .write .create key.partition key.id value expires ∧
          record = .ofValue value now expires := by
  cases change with
  | kept => exact .inl rfl
  | replaced => exact .inl rfl
  | began _ free =>
    obtain ⟨rfl, expired⟩ := free old rfl
    exact .inr ⟨expired, _, _, rfl, rfl⟩

namespace Records

variable {records : Records}

theorem Ordered.keep_change (ordered : records.Ordered) (test : Key → Record → Bool) {key : Key}
    {operation : Operation} (deletes : operation.deletes) :
    Change now key operation (records.find? key) ((records.keep test).find? key) := by
  have found : (records.keep test).find? key = (records.find? key).filter (test key ·) :=
    KeyList.Ordered.find?_filter ordered _ key
  rw [found]
  cases records.find? key with
  | none => exact .kept
  | some record =>
    rw [Option.filter_some]
    cases test key record with
    | true => exact .kept
    | false => exact .ended deletes

/-- The access of an operation changes what is under a key in one of the ways there are. -/
theorem Ordered.perform_changes (ordered : records.Ordered) {operation : Operation}
    {access : Access} (accessed : operation.access = .ok access) (key : Key) :
    Change now key operation (records.find? key) ((records.perform now access).2.find? key) := by
  cases operation with
  | write mode partition id value expires =>
    obtain ⟨target, made, rfl⟩ := map_eq_ok.mp accessed
    obtain rfl := Key.eq_of_ofParts made
    simp only [Records.perform, write]
    cases written : mode.written (records.find? ⟨partition, id⟩) value now expires with
    | none => exact .kept
    | some record =>
      have found : (records.insert ⟨partition, id⟩ record).find? key =
          if key == ⟨partition, id⟩ then some record else records.find? key :=
        KeyList.find?_insert ..
      show Change now key _ _ ((records.insert ⟨partition, id⟩ record).find? key)
      by_cases here : key = ⟨partition, id⟩
      · obtain rfl := here
        rw [found, if_pos (beq_self_eq_true _)]
        obtain ⟨begins, free, rfl⟩ | ⟨continues, old, there, rfl⟩ :=
          WriteMode.written_cases written
        · exact .began begins free
        · rw [there]
          exact .replaced continues
      · rw [found, if_neg (by simpa using here)]
        exact .kept
  | remove | removeAll | sweep =>
    obtain ⟨_, -, rfl⟩ := map_eq_ok.mp accessed
    exact ordered.keep_change _ rfl
  | get | contains | count | list =>
    obtain ⟨_, -, rfl⟩ := map_eq_ok.mp accessed
    exact .kept

/-- Whether all records have their instants in order by some instant. -/
def Dated (records : Records) (now : Instant) : Prop :=
  ∀ key, ∀ record ∈ records.find? key, record.Dated now

theorem dated_empty (now : Instant) : empty.Dated now := fun _ _ found => nomatch found

theorem Dated.later {next : Instant} (dated : records.Dated now) (order : now ≤ next) :
    records.Dated next :=
  fun key record found => (dated key record found).later order

end Records

/-! ## Steps and runs -/

namespace Store

variable {store : Store}

/-- A step changes what is under a key in one of the ways there are. -/
theorem step_changes (ordered : store.records.Ordered) (now : Instant) (operation : Operation)
    (key : Key) :
    Change now key operation (store.records.find? key)
      ((store.step now operation).2.records.find? key) := by
  rw [(store.step_perform now operation).2]
  cases accessed : operation.access with
  | error e => exact .kept
  | ok access => exact ordered.perform_changes accessed key

theorem dated_step (ordered : store.records.Ordered) (dated : store.records.Dated now)
    (operation : Operation) : (store.step now operation).2.records.Dated now :=
  fun key => (step_changes ordered now operation key).dated (dated key)

/-- A run whose instants never go back leaves records with their instants in order. -/
theorem dated_run {history : List (Instant × Operation)} (ordered : store.records.Ordered)
    (dated : ∀ entry ∈ history, store.records.Dated entry.1) (dated_now : store.records.Dated now)
    (order : history.Pairwise fun a b => a.1 ≤ b.1) (reached : ∀ entry ∈ history, entry.1 ≤ now) :
    (store.run history).2.records.Dated now := by
  induction history generalizing store with
  | nil => exact dated_now
  | cons first rest ih =>
    obtain ⟨after, order⟩ := List.pairwise_cons.mp order
    obtain ⟨first_reached, reached⟩ := List.forall_mem_cons.mp reached
    have next := dated_step ordered (dated first List.mem_cons_self) first.2
    exact ih (ordered_step ordered first.1 first.2)
      (fun entry mem => next.later (after entry mem)) (next.later first_reached) order reached

variable (store now)

/-- How the records of a store live at an instant: what their keys and their instants are, and what
an operation at the instant makes of them. -/
structure Lives : Prop where
  keys : ∀ entry ∈ store.records.entries,
    (1 ≤ entry.1.partition.length ∧ entry.1.partition.length ≤ 255) ∧
      1 ≤ entry.1.id.length ∧ entry.1.id.length ≤ 255
  dated : ∀ entry ∈ store.records.entries, entry.2.Dated now
  /-- A create begins a record, under a key that is free or whose record has expired. -/
  began : ∀ {key value expires},
    (store.write .create key.partition key.id value expires now).1 = .ok true →
      (∀ old ∈ store.records.find? key, old.isExpired now) ∧
        (store.write .create key.partition key.id value expires now).2.records.find? key =
          some ⟨value, now, none, expires⟩
  /-- An update or an upsert replaces the record that there is and keeps its creation. -/
  replaced : ∀ {mode key value expires old}, mode ≠ .create → store.records.find? key = some old →
    (store.write mode key.partition key.id value expires now).1 = .ok true →
      (store.write mode key.partition key.id value expires now).2.records.find? key =
        some ⟨value, old.created, some now, expires⟩
  /-- Under a key that was and stays taken, only a create over an expired record has another
  creation. -/
  created : ∀ {operation key old record}, store.records.find? key = some old →
    (store.step now operation).2.records.find? key = some record →
      record.created = old.created ∨
        old.isExpired now ∧ ∃ value expires,
          operation = .write .create key.partition key.id value expires ∧
            record = ⟨value, now, none, expires⟩
  /-- A write that does not answer true, be it refused or an error, changes nothing. -/
  refused : ∀ {mode partition id value expires},
    (store.write mode partition id value expires now).1 ≠ .ok true →
      (store.write mode partition id value expires now).2.records = store.records

variable {store now}

theorem lives (ordered : store.records.Ordered) (keyed : store.records.Keyed)
    (dated : store.records.Dated now) : store.Lives now where
  keys entry stored := Key.valid_iff.mp (keyed entry stored)
  dated entry stored :=
    dated entry.1 entry.2 ((KeyList.Ordered.find?_eq_some_iff ordered).mpr stored)
  began written := by
    obtain ⟨record, allowed, found⟩ := write_written written
    obtain ⟨-, free, rfl⟩ | ⟨continues, -⟩ := WriteMode.written_cases allowed
    · exact ⟨fun old there => (free old there).2, found⟩
    · exact absurd rfl continues
  replaced {mode key value expires old} continues there written := by
    obtain ⟨record, allowed, found⟩ := write_written written
    obtain ⟨-, free, -⟩ | ⟨-, other, same, rfl⟩ := WriteMode.written_cases allowed
    · exact absurd (free old there).1 continues
    · obtain rfl : old = other := Option.some.inj (there.symm.trans same)
      exact found
  created {operation key old record} there found := by
    have change := step_changes ordered now operation key
    rw [there, found] at change
    exact change.created
  refused := write_unwritten

end Store

/-- In every store that a run leaves whose instants never go back, records have keys of 1 to 255
characters in each part and instants in order.  A create begins a record over nothing or over an
expired record; an update or an upsert of a record keeps its creation, as does everything else that
leaves a record under its key; and a write that is refused changes nothing. -/
theorem records_live_in_order {history : List (Instant × Operation)} {now : Instant}
    (order : history.Pairwise fun a b => a.1 ≤ b.1) (reached : ∀ entry ∈ history, entry.1 ≤ now) :
    (Store.empty.run history).2.Lives now := by
  have ordered : (Store.empty.run history).2.records.Ordered :=
    Store.ordered_run history Records.ordered_empty
  have keyed : (Store.empty.run history).2.records.Keyed :=
    Store.keyed_run Records.keyed_empty history
  have dated : (Store.empty.run history).2.records.Dated now :=
    Store.dated_run Records.ordered_empty (fun entry _ => Records.dated_empty entry.1)
      (Records.dated_empty now) order reached
  exact Store.lives ordered keyed dated

/-- A run that leaves a record that has been updated and one that has expired and then been
replaced. -/
def renewedRun : List (Instant × Operation) :=
  [(⟨0, 0⟩, .write .create "p" "a" (.ofInt 1) none),
    (⟨1, 0⟩, .write .create "p" "b" (.ofInt 2) (some ⟨3, 0⟩)),
    (⟨2, 0⟩, .write .update "p" "a" (.ofInt 3) none),
    (⟨4, 0⟩, .write .upsert "p" "b" (.ofInt 4) (some ⟨5, 0⟩))]

theorem records_live_in_order_of_renewed :
    let store := (Store.empty.run renewedRun).2
    let now : Instant := ⟨6, 0⟩
    (renewedRun.Pairwise fun a b => a.1 ≤ b.1) ∧ (∀ entry ∈ renewedRun, entry.1 ≤ now) ∧
      store.records.find? ⟨"p", "a"⟩ = some ⟨.ofInt 3, ⟨0, 0⟩, some ⟨2, 0⟩, none⟩ ∧
      store.records.find? ⟨"p", "b"⟩ = some ⟨.ofInt 4, ⟨1, 0⟩, some ⟨4, 0⟩, some ⟨5, 0⟩⟩ ∧
      (store.write .create "p" "b" (.ofInt 5) none now).2.records.find? ⟨"p", "b"⟩ =
        some ⟨.ofInt 5, now, none, none⟩ ∧
      (store.write .upsert "p" "b" (.ofInt 5) none now).2.records.find? ⟨"p", "b"⟩ =
        some ⟨.ofInt 5, ⟨1, 0⟩, some now, none⟩ ∧
      (store.write .create "p" "a" (.ofInt 5) none now).2.records = store.records := by
  intro store now
  have order : renewedRun.Pairwise fun a b => a.1 ≤ b.1 := by decide
  have reached : ∀ entry ∈ renewedRun, entry.1 ≤ now := by decide
  have lives := records_live_in_order order reached
  have expired : store.records.find? ⟨"p", "b"⟩ =
      some ⟨.ofInt 4, ⟨1, 0⟩, some ⟨4, 0⟩, some ⟨5, 0⟩⟩ := rfl
  have taken : (store.write .create "p" "a" (.ofInt 5) none now).1 = .ok false := rfl
  exact ⟨order, reached, rfl, expired, (lives.began rfl).2, lives.replaced (by decide) expired rfl,
    lives.refused fun written => nomatch taken.symm.trans written⟩

end DocStore
