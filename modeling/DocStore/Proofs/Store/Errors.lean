import DocStore.CommandLine.Run
import DocStore.Proofs.Store.Layers
import DocStore.Store.Typed

/-!
# Errors leave the records alone

An operation that ends in an error has not touched the records.  An invalid key is found before
anything is counted, a filter that is refused is counted as rejected and nothing else, and a
document that cannot be decoded has been read.

* `Store.Refused`: the errors of an operation, and the store that each leaves;
* `Store.step_refused`, `Request.perform_refused`: operations and commands that end in an error;
* `Store.ErrorsHarmless`: what an error does to a store, typed access and listings included;
* `errors_harmless`: errors are harmless in every store that a run leaves.
-/

namespace DocStore

open Store (Answer Operation Reply)

/-! ## Errors of operations -/

/-- An error of an operation, and the store that it leaves: an invalid key leaves it as it was, and
a refused filter counts itself. -/
inductive Store.Refused (store : Store) : StoreError → Store → Prop
  | key (part : KeyPart) (length : Nat) : Refused store (.invalidKey part length) store
  | filter (cause : QueryError) :
      Refused store (.query cause)
        { store with metrics :=
          { store.metrics with predicatesRejected := store.metrics.predicatesRejected + 1 } }

theorem Store.Refused.records {store next : Store} {e : StoreError}
    (refused : store.Refused e next) : next.records = store.records := by
  cases refused <;> rfl

theorem Key.checkPart_error {part : KeyPart} {s : String} {e : StoreError}
    (refused : Key.checkPart part s = .error e) : e = .invalidKey part s.length := by
  unfold checkPart at refused
  split at refused
  · cases refused
    rfl
  · cases refused

theorem Key.ofParts_error {partition id : String} {e : StoreError}
    (refused : Key.ofParts partition id = .error e) :
    ∃ part length, e = .invalidKey part length := by
  unfold ofParts at refused
  split at refused
  · rename_i _ found
    cases refused
    exact ⟨_, _, checkPart_error found⟩
  · split at refused
    · rename_i _ found
      cases refused
      exact ⟨_, _, checkPart_error found⟩
    · cases refused

namespace Store

variable {α : Type} {store next : Store} {e : StoreError} {partition id : String} {schema : Schema}
  {filter : Option Filter} {now : Instant}

theorem prepare_refused (refused : store.prepare schema filter = (.error e, next)) :
    store.Refused e next := by
  cases filter with
  | none => cases refused
  | some filter =>
    simp only [prepare] at refused
    split at refused
    · cases refused
    · cases refused
      exact .filter _

/-- Whether every error of a reply is a refusal. -/
def Reply.Refuses (store : Store) (reply : Reply α) : Prop :=
  ∀ e next, reply = (.error e, next) → store.Refused e next

theorem refuses_ok {a : α} : Reply.Refuses store (.ok a, next) := by
  intro e after failed
  cases failed

theorem refuses_onKey {act : Key → Reply α} (each : ∀ key, Reply.Refuses store (act key)) :
    Reply.Refuses store (store.onKey partition id act) := by
  intro e next failed
  unfold onKey at failed
  split at failed
  · rename_i _ found
    cases failed
    obtain ⟨part, length, rfl⟩ := Key.ofParts_error found
    exact .key part length
  · exact each _ e next failed

theorem refuses_onPartition {act : Option Check → Store → Reply α}
    (each : ∀ condition after, Reply.Refuses store (act condition after)) :
    Reply.Refuses store (store.onPartition partition schema filter act) := by
  intro e next failed
  unfold onPartition at failed
  split at failed
  · rename_i _ found
    cases failed
    rw [Key.checkPart_error found]
    exact .key ..
  · split at failed
    · rename_i _ _ found
      cases failed
      exact prepare_refused found
    · exact each _ _ e next failed

theorem write_refuses (mode : WriteMode) (value : Json) (expires : Option Instant) :
    Reply.Refuses store (store.write mode partition id value expires now) := by
  apply refuses_onKey
  intro key
  split <;> exact refuses_ok

theorem remove_refuses : Reply.Refuses store (store.remove partition id) := by
  apply refuses_onKey
  intro key
  split <;> exact refuses_ok

theorem removeAll_refuses : Reply.Refuses store (store.removeAll partition schema filter) :=
  refuses_onPartition fun _ _ => refuses_ok

theorem sweep_refuses : Reply.Refuses store (store.sweep partition now) := by
  intro e next failed
  unfold sweep at failed
  split at failed
  · rename_i _ found
    cases failed
    rw [Key.checkPart_error found]
    exact .key ..
  · cases failed

theorem get_refuses : Reply.Refuses store (store.get partition id now) :=
  refuses_onKey fun _ => refuses_ok

theorem contains_refuses : Reply.Refuses store (store.contains partition id now) :=
  refuses_onKey fun _ => refuses_ok

theorem count_refuses : Reply.Refuses store (store.count partition schema filter now) :=
  refuses_onPartition fun _ _ => refuses_ok

theorem list_refuses (page : Page) :
    Reply.Refuses store (store.list partition schema filter page now) :=
  refuses_onPartition fun _ _ => refuses_ok

/-- An error passes through what is made of the answers. -/
theorem eq_of_map_error {β : Type} {reply : Reply α} {wrap : α → β}
    (failed : (reply.1.map wrap, reply.2) = (.error e, next)) : reply = (.error e, next) := by
  obtain ⟨answer, after⟩ := reply
  cases answer with
  | error => cases failed; rfl
  | ok => cases failed

/-- A step that ends in an error is refused. -/
theorem step_refused {operation : Operation}
    (failed : store.step now operation = (.error e, next)) : store.Refused e next := by
  cases operation with
  | write => exact write_refuses _ _ _ _ _ (eq_of_map_error failed)
  | remove => exact remove_refuses _ _ (eq_of_map_error failed)
  | removeAll => exact removeAll_refuses _ _ (eq_of_map_error failed)
  | sweep => exact sweep_refuses _ _ (eq_of_map_error failed)
  | get => exact get_refuses _ _ (eq_of_map_error failed)
  | contains => exact contains_refuses _ _ (eq_of_map_error failed)
  | count => exact count_refuses _ _ (eq_of_map_error failed)
  | list => exact list_refuses _ _ _ (eq_of_map_error failed)

/-! ## Typed access -/

/-- A reading that gets past its key is counted. -/
theorem get_counted {found : Option Json} (got : store.get partition id now = (.ok found, next)) :
    next = store.counted .read := by
  unfold get onKey at got
  split at got
  · cases got
  · cases got
    rfl

theorem decode_error {read? : Json → Option α} {value : Json}
    (failed : decode read? value = .error e) : e = .undecodable := by
  unfold decode at failed
  split at failed
  · cases failed
  · cases failed
    rfl

/-- Of a typed reading an error is a refusal, or the document has been read and is not of the
type. -/
theorem getWith_refused {read? : Json → Option α}
    (failed : store.getWith read? partition id now = (.error e, next)) :
    store.Refused e next ∨ e = .undecodable ∧
      next = { store with metrics := { store.metrics with reads := store.metrics.reads + 1 } } := by
  unfold getWith at failed
  split at failed
  case h_1 got =>
    cases failed
    exact .inl (get_refuses _ _ got)
  case h_2 => cases failed
  case h_3 value after got =>
    obtain ⟨undecoded, rfl⟩ := Prod.mk.inj failed
    refine .inr ⟨?_, get_counted got⟩
    cases decoded : decode read? value with
    | ok => rw [decoded] at undecoded; cases undecoded
    | error =>
      rw [decoded] at undecoded
      cases undecoded
      exact decode_error decoded

/-- Of a typed writing an error is a refusal, or the value is no document. -/
theorem writeWith_refused {document? : α → Option Json} {mode : WriteMode} {value : α}
    {expires : Option Instant}
    (failed : store.writeWith document? mode partition id value expires now = (.error e, next)) :
    store.Refused e next ∨ e = .undecodable ∧ next = store := by
  unfold writeWith onKey at failed
  split at failed
  · rename_i _ found
    cases failed
    obtain ⟨part, length, rfl⟩ := Key.ofParts_error found
    exact .inl (.key part length)
  · split at failed
    · exact .inl (write_refuses _ _ _ _ _ failed)
    · cases failed
      exact .inr ⟨rfl, rfl⟩

end Store

/-! ## Commands -/

section Commands

variable {α : Type} {store next : Store} {e : CommandError}

theorem Store.Reply.result_refused {reply : Reply α} {encode : α → Json}
    (refuses : reply.Refuses store) (failed : reply.result encode = (.error e, next)) :
    ∃ cause, e = .store cause ∧ store.Refused cause next := by
  obtain ⟨answer, after⟩ := reply
  cases answer with
  | ok => cases failed
  | error cause =>
    cases failed
    exact ⟨cause, rfl, refuses _ _ rfl⟩

/-- A command that ends in an error has done nothing to the store, or the store has refused it. -/
theorem Request.perform_refused {request : Request} {config : Config} {around : Surroundings}
    {now : Instant} (failed : request.perform store config around now = (.error e, next)) :
    next = store ∨ ∃ cause, e = .store cause ∧ store.Refused cause next := by
  have selected {query : QueryArgs} {act : Schema → Option Filter → CommandResult Json × Store}
      (each : ∀ schema filter, act schema filter = (.error e, next) →
        ∃ cause, e = .store cause ∧ store.Refused cause next)
      (failed : onSelection store around query act = (.error e, next)) :
      next = store ∨ ∃ cause, e = .store cause ∧ store.Refused cause next := by
    unfold onSelection at failed
    split at failed
    · cases failed
      exact .inl rfl
    · exact .inr (each _ _ failed)
  cases request with
  | init => cases failed
  | compile query first => exact .inl (congrArg Prod.snd failed).symm
  | get id partition => exact .inr (Store.Reply.result_refused Store.get_refuses failed)
  | put id given mode expires partition =>
    simp only [perform] at failed
    split at failed
    · cases failed
      exact .inl rfl
    · split at failed
      · cases failed
        exact .inl rfl
      · exact .inr (Store.Reply.result_refused (Store.write_refuses _ _ _) failed)
  | remove id partition => exact .inr (Store.Reply.result_refused Store.remove_refuses failed)
  | list query page partition =>
    exact selected (fun _ _ => Store.Reply.result_refused (Store.list_refuses _)) failed
  | count query partition =>
    exact selected (fun _ _ => Store.Reply.result_refused Store.count_refuses) failed
  | purge query partition =>
    exact selected (fun _ _ => Store.Reply.result_refused Store.removeAll_refuses) failed
  | sweep partition => exact .inr (Store.Reply.result_refused Store.sweep_refuses failed)

end Commands

/-! ## Stores that a run leaves -/

/-- What an error does to a store: nothing to the records, and to the counters no more than what was
done before it was met. -/
structure Store.ErrorsHarmless (store : Store) : Prop where
  /-- An operation that ends in an error is refused. -/
  step {now operation e next} (failed : store.step now operation = (.error e, next)) :
    store.Refused e next
  /-- A document that cannot be decoded has been read. -/
  typed_get {α : Type} {read? : Json → Option α} {partition id now e next}
    (failed : store.getWith read? partition id now = (.error e, next)) :
    store.Refused e next ∨ e = .undecodable ∧
      next = { store with metrics := { store.metrics with reads := store.metrics.reads + 1 } }
  /-- A value that is no document is not written. -/
  typed_write {α : Type} {document? : α → Option Json} {mode partition id value expires now e next}
    (failed : store.writeWith document? mode partition id value expires now = (.error e, next)) :
    store.Refused e next ∨ e = .undecodable ∧ next = store
  typed_list {α : Type} [Document α] {partition filter page now e next}
    (failed : store.listAs α partition filter page now = (.error e, next)) : store.Refused e next
  /-- A filter that has been translated passes the check that is made of it again. -/
  lowered {schema filter prepared next}
    (translated : store.translate schema filter = (.ok prepared, next)) :
    ∃ condition, PreparedFilter.lowered prepared = .ok condition
  /-- No item of a listing is an error before it is decoded. -/
  items {partition schema filter page now listed next}
    (found : store.items partition schema filter page now = (.ok listed, next)) :
    ∀ item ∈ listed, ∃ document, item = .ok document
  /-- Listing, counting and removing by way of a translated filter are refused where the operations
  are. -/
  layers {partition schema filter page now} :
    store.items partition schema filter page now =
        ((store.list partition schema filter page now).1.map (List.map .ok),
          (store.list partition schema filter page now).2) ∧
      store.countItems partition schema filter now = store.count partition schema filter now ∧
      store.removeItems partition schema filter = store.removeAll partition schema filter
  /-- A command that ends in an error has done nothing to the store, or the store has refused it. -/
  command {request : Request} {config around now e next}
    (failed : request.perform store config around now = (.error e, next)) :
    next.records = store.records ∧
      (next = store ∨ ∃ cause, e = .store cause ∧ store.Refused cause next)

/-- Errors are harmless in every store that a run of operations leaves. -/
theorem errors_harmless {history : List (Instant × Operation)} {store : Store}
    (reached : (Store.empty.run history).2 = store) : store.ErrorsHarmless := by
  have ordered : store.records.Ordered := reached ▸ Store.ordered_run history Records.ordered_empty
  constructor
  case step => exact Store.step_refused
  case typed_get => exact Store.getWith_refused
  case typed_write => exact Store.writeWith_refused
  case typed_list =>
    intro α _ partition filter page now e next failed
    exact Store.list_refuses page _ _ (Store.eq_of_map_error failed)
  case lowered =>
    intro schema filter prepared next translated
    rcases store.translate_prepare schema filter with
      ⟨_, _, refused, -⟩ | ⟨_, condition, _, translated', -, lowered⟩
    · cases refused.symm.trans translated
    · cases translated'.symm.trans translated
      exact ⟨condition, lowered⟩
  case items =>
    intro partition schema filter page now listed next found item mem
    rw [Store.items_eq ordered] at found
    obtain ⟨answered, -⟩ := Prod.mk.inj found
    obtain ⟨documents, -, rfl⟩ := map_eq_ok.mp answered
    obtain ⟨document, -, rfl⟩ := List.mem_map.mp mem
    exact ⟨document, rfl⟩
  case layers =>
    intro partition schema filter page now
    exact ⟨Store.items_eq ordered page now, Store.countItems_eq ordered now, Store.removeItems_eq⟩
  case command =>
    intro request config around now e next failed
    have refused := Request.perform_refused failed
    refine ⟨?_, refused⟩
    rcases refused with rfl | ⟨cause, -, refused⟩
    · rfl
    · exact refused.records

/-- A store with a document that is no item. -/
def misfitted : Store :=
  (Store.empty.run [(⟨0, 0⟩, .write .create "p" "a" (.ofInt 1) none)]).2

theorem errors_harmless_of_misfit :
    misfitted.ErrorsHarmless ∧
      (misfitted.step ⟨1, 0⟩ (.remove "" "a")).1 = .error (.invalidKey .partition 0) ∧
      (misfitted.getWith Item.ofJson? "p" "a" ⟨1, 0⟩).1 = .error .undecodable :=
  ⟨errors_harmless rfl, rfl, rfl⟩

end DocStore
