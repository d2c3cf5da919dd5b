import DocStore.Proofs.Check.Derivation
import DocStore.Proofs.Store.Access

/-!
# Expired records cannot be seen

A store keeps expired records until they are swept or written over.  A store that erases every
document the moment it expires, and so need never ask whether one has, gives the same answers to
everything but deletions.

* `Holdings.step`, `Holdings.run`: the store that erases;
* `Records.held`: the documents that it has where the other store has some records;
* `Records.held_perform`: an access does to them what it does to the records;
* `expired_unseen`: in every run the answers are the same, and sweeping changes none of them.
-/

namespace DocStore

open Store (Answer Operation)

/-! ## A store that erases -/

/-- A document with the instant at which it expires, if ever. -/
structure Holding where
  value : Json
  expires : Option Instant
deriving Repr

/-- Whether a document is yet to expire, or never will. -/
def Holding.outlasts (holding : Holding) (now : Instant) : Bool :=
  holding.expires.all fun expiry => now.order expiry == .lt

/-- Whether a mode writes where there is a document, or where there is none. -/
def WriteMode.admits (mode : WriteMode) (present : Bool) : Bool :=
  match mode with
  | .create => !present
  | .update => present
  | .upsert => true

/-- The documents of a store, none of which has expired, in key order. -/
abbrev Holdings := List (Key × Holding)

namespace Holdings

/-- The documents that are yet to expire. -/
def erase (holdings : Holdings) (now : Instant) : Holdings :=
  holdings.filter fun entry => entry.2.outlasts now

/-- The documents of a partition that meet a condition. -/
def matching (holdings : Holdings) (partition : String) (condition : Option Check) : Holdings :=
  holdings.filter fun entry =>
    entry.1.partition == partition && Records.meets condition entry.2.value

/-- What the documents answer to an access, and what it leaves of them.  Nothing is swept, as
nothing has expired. -/
def perform (holdings : Holdings) : Access → Answer × Holdings
  | .write mode key value expires =>
    if mode.admits (KeyList.find? key holdings).isSome then
      (.truth true, KeyList.insert key ⟨value, expires⟩ holdings)
    else (.truth false, holdings)
  | .delete key =>
    (.truth (KeyList.find? key holdings).isSome, holdings.filter fun entry => entry.1 ≠ key)
  | .deleteMatching partition condition =>
    (.number (holdings.matching partition condition).length,
      holdings.filter fun entry =>
        entry.1.partition != partition || !Records.meets condition entry.2.value)
  | .deleteExpired _ => (.number 0, holdings)
  | .get key => (.document ((KeyList.find? key holdings).map (·.value)), holdings)
  | .contains key => (.truth (KeyList.find? key holdings).isSome, holdings)
  | .count partition condition =>
    (.number (holdings.matching partition condition).length, holdings)
  | .list partition condition page =>
    (.documents (page.slice ((holdings.matching partition condition).map (·.2.value))), holdings)

/-- What an operation does at an instant.  What has expired by then is gone, and so is at once what
is written with an expiry that has passed. -/
def step (holdings : Holdings) (now : Instant) (operation : Operation) :
    Except StoreError Answer × Holdings :=
  match operation.access with
  | .error e => (.error e, holdings.erase now)
  | .ok access =>
    let (answer, holdings) := (holdings.erase now).perform access
    (.ok answer, holdings.erase now)

/-- A run of operations, each at its instant: what each answers, and the documents that are left. -/
def run (holdings : Holdings) :
    List (Instant × Operation) → List (Except StoreError Answer) × Holdings
  | [] => ([], holdings)
  | (now, operation) :: rest =>
    let (answer, holdings) := holdings.step now operation
    let (answers, holdings) := run holdings rest
    (answer :: answers, holdings)

end Holdings

/-! ## What can be seen -/

/-- Whether an access is answered by what is live alone. -/
def Access.observes : Access → Bool
  | .delete _ | .deleteMatching .. | .deleteExpired _ => false
  | _ => true

/-- Whether an operation is answered by what is live alone, unlike deletions, which count what they
delete. -/
def Store.Operation.observes : Operation → Bool
  | .remove .. | .removeAll .. | .sweep _ => false
  | _ => true

/-- The answers to the operations that see what is live. -/
def observed (operations : List (Instant × Operation))
    (answers : List (Except StoreError Answer)) : List (Except StoreError Answer) :=
  ((operations.zip answers).filter fun pair => pair.1.2.observes).map (·.2)

theorem observed_cons (first : Instant × Operation) (rest : List (Instant × Operation))
    (answer : Except StoreError Answer) (answers : List (Except StoreError Answer)) :
    observed (first :: rest) (answer :: answers) =
      if first.2.observes then answer :: observed rest answers else observed rest answers := by
  cases seen : first.2.observes <;> simp [observed, seen]

theorem Store.Operation.observes_access {operation : Operation} {access : Access}
    (asks : operation.access = .ok access) : access.observes = operation.observes := by
  cases operation
  all_goals
    obtain ⟨_, -, rfl⟩ := map_eq_ok.mp asks
    rfl

/-! ## Erasing -/

/-- What outlasts an instant outlasts every earlier one. -/
theorem Holding.outlasts_of_le {holding : Holding} {now later : Instant} (order : now ≤ later)
    (outlasts : holding.outlasts later) : holding.outlasts now := by
  unfold Holding.outlasts at *
  cases expiry : holding.expires with
  | none => rfl
  | some expiry =>
    simp only [expiry, Option.all_some, beq_iff_eq] at outlasts ⊢
    exact Std.TransCmp.lt_of_isLE_of_lt (Instant.le_iff.mp order) outlasts

namespace Holdings

theorem erase_erase (holdings : Holdings) {now later : Instant} (order : now ≤ later) :
    (holdings.erase now).erase later = holdings.erase later := by
  apply List.filter_filter.trans
  apply List.filter_congr
  intro entry _
  cases outlasts : entry.2.outlasts later with
  | false => rfl
  | true => exact Holding.outlasts_of_le order outlasts

theorem step_erase {holdings : Holdings} {now later : Instant} (order : now ≤ later)
    (operation : Operation) : (holdings.erase now).step later operation =
      holdings.step later operation := by
  simp only [step, erase_erase holdings order]

/-- Erasing ahead of a run changes none of its answers. -/
theorem run_erase {holdings : Holdings} {now : Instant} {operations : List (Instant × Operation)}
    (order : ∀ entry ∈ operations, now ≤ entry.1) :
    ((holdings.erase now).run operations).1 = (holdings.run operations).1 := by
  cases operations with
  | nil => rfl
  | cons first rest => simp only [run, step_erase (order first List.mem_cons_self)]

/-- A sweep finds nothing to do. -/
theorem step_sweep (holdings : Holdings) (now : Instant) (partition : String) :
    (holdings.step now (.sweep partition)).2 = holdings.erase now := by
  have twice := erase_erase holdings (Instant.le_refl now)
  simp only [step, Operation.access]
  cases Key.checkPart .partition partition with
  | error e => rfl
  | ok => exact twice

/-- A sweep in a run changes none of the answers that are observed. -/
theorem observed_run_sweep {before after : List (Instant × Operation)} {now : Instant}
    (order : ∀ entry ∈ after, now ≤ entry.1) (partition : String) (holdings : Holdings) :
    observed (before ++ (now, .sweep partition) :: after)
        (holdings.run (before ++ (now, .sweep partition) :: after)).1 =
      observed (before ++ after) (holdings.run (before ++ after)).1 := by
  induction before generalizing holdings with
  | nil =>
    -- All that is left of the sweep is an erasure, which the next step would have made.
    simp only [List.nil_append, run, observed_cons, step_sweep, run_erase order]
    rfl
  | cons first rest ih =>
    simp only [List.cons_append, run, observed_cons, ih]

end Holdings

/-! ## The documents of some records -/

def Record.holding (record : Record) : Holding := ⟨record.value, record.expires⟩

theorem Record.holding_outlasts (record : Record) (now : Instant) :
    record.holding.outlasts now = !record.isExpired now := by
  simp only [holding, Holding.outlasts, isExpired]
  cases record.expires with
  | none => rfl
  | some expiry => exact Instant.order_beq_lt now expiry

/-- The documents that a store that erases has at an instant. -/
def Records.held (records : Records) (now : Instant) : Holdings :=
  Holdings.erase (records.entries.map fun entry => (entry.1, entry.2.holding)) now

namespace Records

variable {records : Records} {now : Instant}

theorem Ordered.held (ordered : records.Ordered) : KeyList.Ordered (records.held now) :=
  (KeyList.Ordered.mapped ordered Record.holding).filter _

/-- What is held under a key is the live record. -/
theorem Ordered.find?_held (ordered : records.Ordered) (key : Key) :
    KeyList.find? key (records.held now) = (records.findLive? key now).map Record.holding := by
  have mapped := KeyList.Ordered.mapped ordered Record.holding
  have live : (fun holding : Holding => holding.outlasts now) ∘ Record.holding =
      fun record => !record.isExpired now :=
    funext fun record => record.holding_outlasts now
  unfold Records.held Holdings.erase
  rw [mapped.find?_filter, KeyList.find?_mapped, Option.filter_map, live]
  rfl

theorem held_erase {later : Instant} (order : now ≤ later) :
    (records.held now).erase later = records.held later :=
  Holdings.erase_erase _ order

/-- Leaving out records by their documents leaves out what is held. -/
theorem held_keep (test : Key → Holding → Bool) :
    (records.keep fun key record => test key record.holding).held now =
      (records.held now).filter fun entry => test entry.1 entry.2 := by
  simp only [held, keep, Holdings.erase, List.filter_map, List.filter_filter]
  congr 1
  exact List.filter_congr fun entry _ => Bool.and_comm _ _

theorem held_insert (ordered : records.Ordered) (key : Key) (record : Record) :
    (records.insert key record).held now =
      Holdings.erase (KeyList.insert key record.holding (records.held now)) now := by
  have mapped := KeyList.Ordered.mapped ordered Record.holding
  unfold held insert Holdings.erase
  -- The record is put among expired ones here and among live ones there.
  rw [KeyList.mapped_insert]
  exact (mapped.filter_insert _ key record.holding).symm

/-- The live documents are those held. -/
theorem live_held (partition : String) (condition : Option Check) :
    (records.live partition condition now).map (fun entry => (entry.1, entry.2.holding)) =
      (records.held now).matching partition condition := by
  simp only [live, held, Holdings.matching, Holdings.erase, List.filter_map, List.filter_filter]
  congr 1
  apply List.filter_congr
  intro entry _
  simp only [Function.comp_apply, Record.holding_outlasts]
  rw [Bool.and_right_comm]
  rfl

end Records

/-! ## Accesses -/

namespace WriteMode

/-- A write is made or not as the mode has it for the live record. -/
theorem written_isSome (mode : WriteMode) (found : Option Record) (value : Json) (now : Instant)
    (expires : Option Instant) : (mode.written found value now expires).isSome =
      mode.admits (found.filter fun record => !record.isExpired now).isSome := by
  cases found with
  | none => cases mode <;> rfl
  | some record =>
    cases expired : record.isExpired now <;> cases mode <;>
      simp [written, admits, Option.filter, expired]

/-- What is written has the value and the expiry that are given, whatever it is written over. -/
theorem written_holding {mode : WriteMode} {found : Option Record} {value : Json} {now : Instant}
    {expires : Option Instant} {record : Record}
    (writes : mode.written found value now expires = some record) :
    record.holding = ⟨value, expires⟩ := by
  unfold written at writes
  split at writes
  case h_1 => cases writes
  case h_2 => cases writes; rfl
  case h_3 => split at writes <;> cases writes; rfl
  case h_4 => split at writes <;> cases writes; rfl
  case h_5 => cases writes; rfl

end WriteMode

namespace Records

variable {records : Records}

/-- What is left of the documents held has not expired either. -/
theorem erase_filter_held (now : Instant) (test : Key × Holding → Bool) :
    Holdings.erase ((records.held now).filter test) now = (records.held now).filter test := by
  unfold Holdings.erase
  rw [List.filter_comm]
  exact congrArg (List.filter test) (held_erase (Instant.le_refl now))

/-- Deleting by what is held and erasing come to the same. -/
theorem held_keep_eq (now : Instant) (test : Key → Holding → Bool) :
    (records.keep fun key record => test key record.holding).held now =
      Holdings.erase ((records.held now).filter fun entry => test entry.1 entry.2) now := by
  rw [erase_filter_held, held_keep]

/-- A sweep takes nothing that is held. -/
theorem held_deleteExpired (now : Instant) (partition : String) :
    (records.deleteExpired partition now).2.held now = records.held now := by
  simp only [deleteExpired, prune, keep, held, Holdings.erase, List.filter_map,
    List.filter_filter]
  congr 1
  apply List.filter_congr
  intro entry _
  simp only [Function.comp_apply, Record.holding_outlasts]
  cases entry.2.isExpired now <;> simp

/-- An access does to what is held what it does to the records. -/
theorem Ordered.held_perform (ordered : records.Ordered) (now : Instant) (access : Access) :
    (records.perform now access).2.held now =
      Holdings.erase ((records.held now).perform access).2 now := by
  have unchanged : records.held now = (records.held now).erase now :=
    (held_erase (Instant.le_refl now)).symm
  cases access with
  | write mode key value expires =>
    have admits := mode.written_isSome (records.find? key) value now expires
    simp only [Records.perform, write, Holdings.perform, ordered.find?_held, Option.isSome_map]
    unfold findLive?
    rw [← admits]
    cases writes : mode.written (records.find? key) value now expires with
    | none => exact unchanged
    | some record =>
      rw [← WriteMode.written_holding writes]
      exact held_insert ordered key record
  | delete key => exact held_keep_eq now fun k _ => k ≠ key
  | deleteMatching partition condition =>
    exact held_keep_eq now fun k holding =>
      k.partition != partition || !meets condition holding.value
  | deleteExpired partition => exact (held_deleteExpired now partition).trans unchanged
  | get => exact unchanged
  | contains => exact unchanged
  | count => exact unchanged
  | list => exact unchanged

/-- An access that sees what is live alone has the same answer from what is held. -/
theorem Ordered.answer_held (ordered : records.Ordered) (now : Instant) {access : Access}
    (observes : access.observes) :
    (records.perform now access).1 = ((records.held now).perform access).1 := by
  cases access with
  | write mode key value expires =>
    have admits := mode.written_isSome (records.find? key) value now expires
    simp only [Records.perform, write, Holdings.perform, ordered.find?_held, Option.isSome_map]
    unfold findLive?
    rw [← admits]
    cases mode.written (records.find? key) value now expires <;> rfl
  | get key =>
    simp only [Records.perform, Holdings.perform, ordered.find?_held, Option.map_map]
    rfl
  | contains key =>
    simp only [Records.perform, Holdings.perform, ordered.find?_held, Option.isSome_map]
  | count partition condition =>
    simp only [Records.perform, Holdings.perform, count, ← live_held, List.length_map]
  | list partition condition page =>
    simp only [Records.perform, Holdings.perform, list, ← live_held, List.map_map]
    rfl
  | delete => cases observes
  | deleteMatching => cases observes
  | deleteExpired => cases observes

end Records

/-! ## Runs -/

/-- A step of the store that erases follows a step of the store that does not. -/
theorem Store.held_step {store : Store} (ordered : store.records.Ordered) (now : Instant)
    (operation : Operation) :
    (store.step now operation).2.records.Ordered ∧
      (store.step now operation).2.records.held now =
        ((store.records.held now).step now operation).2 ∧
      (operation.observes →
        (store.step now operation).1 = ((store.records.held now).step now operation).1) := by
  have unchanged : (store.records.held now).erase now = store.records.held now :=
    Records.held_erase (Instant.le_refl now)
  obtain ⟨answer, left⟩ := store.step_perform now operation
  rw [answer, left]
  unfold Holdings.step
  cases asks : operation.access with
  | error e => exact ⟨ordered, unchanged.symm, fun _ => rfl⟩
  | ok access =>
    simp only [unchanged]
    refine ⟨ordered.perform now access, ordered.held_perform now access, ?_⟩
    intro observes
    rw [← Operation.observes_access asks] at observes
    exact congrArg Except.ok (ordered.answer_held now observes)

/-- A run of the store that erases, from what is held, has the answers that are observed. -/
theorem Store.observed_run {store : Store} {now : Instant}
    {operations : List (Instant × Operation)} (ordered : store.records.Ordered)
    (order : operations.Pairwise fun a b => a.1 ≤ b.1)
    (later : ∀ entry ∈ operations, now ≤ entry.1) :
    observed operations (store.run operations).1 =
      observed operations ((store.records.held now).run operations).1 := by
  -- Before each step the erasing store has what is held at the instant of the step before.
  induction operations generalizing store now with
  | nil => rfl
  | cons first rest ih =>
    obtain ⟨before, order⟩ := List.pairwise_cons.mp order
    obtain ⟨stepOrdered, held, answer⟩ := store.held_step ordered first.1 first.2
    have erased : (store.records.held now).step first.1 first.2 =
        (store.records.held first.1).step first.1 first.2 := by
      rw [← Records.held_erase (later first List.mem_cons_self)]
      exact (Holdings.step_erase (Instant.le_refl first.1) first.2).symm
    simp only [run, Holdings.run, observed_cons, erased]
    rw [ih stepOrdered order before, held]
    cases observes : first.2.observes with
    | false => rfl
    | true => rw [answer observes]

/-- The same of a run from an empty store. -/
theorem Store.observed_run_empty {operations : List (Instant × Operation)}
    (order : operations.Pairwise fun a b => a.1 ≤ b.1) :
    observed operations (Store.empty.run operations).1 =
      observed operations (Holdings.run [] operations).1 := by
  cases operations with
  | nil => rfl
  | cons first rest =>
    obtain ⟨before, -⟩ := List.pairwise_cons.mp order
    have later : ∀ entry ∈ first :: rest, first.1 ≤ entry.1 :=
      List.forall_mem_cons.mpr ⟨Instant.le_refl first.1, before⟩
    exact Store.observed_run Records.ordered_empty order later

/-- In a run whose instants never go back, everything but deletions is answered as by a store that
erases each document the moment it expires; and a sweep, wherever it stands in the run, changes none
of these answers. -/
theorem expired_unseen {operations : List (Instant × Operation)}
    (order : operations.Pairwise fun a b => a.1 ≤ b.1) :
    observed operations (Store.empty.run operations).1 =
        observed operations (Holdings.run [] operations).1 ∧
      ∀ before now partition after, operations = before ++ (now, .sweep partition) :: after →
        observed operations (Store.empty.run operations).1 =
          observed (before ++ after) (Store.empty.run (before ++ after)).1 := by
  constructor
  · exact Store.observed_run_empty order
  rintro before now partition after rfl
  obtain ⟨-, afterOrder, -⟩ := List.pairwise_append.mp order
  obtain ⟨later, -⟩ := List.pairwise_cons.mp afterOrder
  have shorter : (before ++ after).Pairwise fun a b => a.1 ≤ b.1 :=
    order.sublist (List.Sublist.append_left (List.sublist_cons_self ..) before)
  rw [Store.observed_run_empty order, Store.observed_run_empty shorter]
  exact Holdings.observed_run_sweep later partition []

/-- A run in which a document expires and is put back for a while. -/
def lapsingRun (between : List (Instant × Operation)) : List (Instant × Operation) :=
  [(⟨0, 0⟩, .write .create "p" "a" (.ofInt 1) (some ⟨10, 0⟩)),
    (⟨9, 999999999⟩, .get "p" "a"),
    (⟨10, 0⟩, .write .update "p" "a" (.ofInt 2) none)] ++ between ++
  [(⟨11, 0⟩, .write .upsert "p" "a" (.ofInt 3) (some ⟨12, 0⟩)),
    (⟨11, 0⟩, .contains "p" "a"),
    (⟨12, 0⟩, .count "p" (.empty "Item") none)]

theorem expired_unseen_of_lapse :
    let swept := lapsingRun [(⟨10, 0⟩, .sweep "p")]
    (swept.Pairwise fun a b => a.1 ≤ b.1) ∧
      observed swept (Store.empty.run swept).1 = observed swept (Holdings.run [] swept).1 ∧
      observed swept (Store.empty.run swept).1 =
        observed (lapsingRun []) (Store.empty.run (lapsingRun [])).1 ∧
      observed (lapsingRun []) (Store.empty.run (lapsingRun [])).1 =
        [.ok (.truth true), .ok (.document (some (.ofInt 1))), .ok (.truth false),
          .ok (.truth true), .ok (.truth true), .ok (.number 0)] := by
  have order : (lapsingRun [(⟨10, 0⟩, .sweep "p")]).Pairwise fun a b => a.1 ≤ b.1 := by decide
  obtain ⟨answers, swept⟩ := expired_unseen order
  exact ⟨order, answers, swept _ _ _ _ rfl, rfl⟩

end DocStore
