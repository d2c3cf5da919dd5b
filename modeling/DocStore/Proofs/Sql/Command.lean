import DocStore.Proofs.Sql.Rendering

/-!
# Commands read from SQL text

What the database reads the text of a statement as: insertions with a change in place of a conflict,
updates, deletions and selections, on a table that is named with its schema.

* `SqlCommand`, `SqlAction`: a command as it is read;
* `SqlReader.command`, `SqlCommand.ofText`: the reader, and the command of a text;
* `SqlReader.run_listed`: items with commas between them;
* `SqlCommand.ofTokens_insert`, …: the tokens that each kind of command is read from.
-/

namespace DocStore

open DocStore.Text
open SqlToken (code)

/-! ## Commands -/

/-- What is asked of the rows that meet a condition. -/
inductive SqlOutput where
  | column (column : Column)
  | existence
  | number
deriving DecidableEq, Repr

/-- What a command does to a table. -/
inductive SqlAction where
  /-- Inserts a row.  If there is one already that has the same `target`, then that is changed, or
  only if it meets a condition; its columns go by a name there. -/
  | insert (name : Option String) (columns : List Column) (values : List SqlOperand)
      (target : List Column) (change : List (Column × SqlOperand)) (condition : Option SqlOperand)
  | update (change : List (Column × SqlOperand)) (condition : Option SqlOperand)
  | delete (condition : Option SqlOperand)
  | select (output : SqlOutput) (condition : Option SqlOperand)

/-- A command as the database reads it. -/
structure SqlCommand where
  schema : String
  table : String
  action : SqlAction

/-! ## The reader -/

namespace SqlReader

/-- A name of one word in double quotes. -/
def quotedName : SqlReader String := do
  expect "\""
  let s ← word
  expect "\""
  return s

/-- A table by the name of its schema and its own. -/
def tableName : SqlReader (String × String) := do
  let schema ← quotedName
  expect "."
  let name ← quotedName
  return (schema, name)

/-- Items with commas between them. -/
def listed {α : Type} (item : SqlReader α) : Nat → SqlReader (List α)
  | 0 => failure
  | fuel + 1 => do
    let a ← item
    match ← accept [","] with
    | none => return [a]
    | some _ => do
      let rest ← listed item fuel
      return a :: rest

def columnName : SqlReader Column := do
  let s ← word
  given (column? s)

def columnNames (fuel : Nat) : SqlReader (List Column) := do
  expect "("
  let columns ← listed columnName fuel
  expect ")"
  return columns

/-- A column with what it is set to. -/
def assignment (names : List (Option String)) (fuel : Nat) : SqlReader (Column × SqlOperand) := do
  let column ← columnName
  expect "="
  let o ← expression names fuel
  return (column, o)

/-- A condition, if there is one. -/
def condition (names : List (Option String)) (fuel : Nat) : SqlReader (Option SqlOperand) := do
  match ← accept ["WHERE"] with
  | none => return none
  | some _ => do
    let o ← expression names fuel
    return some o

/-- What the rows of a table go by that is inserted into. -/
def rowName : SqlReader (Option String) := do
  match ← accept ["AS"] with
  | none => return none
  | some _ => do
    let s ← word
    return some s

/-- The rows that columns may be taken from where a conflict is resolved: the row that is there, by
its name, and the one that was to be inserted. -/
def conflictNames (name : Option String) : List (Option String) :=
  (name.map some).toList ++ [some "EXCLUDED"]

/-- The columns of a row to be inserted, and its values. -/
def proposal (fuel : Nat) : SqlReader (List Column × List SqlOperand) := do
  let columns ← columnNames fuel
  expect "VALUES"
  expect "("
  let values ← listed (expression [] fuel) fuel
  expect ")"
  return (columns, values)

/-- The columns in which a row may be in conflict with another, and what is changed then, on what
condition. -/
def resolution (names : List (Option String)) (fuel : Nat) :
    SqlReader (List Column × List (Column × SqlOperand) × Option SqlOperand) := do
  expect "ON"
  expect "CONFLICT"
  let target ← columnNames fuel
  expect "DO"
  expect "UPDATE"
  expect "SET"
  let change ← listed (assignment names fuel) fuel
  let condition ← condition names fuel
  return (target, change, condition)

def insertion (fuel : Nat) : SqlReader SqlCommand := do
  expect "INTO"
  let table ← tableName
  let name ← rowName
  let (columns, values) ← proposal fuel
  let (target, change, condition) ← resolution (conflictNames name) fuel
  return ⟨table.1, table.2, .insert name columns values target change condition⟩

def update (fuel : Nat) : SqlReader SqlCommand := do
  let table ← tableName
  expect "SET"
  let change ← listed (assignment [none] fuel) fuel
  let condition ← condition [none] fuel
  return ⟨table.1, table.2, .update change condition⟩

def deletion (fuel : Nat) : SqlReader SqlCommand := do
  expect "FROM"
  let table ← tableName
  let condition ← condition [none] fuel
  return ⟨table.1, table.2, .delete condition⟩

/-- Where rows are selected. -/
def source (fuel : Nat) (output : SqlOutput) : SqlReader SqlCommand := do
  expect "FROM"
  let table ← tableName
  let condition ← condition [none] fuel
  return ⟨table.1, table.2, .select output condition⟩

def selection (fuel : Nat) : SqlReader SqlCommand := do
  let s ← word
  if s = "EXISTS" then do
    expect "("
    expect "SELECT"
    expect "1"
    let command ← source fuel .existence
    expect ")"
    return command
  else if s = "count" then do
    expect "("
    expect "*"
    expect ")"
    source fuel .number
  else do
    let column ← given (column? s)
    source fuel (.column column)

def command (fuel : Nat) : SqlReader SqlCommand := do
  let s ← word
  if s = "INSERT" then insertion fuel
  else if s = "UPDATE" then update fuel
  else if s = "DELETE" then deletion fuel
  else if s = "SELECT" then selection fuel
  else failure

end SqlReader

namespace SqlCommand

/-- The command that some tokens are read as, if nothing is left over. -/
def ofTokens (ts : List SqlToken) : Option SqlCommand :=
  match (SqlReader.command (ts.length + 1)).run ts with
  | some (command, []) => some command
  | _ => none

def ofText (s : String) : Option SqlCommand := (SqlToken.ofText s).bind ofTokens

end SqlCommand

/-! ## Parts of commands -/

namespace SqlReader

open SqlOperand (RendersWhole)

variable {names : List (Option String)}

/-- The tokens of the name of a table. -/
def tableTokens (schema name : String) : List SqlToken :=
  [code "\"", code schema, code "\"", code ".", code "\"", code name, code "\""]

theorem run_tableName (schema name : String) (more : List SqlToken) :
    tableName.run (tableTokens schema name ++ more) = some ((schema, name), more) := by
  simp [tableName, quotedName, tableTokens, run_expect, run_word]

/-- The tokens of items with a mark between them. -/
def separated (mark : String) : List (List SqlToken) → List SqlToken
  | [] => []
  | ts :: others => ts ++ others.flatMap fun us => code mark :: us

/-- There is a mark for every item but one. -/
theorem length_le_separated (mark : String) (tss : List (List SqlToken)) :
    tss.length ≤ (separated mark tss).length + 1 := by
  cases tss with
  | nil => exact Nat.zero_le _
  | cons ts others =>
    have marks : others.length ≤ (others.flatMap fun us => code mark :: us).length := by
      induction others with
      | nil => exact Nat.le_refl _
      | cons us others ih =>
        rw [List.flatMap_cons, List.length_append, List.length_cons, List.length_cons]
        omega
    rw [separated, List.length_append, List.length_cons]
    omega

/-- Items are read one by one if none of them goes on with a comma. -/
theorem run_listed {α β : Type} {item : SqlReader α} {words : List String} (apart : "," ∉ words)
    (tokens : β → List SqlToken) (read : β → α) {xs : List β} (filled : xs ≠ [])
    (each : ∀ x ∈ xs, ∀ more, Stops words more →
      item.run (tokens x ++ more) = some (read x, more))
    {n : Nat} (enough : xs.length ≤ n) {more : List SqlToken} (ends : Stops ("," :: words) more) :
    (listed item n).run (separated "," (xs.map tokens) ++ more) = some (xs.map read, more) := by
  induction xs generalizing n with
  | nil => exact absurd rfl filled
  | cons x xs ih =>
    obtain ⟨first, others⟩ := List.forall_mem_cons.mp each
    obtain ⟨m, rfl⟩ : ∃ m, n = m + 1 := ⟨n - 1, by simp at enough; omega⟩
    cases xs with
    | nil =>
      have read := first more (ends.mono (List.subset_cons_self ..))
      have last : Stops [","] more := ends.mono (by simp)
      simp [listed, separated, read, run_accept_none last]
    | cons y ys =>
      have rest := ih (List.cons_ne_nil _ _) others (Nat.le_of_succ_le_succ enough)
      have read := first (code "," :: (separated "," ((y :: ys).map tokens) ++ more))
        (stops_code apart _)
      have shape : separated "," ((x :: y :: ys).map tokens) ++ more =
          tokens x ++ code "," :: (separated "," ((y :: ys).map tokens) ++ more) := by
        simp [separated]
      rw [shape]
      generalize separated "," ((y :: ys).map tokens) ++ more = after at rest read
      simp [listed, read, run_accept (List.mem_singleton_self ","), rest]

theorem run_columnName (c : Column) (more : List SqlToken) :
    columnName.run (code c.name :: more) = some (c, more) := by
  simp [columnName, run_word, SqlOperand.Renders.column?_name, given]

/-- The tokens of a list of columns. -/
def columnTokens (columns : List Column) : List SqlToken :=
  code "(" :: (separated "," (columns.map fun c => [code c.name]) ++ [code ")"])

theorem length_le_columnTokens (columns : List Column) :
    columns.length ≤ (columnTokens columns).length := by
  have items := length_le_separated "," (columns.map fun c => [code c.name])
  rw [List.length_map] at items
  rw [columnTokens, List.length_cons, List.length_append]
  omega

theorem run_columnNames {columns : List Column} (filled : columns ≠ []) {n : Nat}
    (enough : columns.length ≤ n) (more : List SqlToken) :
    (columnNames n).run (columnTokens columns ++ more) = some (columns, more) := by
  have read := run_listed (by decide : "," ∉ ([] : List String)) (fun c => [code c.name]) id filled
    (fun c _ more _ => run_columnName c more) enough (stops_code (by decide : ")" ∉ [","]) more)
  rw [List.map_id] at read
  simp [columnNames, columnTokens, run_expect, read]

end SqlReader

/-! ### What columns are given -/

namespace Source

open SqlOperand SqlReader

/-- The tokens of what a column is given. -/
def tokens : Source → List SqlToken
  | .argument index => [code (argumentMark index)]
  | .now => [code "now", code "(", code ")"]
  | .null => [code "NULL"]
  | .inserted c => [code "EXCLUDED", code ".", code c.name]

/-- What a column is given, as it is read. -/
def operand : Source → SqlOperand
  | .argument index => .parameter index none
  | .now => .now
  | .null => .null
  | .inserted c => .column (some "EXCLUDED") c

/-- Whether a column may be given something where rows go by some names. -/
def isKnown (names : List (Option String)) : Source → Bool
  | .inserted _ => names.contains (some "EXCLUDED")
  | _ => true

theorem renders {names : List (Option String)} (source : Source) (known : source.isKnown names) :
    RendersWhole names source.tokens source.operand := by
  cases source with
  | argument index => exact (RendersOperand.parameter index).conjunct.disjunct.whole
  | now => exact Renders.now.whole
  | null => exact Renders.null.whole
  | inserted c => exact (Renders.columnOf (.inr rfl) (by simpa [isKnown] using known) c).whole

theorem length_tokens (source : Source) : source.tokens.length ≤ 3 := by
  cases source <;> simp [tokens]

end Source

namespace SqlReader

open SqlOperand (RendersWhole)

variable {names : List (Option String)} {n : Nat}

theorem run_values {row : List (Column × Source)} (filled : row ≠ [])
    (known : ∀ c ∈ row, c.2.isKnown names) (enough : row.length ≤ n) (long : 3 < n)
    (more : List SqlToken) :
    (listed (expression names n) n).run
        (separated "," (row.map fun c => c.2.tokens) ++ code ")" :: more) =
      some (row.map fun c => c.2.operand, code ")" :: more) := by
  refine run_listed (by decide : "," ∉ goingOn) (fun c => c.2.tokens) (fun c => c.2.operand) filled
    (fun c mem more ends => ?_) enough (stops_code (by decide : ")" ∉ "," :: goingOn) more)
  exact (c.2.renders (known c mem)).run (c.2.length_tokens.trans_lt long) ends

/-- The tokens of columns with what they are set to. -/
def changeTokens (change : List (Column × Source)) : List SqlToken :=
  separated "," (change.map fun c => code c.1.name :: code "=" :: c.2.tokens)

theorem length_le_changeTokens (change : List (Column × Source)) :
    change.length ≤ (changeTokens change).length + 1 := by
  have items := length_le_separated ","
    (change.map fun c => code c.1.name :: code "=" :: c.2.tokens)
  rwa [List.length_map] at items

theorem run_change {change : List (Column × Source)} (filled : change ≠ [])
    (known : ∀ c ∈ change, c.2.isKnown names) (enough : change.length ≤ n) (long : 3 < n)
    {more : List SqlToken} (ends : Stops ("," :: goingOn) more) :
    (listed (assignment names n) n).run (changeTokens change ++ more) =
      some (change.map fun c => (c.1, c.2.operand), more) := by
  refine run_listed (by decide : "," ∉ goingOn) (fun c => code c.1.name :: code "=" :: c.2.tokens)
    (fun c => (c.1, c.2.operand)) filled (fun c mem more ends => ?_) enough ends
  have given := (c.2.renders (known c mem)).run (c.2.length_tokens.trans_lt long) ends
  simp [assignment, run_columnName, run_expect, given]

theorem run_condition {ts : List SqlToken} {o : SqlOperand} (renders : RendersWhole names ts o)
    (long : ts.length < n) {more : List SqlToken} (ends : Stops goingOn more) :
    (condition names n).run (code "WHERE" :: (ts ++ more)) = some (some o, more) := by
  have read := renders.run long ends
  simp [condition, run_accept (List.mem_singleton_self "WHERE"), read]

end SqlReader

/-! ## Whole commands -/

namespace SqlCommand

open SqlOperand SqlReader

variable {schema name : String} {row change : List (Column × Source)} {ts : List SqlToken}
  {o : SqlOperand}

theorem ofTokens_of_run {command : SqlCommand}
    (read : ∀ n, ts.length < n → (SqlReader.command n).run ts = some (command, [])) :
    ofTokens ts = some command := by
  rw [ofTokens, read _ (Nat.lt_succ_self _)]

theorem ofTokens_update (filled : change ≠ []) (known : ∀ c ∈ change, c.2.isKnown [none])
    (renders : RendersWhole [none] ts o) :
    ofTokens (code "UPDATE" :: (tableTokens schema name ++ code "SET" ::
        (changeTokens change ++ code "WHERE" :: ts))) =
      some ⟨schema, name, .update (change.map fun c => (c.1, c.2.operand)) (some o)⟩ := by
  refine ofTokens_of_run fun n long => ?_
  simp only [tableTokens, List.length_cons, List.length_append] at long
  have enough := length_le_changeTokens change
  have changed := run_change filled known (n := n) (by omega) (by omega)
    (stops_code (by decide : "WHERE" ∉ "," :: goingOn) (ts ++ []))
  have met := run_condition renders (n := n) (by omega) (stops_nil goingOn)
  rw [List.append_nil] at changed met
  simp [command, run_word, update, run_tableName, run_expect, changed, met]

theorem ofTokens_delete (renders : RendersWhole [none] ts o) :
    ofTokens (code "DELETE" :: code "FROM" :: (tableTokens schema name ++ code "WHERE" :: ts)) =
      some ⟨schema, name, .delete (some o)⟩ := by
  refine ofTokens_of_run fun n long => ?_
  simp only [tableTokens, List.length_cons, List.length_append] at long
  have met := run_condition renders (n := n) (by omega) (stops_nil goingOn)
  rw [List.append_nil] at met
  simp [command, run_word, deletion, run_tableName, run_expect, met]

/-- Where rows are selected, whatever comes after the condition and does not go on with it. -/
theorem run_source (schema name : String) {n : Nat} (renders : RendersWhole [none] ts o)
    (long : ts.length < n) (output : SqlOutput) {more : List SqlToken} (ends : Stops goingOn more) :
    (source n output).run (code "FROM" :: (tableTokens schema name ++ code "WHERE" ::
        (ts ++ more))) =
      some (⟨schema, name, .select output (some o)⟩, more) := by
  have met := run_condition renders long ends
  simp [source, run_tableName, run_expect, met]

theorem ofTokens_select_column (renders : RendersWhole [none] ts o) (c : Column) :
    ofTokens (code "SELECT" :: code c.name :: code "FROM" ::
        (tableTokens schema name ++ code "WHERE" :: ts)) =
      some ⟨schema, name, .select (.column c) (some o)⟩ := by
  refine ofTokens_of_run fun n long => ?_
  simp only [tableTokens, List.length_cons, List.length_append] at long
  have rows := run_source schema name renders (n := n) (by omega) (.column c) (stops_nil goingOn)
  rw [List.append_nil] at rows
  have other : c.name ≠ "EXISTS" ∧ c.name ≠ "count" := by cases c <;> decide
  simp [command, run_word, selection, other, Renders.column?_name, given, rows]

theorem ofTokens_select_existence (renders : RendersWhole [none] ts o) :
    ofTokens (code "SELECT" :: code "EXISTS" :: code "(" :: code "SELECT" :: code "1" ::
        code "FROM" :: (tableTokens schema name ++ code "WHERE" :: (ts ++ [code ")"]))) =
      some ⟨schema, name, .select .existence (some o)⟩ := by
  refine ofTokens_of_run fun n long => ?_
  simp only [tableTokens, List.length_cons, List.length_append] at long
  have rows := run_source schema name renders (n := n) (by omega) .existence
    (stops_code (by decide : ")" ∉ goingOn) [])
  simp [command, run_word, selection, run_expect, rows]

theorem ofTokens_select_number (renders : RendersWhole [none] ts o) :
    ofTokens (code "SELECT" :: code "count" :: code "(" :: code "*" :: code ")" ::
        code "FROM" :: (tableTokens schema name ++ code "WHERE" :: ts)) =
      some ⟨schema, name, .select .number (some o)⟩ := by
  refine ofTokens_of_run fun n long => ?_
  simp only [tableTokens, List.length_cons, List.length_append] at long
  have rows := run_source schema name renders (n := n) (by omega) .number (stops_nil goingOn)
  rw [List.append_nil] at rows
  simp [command, run_word, selection, run_expect, rows]

/-- The tokens of a name that rows go by. -/
def nameTokens : Option String → List SqlToken
  | some s => [code "AS", code s]
  | none => []

theorem run_rowName (called : Option String) {more : List SqlToken} (ends : Stops ["AS"] more) :
    rowName.run (nameTokens called ++ more) = some (called, more) := by
  cases called with
  | none => simp [rowName, nameTokens, run_accept_none ends]
  | some s => simp [rowName, nameTokens, run_accept (List.mem_singleton_self "AS"), run_word]

/-- The tokens of a condition on the row that is there already, if there is such a condition. -/
inductive RendersWhere (names : List (Option String)) : List SqlToken → Option SqlOperand → Prop
  | absent : RendersWhere names [] none
  | present {us p} (renders : RendersWhole names us p) :
    RendersWhere names (code "WHERE" :: us) (some p)

namespace RendersWhere

variable {names : List (Option String)} {met : Option SqlOperand}

theorem run (renders : RendersWhere names ts met) {n : Nat} (long : ts.length ≤ n) :
    (condition names n).run ts = some (met, []) := by
  cases renders with
  | absent => simp [condition, run_accept_none (stops_nil ["WHERE"])]
  | present renders =>
    have read := run_condition renders long (stops_nil goingOn)
    rwa [List.append_nil] at read

/-- A change ends where a condition starts, and so it does without one. -/
theorem ends (renders : RendersWhere names ts met) : Stops ("," :: goingOn) ts := by
  cases renders with
  | absent => exact stops_nil _
  | present renders => exact stops_code (by decide) _

end RendersWhere

/-- The tokens of the columns of a row and of its values. -/
def proposalTokens (row : List (Column × Source)) : List SqlToken :=
  columnTokens (row.map (·.1)) ++ code "VALUES" :: code "(" ::
    (separated "," (row.map fun c => c.2.tokens) ++ [code ")"])

theorem run_proposal (filled : row ≠ []) (known : ∀ c ∈ row, c.2.isKnown []) {n : Nat}
    (enough : row.length ≤ n) (long : 3 < n) (more : List SqlToken) :
    (proposal n).run (proposalTokens row ++ more) =
      some ((row.map (·.1), row.map fun c => c.2.operand), more) := by
  have named : row.map (·.1) ≠ [] := by simpa using filled
  have columns := run_columnNames named (n := n) (by rwa [List.length_map])
  have values := run_values filled known enough long more
  simp [proposal, proposalTokens, run_expect, columns, values]

/-- The tokens of what is done where there is a conflict. -/
def resolutionTokens (target : List Column) (change : List (Column × Source))
    (condition : List SqlToken) : List SqlToken :=
  code "ON" :: code "CONFLICT" :: (columnTokens target ++ code "DO" :: code "UPDATE" ::
    code "SET" :: (changeTokens change ++ condition))

theorem run_resolution {names : List (Option String)} {target : List Column}
    {met : Option SqlOperand} (aimed : target ≠ []) (filled : change ≠ [])
    (known : ∀ c ∈ change, c.2.isKnown names) (renders : RendersWhere names ts met) {n : Nat}
    (enough : target.length ≤ n) (enough' : change.length ≤ n) (long : 3 < n)
    (short : ts.length ≤ n) :
    (resolution names n).run (resolutionTokens target change ts) =
      some ((target, change.map fun c => (c.1, c.2.operand), met), []) := by
  have targets := run_columnNames aimed enough
  have changed := run_change filled known enough' long renders.ends
  have read := renders.run short
  simp [resolution, resolutionTokens, run_expect, targets, changed, read]

theorem ofTokens_insert (schema name : String) (called : Option String) {target : List Column}
    {met : Option SqlOperand} (rowFilled : row ≠ []) (rowKnown : ∀ c ∈ row, c.2.isKnown [])
    (aimed : target ≠ []) (filled : change ≠ [])
    (known : ∀ c ∈ change, c.2.isKnown (conflictNames called))
    (renders : RendersWhere (conflictNames called) ts met) :
    ofTokens (code "INSERT" :: code "INTO" :: (tableTokens schema name ++ (nameTokens called ++
        (proposalTokens row ++ resolutionTokens target change ts)))) =
      some ⟨schema, name, .insert called (row.map (·.1)) (row.map fun c => c.2.operand) target
        (change.map fun c => (c.1, c.2.operand)) met⟩ := by
  refine ofTokens_of_run fun n long => ?_
  simp only [tableTokens, proposalTokens, resolutionTokens, List.length_cons, List.length_append]
    at long
  have rowLong := length_le_columnTokens (row.map (·.1))
  have targetLong := length_le_columnTokens target
  have changeLong := length_le_changeTokens change
  rw [List.length_map] at rowLong
  have named (more : List SqlToken) :
      rowName.run (nameTokens called ++ (proposalTokens row ++ more)) =
        some (called, proposalTokens row ++ more) := by
    rw [proposalTokens, columnTokens, List.cons_append, List.cons_append]
    exact run_rowName called (stops_code (by decide : "(" ∉ ["AS"]) _)
  have proposed := run_proposal rowFilled rowKnown (n := n) (by omega) (by omega)
  have resolved := run_resolution aimed filled known renders (n := n) (by omega) (by omega)
    (by omega) (by omega)
  simp [command, run_word, insertion, run_expect, run_tableName, named, proposed, resolved]

end SqlCommand

end DocStore
