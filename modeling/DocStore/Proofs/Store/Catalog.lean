import Mathlib.Data.List.Nodup
import DocStore.Proofs.Query.Extents
import DocStore.Store.Table

/-!
# What the definition of a table makes

The tables and indexes of a database schema share their names, and of a longer name the database
keeps the first 63 bytes.  A statement that makes a table or an index does nothing where the name is
taken.  The definition of a collection table therefore makes the table with its three indexes if the
table's name leaves room for two characters more, and otherwise leaves out indexes without a word.

* `keptName`: what the database keeps of a name;
* `relation?`: the name that a statement gives to a table or an index;
* `establish`: the names that are taken after a statement;
* `definition_makes_all_iff`: which tables are made with all their indexes.
-/

namespace DocStore

open DocStore.Text

/-! ## Names -/

/-- The beginning of a text that fits into some bytes. -/
def fitting : Nat → List Char → List Char
  | _, [] => []
  | room, c :: rest => if c.utf8Size ≤ room then c :: fitting (room - c.utf8Size) rest else []

/-- What the database keeps of a name. -/
def keptName (name : String) : String := String.ofList (fitting Identifier.maxLength name.toList)

/-- Of characters of one byte each as many fit as there are bytes. -/
theorem fitting_eq_take {cs : List Char} (narrow : ∀ c ∈ cs, c.utf8Size = 1) (room : Nat) :
    fitting room cs = cs.take room := by
  induction cs generalizing room with
  | nil => cases room <;> rfl
  | cons c rest ih =>
    obtain ⟨single, others⟩ := List.forall_mem_cons.mp narrow
    cases room with
    | zero => simp [fitting, single]
    | succ room =>
      rw [fitting, single, if_pos (Nat.succ_le_succ (Nat.zero_le room)), Nat.add_sub_cancel,
        ih others, List.take_succ_cons]

theorem Identifier.narrow {s : String} (valid : isIdentifier s) :
    ∀ c ∈ s.toList, c.utf8Size = 1 :=
  fun _ mem => Token.utf8Size_of_isIdentChar (Identifier.isPart_of_mem valid mem)

/-- An identifier is kept, and so is of what is put after it as much as there is room for. -/
theorem keptName_append {name suffix : String} (valid : isIdentifier name)
    (narrow : ∀ c ∈ suffix.toList, c.utf8Size = 1) :
    keptName (name ++ suffix) =
      name ++ String.ofList (suffix.toList.take (Identifier.maxLength - name.length)) := by
  have whole : ∀ c ∈ (name ++ suffix).toList, c.utf8Size = 1 := by
    intro c mem
    rw [String.toList_append, List.mem_append] at mem
    exact mem.elim (Identifier.narrow valid c) (narrow c)
  have short : name.toList.length ≤ Identifier.maxLength := Identifier.length_le valid
  apply String.toList_inj.mp
  rw [keptName, fitting_eq_take whole, String.toList_ofList, String.toList_append,
    List.take_append, List.take_of_length_le short, String.toList_append, String.toList_ofList,
    String.length_toList]

theorem keptName_identifier {name : String} (valid : isIdentifier name) : keptName name = name := by
  have kept : keptName (name ++ "") = _ := keptName_append valid nofun
  simpa using kept

/-! ## Statements -/

/-- A name in double quotes, and what comes after it. -/
def quotedName? : List Char → Option (List Char × List Char)
  | '"' :: rest =>
    match rest.dropWhile (· ≠ '"') with
    | _ :: after => some (rest.takeWhile (· ≠ '"'), after)
    | [] => none
  | _ => none

/-- A quoted name, which may have another one with a dot in front of it. -/
def lastName? (cs : List Char) : Option String := do
  let (name, after) ← quotedName? cs
  match after with
  | '.' :: cs => (quotedName? cs).map fun last => String.ofList last.1
  | _ => return String.ofList name

/-- The name that a statement gives to a table or an index, if it makes one. -/
def relation? (statement : String) : Option String :=
  ((statement.toList.dropPrefix? "CREATE TABLE IF NOT EXISTS ".toList).or
    (statement.toList.dropPrefix? "CREATE INDEX IF NOT EXISTS ".toList)).bind lastName?

/-- The names that are taken after another one is asked for.  One that is taken is left alone. -/
def occupy (taken : List String) (name : String) : List String :=
  if name ∈ taken then taken else taken ++ [name]

/-- The names of tables and indexes that are taken once a statement has run. -/
def establish (taken : List String) (statement : String) : List String :=
  match relation? statement with
  | some name => occupy taken (keptName name)
  | none => taken

/-- A name without a quote is read up to the quote after it. -/
theorem quotedName?_quoted {name : String} (plain : ∀ c ∈ name.toList, c ≠ '"')
    (after : List Char) :
    quotedName? ((Table.quoted name).toList ++ after) = some (name.toList, after) := by
  have goes : ∀ c ∈ name.toList, (decide (c ≠ '"')) = true :=
    fun c mem => decide_eq_true (plain c mem)
  have spelled : (Table.quoted name).toList ++ after = '"' :: (name.toList ++ '"' :: after) := by
    simp [Table.quoted, String.toList_append]
  rw [spelled, quotedName?, List.dropWhile_append_of_pos goes, List.takeWhile_append_of_pos goes]
  simp

theorem lastName?_quoted {name : String} (plain : ∀ c ∈ name.toList, c ≠ '"') {after : List Char}
    (other : '.' ∉ after.head?) : lastName? ((Table.quoted name).toList ++ after) = some name := by
  rw [lastName?, quotedName?_quoted plain, Option.bind_eq_bind, Option.bind_some]
  dsimp only
  split
  · exact absurd rfl other
  · exact congrArg some String.ofList_toList

theorem lastName?_dotted {first last : String} (plain : ∀ c ∈ first.toList, c ≠ '"')
    (plain' : ∀ c ∈ last.toList, c ≠ '"') (after : List Char) :
    lastName? ((Table.quoted first).toList ++ '.' :: ((Table.quoted last).toList ++ after)) =
      some last := by
  rw [lastName?, quotedName?_quoted plain, Option.bind_eq_bind, Option.bind_some]
  simp only [quotedName?_quoted plain', Option.map_some, String.ofList_toList]

theorem relation?_table {statement : String} {cs : List Char}
    (spelled : statement.toList = "CREATE TABLE IF NOT EXISTS ".toList ++ cs) :
    relation? statement = lastName? cs := by
  rw [relation?, spelled, List.dropPrefix?_append_of_beq _ (beq_self_eq_true _), Option.some_or,
    Option.bind_some]

theorem relation?_index {statement : String} {cs : List Char}
    (spelled : statement.toList = "CREATE INDEX IF NOT EXISTS ".toList ++ cs) :
    relation? statement = lastName? cs := by
  have other : ("CREATE INDEX IF NOT EXISTS ".toList ++ cs).dropPrefix?
      "CREATE TABLE IF NOT EXISTS ".toList = none := rfl
  rw [relation?, spelled, other, List.dropPrefix?_append_of_beq _ (beq_self_eq_true _),
    Option.none_or, Option.bind_some]

theorem relation?_schema {statement : String} {cs : List Char}
    (spelled : statement.toList = "CREATE SCHEMA IF NOT EXISTS ".toList ++ cs) :
    relation? statement = none := by
  rw [relation?, spelled]
  rfl

theorem Identifier.ne_quote {c : Char} (part : Identifier.isPart c) : c ≠ '"' := by
  rintro rfl
  exact absurd part (by decide)

theorem Identifier.unquoted {s : String} (valid : isIdentifier s) : ∀ c ∈ s.toList, c ≠ '"' :=
  fun _ mem => Identifier.ne_quote (Identifier.isPart_of_mem valid mem)

/-! ## The definition of a table -/

/-- The columns that have an index. -/
def indexedColumns : List Column := [.created, .updated, .expires]

/-- What comes after the name of a table in the name of the index on a column. -/
def Column.indexSuffix (column : Column) : String := "_" ++ column.name ++ "_idx"

theorem Column.isPart_of_mem_indexSuffix {column : Column} (indexed : column ∈ indexedColumns)
    {c : Char} (mem : c ∈ column.indexSuffix.toList) : Identifier.isPart c := by
  have parts : ∀ column ∈ indexedColumns, column.indexSuffix.toList.all Identifier.isPart := by
    decide
  exact List.all_eq_true.mp (parts column indexed) c mem

namespace Table

variable (table : Table)

theorem indexName_eq (column : Column) :
    table.indexName column = table.name ++ column.indexSuffix := by
  simp only [indexName, Column.indexSuffix, String.append_assoc]

theorem indexName_unquoted {column : Column} (indexed : column ∈ indexedColumns) :
    ∀ c ∈ (table.indexName column).toList, c ≠ '"' := by
  intro c mem
  rw [indexName_eq, String.toList_append, List.mem_append] at mem
  rcases mem with mem | mem
  · exact Identifier.unquoted table.name_valid c mem
  · exact Identifier.ne_quote (Column.isPart_of_mem_indexSuffix indexed mem)

theorem relation?_indexText {column : Column} (indexed : column ∈ indexedColumns) (rest : String) :
    relation? (table.indexText column ++ rest) = some (table.indexName column) := by
  have spelled : (table.indexText column ++ rest).toList = "CREATE INDEX IF NOT EXISTS ".toList ++
      ((quoted (table.indexName column)).toList ++ (" ON ".toList ++
        (table.qualified ++ " (" ++ column.name ++ ")" ++ rest).toList)) := by
    unfold indexText
    simp only [String.toList_append, List.append_assoc]
  have blank : " ON ".toList.head? = some ' ' := rfl
  rw [relation?_index spelled]
  apply lastName?_quoted (table.indexName_unquoted indexed)
  rw [List.head?_append, blank]
  rintro ⟨⟩

theorem relation?_tableText (rest : String) :
    relation? ("CREATE TABLE IF NOT EXISTS " ++ table.qualified ++ rest) = some table.name := by
  have spelled : ("CREATE TABLE IF NOT EXISTS " ++ table.qualified ++ rest).toList =
      "CREATE TABLE IF NOT EXISTS ".toList ++ ((quoted table.schema).toList ++
        '.' :: ((quoted table.name).toList ++ rest.toList)) := by
    simp only [qualified, String.toList_append, List.append_assoc]
    rfl
  rw [relation?_table spelled]
  exact lastName?_dotted (Identifier.unquoted table.schema_valid)
    (Identifier.unquoted table.name_valid) _

/-- The names that the definition gives: that of the table and those of its indexes. -/
theorem relations_definition :
    table.definition.filterMap relation? = table.name :: indexedColumns.map table.indexName := by
  have schema : relation? ("CREATE SCHEMA IF NOT EXISTS " ++ quoted table.schema) = none :=
    relation?_schema String.toList_append
  have index (column : Column) (rest : String) (indexed : column ∈ indexedColumns) :=
    table.relation?_indexText indexed rest
  have created := index .created "" (by decide)
  have updated := index .updated (presentText .updated) (by decide)
  have expires := index .expires (presentText .expires) (by decide)
  have name := table.relation?_tableText
  rw [String.append_empty] at created
  simp only [String.append_assoc] at name
  simp only [definition, String.append_assoc, List.filterMap_cons, List.filterMap_nil, schema, name,
    created, updated, expires]
  rfl

/-- How many characters are left to a name behind that of the table. -/
def room : Nat := Identifier.maxLength - table.name.length

theorem keptName_indexName {column : Column} (indexed : column ∈ indexedColumns) :
    keptName (table.indexName column) =
      table.name ++ String.ofList (column.indexSuffix.toList.take table.room) := by
  have narrow : ∀ c ∈ column.indexSuffix.toList, c.utf8Size = 1 := fun _ mem =>
    Token.utf8Size_of_isIdentChar (Column.isPart_of_mem_indexSuffix indexed mem)
  rw [indexName_eq, keptName_append table.name_valid narrow, room]

/-- What the database keeps of the names that the definition gives. -/
def keptNames : List String := (table.definition.filterMap relation?).map keptName

theorem keptNames_eq : table.keptNames = table.name :: indexedColumns.map fun column =>
    table.name ++ String.ofList (column.indexSuffix.toList.take table.room) := by
  rw [keptNames, relations_definition, List.map_cons, List.map_map,
    keptName_identifier table.name_valid]
  apply congrArg (table.name :: ·)
  apply List.map_congr_left
  intro column indexed
  exact table.keptName_indexName indexed

theorem indexName_ne {column : Column} (spare : table.room ≠ 0) :
    table.name ++ String.ofList (column.indexSuffix.toList.take table.room) ≠ table.name := by
  have starts : column.indexSuffix.toList = '_' :: (column.name ++ "_idx").toList := by
    rw [Column.indexSuffix, String.append_assoc, String.toList_append]
    rfl
  intro same
  have length := congrArg String.length same
  rw [String.length_append, String.length_ofList, starts, List.length_take,
    List.length_cons] at length
  omega

/-- Where there is room for two characters the names differ: the underscore says that there is an
index, and the letter after it which one. -/
theorem nodup_keptNames (spare : 2 ≤ table.room) : table.keptNames.Nodup := by
  have apart : ∀ c ∈ indexedColumns, ∀ d ∈ indexedColumns,
      c.indexSuffix.toList.take 2 = d.indexSuffix.toList.take 2 → c = d := by decide
  have cut (c : Column) : (c.indexSuffix.toList.take table.room).take 2 =
      c.indexSuffix.toList.take 2 := by
    rw [List.take_take, Nat.min_eq_left spare]
  rw [keptNames_eq, List.nodup_cons]
  constructor
  · intro mem
    obtain ⟨c, -, same⟩ := List.mem_map.mp mem
    exact table.indexName_ne (by omega) same
  · apply List.Nodup.map_on
    · intro c hc d hd same
      apply apart c hc d hd
      rw [← cut c, ← cut d, String.ofList_injective (String.append_right_inj _ |>.mp same)]
    · decide

/-- With room for two characters the names of the indexes are cut to a letter each. -/
theorem keptNames_of_room_two (room : table.room = 2) : table.keptNames =
    [table.name, table.name ++ "_c", table.name ++ "_u", table.name ++ "_e"] := by
  rw [keptNames_eq, room]
  rfl

/-- With room for one character all indexes come to the same name. -/
theorem keptNames_of_room_one (room : table.room = 1) :
    table.keptNames = table.name :: List.replicate 3 (table.name ++ "_") := by
  rw [keptNames_eq, room]
  rfl

theorem keptNames_of_room_zero (room : table.room = 0) :
    table.keptNames = List.replicate 4 table.name := by
  rw [keptNames_eq, room]
  simp only [List.take_zero, String.ofList_nil, String.append_empty]
  rfl

theorem nodup_keptNames_iff : table.keptNames.Nodup ↔ 2 ≤ table.room := by
  constructor
  · intro nodup
    by_contra few
    obtain room | room : table.room = 0 ∨ table.room = 1 := by omega
    · rw [keptNames_of_room_zero table room, List.nodup_replicate] at nodup
      omega
    · rw [keptNames_of_room_one table room, List.nodup_cons, List.nodup_replicate] at nodup
      omega
  · exact table.nodup_keptNames

/-! ## Running the definition -/

theorem foldl_establish (statements taken : List String) :
    statements.foldl establish taken =
      ((statements.filterMap relation?).map keptName).foldl occupy taken := by
  induction statements generalizing taken with
  | nil => rfl
  | cons statement rest ih =>
    rw [List.foldl_cons, ih]
    cases found : relation? statement with
    | none => rw [List.filterMap_cons_none found, establish, found]
    | some name =>
      rw [List.filterMap_cons_some found, establish, found, List.map_cons, List.foldl_cons]

/-- Names that differ are all given. -/
theorem foldl_occupy {names taken : List String} (nodup : (taken ++ names).Nodup) :
    names.foldl occupy taken = taken ++ names := by
  induction names generalizing taken with
  | nil => rw [List.append_nil, List.foldl_nil]
  | cons name rest ih =>
    have free : name ∉ taken := by
      intro mem
      exact (List.nodup_append'.mp nodup).2.2 mem List.mem_cons_self
    rw [List.foldl_cons, occupy, if_neg free, ih (by simpa using nodup), List.append_assoc]
    rfl

/-- A name that is taken is given to nothing else. -/
theorem foldl_occupy_replicate {name : String} {taken : List String} (mem : name ∈ taken)
    (n : Nat) : (List.replicate n name).foldl occupy taken = taken := by
  induction n with
  | zero => rfl
  | succ n ih => rw [List.replicate_succ, List.foldl_cons, occupy, if_pos mem, ih]

/-- What there is after the definition has run in a schema without tables. -/
theorem establish_definition : table.definition.foldl establish [] =
    if 2 ≤ table.room then table.keptNames
    else if table.room = 1 then [table.name, table.name ++ "_"] else [table.name] := by
  rw [foldl_establish, ← keptNames]
  split
  · next spare =>
    rw [foldl_occupy (by simpa using table.nodup_keptNames spare), List.nil_append]
  · split
    · next room =>
      have other : table.name ++ "_" ≠ table.name := fun same => by
        have length := congrArg String.length same
        simp at length
      rw [keptNames_of_room_one table room, List.replicate_succ, List.foldl_cons, List.foldl_cons,
        foldl_occupy_replicate] <;> simp [occupy, other]
    · rw [keptNames_of_room_zero table (by omega), List.replicate_succ, List.foldl_cons,
        foldl_occupy_replicate] <;> simp [occupy]

theorem ofNames_eq_ok {schema name : String} {table : Table}
    (made : ofNames schema name = .ok table) : table.schema = schema ∧ table.name = name := by
  unfold ofNames at made
  split at made
  · split at made
    · cases made
      exact ⟨rfl, rfl⟩
    · cases made
  · cases made

theorem room_eq : table.room = 63 - table.name.utf8ByteSize := by
  rw [← String.utf8Len_toList, utf8Len_eq_length (Identifier.narrow table.name_valid),
    String.length_toList]
  rfl

theorem utf8ByteSize_name_le : table.name.utf8ByteSize ≤ 63 := by
  rw [← String.utf8Len_toList, utf8Len_eq_length (Identifier.narrow table.name_valid),
    String.length_toList]
  exact Identifier.length_le table.name_valid

end Table

/-- For a table that can be made at all: the definition asks for the table and three indexes.  What
the database keeps of their names differs if and only if the name of the table leaves room for two
bytes.  With room for one byte there is one index in the end, and with none there is no index. -/
theorem definition_makes_all_iff {schema name : String} {table : Table}
    (made : Table.ofNames schema name = .ok table) :
    table.definition.filterMap relation? =
      [name, name ++ "_created_idx", name ++ "_updated_idx", name ++ "_expires_idx"] ∧
    (((table.definition.filterMap relation?).map keptName).Nodup ↔ name.utf8ByteSize ≤ 61) ∧
    table.definition.foldl establish [] =
      if name.utf8ByteSize ≤ 61 then (table.definition.filterMap relation?).map keptName
      else if name.utf8ByteSize = 62 then [name, name ++ "_"] else [name] := by
  obtain ⟨-, rfl⟩ := Table.ofNames_eq_ok made
  have size := table.room_eq
  have bound := table.utf8ByteSize_name_le
  have spare : 2 ≤ table.room ↔ table.name.utf8ByteSize ≤ 61 := by omega
  have single : table.room = 1 ↔ table.name.utf8ByteSize = 62 := by omega
  refine ⟨?_, ?_, ?_⟩
  · rw [table.relations_definition]
    simp only [indexedColumns, List.map_cons, List.map_nil, Table.indexName, String.append_assoc]
    rfl
  · rw [← spare, ← table.nodup_keptNames_iff]
    rfl
  · simp only [table.establish_definition, spare, single]
    rfl

/-- A name of 61 characters still leaves room for all. -/
theorem definition_makes_all_of_61 :
    ∃ name table, name = String.ofList (List.replicate 61 'a') ∧
      Table.ofNames "public" name = .ok table ∧
      table.definition.foldl establish [] =
        [name, name ++ "_c", name ++ "_u", name ++ "_e"] := by
  have valid : isIdentifier (String.ofList (List.replicate 61 'a')) := by decide
  have made : Table.ofNames "public" (String.ofList (List.replicate 61 'a')) =
      .ok ⟨"public", _, by decide, valid⟩ := rfl
  obtain ⟨-, -, taken⟩ := definition_makes_all_iff made
  refine ⟨_, _, rfl, made, ?_⟩
  rw [taken, if_pos (by decide), ← Table.keptNames, Table.keptNames_of_room_two]
  rw [Table.room, String.length_ofList, List.length_replicate]
  rfl

/-- A name of 63 characters makes a table, and the indexes have its name: they are left out. -/
theorem definition_leaves_out_indexes :
    ∃ table, Table.ofNames "public" (String.ofList (List.replicate 63 'a')) = .ok table ∧
      ¬ ((table.definition.filterMap relation?).map keptName).Nodup ∧
      table.definition.foldl establish [] = [table.name] := by
  refine ⟨⟨"public", String.ofList (List.replicate 63 'a'), by decide, by decide⟩, rfl, ?_, ?_⟩
  · rw [← Table.keptNames, Table.nodup_keptNames_iff]
    decide
  · rw [Table.establish_definition, if_neg (by decide), if_neg (by decide)]

end DocStore
