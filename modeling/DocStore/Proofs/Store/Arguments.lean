import DocStore.Proofs.Numeric.Integer
import DocStore.Proofs.Sql.Conjunct
import DocStore.Proofs.Sql.Written

/-!
# Arguments stand under the numbers of their placeholders

Every placeholder of a statement on the documents of a partition has a number that is the place of
an argument, counted from one: the first is the partition, then come the constants of the filter,
each under the index that it was given when the filter was compiled, and last the bounds of a page.

* `placeholders`: the numbers of the placeholders of a text;
* `Piece.numbers_lexemesOf`: the placeholders of a condition;
* `CompiledQuery.argument_of_index`: the arguments of a filter by their indexes;
* `HasPlaceholders`: a text with some placeholders wherever it stands;
* `Table.LinesUp`: a statement whose placeholders are met by its arguments;
* `arguments_line_up`: the statements that list, count and delete do.
-/

namespace DocStore

open DocStore.Text

/-! ## Numbers of placeholders -/

namespace SqlLexeme

/-- The numbers of the placeholders outside of literals, in order: of each dollar sign the digits
after it. -/
def numbers : List SqlLexeme → List Nat
  | [] => []
  | .literal _ :: rest => numbers rest
  | .code c :: rest =>
    if c = '$' then natOfDigits ((codeRun rest).takeWhile Char.isDigit) :: numbers rest
    else numbers rest

/-- Whether no number goes on at the start of some lexemes. -/
def EndsNumber (ls : List SqlLexeme) : Prop := ∀ c ∈ (codeRun ls).head?, c.isDigit = false

theorem takeWhile_codeRun (ls : List SqlLexeme) {ms : List SqlLexeme} (ended : EndsNumber ms) :
    (codeRun (ls ++ ms)).takeWhile Char.isDigit = (codeRun ls).takeWhile Char.isDigit := by
  induction ls with
  | nil =>
    cases run : codeRun ms with
    | nil => simp [codeRun, run]
    | cons c cs =>
      have other : c.isDigit = false := ended c (by simp [run])
      simp [codeRun, run, other]
  | cons l rest ih =>
    cases l with
    | literal text => rfl
    | code c => simp [codeRun, List.takeWhile_cons, ih]

theorem numbers_append (ls : List SqlLexeme) {ms : List SqlLexeme} (ended : EndsNumber ms) :
    numbers (ls ++ ms) = numbers ls ++ numbers ms := by
  induction ls with
  | nil => rfl
  | cons l rest ih =>
    cases l with
    | literal text => exact ih
    | code c =>
      rw [List.cons_append, numbers, numbers, takeWhile_codeRun rest ended, ih]
      split <;> rfl

theorem numbers_codes {cs : List Char} (plain : ∀ c ∈ cs, c ≠ '$') (ls : List SqlLexeme) :
    numbers (cs.map .code ++ ls) = numbers ls := by
  induction cs with
  | nil => rfl
  | cons c rest ih =>
    obtain ⟨first, others⟩ := List.forall_mem_cons.mp plain
    simp [numbers, first, ih others]

/-- The number of a placeholder is read off it, unless another digit follows. -/
theorem numbers_mark (n : Nat) {ls : List SqlLexeme} (ended : EndsNumber ls) :
    numbers (codes (argumentMark n) ++ ls) = n :: numbers ls := by
  have digits : ∀ c ∈ natDigits n, c.isDigit := fun _ => natDigits_isDigit
  have unmarked : ∀ c ∈ natDigits n, c ≠ '$' := by
    rintro c hc rfl
    exact absurd (digits _ hc) (by decide)
  have shape : codes (argumentMark n) = .code '$' :: (natDigits n).map .code := by
    simp [codes, argumentMark, natText]
  have run : codeRun ((natDigits n).map .code) = natDigits n := by
    simpa [codeRun] using codeRun_codes (natDigits n) []
  have all : (natDigits n).takeWhile Char.isDigit = natDigits n :=
    List.takeWhile_eq_self_iff.mpr digits
  rw [shape, List.cons_append, numbers, if_pos rfl, takeWhile_codeRun _ ended, run, all,
    natOfDigits_natDigits, numbers_codes unmarked]

end SqlLexeme

open SqlLexeme

/-- The numbers of the placeholders of a text, if it ends outside of literals. -/
def placeholders (s : String) : Option (List Nat) := (lex s.toList).map numbers

namespace Piece

/-- The numbers that are read off spaced pieces are those of the placeholders among the pieces. -/
theorem numbers_lexemesOf {ps : List Piece} (h : Spaced ps) :
    numbers (lexemesOf ps) = (marks ps).map Prod.fst := by
  induction ps with
  | nil => rfl
  | cons p rest ih =>
    rw [lexemesOf_cons]
    cases p with
    | code s =>
      obtain ⟨calm, spaced⟩ := h
      rw [lexemes, codes, numbers_codes fun c hc => (isCalm_plain calm c hc).2.2.2]
      exact ih spaced
    | literal s => exact ih h.2
    | placeholder index type =>
      have split : codes (SqlExpr.placeholderText index type) =
          codes (argumentMark index) ++ codes ("::" ++ type.name) := by
        rw [← codes_append, argumentMark, SqlExpr.placeholderText]
        simp only [String.append_assoc]
      have unmarked : ∀ c ∈ ("::" ++ type.name).toList, c ≠ '$' := by
        cases type <;> simp [SqlType.name]
      have colons : EndsNumber (codes ("::" ++ type.name) ++ lexemesOf rest) := by
        rw [codes, EndsNumber, codeRun_codes, String.toList_append]
        rintro c ⟨⟩
        decide
      rw [lexemes, split, List.append_assoc, numbers_mark index colons, codes,
        numbers_codes unmarked, ih h.2]
      rfl

end Piece

/-! ## The arguments of a filter -/

namespace CompiledQuery

variable {filter : Filter} {schema : Schema} {query : CompiledQuery}

/-- The parameters of a filter of a statement are numbered from two on. -/
theorem index_of_parameter (compiled : filter.compileFrom schema filterFirstIndex = .ok query)
    (fits : filterFirstIndex + query.parameters.length ≤ UInt64.size) {k : Nat} {p : Parameter}
    (place : query.parameters[k]? = some p) : p.index = filterFirstIndex + k := by
  obtain ⟨check, -, rfl⟩ := map_eq_ok.mp compiled
  have numbered : (check.compileFrom filterFirstIndex).parameters.map Parameter.index =
      (List.range' filterFirstIndex (check.compileFrom filterFirstIndex).parameters.length).map
        Binding.indexAt := check.toSql_numbered (Binding.firstPosition filterFirstIndex)
  obtain ⟨short, -⟩ := List.getElem?_eq_some_iff.mp place
  have here := congrArg (fun indexes => indexes[k]?) numbered
  simp only [List.getElem?_map, place, Option.map_some, List.getElem?_range' short,
    Option.some.injEq] at here
  have inside : filterFirstIndex + 1 * k < UInt64.size := by omega
  rw [here, Binding.indexAt, Nat.mod_eq_of_lt inside, Nat.one_mul]

/-- The argument under the index of a parameter is that parameter's. -/
theorem argument_of_index (compiled : filter.compileFrom schema filterFirstIndex = .ok query)
    (fits : filterFirstIndex + query.parameters.length ≤ UInt64.size) (partition : String)
    {p : Parameter} (mem : p ∈ query.parameters) :
    1 ≤ p.index ∧ (Statement.scanArguments partition (some query))[p.index - 1]? =
      some p.argument := by
  obtain ⟨k, place⟩ := List.getElem?_of_mem mem
  have index := index_of_parameter compiled fits place
  have behind : p.index - 1 = k + 1 := by
    simp only [filterFirstIndex] at index
    omega
  refine ⟨by omega, ?_⟩
  rw [behind, Statement.scanArguments, List.getElem?_cons_succ, List.getElem?_map, place]
  rfl

/-- No two parameters have one index. -/
theorem eq_of_index (compiled : filter.compileFrom schema filterFirstIndex = .ok query)
    (fits : filterFirstIndex + query.parameters.length ≤ UInt64.size) {p r : Parameter}
    (first : p ∈ query.parameters) (second : r ∈ query.parameters) (same : p.index = r.index) :
    p = r := by
  obtain ⟨i, here⟩ := List.getElem?_of_mem first
  obtain ⟨j, there⟩ := List.getElem?_of_mem second
  have one := index_of_parameter compiled fits here
  have other := index_of_parameter compiled fits there
  obtain rfl : i = j := by omega
  rw [here] at there
  exact Option.some.inj there

/-- Every placeholder of a filter has the index of a parameter. -/
theorem parameter_of_mark (compiled : filter.compileFrom schema filterFirstIndex = .ok query)
    {n : Nat} (mark : n ∈ (Piece.marks query.condition.pieces).map Prod.fst) :
    ∃ p ∈ query.parameters, p.index = n := by
  obtain ⟨check, -, rfl⟩ := map_eq_ok.mp compiled
  obtain ⟨slot, found, rfl⟩ := List.mem_map.mp mark
  have written := (check.toSql_writes (Binding.firstPosition filterFirstIndex)).ordered
  obtain ⟨p, mem, rfl⟩ := List.mem_map.mp (written.subset found)
  exact ⟨p, mem, rfl⟩

end CompiledQuery

/-! ## Texts with placeholders -/

/-- Whether a text has placeholders of some numbers wherever it stands: it is split the same
whatever comes after it, and it does not go on with the number of a placeholder before it. -/
def HasPlaceholders (s : String) (ns : List Nat) : Prop :=
  ∃ ls, (∀ rest, lex (s.toList ++ rest) = (lex rest).map (ls ++ ·)) ∧ numbers ls = ns ∧
    EndsNumber ls

namespace HasPlaceholders

theorem append {s t : String} {ns ms : List Nat} (first : HasPlaceholders s ns)
    (second : HasPlaceholders t ms) : HasPlaceholders (s ++ t) (ns ++ ms) := by
  obtain ⟨ls, splits, rfl, ended⟩ := first
  obtain ⟨ks, splits', rfl, ended'⟩ := second
  refine ⟨ls ++ ks, fun rest => ?_, numbers_append ls ended', ?_⟩
  · rw [String.toList_append, List.append_assoc, splits, splits', Option.map_map]
    simp [Function.comp_def]
  · intro c hc
    cases ls with
    | nil => exact ended' c hc
    | cons l ls =>
      cases l with
      | literal text => cases hc
      | code d => exact ended c hc

theorem placeholders {s : String} {ns : List Nat} (h : HasPlaceholders s ns) :
    placeholders s = some ns := by
  obtain ⟨ls, splits, rfl, -⟩ := h
  have alone := splits []
  rw [List.append_nil, lex, Option.map_some, List.append_nil] at alone
  rw [DocStore.placeholders, alone, Option.map_some]

/-- A text without quotes and placeholders that does not start with a digit. -/
theorem plain {s : String} (calm : ∀ c ∈ s.toList, c ≠ '\'' ∧ c ≠ '$')
    (start : ∀ c ∈ s.toList.head?, c.isDigit = false) : HasPlaceholders s [] := by
  refine ⟨codes s, fun rest => Piece.lex_codes (fun c hc => (calm c hc).1) rest, ?_, ?_⟩
  · simpa [codes, numbers] using numbers_codes (fun c hc => (calm c hc).2) []
  · intro c hc
    have run := codeRun_codes s.toList []
    rw [List.append_nil] at run
    rw [codes, run] at hc
    simp only [codeRun, List.append_nil] at hc
    exact start c hc

theorem fixed {s : String} (calm : s.toList.all fun c => c != '\'' && c != '$')
    (start : s.toList.head?.all fun c => !c.isDigit) : HasPlaceholders s [] := by
  refine plain (fun c hc => ?_) fun c hc => ?_
  · simpa using List.all_eq_true.mp calm c hc
  · simpa [Option.mem_def.mp hc] using start

theorem empty : HasPlaceholders "" [] := fixed rfl rfl

theorem mark (n : Nat) : HasPlaceholders (argumentMark n) [n] := by
  have shape : (argumentMark n).toList = '$' :: natDigits n := by simp [argumentMark, natText]
  refine ⟨codes (argumentMark n), fun rest => Piece.lex_codes (fun c hc => ?_) rest, ?_, ?_⟩
  · rw [shape] at hc
    rcases List.mem_cons.mp hc with rfl | digit
    · decide
    · rintro rfl
      exact absurd (natDigits_isDigit digit) (by decide)
  · have ended : EndsNumber [] := by rintro c ⟨⟩
    simpa [numbers] using numbers_mark n ended
  · intro c hc
    rw [codes, shape] at hc
    cases hc
    decide

/-- The placeholders of a condition in parentheses are those of its pieces. -/
theorem filter (condition : SqlExpr) :
    HasPlaceholders (Condition.filter condition).text
      ((Piece.marks condition.pieces).map Prod.fst) := by
  refine ⟨(Condition.filter condition).lexemes, Condition.lex_text _, ?_, ?_⟩
  · have opening : numbers (codes "(" ++ (Piece.lexemesOf condition.pieces ++ codes ")")) =
        numbers (Piece.lexemesOf condition.pieces ++ codes ")") :=
      numbers_codes (by simp) _
    have closing : EndsNumber (codes ")") := by
      rintro c ⟨⟩
      decide
    rw [Condition.lexemes, List.append_assoc, opening, numbers_append _ closing,
      Piece.numbers_lexemesOf (Piece.spaced_pieces condition)]
    exact List.append_nil _
  · rintro c ⟨⟩
    decide

/-- The name of a table has no placeholders. -/
theorem qualified (table : Table) : HasPlaceholders table.qualified [] := by
  have inside {name : String} (valid : isIdentifier name) :
      ∀ c ∈ name.toList, c ≠ '\'' ∧ c ≠ '$' := by
    intro c hc
    have part : Identifier.isPart c := Identifier.isPart_of_mem valid hc
    constructor <;> rintro rfl <;> exact absurd part (by decide)
  have quoted {name : String} (valid : isIdentifier name) :
      HasPlaceholders (Table.quoted name) [] := by
    refine plain (fun c hc => ?_) fun c hc => ?_
    · simp only [Table.quoted, String.toList_append, List.mem_append] at hc
      rcases hc with (hc | hc) | hc
      · cases List.mem_singleton.mp hc
        decide
      · exact inside valid c hc
      · cases List.mem_singleton.mp hc
        decide
    · simp only [Table.quoted, String.toList_append, List.append_assoc] at hc
      cases hc
      decide
  exact ((quoted table.schema_valid).append (fixed (by decide) (by decide))).append
    (quoted table.name_valid)

/-- A bound of a page has its own placeholder. -/
theorem boundText {word : String} (named : HasPlaceholders (" " ++ word ++ " ") [])
    (index : Option Nat) : HasPlaceholders (boundText word index) index.toList := by
  cases index with
  | none => exact empty
  | some index => exact named.append (mark index)

end HasPlaceholders

/-! ## Statements -/

/-- The text that a filter adds to the conditions of a statement. -/
def filterText : Option CompiledQuery → String
  | some query => " AND (" ++ query.fragment ++ ")"
  | none => ""

/-- The numbers of the placeholders of a filter. -/
def filterNumbers : Option CompiledQuery → List Nat
  | some query => (Piece.marks query.condition.pieces).map Prod.fst
  | none => []

theorem hasPlaceholders_filterText (filter : Option CompiledQuery) :
    HasPlaceholders (filterText filter) (filterNumbers filter) := by
  cases filter with
  | none => exact .empty
  | some query =>
    have shape : filterText (some query) = " AND " ++ (Condition.filter query.condition).text := by
      rw [filterText, Condition.text, CompiledQuery.fragment]
      simp only [← String.append_assoc]
      rfl
    have joiner : HasPlaceholders " AND " [] := .fixed (by decide) (by decide)
    rw [shape]
    exact joiner.append (.filter query.condition)

/-- The number of a placeholder for a bound of a page, if the page has that bound, stands for the
bound; it is at most the greatest integer of 64 bits. -/
def Statement.Bounds (statement : Statement) : Option Nat → Option UInt64 → Prop
  | none, none => True
  | some number, some bound =>
    ∃ i : Int64, statement.arguments[number - 1]? = some (.bigint i) ∧
      i.toInt = min bound.toNat (2 ^ 63 - 1)
  | _, _ => False

/-- Whether a statement has its arguments under the numbers of its placeholders.  Its text starts
with that of the partition, then comes that of a filter, and it ends with that of some bounds. -/
structure Table.LinesUp (table : Table) (statement : Statement) (partition : String)
    (filter : Option CompiledQuery) (finish : String) (bounds : List Nat) : Prop where
  text : ∃ start, placeholders start = some [1] ∧
    table.text statement = start ++ filterText filter ++ finish
  numbers : ∃ ns, placeholders (filterText filter) = some ns ∧
    placeholders finish = some bounds ∧
    placeholders (table.text statement) = some (1 :: ns ++ bounds)
  /-- Every number is the place of an argument. -/
  range : ∀ ns, placeholders (table.text statement) = some ns →
    ∀ n ∈ ns, 1 ≤ n ∧ n ≤ statement.arguments.length
  partition : statement.arguments[0]? = some (.text partition)
  /-- A number in the filter is the index of one of its parameters, which has its argument there. -/
  constants : ∀ ns, placeholders (filterText filter) = some ns → ∀ n ∈ ns,
    ∃ query, filter = some query ∧ ∃ p ∈ query.parameters, p.index = n ∧
      statement.arguments[n - 1]? = some p.argument ∧ ∀ r ∈ query.parameters, r.index = n → r = p

/-- Whether a filter, if there is one, was compiled for a statement, with a place for each of its
constants. -/
structure CompiledForStatement (filter : Option CompiledQuery) : Prop where
  compiled : ∀ query, filter = some query →
    ∃ (source : Filter) (schema : Schema), source.compileFrom schema filterFirstIndex = .ok query
  fits : ∀ query, filter = some query →
    filterFirstIndex + query.parameters.length ≤ UInt64.size

section

variable {table : Table} {statement : Statement} {partition : String}
  {filter : Option CompiledQuery}

/-- The numbers in a filter are the places of its constants. -/
theorem CompiledForStatement.constant (ready : CompiledForStatement filter) (partition : String)
    {n : Nat} (mem : n ∈ filterNumbers filter) :
    ∃ query, filter = some query ∧ ∃ p ∈ query.parameters, p.index = n ∧ 1 ≤ n ∧
      (Statement.scanArguments partition filter)[n - 1]? = some p.argument ∧
      ∀ r ∈ query.parameters, r.index = n → r = p := by
  cases filter with
  | none => cases mem
  | some query =>
    obtain ⟨source, schema, compiled⟩ := ready.compiled query rfl
    have fits := ready.fits query rfl
    obtain ⟨p, found, rfl⟩ := CompiledQuery.parameter_of_mark compiled mem
    obtain ⟨positive, place⟩ := CompiledQuery.argument_of_index compiled fits partition found
    refine ⟨query, rfl, p, found, rfl, positive, place, fun r other same => ?_⟩
    exact CompiledQuery.eq_of_index compiled fits other found same

/-- A statement on a partition and a filter lines up if its bounds do. -/
theorem CompiledForStatement.linesUp (ready : CompiledForStatement filter) {start finish : String}
    {bounds : List Nat} (before : HasPlaceholders start [1])
    (after : HasPlaceholders finish bounds)
    (text : table.text statement = start ++ filterText filter ++ finish)
    (arguments : Statement.scanArguments partition filter <+: statement.arguments)
    (range : ∀ n ∈ bounds, 1 ≤ n ∧ n ≤ statement.arguments.length) :
    table.LinesUp statement partition filter finish bounds := by
  obtain ⟨more, arguments⟩ := arguments
  have inFilter := hasPlaceholders_filterText filter
  have whole := (before.append inFilter).append after
  rw [← text] at whole
  have constant {n : Nat} (mem : n ∈ filterNumbers filter) :
      ∃ query, filter = some query ∧ ∃ p ∈ query.parameters, p.index = n ∧ 1 ≤ n ∧
        statement.arguments[n - 1]? = some p.argument ∧
        ∀ r ∈ query.parameters, r.index = n → r = p := by
    obtain ⟨query, same, p, found, index, positive, place, only⟩ := ready.constant partition mem
    obtain ⟨short, -⟩ := List.getElem?_eq_some_iff.mp place
    refine ⟨query, same, p, found, index, positive, ?_, only⟩
    rw [← arguments, List.getElem?_append_left short, place]
  constructor
  case text => exact ⟨start, before.placeholders, text⟩
  case numbers =>
    exact ⟨_, inFilter.placeholders, after.placeholders, whole.placeholders⟩
  case range =>
    intro ns read n mem
    cases whole.placeholders.symm.trans read
    rcases List.mem_append.mp mem with mem | mem
    · rcases List.mem_cons.mp mem with rfl | mem
      · simp [← arguments, Statement.scanArguments]
      · obtain ⟨_, _, _, _, _, positive, place, _⟩ := constant mem
        obtain ⟨short, -⟩ := List.getElem?_eq_some_iff.mp place
        omega
    · exact range n mem
  case partition => simp [← arguments, Statement.scanArguments]
  case constants =>
    intro ns read n mem
    cases inFilter.placeholders.symm.trans read
    obtain ⟨query, same, p, found, index, -, place, only⟩ := constant mem
    exact ⟨query, same, p, found, index, place, only⟩

theorem toInt_pageArgument (bound : UInt64) :
    ∃ i : Int64, pageArgument bound = .bigint i ∧ i.toInt = min bound.toNat (2 ^ 63 - 1) := by
  have small : min bound.toNat maxPageBound < 2 ^ 63 := by
    simp only [maxPageBound]
    omega
  refine ⟨_, rfl, ?_⟩
  rw [Int64.toInt_ofNat_of_lt small]
  simp [maxPageBound]

/-- A bound of a page is numbered by how many arguments there are once it is added. -/
theorem Statement.bounds_of_prefix {before : List Argument} {bound : Option UInt64}
    (added : before ++ (bound.map pageArgument).toList <+: statement.arguments) :
    statement.Bounds
      (bound.map fun _ => (before ++ (bound.map pageArgument).toList).length) bound := by
  cases bound with
  | none => trivial
  | some bound =>
    obtain ⟨i, argument, clamped⟩ := toInt_pageArgument bound
    obtain ⟨more, arguments⟩ := added
    refine ⟨i, ?_, clamped⟩
    simp [← arguments, argument]

/-- A filter comes after the other conditions. -/
theorem conditionsText_filter {conditions : List Condition} (others : conditions ≠ [])
    (filter : Option CompiledQuery) :
    conditionsText (conditions ++ Statement.filterConditions filter) =
      conditionsText conditions ++ filterText filter := by
  cases filter with
  | none => simp [Statement.filterConditions, filterText]
  | some query =>
    have some_text : conditions.map Condition.text ≠ [] := by simpa using others
    have joined : " AND ".intercalate (conditions.map Condition.text ++
        [(Condition.filter query.condition).text]) = _ :=
      String.intercalate_append_of_ne_nil some_text (List.cons_ne_nil _ _)
    have added : " AND " ++ (Condition.filter query.condition).text = filterText (some query) := by
      rw [filterText, Condition.text, CompiledQuery.fragment]
      simp only [← String.append_assoc]
      rfl
    rw [conditionsText, Statement.filterConditions, List.map_append, List.map_singleton, joined,
      String.intercalate_singleton, String.append_assoc, added, conditionsText, String.append_assoc]

theorem hasPlaceholders_ofPartition :
    HasPlaceholders (conditionsText [Statement.ofPartition]) [1] := by
  have word : HasPlaceholders " WHERE partition_id = " [] := .fixed (by decide) (by decide)
  exact word.append (.mark 1)

theorem hasPlaceholders_live :
    HasPlaceholders (conditionsText [Statement.ofPartition, .live]) [1] := by
  have live : HasPlaceholders (" AND " ++ liveText) [] := .fixed (by decide) (by decide)
  have split : conditionsText [Statement.ofPartition, .live] =
      conditionsText [Statement.ofPartition] ++ (" AND " ++ liveText) := by
    simp only [conditionsText, List.map_cons, List.map_nil, String.intercalate_cons_cons,
      String.intercalate_singleton, Condition.text, String.append_assoc]
  rw [split]
  exact hasPlaceholders_ofPartition.append live

/-- The text before a filter, from the word that a statement starts with. -/
theorem hasPlaceholders_start (table : Table) {word : String} {conditions : List Condition}
    (plain : HasPlaceholders word []) (one : HasPlaceholders (conditionsText conditions) [1]) :
    HasPlaceholders (word ++ table.qualified ++ conditionsText conditions) [1] :=
  (plain.append (.qualified table)).append one

theorem lines_up_count (ready : CompiledForStatement filter) (table : Table) (partition : String) :
    table.LinesUp (.count partition filter) partition filter "" [] := by
  have word : HasPlaceholders ("SELECT count(*)" ++ " FROM ") [] :=
    .fixed (by decide) (by decide)
  have start := hasPlaceholders_start table word hasPlaceholders_live
  have added := conditionsText_filter (List.cons_ne_nil Statement.ofPartition [.live]) filter
  have text : table.text (.count partition filter) = "SELECT count(*)" ++ (" FROM " ++
      table.qualified ++
        conditionsText ([Statement.ofPartition, .live] ++ Statement.filterConditions filter)) := rfl
  refine ready.linesUp start .empty ?_ (List.prefix_refl _) nofun
  rw [text, added, String.append_empty]
  simp only [String.append_assoc]

theorem lines_up_deleteMatching (ready : CompiledForStatement filter) (table : Table)
    (partition : String) :
    table.LinesUp (.deleteMatching partition filter) partition filter "" [] := by
  have word : HasPlaceholders "DELETE FROM " [] := .fixed (by decide) (by decide)
  have start := hasPlaceholders_start table word hasPlaceholders_ofPartition
  have added := conditionsText_filter (List.cons_ne_nil Statement.ofPartition []) filter
  have text : table.text (.deleteMatching partition filter) = "DELETE FROM " ++ table.qualified ++
      conditionsText ([Statement.ofPartition] ++ Statement.filterConditions filter) := rfl
  refine ready.linesUp start .empty ?_ (List.prefix_refl _) nofun
  rw [text, added, String.append_empty]
  simp only [String.append_assoc]

/-- The arguments of a page come after those of the filter, first the limit. -/
theorem lines_up_list (ready : CompiledForStatement filter) (table : Table) (partition : String)
    (page : Page) :
    ∃ limit offset, table.LinesUp (.list partition filter page) partition filter
        (" ORDER BY id" ++ boundText "LIMIT" limit ++ boundText "OFFSET" offset)
        (limit.toList ++ offset.toList) ∧
      (Statement.list partition filter page).Bounds limit page.limit ∧
      (Statement.list partition filter page).Bounds offset page.offset := by
  let scan := Statement.scanArguments partition filter
  let withLimit := scan ++ (page.limit.map pageArgument).toList
  let withOffset := withLimit ++ (page.offset.map pageArgument).toList
  let limit := page.limit.map fun _ => withLimit.length
  let offset := page.offset.map fun _ => withOffset.length
  have size : (Statement.list partition filter page).arguments.length = withOffset.length := rfl
  have first : ∀ n ∈ limit, n = withLimit.length := by simp [limit]
  have second : ∀ n ∈ offset, n = withOffset.length := by simp [offset]
  have nonempty : 1 ≤ withLimit.length := by simp [withLimit, scan, Statement.scanArguments]
  have longer : withLimit.length ≤ withOffset.length := by simp [withOffset]
  have word : HasPlaceholders ("SELECT " ++ Column.document.name ++ " FROM ") [] :=
    .fixed (by decide) (by decide)
  have start := hasPlaceholders_start table word hasPlaceholders_live
  have order : HasPlaceholders " ORDER BY id" [] := .fixed (by decide) (by decide)
  have limitText : HasPlaceholders (boundText "LIMIT" limit) limit.toList :=
    .boundText (.fixed (by decide) (by decide)) limit
  have offsetText : HasPlaceholders (boundText "OFFSET" offset) offset.toList :=
    .boundText (.fixed (by decide) (by decide)) offset
  have finish := (order.append limitText).append offsetText
  have added := conditionsText_filter (List.cons_ne_nil Statement.ofPartition [.live]) filter
  have text : table.text (.list partition filter page) = "SELECT " ++ Column.document.name ++
      (" FROM " ++ table.qualified ++
        conditionsText ([Statement.ofPartition, .live] ++ Statement.filterConditions filter)) ++
      " ORDER BY id" ++ boundText "LIMIT" limit ++ boundText "OFFSET" offset := rfl
  refine ⟨limit, offset, ready.linesUp start finish ?text ?arguments ?range, ?limit, ?offset⟩
  case text =>
    rw [text, added]
    simp only [String.append_assoc]
  case arguments => exact ⟨_, (List.append_assoc ..).symm⟩
  case range =>
    intro n mem
    rcases List.mem_append.mp mem with mem | mem
    · have := first n (Option.mem_toList.mp mem)
      omega
    · have := second n (Option.mem_toList.mp mem)
      omega
  case limit => exact Statement.bounds_of_prefix (List.prefix_append ..)
  case offset => exact Statement.bounds_of_prefix (List.prefix_refl _)

/-- The statements that count, list and delete the documents of a partition that a filter holds of
have the arguments of their placeholders under the numbers of these. -/
theorem arguments_line_up (table : Table) (partition : String) {filter : Option CompiledQuery}
    (ready : CompiledForStatement filter) (page : Page) :
    table.LinesUp (.count partition filter) partition filter "" [] ∧
      table.LinesUp (.deleteMatching partition filter) partition filter "" [] ∧
      ∃ limit offset, table.LinesUp (.list partition filter page) partition filter
          (" ORDER BY id" ++ boundText "LIMIT" limit ++ boundText "OFFSET" offset)
          (limit.toList ++ offset.toList) ∧
        (Statement.list partition filter page).Bounds limit page.limit ∧
        (Statement.list partition filter page).Bounds offset page.offset :=
  ⟨lines_up_count ready table partition, lines_up_deleteMatching ready table partition,
    lines_up_list ready table partition page⟩

end

/-! ## A field named like a placeholder -/

/-- A schema with a field whose name, which stands in a literal, looks like a placeholder. -/
def markedSchema : Schema :=
  (Schema.empty "Order").declare "$9" (.required (.scalar .int32))

def markedFilter : Filter where
  predicate := .logical .or [
    .comparison .ge (.field ⟨["$9"]⟩) (.constant (.literal (.int32 18))),
    .comparison .eq (.field ⟨["$9"]⟩) (.constant (.literal (.int32 3)))]
  captures := []

def markedTable : Table := ⟨"store", "orders", rfl, rfl⟩

/-- The first page, without an end, from further on than any row. -/
def farPage : Page := ⟨some 0xffffffffffffffff, some 0x8000000000000000⟩

theorem arguments_line_up_of_marked :
    ∃ query, markedFilter.compileFrom markedSchema filterFirstIndex = .ok query ∧
      query.parameters.map Parameter.index = [2, 3] ∧ CompiledForStatement (some query) ∧
      markedTable.LinesUp (.count "p" (some query)) "p" (some query) "" [] ∧
      ∃ limit offset, markedTable.LinesUp (.list "p" (some query) farPage) "p" (some query)
          (" ORDER BY id" ++ boundText "LIMIT" limit ++ boundText "OFFSET" offset)
          (limit.toList ++ offset.toList) ∧
        (Statement.list "p" (some query) farPage).Bounds limit farPage.limit ∧
        (Statement.list "p" (some query) farPage).Bounds offset farPage.offset := by
  obtain ⟨query, compiled, indexes⟩ :
      ∃ query, markedFilter.compileFrom markedSchema filterFirstIndex = .ok query ∧
        query.parameters.map Parameter.index = [2, 3] := ⟨_, rfl, rfl⟩
  have two : query.parameters.length = 2 := by simpa using congrArg List.length indexes
  have ready : CompiledForStatement (some query) := by
    constructor
    · rintro _ ⟨⟩
      exact ⟨markedFilter, markedSchema, compiled⟩
    · rintro _ ⟨⟩
      rw [two]
      decide
  obtain ⟨count, -, list⟩ := arguments_line_up markedTable "p" ready farPage
  exact ⟨query, compiled, indexes, ready, count, list⟩

end DocStore
