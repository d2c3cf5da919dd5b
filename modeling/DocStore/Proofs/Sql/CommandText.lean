import DocStore.Proofs.Sql.Command
import DocStore.Proofs.Sql.Conjunct

/-!
# The texts of commands read back

A text that is split into tokens the same wherever it stands can be put together with others at
marks and spaces.  So are the texts of commands, and each is read as the command that it is of.

* `HasTokens`: a text that is split into some tokens wherever it stands;
* `Condition.Reads`, `Command.Reads`: what conditions and commands are read as;
* `Command.ofText_text`: the text of a command is read as the command.
-/

namespace DocStore

open DocStore.Text
open SqlLexeme (codes isLoose isWordChar lex)
open SqlToken (code)

/-! ## Code around other texts -/

/-- Whether code has some tokens, and ends with a mark or a space. -/
def isHead (s : String) (ts : List SqlToken) : Bool :=
  s.toList.all (· != '\'') && (codes s).getLast?.all isLoose &&
    decide (SqlToken.ofLexemes (codes s) = ts)

/-- Whether code has some tokens, and starts with a mark or a space. -/
def isTail (s : String) (ts : List SqlToken) : Bool :=
  s.toList.all (· != '\'') && (codes s).head?.all isLoose &&
    decide (SqlToken.ofLexemes (codes s) = ts)

/-- Whether code has some tokens, and keeps what is before it apart from what is after it. -/
def isJoint (s : String) (ts : List SqlToken) : Bool :=
  isHead s ts && (codes s).head?.any isLoose

/-! ## Texts with tokens -/

/-- Whether a text is split into some tokens, the same lexemes whatever comes after it. -/
def HasTokens (s : String) (ts : List SqlToken) : Prop :=
  ∃ ls, (∀ rest, lex (s.toList ++ rest) = (lex rest).map (ls ++ ·)) ∧ SqlToken.ofLexemes ls = ts

namespace HasTokens

variable {s t mid : String} {ts us ms : List SqlToken}

theorem ofText (h : HasTokens s ts) : SqlToken.ofText s = some ts := by
  obtain ⟨ls, splits, rfl⟩ := h
  have alone := splits []
  rw [List.append_nil, lex, Option.map_some, List.append_nil] at alone
  rw [SqlToken.ofText, alone, Option.map_some]

/-- Texts one after another, where the lexemes of one are no part of a token of the other. -/
theorem append {ls ks : List SqlLexeme}
    (first : ∀ rest, lex (s.toList ++ rest) = (lex rest).map (ls ++ ·))
    (second : ∀ rest, lex (t.toList ++ rest) = (lex rest).map (ks ++ ·)) (rest : List Char) :
    lex ((s ++ t).toList ++ rest) = (lex rest).map (ls ++ ks ++ ·) := by
  rw [String.toList_append, List.append_assoc, first, second, Option.map_map]
  simp [Function.comp_def]

/-- Code alone. -/
theorem head (head : isHead s ts) : HasTokens s ts := by
  simp only [isHead, Bool.and_eq_true, decide_eq_true_eq] at head
  obtain ⟨⟨unquoted, -⟩, tokens⟩ := head
  exact ⟨_, Piece.lex_fixed unquoted, tokens⟩

/-- A text after code. -/
theorem after (second : HasTokens t us) (head : isHead s ts) : HasTokens (s ++ t) (ts ++ us) := by
  simp only [isHead, Bool.and_eq_true, decide_eq_true_eq] at head
  obtain ⟨⟨unquoted, ends⟩, rfl⟩ := head
  obtain ⟨ks, splits, rfl⟩ := second
  exact ⟨_, append (Piece.lex_fixed unquoted) splits, SqlToken.ofLexemes_after ends ks⟩

/-- A text before code. -/
theorem before (first : HasTokens s ts) (tail : isTail t us) : HasTokens (s ++ t) (ts ++ us) := by
  simp only [isTail, Bool.and_eq_true, decide_eq_true_eq] at tail
  obtain ⟨⟨unquoted, starts⟩, rfl⟩ := tail
  obtain ⟨ls, splits, rfl⟩ := first
  exact ⟨_, append splits (Piece.lex_fixed unquoted), SqlToken.ofLexemes_before ls starts⟩

/-- Texts with code between them. -/
theorem between (first : HasTokens s ts) (second : HasTokens t us) (joint : isJoint mid ms) :
    HasTokens (s ++ mid ++ t) (ts ++ (ms ++ us)) := by
  simp only [isJoint, isHead, Bool.and_eq_true, decide_eq_true_eq] at joint
  obtain ⟨⟨⟨unquoted, ends⟩, rfl⟩, starts⟩ := joint
  obtain ⟨ls, splits, rfl⟩ := first
  obtain ⟨ks, splits', rfl⟩ := second
  have led : (codes mid ++ ks).head?.all isLoose := by
    cases chars : codes mid with
    | nil => simp [chars] at starts
    | cons l others => simpa [chars] using starts
  refine ⟨ls ++ (codes mid ++ ks), ?_, ?_⟩
  · rw [String.append_assoc]
    exact append splits (append (Piece.lex_fixed unquoted) splits')
  · rw [SqlToken.ofLexemes_before ls led, SqlToken.ofLexemes_after ends]

/-- Texts with a separator between them. -/
theorem intercalate {α : Type} {separator mark : String} (joint : isJoint separator [code mark])
    (text : α → String) (tokensOf : α → List SqlToken) {xs : List α} (filled : xs ≠ [])
    (each : ∀ x ∈ xs, HasTokens (text x) (tokensOf x)) :
    HasTokens (separator.intercalate (xs.map text))
      (SqlReader.separated mark (xs.map tokensOf)) := by
  induction xs with
  | nil => exact absurd rfl filled
  | cons x xs ih =>
    obtain ⟨first, others⟩ := List.forall_mem_cons.mp each
    cases xs with
    | nil => simpa [SqlReader.separated, String.intercalate_singleton] using first
    | cons y ys =>
      have rest := ih (List.cons_ne_nil _ _) others
      have joined := first.between rest joint
      rw [List.map_cons, List.map_cons, String.intercalate_cons_cons, ← List.map_cons]
      simpa [SqlReader.separated] using joined

/-- Texts with commas between them. -/
theorem listed {α : Type} (text : α → String) (tokensOf : α → List SqlToken) {xs : List α}
    (filled : xs ≠ []) (each : ∀ x ∈ xs, HasTokens (text x) (tokensOf x)) :
    HasTokens (", ".intercalate (xs.map text)) (SqlReader.separated "," (xs.map tokensOf)) :=
  intercalate (by decide) text tokensOf filled each

/-! ### Names and columns -/

theorem word (filled : s.toList ≠ []) (letters : ∀ c ∈ s.toList, isWordChar c) :
    HasTokens s [code s] := by
  have unquoted : ∀ c ∈ s.toList, c ≠ '\'' := by
    rintro c mem rfl
    exact absurd (letters _ mem) (by decide)
  have tokens := SqlToken.ofLexemes_word filled letters
  rw [String.ofList_toList] at tokens
  exact ⟨codes s, Piece.lex_codes unquoted, tokens⟩

theorem quoted {name : String} (valid : isIdentifier name) :
    HasTokens (Table.quoted name) [code "\"", code name, code "\""] := by
  have filled : name.toList ≠ [] := by
    intro none
    simp [isIdentifier, none] at valid
  have letters : ∀ c ∈ name.toList, isWordChar c := by
    intro c mem
    have part : Identifier.isPart c := Identifier.isPart_of_mem valid mem
    simp only [Identifier.isPart, Bool.or_eq_true] at part
    simp only [isWordChar, Bool.or_eq_true]
    exact .inl part
  have opened := (word filled letters).after (by decide : isHead "\"" [code "\""])
  exact opened.before (by decide : isTail "\"" [code "\""])

theorem qualified (table : Table) :
    HasTokens table.qualified (SqlReader.tableTokens table.schema table.name) :=
  (quoted table.schema_valid).between (quoted table.name_valid) (by decide : isJoint "." [code "."])

theorem column (c : Column) : HasTokens c.name [code c.name] := by
  have letters : c.name.toList.all isWordChar := by cases c <;> decide
  have filled : c.name.toList ≠ [] := by cases c <;> decide
  exact word filled (List.all_eq_true.mp letters)

theorem columns {columns : List Column} (filled : columns ≠ []) :
    HasTokens (columnsText columns) (SqlReader.columnTokens columns) := by
  have inside := listed Column.name (fun c => [code c.name]) filled fun c _ => column c
  have opened := inside.after (by decide : isHead "(" [code "("])
  exact opened.before (by decide : isTail ")" [code ")"])

theorem mark (index : Nat) : HasTokens (argumentMark index) [code (argumentMark index)] := by
  obtain ⟨_, letters⟩ := SqlToken.ofLexemes_mark index
  apply word
  · simp [argumentMark]
  · intro c mem
    obtain ⟨d, same, letter⟩ := letters (.code c) (List.mem_map_of_mem mem)
    cases same
    exact letter

theorem natural (n : Nat) : HasTokens (natText n) [code (natText n)] := by
  have digits : (natText n).toList = natDigits n := String.toList_ofList
  apply word
  · rw [digits]
    exact natDigits_ne_nil n
  · intro c mem
    rw [digits] at mem
    exact SqlToken.isWordChar_of_digit (natDigits_isDigit mem)

theorem source (source : Source) : HasTokens source.text source.tokens := by
  cases source with
  | argument index => exact mark index
  | now => exact head (by decide)
  | null => exact ⟨_, Piece.lex_fixed (by decide), by decide⟩
  | inserted c =>
    exact (column c).after (by decide : isHead "EXCLUDED." [code "EXCLUDED", code "."])

theorem equals {c : Column} (second : HasTokens t us) :
    HasTokens (c.name ++ " = " ++ t) (code c.name :: code "=" :: us) :=
  (column c).between second (by decide : isJoint " = " [code "="])

theorem change {change : List (Column × Source)} (filled : change ≠ []) :
    HasTokens (changeText change) (SqlReader.changeTokens change) := by
  refine listed (fun c : Column × Source => c.1.name ++ " = " ++ c.2.text)
    (fun c => code c.1.name :: code "=" :: c.2.tokens) filled fun c _ => ?_
  exact (source c.2).equals

end HasTokens

/-! ## Conditions -/

namespace SqlOperand

/-- Whether the row at hand has not expired. -/
def live : SqlOperand :=
  .or (.isNull (.column none .expires) false) (.compare .lt false .now (.column none .expires))

/-- Whether the row that a name stands for has expired. -/
def lapsed (row : Option String) : SqlOperand :=
  .and (.isNull (.column row .expires) true) (.compare .ge false .now (.column row .expires))

variable {names : List (Option String)} {ts : List SqlToken}

theorem renders_live (expires : Renders names ts (.column none .expires)) :
    RendersWhole names ((ts ++ [code "IS", code "NULL"]) ++
      code "OR" :: ([code "now", code "(", code ")"] ++ code "<" :: ts)) live := by
  have endless := RendersConjunct.isNull expires.operand
  have ahead := RendersConjunct.compare .lt Renders.now.operand expires.operand
  exact RendersWhole.or endless.disjunct ahead.disjunct

theorem renders_lapsed {row : Option String} (expires : Renders names ts (.column row .expires)) :
    RendersWhole names ((ts ++ [code "IS", code "NOT", code "NULL"]) ++
      code "AND" :: ([code "now", code "(", code ")"] ++ code ">=" :: ts)) (lapsed row) := by
  have bounded := RendersConjunct.isNotNull expires.operand
  have behind := RendersConjunct.compare .ge Renders.now.operand expires.operand
  exact (RendersDisjunct.and bounded behind).whole

end SqlOperand

namespace Condition

open SqlOperand

/-- The tokens of a condition. -/
def tokens : Condition → List SqlToken
  | .equals c index => [code c.name, code "=", code (argumentMark index)]
  | .live => [code "(", code "expires", code "IS", code "NULL", code "OR", code "now",
      code "(", code ")", code "<", code "expires", code ")"]
  | .expired => [code "(", code "expires", code "IS", code "NOT", code "NULL", code "AND",
      code "now", code "(", code ")", code ">=", code "expires", code ")"]
  | .filter condition => code "(" :: (Piece.tokens condition.pieces ++ [code ")"])

theorem hasTokens (c : Condition) : HasTokens c.text c.tokens := by
  cases c with
  | equals c index => exact (HasTokens.mark index).equals
  | live => exact .head (by decide +kernel)
  | expired => exact .head (by decide +kernel)
  | filter condition =>
    have opening : SqlToken.ofLexemes (codes "(") = [code "("] := by decide
    have closing : SqlToken.ofLexemes (codes ")") = [code ")"] := by decide
    refine ⟨_, lex_text _, ?_⟩
    rw [lexemes, List.append_assoc, SqlToken.ofLexemes_after (by decide),
      SqlToken.ofLexemes_before _ (by decide), opening, closing]
    rfl

/-- What a condition is read as, a filter being read from its text. -/
inductive Reads : Condition → SqlOperand → Prop
  | equals (c : Column) (index : Nat) :
    Reads (.equals c index) (.compare .eq false (.column none c) (.parameter index none))
  | live : Reads .live .live
  | expired : Reads .expired (.lapsed none)
  | filter {condition : SqlExpr} {o : SqlOperand} (read : ofText condition.text = some o) :
    Reads (.filter condition) o

theorem Reads.renders {c : Condition} {o : SqlOperand} (reads : c.Reads o) :
    RendersConjunct [none] c.tokens o := by
  have known : none ∈ [(none : Option String)] := List.mem_singleton_self none
  have expires : Renders [none] [code "expires"] (.column none .expires) := .column known .expires
  cases reads with
  | equals c index =>
    exact .compare .eq (Renders.column known c).operand (RendersOperand.parameter index)
  | live => exact (Renders.closed (renders_live expires)).operand.conjunct
  | expired => exact (Renders.closed (renders_lapsed expires)).operand.conjunct
  | @filter condition _ read =>
    rw [SqlOperand.ofText, SqlExpr.ofText_text, Option.bind_some, ofTokens_eq_some_iff] at read
    exact (Renders.closed read).operand.conjunct

/-- Whether some conditions that must all be met are read as one. -/
def ReadsAll (cs : List Condition) (o : SqlOperand) : Prop :=
  ∃ p ps, List.Forall₂ Reads cs (p :: ps) ∧ o = ps.foldl .and p

end Condition

/-- The tokens of conditions that must all be met. -/
def conditionTokens (conditions : List Condition) : List SqlToken :=
  SqlReader.separated "AND" (conditions.map Condition.tokens)

theorem HasTokens.conditions {conditions : List Condition} (filled : conditions ≠ []) :
    HasTokens (" AND ".intercalate (conditions.map Condition.text)) (conditionTokens conditions) :=
  intercalate (by decide) Condition.text Condition.tokens filled fun c _ => c.hasTokens

/-- A command on the rows that meet some conditions. -/
theorem HasTokens.met {s : String} {ts : List SqlToken} (first : HasTokens s ts)
    {conditions : List Condition} (filled : conditions ≠ []) :
    HasTokens (s ++ conditionsText conditions)
      (ts ++ code "WHERE" :: conditionTokens conditions) := by
  rw [conditionsText, ← String.append_assoc]
  exact first.between (.conditions filled) (by decide : isJoint " WHERE " [code "WHERE"])

/-- What is selected from the rows that meet some conditions. -/
theorem HasTokens.selected {s : String} {ts : List SqlToken} (first : HasTokens s ts)
    (table : Table) {conditions : List Condition} (filled : conditions ≠ []) :
    HasTokens (s ++ (" FROM " ++ table.qualified ++ conditionsText conditions))
      (ts ++ code "FROM" :: (SqlReader.tableTokens table.schema table.name ++
        code "WHERE" :: conditionTokens conditions)) := by
  have rows : isJoint " FROM " [code "FROM"] := by decide
  have tokens := (first.between (.qualified table) rows).met filled
  rw [← String.append_assoc, ← String.append_assoc]
  simpa only [List.append_assoc, List.cons_append, List.nil_append] using tokens

namespace Condition

open SqlOperand

theorem ReadsAll.filled {cs : List Condition} {o : SqlOperand} (all : ReadsAll cs o) :
    cs ≠ [] := by
  rintro rfl
  obtain ⟨p, ps, reads, -⟩ := all
  cases reads

theorem ReadsAll.renders {cs : List Condition} {o : SqlOperand} (all : ReadsAll cs o) :
    RendersWhole [none] (conditionTokens cs) o := by
  obtain ⟨p, ps, reads, rfl⟩ := all
  cases reads with
  | @cons c _ rest _ first others =>
    obtain ⟨xs, written, renders, read⟩ : ∃ xs : List (List SqlToken × SqlOperand),
        (xs.flatMap fun x => code "AND" :: x.1) =
            (rest.map tokens).flatMap (fun us => code "AND" :: us) ∧
          (∀ x ∈ xs, RendersConjunct [none] x.1 x.2) ∧ xs.map (·.2) = ps := by
      clear first
      induction others with
      | nil => exact ⟨[], rfl, List.forall_mem_nil _, rfl⟩
      | @cons d q _ _ reads _ ih =>
        obtain ⟨xs, written, renders, read⟩ := ih
        refine ⟨(d.tokens, q) :: xs, ?_, List.forall_mem_cons.mpr ⟨reads.renders, renders⟩, ?_⟩
        · rw [List.map_cons, List.flatMap_cons, List.flatMap_cons, written]
        · rw [List.map_cons, read]
    rw [conditionTokens, List.map_cons, SqlReader.separated, ← written, ← read]
    exact (RendersDisjunct.joined first.renders renders).whole

end Condition

/-! ## Commands -/

namespace Command

/-- What a command is read as.  Every list in it must have an entry, and the row that was to be
inserted may be spoken of only where there is one. -/
inductive Reads : Command → SqlAction → Prop
  | create {row change : List (Column × Source)} (rowFilled : row ≠ [])
    (rowKnown : ∀ c ∈ row, c.2.isKnown []) (filled : change ≠ [])
    (known : ∀ c ∈ change, c.2.isKnown (SqlReader.conflictNames (some "t"))) :
    Reads (.insert row change true) (.insert (some "t") (row.map (·.1))
      (row.map fun c => c.2.operand) keyColumns (change.map fun c => (c.1, c.2.operand))
      (some (.lapsed (some "t"))))
  | upsert {row change : List (Column × Source)} (rowFilled : row ≠ [])
    (rowKnown : ∀ c ∈ row, c.2.isKnown []) (filled : change ≠ [])
    (known : ∀ c ∈ change, c.2.isKnown (SqlReader.conflictNames none)) :
    Reads (.insert row change false) (.insert none (row.map (·.1))
      (row.map fun c => c.2.operand) keyColumns (change.map fun c => (c.1, c.2.operand)) none)
  | update {change : List (Column × Source)} {conditions : List Condition} {o : SqlOperand}
    (filled : change ≠ []) (known : ∀ c ∈ change, c.2.isKnown [none])
    (all : Condition.ReadsAll conditions o) :
    Reads (.update change conditions) (.update (change.map fun c => (c.1, c.2.operand)) (some o))
  | delete {conditions : List Condition} {o : SqlOperand}
    (all : Condition.ReadsAll conditions o) : Reads (.delete conditions) (.delete (some o))
  | document {conditions : List Condition} {o : SqlOperand}
    (all : Condition.ReadsAll conditions o) :
    Reads (.select .document conditions) (.select (.column .document) (some o))
  | existence {conditions : List Condition} {o : SqlOperand}
    (all : Condition.ReadsAll conditions o) :
    Reads (.select .existence conditions) (.select .existence (some o))
  | number {conditions : List Condition} {o : SqlOperand}
    (all : Condition.ReadsAll conditions o) :
    Reads (.select .number conditions) (.select .number (some o))

/-- The tokens of an insertion up to the changes in place of a conflict. -/
theorem hasTokens_insert (table : Table) {row change : List (Column × Source)} {called : String}
    {named : List SqlToken} (rowFilled : row ≠ []) (filled : change ≠ [])
    (joint : isJoint called named) :
    HasTokens ("INSERT INTO " ++ table.qualified ++ called ++ columnsText (row.map (·.1)) ++
        " VALUES (" ++ ", ".intercalate (row.map fun c => c.2.text) ++ ") ON CONFLICT " ++
        columnsText keyColumns ++ " DO UPDATE SET " ++ changeText change)
      (code "INSERT" :: code "INTO" :: (SqlReader.tableTokens table.schema table.name ++ (named ++
        (SqlCommand.proposalTokens row ++ SqlCommand.resolutionTokens keyColumns change [])))) := by
  have verb : isHead "INSERT INTO " [code "INSERT", code "INTO"] := by decide
  have given : isJoint " VALUES (" [code "VALUES", code "("] := by decide
  have conflict : isJoint ") ON CONFLICT " [code ")", code "ON", code "CONFLICT"] := by decide
  have set : isJoint " DO UPDATE SET " [code "DO", code "UPDATE", code "SET"] := by decide
  have rowNamed : row.map (·.1) ≠ [] := by simpa using rowFilled
  have values := HasTokens.listed (fun c : Column × Source => c.2.text) (fun c => c.2.tokens)
    rowFilled fun c _ => HasTokens.source c.2
  have target : keyColumns ≠ [] := List.cons_ne_nil _ _
  have head := (HasTokens.qualified table).after verb
  have columns := head.between (.columns rowNamed) joint
  have row := columns.between values given
  have key := row.between (.columns target) conflict
  have changed := key.between (.change filled) set
  simpa only [SqlCommand.proposalTokens, SqlCommand.resolutionTokens, List.append_assoc,
    List.cons_append, List.nil_append, List.append_nil] using changed

/-- The text of a command on a table is read as what the command is read as, on that table. -/
theorem ofText_text (table : Table) {command : Command} {action : SqlAction}
    (reads : command.Reads action) :
    SqlCommand.ofText (command.text table.qualified) =
      some ⟨table.schema, table.name, action⟩ := by
  have of {s : String} {ts : List SqlToken} (tokens : HasTokens s ts) :
      SqlCommand.ofText s = SqlCommand.ofTokens ts := by
    rw [SqlCommand.ofText, tokens.ofText, Option.bind_some]
  have qualified := HasTokens.qualified table
  cases reads with
  | @create row change rowFilled rowKnown filled known =>
    have called : isJoint " AS t " [code "AS", code "t"] := by decide
    have lapsed : isTail " WHERE t.expires IS NOT NULL AND now() >= t.expires"
        [code "WHERE", code "t", code ".", code "expires", code "IS", code "NOT", code "NULL",
          code "AND", code "now", code "(", code ")", code ">=", code "t", code ".",
          code "expires"] := by decide +kernel
    have target : keyColumns ≠ [] := List.cons_ne_nil _ _
    have old : some "t" ∈ SqlReader.conflictNames (some "t") := List.mem_cons_self ..
    have expires := SqlOperand.Renders.columnOf (.inl rfl) old .expires
    have tokens := (hasTokens_insert table rowFilled filled called).before lapsed
    have read := SqlCommand.ofTokens_insert table.schema table.name (some "t") rowFilled rowKnown
      target filled known (.present (SqlOperand.renders_lapsed expires))
    refine (of tokens).trans (Eq.trans ?_ read)
    simp [SqlCommand.nameTokens, SqlCommand.resolutionTokens, Column.name]
  | @upsert row change rowFilled rowKnown filled known =>
    have target : keyColumns ≠ [] := List.cons_ne_nil _ _
    have tokens := hasTokens_insert table rowFilled filled (by decide : isJoint " " [])
    have read := SqlCommand.ofTokens_insert table.schema table.name none rowFilled rowKnown target
      filled known .absent
    have text : (Command.insert row change false).text table.qualified = _ :=
      String.append_empty
    rw [text]
    exact (of tokens).trans read
  | @update change conditions o filled known all =>
    have verb : isHead "UPDATE " [code "UPDATE"] := by decide
    have set : isJoint " SET " [code "SET"] := by decide
    have tokens := ((qualified.after verb).between (.change filled) set).met all.filled
    refine (of tokens).trans (Eq.trans ?_ (SqlCommand.ofTokens_update filled known all.renders))
    simp
  | @delete conditions o all =>
    have verb : isHead "DELETE FROM " [code "DELETE", code "FROM"] := by decide
    have tokens := (qualified.after verb).met all.filled
    exact (of tokens).trans (SqlCommand.ofTokens_delete all.renders)
  | @document conditions o all =>
    have verb : isHead "SELECT " [code "SELECT"] := by decide
    have tokens := ((HasTokens.column .document).after verb).selected table all.filled
    exact (of tokens).trans (SqlCommand.ofTokens_select_column all.renders _)
  | @existence conditions o all =>
    have verb : HasTokens "SELECT EXISTS (SELECT 1" [code "SELECT", code "EXISTS", code "(",
        code "SELECT", code "1"] := ⟨_, Piece.lex_fixed (by decide +kernel), by decide +kernel⟩
    have inner := verb.selected table all.filled
    have tokens := inner.before (by decide : isTail ")" [code ")"])
    refine (of tokens).trans (Eq.trans ?_ (SqlCommand.ofTokens_select_existence all.renders))
    simp
  | @number conditions o all =>
    have verb : HasTokens "SELECT count(*)" [code "SELECT", code "count", code "(", code "*",
        code ")"] := .head (by decide +kernel)
    have tokens := verb.selected table all.filled
    exact (of tokens).trans (SqlCommand.ofTokens_select_number all.renders)

end Command

end DocStore
