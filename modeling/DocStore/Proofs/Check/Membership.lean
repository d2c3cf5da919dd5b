import DocStore.Proofs.Check.Exact
import DocStore.Proofs.Sql.Binding
import DocStore.Proofs.Text.Guid

/-!
# Membership as containment of JSON values

Membership in an array whose elements are neither decimals nor instants is compiled to containment
of JSON values, and evaluated by looking at one element after another.  An element is found where it
is the JSON form of the bound value, with two exceptions: an identifier is found in any spelling,
and a floating-point number between two shortest decimals is looked for under the other one.

* `Value.number?`, `Value.JsonForm`: the number that a constant is, and its JSON form;
* `Value.Matches`: the JSON values that an evaluation takes for a constant;
* `Value.IsTied`: the numbers that lie between two shortest decimals;
* `Value.JsonForm.found`, `Value.Matches.jsonForm`: how the two are related;
* `membership_contained`: what membership is compiled to and evaluates to.
-/

namespace DocStore

open DocStore.Text

/-! ## Numbers -/

/-- The number that a constant is: an integer or a decimal itself, and a finite floating-point
number what its shortest digits spell. -/
def Value.number? (tie : Tie) : Value → Option ℚ
  | .float32 (.number negative rank) =>
    if rank.val < Format.single.infinityRank then
      some (Floating.shortestValue tie .single negative rank.val)
    else none
  | .float64 (.number negative rank) =>
    if rank.val < Format.double.infinityRank then
      some (Floating.shortestValue tie .double negative rank.val)
    else none
  | v => v.rational?

/-- A text that spells one number is read as it. -/
theorem ExactNumber.map_read? {s : String} {n : Numeral} (spelled : n.Spells s)
    (readable : (ExactNumber.read? s).isSome) :
    (ExactNumber.read? s).map ExactNumber.value = some n.value := by
  obtain ⟨x, read⟩ := Option.isSome_iff_exists.mp readable
  have worth := ((ExactNumber.normal_of_read? read).2 n.value).mp ⟨n, spelled, rfl⟩
  rw [read, worth]
  rfl

theorem Floating.map_exactNumber? {f : Format} (moderate : f.span < 2 ^ 58) {negative : Bool}
    {rank : Fin (f.infinityRank + 1)} :
    ((if (Floating.number negative rank).isFinite then
        some ((Floating.number negative rank).text .plain) else none).bind
      ExactNumber.read?).map ExactNumber.value =
      if rank.val < f.infinityRank then some (shortestValue .up f negative rank.val) else none := by
  by_cases finite : rank.val < f.infinityRank
  · have numbered : (Floating.number negative rank).isFinite := by simpa [isFinite] using finite
    obtain ⟨n, spelled, worth, -⟩ : ∃ n : Numeral, n.Spells
      ((Floating.number negative rank).text .plain) ∧ _ := text_spells .plain finite
    rw [if_pos numbered, if_pos finite, Option.bind_some,
      ExactNumber.map_read? spelled (text_readable moderate .plain numbered), worth]
    rfl
  · have infinite : (Floating.number negative rank).isFinite = false := by
      simpa [isFinite] using finite
    simp [infinite, finite]

/-- Constants are compared exactly as the numbers that they are in plain digits. -/
theorem Value.map_exactNumber? (v : Value) :
    v.exactNumber?.map ExactNumber.value = v.number? .up := by
  have integer {w : Value} {i : Int} (held : IntRange.signed64.holds i)
      (text : w.numericText? = some (intText i)) (worth : w.number? .up = some (i : ℚ)) :
      w.exactNumber?.map ExactNumber.value = w.number? .up := by
    obtain ⟨n, spelled, same, -⟩ := intText_spells i
    rw [exactNumber?, text, worth, Option.bind_some,
      ExactNumber.map_read? spelled (intText_readable (.inl held)), same]
  cases v with
  | int16 i =>
    exact integer (IntRange.holds_of_within (by decide) (IntRange.signed16_holds i)) rfl rfl
  | int32 i =>
    exact integer (IntRange.holds_of_within (by decide) (IntRange.signed32_holds i)) rfl rfl
  | int64 i => exact integer (IntRange.signed64_holds i) rfl rfl
  | decimal d =>
    obtain ⟨x, read, -, worth⟩ := d.exactNumber?
    rw [read]
    exact congrArg some worth
  | float32 x =>
    cases x with
    | nan => rfl
    | number negative rank =>
      rw [exactNumber?, numericText?, number?]
      exact Floating.map_exactNumber? (by decide)
  | float64 x =>
    cases x with
    | nan => rfl
    | number negative rank =>
      rw [exactNumber?, numericText?, number?]
      exact Floating.map_exactNumber? (by decide)
  | _ => rfl

/-! ## JSON forms -/

/-- Where a tie between two shortest decimals goes for a parameter of a database type: its text is
sent under `numeric`, and under any other type the database writes the number itself. -/
def SqlType.tie (type : SqlType) : Tie := if type = .numeric then .up else .even

/-- The JSON values that are the JSON form of a parameter: a text and a truth value as they are, a
number as any JSON number of its value, and an identifier as its one written spelling.  Instants
have none. -/
inductive Value.JsonForm (type : SqlType) : Value → Json → Prop
  | text (s) : JsonForm type (.text s) (.string s)
  | truth (b) : JsonForm type (.bool b) (.bool b)
  | number {v n q} (bound : v.number? type.tie = some q) (item : (Json.number n).Worth q) :
      JsonForm type v (.number n)
  | guid (g) : JsonForm type (.guid g) (.string g.text)

/-- The JSON values that an evaluation takes for a constant: numbers are compared with its plain
digits, and identifiers are read from any spelling. -/
inductive Value.Matches : Value → Json → Prop
  | text (s) : Matches (.text s) (.string s)
  | truth (b) : Matches (.bool b) (.bool b)
  | number {v n q} (bound : v.number? .up = some q) (item : (Json.number n).Worth q) :
      Matches v (.number n)
  | guid {g s} (read : Guid.read? s = some g) : Matches (.guid g) (.string s)

/-- Whether a parameter is a floating-point number between two shortest decimals, of which the
database writes one and an evaluation looks for the other. -/
def Value.IsTied (type : SqlType) (v : Value) : Prop := v.number? .up ≠ v.number? type.tie

variable {type : SqlType} {v : Value} {j : Json}

/-- Only floating-point numbers are tied, and those not under `numeric`. -/
theorem Value.IsTied.floating (tied : v.IsTied type) :
    type ≠ .numeric ∧ ((∃ x, v = .float32 x) ∨ ∃ x, v = .float64 x) := by
  constructor
  · rintro rfl
    exact tied rfl
  · cases v with
    | float32 x => exact .inl ⟨x, rfl⟩
    | float64 x => exact .inr ⟨x, rfl⟩
    | _ => exact absurd rfl tied

/-- Every JSON form of a parameter is found, unless it is tied. -/
theorem Value.JsonForm.found (form : v.JsonForm type j) (untied : ¬ v.IsTied type) :
    v.Matches j := by
  have digits : v.number? .up = v.number? type.tie := not_not.mp untied
  cases form with
  | text s => exact .text s
  | truth b => exact .truth b
  | number bound item => exact .number (digits.trans bound) item
  | guid g => exact .guid g.read?_text

/-- Nothing but the JSON form of a parameter is found, unless it is tied or an identifier. -/
theorem Value.Matches.jsonForm (found : v.Matches j) (untied : ¬ v.IsTied type)
    (other : ∀ g, v ≠ .guid g) : v.JsonForm type j := by
  have digits : v.number? .up = v.number? type.tie := not_not.mp untied
  cases found with
  | text s => exact .text s
  | truth b => exact .truth b
  | number bound item => exact .number (digits.symm.trans bound) item
  | guid read => exact absurd rfl (other _)

/-! ## Elements -/

theorem textEquals_number {n : JsonNumber} (wellFormed : n.WellFormed) :
    textEquals n.text .numeric v ↔
      ∃ q, v.number? .up = some q ∧ (Json.number n).Worth q := by
  obtain ⟨s, x, text, read, worth⟩ := (ScalarType.Stores.number wellFormed).read
  cases text
  rw [textEquals, if_pos rfl, read, ← v.map_exactNumber?]
  cases number : v.exactNumber? with
  | none => simp
  | some y =>
    obtain ⟨_, _, readY⟩ := Option.bind_eq_some_iff.mp number
    have normalX := (ExactNumber.normal_of_read? read).1
    have normalY := (ExactNumber.normal_of_read? readY).1
    have same : x = y ↔ y.value = x.value :=
      ⟨fun h => h ▸ rfl, fun h => normalX.eq_of_value normalY h.symm⟩
    simp [worth, same]

theorem textEquals_text (s t : String) : textEquals s .text (.text t) ↔ s = t := by
  simp [textEquals, castText?, Value.compare?]

theorem textEquals_guid (s : String) (g : Guid) :
    textEquals s .uuid (.guid g) ↔ Guid.read? s = some g := by
  cases read : Guid.read? s with
  | none => simp [textEquals, castText?, read]
  | some h =>
    have same : h.value = g.value ↔ h = g := ⟨fun value => by cases h; cases g; simp_all, (· ▸ rfl)⟩
    simp [textEquals, castText?, read, Value.compare?, same]

/-- An element is taken for a constant where it matches it. -/
theorem jsonEquals_iff (admitted : type.admits v)
    (wellFormed : ∀ n, j = .number n → n.WellFormed) : jsonEquals type v j ↔ v.Matches j := by
  cases j with
  | null => exact iff_of_false Bool.false_ne_true (fun h => by cases h)
  | array items => exact iff_of_false Bool.false_ne_true (fun h => by cases h)
  | object members => exact iff_of_false Bool.false_ne_true (fun h => by cases h)
  | bool b =>
    simp only [jsonEquals, Bool.and_eq_true, decide_eq_true_iff]
    constructor
    · rintro ⟨-, rfl⟩
      exact .truth b
    · rintro ⟨⟩
      cases type <;> cases admitted
      exact ⟨rfl, rfl⟩
  | string s =>
    cases v with
    | text t =>
      cases type <;> cases admitted
      rw [jsonEquals, textEquals_text]
      exact ⟨fun same => same ▸ .text s, fun h => by cases h; rfl⟩
    | guid g =>
      cases type <;> cases admitted
      rw [jsonEquals, textEquals_guid]
      exact ⟨.guid, fun | .guid read => read⟩
    | _ =>
      refine iff_of_false ?_ (fun h => by cases h)
      cases type <;> first | exact Bool.false_ne_true | cases admitted
  | number n =>
    have numbers : v.Matches (.number n) ↔ ∃ q, v.number? .up = some q ∧ (Json.number n).Worth q :=
      ⟨fun | .number bound item => ⟨_, bound, item⟩, fun ⟨_, bound, item⟩ => .number bound item⟩
    have sought := textEquals_number (v := v) (wellFormed n rfl)
    rw [numbers]
    cases type with
    | text => cases v <;> cases admitted; simp [jsonEquals, Value.number?, Value.rational?]
    | boolean => cases v <;> cases admitted; simp [jsonEquals, Value.number?, Value.rational?]
    | uuid => cases v <;> cases admitted; simp [jsonEquals, Value.number?, Value.rational?]
    | _ => exact sought

/-! ## Arrays -/

section

variable {schema : Schema} {path : FieldPath} {field : Field} {element : ScalarType}
  {filter : Filter} {c : Constant} {check : Check}

/-- What a predicate of membership is checked to, in either of its forms. -/
theorem check_membership (resolved : schema.resolve path = .ok field)
    (array : field.type = .array (.scalar element))
    (form : filter.predicate = .member path c ∨
      filter.predicate = .textual .contains (.field path) [.constant c])
    (passed : filter.check schema = .ok check) :
    ∃ comparand bound, comparand.sqlType.admits bound ∧
      check = .member path element comparand bound := by
  have belongs {value comparand bound} {element' : ScalarType}
      (belongs : Scope.Belongs ⟨schema, filter.captures⟩ path value element' comparand bound) :
      element' = element ∧ comparand.sqlType.admits bound := by
    obtain ⟨field', resolved', array'⟩ := belongs.array
    cases resolved.symm.trans resolved'
    cases array.symm.trans array'
    exact ⟨rfl, Value.under_admitted belongs.converted⟩
  have checked : Scope.check ⟨schema, filter.captures⟩ filter.predicate = .ok check := passed
  rcases form with member | contains
  · rw [member, Scope.check] at checked
    obtain ⟨value, -, checked⟩ := bind_eq_ok.mp checked
    obtain ⟨_, comparand, bound, h, rfl⟩ := Scope.membership_eq_ok checked
    obtain ⟨rfl, admitted⟩ := belongs h
    exact ⟨comparand, bound, admitted, rfl⟩
  · rw [contains, Scope.check] at checked
    cases Scope.takes_of_textual checked with
    | search text =>
      cases text with
      | field resolved' leaf =>
        cases resolved.symm.trans resolved'
        cases array.symm.trans leaf
    | equals _ _ equals => cases equals
    | arrayContains _ h =>
      obtain ⟨rfl, admitted⟩ := belongs h
      exact ⟨_, _, admitted, rfl⟩

theorem memberIn_contained {comparand : Comparand} {bound : Value} {doc : Json}
    (contained : element.isScanned = false) (admitted : comparand.sqlType.admits bound) :
    (path.node? doc = none → memberIn path element comparand bound doc = none) ∧
    (∀ j, path.node? doc = some j → (∀ items, j ≠ .array items) →
      memberIn path element comparand bound doc = some false) ∧
    ∀ items, path.node? doc = some (.array items) → (∀ n, .number n ∈ items → n.WellFormed) →
      ∃ b, memberIn path element comparand bound doc = some b ∧
        (b = true ↔ ∃ item ∈ items, bound.Matches item) := by
  unfold memberIn
  refine ⟨fun missing => ?_, fun j found other => ?_, fun items found wellFormed => ?_⟩
  · rw [missing]
    simp [contained]
  · rw [found]
    cases j with
    | array items => exact absurd rfl (other items)
    | _ => rfl
  · rw [found]
    simp only [contained, Bool.false_eq_true, if_false]
    refine ⟨_, rfl, ?_⟩
    rw [List.any_eq_true]
    constructor
    · rintro ⟨item, mem, equal⟩
      exact ⟨item, mem, (jsonEquals_iff admitted fun n h => wellFormed n (h ▸ mem)).mp equal⟩
    · rintro ⟨item, mem, found⟩
      exact ⟨item, mem, (jsonEquals_iff admitted fun n h => wellFormed n (h ▸ mem)).mpr found⟩

/-- Membership in an array of neither decimals nor instants is compiled to containment of the bound
constant as a JSON value.  It is null where there is no value, false of a value that is no array,
and true of an array exactly if an element matches the constant: if it is the JSON form of the
constant, but for identifiers and ties. -/
theorem membership_contained (resolved : schema.resolve path = .ok field)
    (array : field.type = .array (.scalar element)) (contained : element.isScanned = false)
    (form : filter.predicate = .member path c ∨
      filter.predicate = .textual .contains (.field path) [.constant c])
    (passed : filter.check schema = .ok check) (first : Nat) :
    ∃ (index : Nat) (type : SqlType) (bound : Value),
      filter.compileFrom schema first =
        .ok ⟨.containsElement (.node path) (.placeholder index type), [⟨index, bound, type⟩]⟩ ∧
      (∀ doc,
        (path.node? doc = none → check.eval doc = none) ∧
        (∀ j, path.node? doc = some j → (∀ items, j ≠ .array items) →
          check.eval doc = some false) ∧
        ∀ items, path.node? doc = some (.array items) → (∀ n, .number n ∈ items → n.WellFormed) →
          ∃ b, check.eval doc = some b ∧ (b = true ↔ ∃ item ∈ items, bound.Matches item)) ∧
      (¬ bound.IsTied type → ∀ item, (bound.JsonForm type item → bound.Matches item) ∧
        ((∀ g, bound ≠ .guid g) → bound.Matches item → bound.JsonForm type item)) := by
  obtain ⟨comparand, bound, admitted, rfl⟩ := check_membership resolved array form passed
  let index := Binding.indexAt (Binding.firstPosition first)
  have compiled : filter.compileFrom schema first =
      .ok ⟨.containsElement (.node path) (.placeholder index comparand.sqlType),
        [⟨index, bound, comparand.sqlType⟩]⟩ := by
    simp [Filter.compileFrom, passed, Except.map, Check.compileFrom, Check.toSql, contained, index]
  exact ⟨index, comparand.sqlType, bound, compiled, fun _ => memberIn_contained contained admitted,
    fun untied item => ⟨(·.found untied), fun other found => found.jsonForm untied other⟩⟩

end

/-- Documents with one array field. -/
def listSchema (name : String) (element : ScalarType) : Schema :=
  (Schema.empty "List").declare name (.required (.array (.scalar element)))

def sizeFilter : Filter := ⟨.member ⟨["sizes"]⟩ (.captured "size"), [("size", .int16 7)]⟩

theorem membership_contained_of_sizes :
    ∃ check, sizeFilter.check (listSchema "sizes" .int32) = .ok check ∧
      check.eval (.object [("sizes", .array [.string "7", .number (.whole 7)])]) = some true := by
  have resolved : (listSchema "sizes" .int32).resolve ⟨["sizes"]⟩ =
      .ok (.required (.array (.scalar .int32))) := rfl
  have passed : sizeFilter.check (listSchema "sizes" .int32) =
      .ok (.member ⟨["sizes"]⟩ .int32 (.typed .integer) (.int32 7)) := rfl
  obtain ⟨index, type, bound, compiled, value, -⟩ :=
    membership_contained resolved rfl rfl (.inl rfl) passed 1
  have same : sizeFilter.compileFrom (listSchema "sizes" .int32) 1 =
      .ok ⟨.containsElement (.node ⟨["sizes"]⟩) (.placeholder 1 .integer),
        [⟨1, .int32 7, .integer⟩]⟩ := rfl
  cases same.symm.trans compiled
  have wellFormed : ∀ n, .number n ∈ [.string "7", Json.number (.whole 7)] → n.WellFormed := by
    intro n mem
    simp only [List.mem_cons, reduceCtorEq, Json.number.injEq, List.not_mem_nil, false_or,
      or_false] at mem
    exact mem ▸ .whole (.inl (by decide))
  obtain ⟨-, -, inArray⟩ := value (.object [("sizes", .array [.string "7", .number (.whole 7)])])
  obtain ⟨b, evaluated, found⟩ := inArray _ rfl wellFormed
  have seven : (Value.int32 7).Matches (.number (.whole 7)) := .number rfl (.whole 7)
  exact ⟨_, passed, evaluated.trans (congrArg some (found.mpr ⟨_, .tail _ (.head _), seven⟩))⟩

/-- The number `2 ^ 50 + 1 / 4`, which lies halfway between two decimals of one place. -/
def tiedFloat : Float64Value := .number false ⟨1073 * 2 ^ 52 + 1, by decide⟩

theorem jsonForm_tiedFloat :
    (Value.float64 tiedFloat).JsonForm .doublePrecision (.number (.float tiedFloat)) := by
  obtain ⟨n, spelled, worth, -⟩ : ∃ n : Numeral, n.Spells (tiedFloat.text .json) ∧ _ :=
    Floating.text_spells .json (by decide)
  exact .number rfl (.float ⟨n, spelled, worth⟩)

/-- An identifier is found in another spelling than its JSON form, and a number between two shortest
decimals is not found in an array of itself. -/
theorem membership_misjudged :
    (∃ check, Filter.check ⟨.member ⟨["members"]⟩ (.literal (.guid ⟨10, by decide⟩)), []⟩
        (listSchema "members" .guid) = .ok check ∧
      check.eval (.object [("members",
        .array [.string "00000000-0000-0000-0000-00000000000A"])]) = some true ∧
      ¬ (Value.guid ⟨10, by decide⟩).JsonForm .uuid
        (.string "00000000-0000-0000-0000-00000000000A")) ∧
    ∃ check, Filter.check ⟨.member ⟨["samples"]⟩ (.literal (.float64 tiedFloat)), []⟩
        (listSchema "samples" .float64) = .ok check ∧
      check.eval (.object [("samples", .array [.number (.float tiedFloat)])]) = some false ∧
      (Value.float64 tiedFloat).JsonForm .doublePrecision (.number (.float tiedFloat)) := by
  refine ⟨⟨_, rfl, by decide, fun form => ?_⟩, _, rfl, by decide +kernel, jsonForm_tiedFloat⟩
  generalize text : "00000000-0000-0000-0000-00000000000A" = s at form
  cases form
  revert text
  decide

end DocStore
