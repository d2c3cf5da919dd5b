import DocStore.Proofs.Schema.Shape

/-!
# Schemas are read as they were written

The JSON of a schema is read back as that schema, however deep its objects and arrays are nested.
Its text is as long as the reader goes deep enough; and a text that was read as a schema is no
deeper than the reader goes, so the text of that schema is read back.

* `EnumVariant.listOfJson?_toJson`: variants are read back;
* `SchemaPart.fieldOfMembers?_fieldJson`, `SchemaPart.fieldsOfMembers?_fieldMembers`,
  `SchemaPart.typeOfMembers?_members`: so are declared fields, the fields of objects and types;
* `Schema.ofJson?_toJson`: so is a schema;
* `Schema.ofText?_text`: its text is, if it is not too deep;
* `schema_round_trip`: schemas are read back from what is written of them.
-/

namespace DocStore

open Json (only? required? optional?)

/-! ## Variants -/

theorem EnumVariant.ofJson?_toJson (variant : EnumVariant) :
    EnumVariant.ofJson? variant.toJson = some variant := by
  have fits := IntRange.signed64_holds variant.code
  have code : Json.int64? (.ofInt variant.code.toInt) = some variant.code := by
    simp only [Json.int64?, Json.ofInt, JsonNumber.toInt64?, if_pos fits, Int64.ofInt_toInt]
  have labelled : required? "label" [("label", Json.string variant.label),
      ("code", .ofInt variant.code.toInt)] = some (.string variant.label) := rfl
  have coded : required? "code" [("label", Json.string variant.label),
      ("code", .ofInt variant.code.toInt)] = some (.ofInt variant.code.toInt) := rfl
  simp only [EnumVariant.ofJson?, toJson, labelled, coded, Option.bind_some, Json.string?, code,
    Option.bind_eq_bind, Option.pure_def]

theorem EnumVariant.listOfJson?_toJson (variants : List EnumVariant) :
    EnumVariant.listOfJson? (.array (variants.map EnumVariant.toJson)) = some variants := by
  refine mapM_eq_some_iff.mpr ?_
  induction variants with
  | nil => exact .nil
  | cons variant rest ih => exact .cons variant.ofJson?_toJson ih

/-! ## Types and fields -/

namespace SchemaPart

/-- No member of a type tells whether a field is nullable. -/
theorem forall_members_ne (type : FieldType) :
    ∀ m ∈ type.members, (m.1 == "nullable") = false := by
  cases type with
  | scalar type =>
    cases type with
    | enumeration name variants =>
      exact List.forall_mem_cons.mpr ⟨rfl, List.forall_mem_cons.mpr ⟨rfl,
        List.forall_mem_singleton.mpr rfl⟩⟩
    | _ => exact List.forall_mem_singleton.mpr rfl
  | object fields =>
    exact List.forall_mem_cons.mpr ⟨rfl, List.forall_mem_singleton.mpr rfl⟩
  | array element =>
    exact List.forall_mem_cons.mpr ⟨rfl, List.forall_mem_singleton.mpr rfl⟩

/-- A field is read back if its type is. -/
theorem fieldOfMembers?_fieldJson {field : Field}
    (read : typeOfMembers? (ofMembers field.type.members) = some field.type) :
    (ofJson (FieldType.fieldJson field)).field? = some field := by
  have parts : ofMembers (field.type.members ++ [("nullable", .bool field.nullable)]) =
      ofMembers field.type.members ++ [("nullable", ofJson (.bool field.nullable))] := by
    simp only [ofMembers_eq_map, List.map_append, List.map_cons, List.map_nil]
  have others : ∀ m ∈ ofMembers field.type.members, (m.1 == "nullable") = false := by
    rw [ofMembers_eq_map]
    exact List.forall_mem_map.mpr (forall_members_ne field.type)
  have flagged : (ofMembers field.type.members ++
      [("nullable", ofJson (.bool field.nullable))]).filter (·.1 == "nullable") =
        [("nullable", ofJson (.bool field.nullable))] := by
    have none_there : (ofMembers field.type.members).filter (·.1 == "nullable") = [] :=
      List.filter_eq_nil_iff.mpr fun m mem => by simp [others m mem]
    rw [List.filter_append, none_there]
    rfl
  have typed : (ofMembers field.type.members ++
      [("nullable", ofJson (.bool field.nullable))]).filter (·.1 != "nullable") =
        ofMembers field.type.members := by
    have all_there : (ofMembers field.type.members).filter (·.1 != "nullable") =
        ofMembers field.type.members :=
      List.filter_eq_self.mpr fun m mem => by simp [bne, others m mem]
    rw [List.filter_append, all_there]
    exact List.append_nil _
  have told : (ofJson (.bool field.nullable)).json.bool? = some field.nullable := rfl
  rw [FieldType.fieldJson_eq, ofJson, parts]
  simp only [fieldOfMembers?, optional?, only?, flagged, told, typed, read, Option.bind_eq_bind,
    Option.bind_some, Option.pure_def]

/-- Fields in key order are read back if each of them is. -/
theorem fieldsOfMembers?_fieldMembers {fields : Fields} (ordered : KeyList.Ordered fields)
    (each : ∀ f ∈ fields, (ofJson (FieldType.fieldJson f.2)).field? = some f.2) :
    (ofJson (.object (FieldType.fieldMembers fields))).fields? = some fields := by
  have read : (ofMembers (FieldType.fieldMembers fields)).mapM
      (fun m => m.2.field?.map fun field => (m.1, field)) = some fields := by
    rw [FieldType.fieldMembers_eq_map, ofMembers_eq_map, mapM_eq_some_iff]
    clear ordered
    induction fields with
    | nil => exact .nil
    | cons f rest ih =>
      obtain ⟨first, others⟩ := List.forall_mem_cons.mp each
      refine .cons ?_ (ih others)
      rw [first, Option.map_some]
  rw [ofJson, fieldsOfMembers?, read]
  exact congrArg some ordered.ofList_eq

/-- A type with its fields in key order is read back from its members. -/
theorem typeOfMembers?_members {type : FieldType} (keyed : type.Keyed) :
    typeOfMembers? (ofMembers type.members) = some type := by
  induction keyed with
  | scalar type =>
    cases type with
    | enumeration name variants =>
      have listed := EnumVariant.listOfJson?_toJson variants
      have read : typeOfMembers?
          (ofMembers (FieldType.scalar (.enumeration name variants)).members) =
            (EnumVariant.listOfJson? (.array (variants.map EnumVariant.toJson))).bind fun variants =>
              some (.scalar (.enumeration name variants)) := rfl
      rw [read, listed, Option.bind_some]
    | _ => rfl
  | @object fields ordered each ih =>
    have listed := fieldsOfMembers?_fieldMembers ordered fun f mem =>
      fieldOfMembers?_fieldJson (ih f mem)
    have read : typeOfMembers? (ofMembers (FieldType.object fields).members) =
        (ofJson (.object (FieldType.fieldMembers fields))).fields?.bind fun fields =>
          some (.object fields) := rfl
    rw [read, listed, Option.bind_some]
  | @array element keyed ih =>
    have read : typeOfMembers? (ofMembers (FieldType.array element).members) =
        (typeOfMembers? (ofMembers element.members)).bind fun element =>
          some (.array element) := rfl
    rw [read, ih, Option.bind_some]

end SchemaPart

/-! ## Schemas -/

namespace Schema

/-- A schema is read back from its JSON, however deep it is nested. -/
theorem ofJson?_toJson {schema : Schema} (keyed : schema.Keyed) :
    Schema.ofJson? schema.toJson = some schema := by
  obtain ⟨name, description, fields⟩ := schema
  have read : fieldsOfJson? (.object (FieldType.fieldMembers fields)) = some fields :=
    SchemaPart.fieldsOfMembers?_fieldMembers keyed.ordered fun f mem =>
      SchemaPart.fieldOfMembers?_fieldJson (SchemaPart.typeOfMembers?_members (keyed.each f mem))
  cases description with
  | none =>
    have parts : Schema.ofJson? (toJson ⟨name, none, fields⟩) =
        (fieldsOfJson? (.object (FieldType.fieldMembers fields))).bind fun fields =>
          some ⟨name, none, fields⟩ := rfl
    rw [parts, read, Option.bind_some]
  | some description =>
    have parts : Schema.ofJson? (toJson ⟨name, some description, fields⟩) =
        (fieldsOfJson? (.object (FieldType.fieldMembers fields))).bind fun fields =>
          some ⟨name, some description, fields⟩ := rfl
    rw [parts, read, Option.bind_some]

/-- Every member of a schema's JSON is wanted. -/
theorem toJson_wanted (schema : Schema) :
    ∃ members, schema.toJson = .object members ∧ ∀ m ∈ members, m.1 ∈ memberNames := by
  obtain ⟨name, description, fields⟩ := schema
  refine ⟨_, rfl, ?_⟩
  cases description <;> simp [memberNames]

/-- The text of a schema is read back if it is not too deep, and refused otherwise. -/
theorem ofText?_text {schema : Schema} (keyed : schema.Keyed) :
    Schema.ofText? schema.toJson.text =
      if schema.toJson.depth ≤ Json.maxDepth then some schema else none := by
  obtain ⟨members, shape, wanted⟩ := schema.toJson_wanted
  have legible := keyed.legible
  rw [shape] at legible
  have read := Json.readRecord?_text wanted legible
  rw [← shape] at read
  rw [Schema.ofText?, read]
  split
  · rw [Option.bind_some, ofJson?_toJson keyed]
  · rfl

/-- A schema that was read from a text has its fields in key order, and no deeper JSON than the
reader goes. -/
theorem keyed_of_ofText? {s : String} {schema : Schema} (h : Schema.ofText? s = some schema) :
    schema.Keyed ∧ schema.toJson.depth ≤ Json.maxDepth := by
  obtain ⟨j, record, read⟩ := Option.bind_eq_some_iff.mp h
  obtain ⟨keyed, shallow⟩ := keyed_of_ofJson? read
  exact ⟨keyed, shallow.trans (Json.depth_of_readRecord? record)⟩

end Schema

/-- Schemas are read back from what is written of them.  Their JSON is, however deep their objects
and arrays are nested; the text of it is just where at most 127 arrays and objects stand in each
other; and so is that of every schema that was read from a text. -/
theorem schema_round_trip :
    (∀ schema : Schema, schema.Keyed → Schema.ofJson? schema.toJson = some schema) ∧
      (∀ schema : Schema, schema.Keyed → Schema.ofText? schema.toJson.text =
        if schema.toJson.depth ≤ 127 then some schema else none) ∧
      ∀ (s : String) (schema : Schema), Schema.ofText? s = some schema →
        Schema.ofText? schema.toJson.text = some schema := by
  refine ⟨fun schema keyed => Schema.ofJson?_toJson keyed,
    fun schema keyed => Schema.ofText?_text keyed, fun s schema read => ?_⟩
  obtain ⟨keyed, shallow⟩ := Schema.keyed_of_ofText? read
  rw [Schema.ofText?_text keyed, if_pos shallow]

/-- A schema with every kind of type, an empty description, and names that have to be escaped. -/
def playerSchema : Schema where
  name := "Player"
  description := some ""
  fields := [
    ("home", .optional (.object [
      ("a\"b", .required (.scalar (.enumeration "\\" [⟨"\n", -1⟩, ⟨"", 0x7fffffffffffffff⟩]))),
      ("street", .required (.scalar .text))])),
    ("tags", .required (.array (.array (.object []))))]

theorem keyed_playerSchema : playerSchema.Keyed := by
  have ordered : KeyList.Ordered playerSchema.fields := by
    unfold KeyList.Ordered
    decide
  refine ⟨ordered, List.forall_mem_cons.mpr ⟨?home, List.forall_mem_singleton.mpr ?tags⟩⟩
  case home =>
    refine .object (by unfold KeyList.Ordered; decide) ?_
    exact List.forall_mem_cons.mpr ⟨.scalar _, List.forall_mem_singleton.mpr (.scalar _)⟩
  case tags => exact .array (.array (.object .nil nofun))

/-- The text of a schema by the array of its fields, a type by the place of its name, and a field
that is given twice. -/
def terseText : String :=
  "[\"T\", null, \x7b\"a\": \x7b\"type\": 0\x7d, \"a\": \x7b\"type\": \"bool\"\x7d\x7d]"

theorem schema_round_trip_of_member :
    playerSchema.Keyed ∧ Schema.ofJson? playerSchema.toJson = some playerSchema ∧
      playerSchema.toJson.depth ≤ 127 ∧
      Schema.ofText? playerSchema.toJson.text = some playerSchema ∧
      ∃ schema, Schema.ofText? terseText = some schema ∧ schema.fields.length = 1 ∧
        Schema.ofText? schema.toJson.text = some schema := by
  obtain ⟨values, texts, again⟩ := schema_round_trip
  have shallow : playerSchema.toJson.depth ≤ 127 := by decide
  have terse : (Schema.ofText? terseText).map (·.fields.length) = some 1 := by decide +kernel
  obtain ⟨schema, read, one⟩ := Option.map_eq_some_iff.mp terse
  refine ⟨keyed_playerSchema, values _ keyed_playerSchema, shallow, ?_, schema, read, one,
    again _ _ read⟩
  rw [texts _ keyed_playerSchema, if_pos shallow]

/-- An array of arrays as deep as said, of truth values. -/
def nestedArray : Nat → FieldType
  | 0 => .scalar .bool
  | n + 1 => .array (nestedArray n)

theorem keyed_nestedArray (n : Nat) : (nestedArray n).Keyed := by
  induction n with
  | zero => exact .scalar .bool
  | succ n ih => exact .array ih

theorem depth_nestedArray (n : Nat) : (Json.object (nestedArray n).members).depth = n + 1 := by
  induction n with
  | zero => rfl
  | succ n ih =>
    rw [nestedArray, FieldType.members, Json.depth, Json.membersDepth, Json.membersDepth, ih]
    simp [Json.depth, Json.membersDepth]

/-- A schema with one field, of nested arrays. -/
def nestedSchema (n : Nat) : Schema := ⟨"Nested", none, [("x", .required (nestedArray n))]⟩

theorem keyed_nestedSchema (n : Nat) : (nestedSchema n).Keyed :=
  ⟨List.pairwise_singleton .., List.forall_mem_singleton.mpr (keyed_nestedArray n)⟩

theorem depth_nestedSchema (n : Nat) : (nestedSchema n).toJson.depth = n + 3 := by
  have inner := depth_nestedArray n
  rw [Json.depth] at inner
  have field : (FieldType.fieldJson (.required (nestedArray n))).depth = n + 1 := by
    rw [FieldType.fieldJson_eq, Json.depth, Json.membersDepth_append]
    simpa [Json.depth, Json.membersDepth, Declared.required] using inner
  rw [Schema.depth_toJson, Json.depth]
  simp only [nestedSchema, FieldType.fieldMembers, Json.membersDepth, field, Nat.max_zero]

/-- Two hundred arrays in each other are too deep for the text of a schema to be read. -/
theorem nested_text_refused :
    (nestedSchema 200).Keyed ∧ Schema.ofText? (nestedSchema 200).toJson.text = none := by
  have deep : ¬ (nestedSchema 200).toJson.depth ≤ Json.maxDepth := by
    rw [depth_nestedSchema, Json.maxDepth]
    decide
  refine ⟨keyed_nestedSchema 200, ?_⟩
  rw [Schema.ofText?_text (keyed_nestedSchema 200), if_neg deep]

end DocStore
