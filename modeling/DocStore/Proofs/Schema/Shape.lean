import DocStore.Proofs.Json.Written
import DocStore.Proofs.KeyList
import DocStore.Schema.Reader
import DocStore.Schema.Writer
import Mathlib.Data.List.Forall2

/-!
# Schemas and their JSON

What the JSON of a schema is made of, and what a schema that was read is like: its fields are in key
order at every level, and its JSON is no deeper than what it was read from.

* `FieldType.Keyed`, `Schema.Keyed`: fields in key order at every level;
* `Schema.legible`: the JSON of a schema has no numbers but codes of variants;
* `SchemaPart.shallow_ofJson`: what a part of a schema's JSON is read as;
* `Schema.keyed_of_ofJson?`: a schema that was read.
-/

namespace DocStore

open Json (only? required? optional?)

/-! ## Fields in key order -/

/-- A type whose objects have their fields in key order. -/
inductive FieldType.Keyed : FieldType → Prop
  | scalar (type : ScalarType) : Keyed (.scalar type)
  | object {fields : Fields} (ordered : KeyList.Ordered fields)
      (each : ∀ f ∈ fields, Keyed f.2.type) : Keyed (.object fields)
  | array {element : FieldType} (keyed : Keyed element) : Keyed (.array element)

/-- Whether the fields of a schema are in key order at every level. -/
structure Schema.Keyed (schema : Schema) : Prop where
  ordered : KeyList.Ordered schema.fields
  each : ∀ f ∈ schema.fields, f.2.type.Keyed

namespace FieldType

theorem fieldMembers_eq_map (fields : Fields) :
    fieldMembers fields = fields.map fun f => (f.1, fieldJson f.2) := by
  induction fields with
  | nil => rfl
  | cons f rest ih => rw [fieldMembers, ih, List.map_cons]

theorem fieldJson_eq (field : Field) :
    fieldJson field = .object (field.type.members ++ [("nullable", .bool field.nullable)]) := by
  cases field
  rfl

end FieldType

/-! ## No numbers but codes -/

theorem EnumVariant.legible (variant : EnumVariant) : variant.toJson.Legible := by
  refine .object (List.forall_mem_cons.mpr ⟨.string _, List.forall_mem_singleton.mpr ?_⟩)
  exact .whole (IntRange.signed64_holds variant.code)

theorem ScalarType.legible (type : ScalarType) : ∀ m ∈ type.members, m.2.Legible := by
  unfold members
  split
  · rename_i name variants
    have listed : (Json.array (variants.map EnumVariant.toJson)).Legible :=
      .array (List.forall_mem_map.mpr fun variant _ => variant.legible)
    exact List.forall_mem_cons.mpr ⟨.string _, List.forall_mem_cons.mpr ⟨.string _,
      List.forall_mem_singleton.mpr listed⟩⟩
  · exact List.forall_mem_singleton.mpr (.string _)

theorem FieldType.legible_fieldJson {field : Field}
    (legible : ∀ m ∈ field.type.members, m.2.Legible) : (fieldJson field).Legible := by
  rw [fieldJson_eq]
  exact .object (List.forall_mem_append.mpr ⟨legible, List.forall_mem_singleton.mpr (.bool _)⟩)

theorem FieldType.Keyed.legible {type : FieldType} (keyed : type.Keyed) :
    ∀ m ∈ type.members, m.2.Legible := by
  induction keyed with
  | scalar type => exact type.legible
  | @object fields _ _ ih =>
    have inside : (Json.object (fieldMembers fields)).Legible := by
      rw [fieldMembers_eq_map]
      exact .object (List.forall_mem_map.mpr fun f mem => legible_fieldJson (ih f mem))
    exact List.forall_mem_cons.mpr ⟨.string _, List.forall_mem_singleton.mpr inside⟩
  | array _ ih =>
    exact List.forall_mem_cons.mpr ⟨.string _, List.forall_mem_singleton.mpr (.object ih)⟩

/-- The JSON of a schema has no numbers but the codes of variants. -/
theorem Schema.Keyed.legible {schema : Schema} (keyed : schema.Keyed) : schema.toJson.Legible := by
  obtain ⟨name, description, fields⟩ := schema
  have inside : (Json.object (FieldType.fieldMembers fields)).Legible := by
    rw [FieldType.fieldMembers_eq_map]
    exact .object (List.forall_mem_map.mpr fun f mem =>
      FieldType.legible_fieldJson (keyed.each f mem).legible)
  cases description with
  | none =>
    exact .object (List.forall_mem_cons.mpr ⟨.string _, List.forall_mem_singleton.mpr inside⟩)
  | some description =>
    exact .object (List.forall_mem_cons.mpr ⟨.string _, List.forall_mem_cons.mpr
      ⟨.string _, List.forall_mem_singleton.mpr inside⟩⟩)

/-! ## Reading members -/

namespace SchemaPart

theorem ofMembers_eq_map (members : List (String × Json)) :
    ofMembers members = members.map fun m => (m.1, ofJson m.2) := by
  induction members with
  | nil => rfl
  | cons m rest ih => rw [ofMembers, ih, List.map_cons]

theorem ofItems_eq_map (items : List Json) : ofItems items = items.map ofJson := by
  induction items with
  | nil => rfl
  | cons j rest ih => rw [ofItems, ih, List.map_cons]

theorem mem_of_required? {α : Type} {name : String} {members : List (String × α)} {a : α}
    (found : required? name members = some a) : (name, a) ∈ members := by
  unfold required? only? at found
  split at found
  · cases found
  · rename_i m alone
    cases found
    have mem : m ∈ members.filter (·.1 == name) := by
      rw [alone]
      exact List.mem_singleton_self m
    obtain ⟨mem, same⟩ := List.mem_filter.mp mem
    rwa [← beq_iff_eq.mp same]
  · cases found

end SchemaPart

theorem mapM_eq_some_iff {α β : Type} {f : α → Option β} {xs : List α} {ys : List β} :
    xs.mapM f = some ys ↔ List.Forall₂ (fun x y => f x = some y) xs ys := by
  induction xs generalizing ys with
  | nil => cases ys <;> simp
  | cons x rest ih =>
    rw [List.mapM_cons]
    constructor
    · intro read
      obtain ⟨y, first, read⟩ := Option.bind_eq_some_iff.mp read
      obtain ⟨others, later, same⟩ := Option.bind_eq_some_iff.mp read
      cases same
      exact .cons first (ih.mp later)
    · rintro (_ | ⟨first, later⟩)
      simp [first, ih.mpr later]

theorem exists_of_mem_mapM {α β : Type} {f : α → Option β} {xs : List α} {ys : List β}
    (read : xs.mapM f = some ys) {y : β} (mem : y ∈ ys) : ∃ x ∈ xs, f x = some y := by
  have each := mapM_eq_some_iff.mp read
  clear read
  induction each with
  | nil => cases mem
  | cons first _ ih =>
    rcases List.mem_cons.mp mem with rfl | mem
    · exact ⟨_, List.mem_cons_self, first⟩
    · obtain ⟨x, inside, same⟩ := ih mem
      exact ⟨x, List.mem_cons_of_mem _ inside, same⟩

namespace Json

theorem depth_lt_of_mem_items {items : List Json} {j : Json} (mem : j ∈ items) :
    j.depth < (array items).depth :=
  Nat.lt_succ_of_le (itemsDepth_le_iff.mp le_rfl j mem)

theorem depth_lt_of_mem_members {members : List (String × Json)} {m : String × Json}
    (mem : m ∈ members) : m.2.depth < (object members).depth :=
  Nat.lt_succ_of_le (membersDepth_le_iff.mp le_rfl m mem)

end Json

theorem EnumVariant.depth_toJson (variant : EnumVariant) : variant.toJson.depth = 1 := rfl

theorem EnumVariant.depth_of_ofJson? {j : Json} {variant : EnumVariant}
    (read : EnumVariant.ofJson? j = some variant) : 1 ≤ j.depth := by
  unfold EnumVariant.ofJson? at read
  split at read
  · exact Nat.succ_pos _
  · exact Nat.succ_pos _
  · cases read

theorem EnumVariant.depth_of_listOfJson? {j : Json} {variants : List EnumVariant}
    (read : EnumVariant.listOfJson? j = some variants) :
    (Json.array (variants.map EnumVariant.toJson)).depth ≤ j.depth := by
  unfold EnumVariant.listOfJson? at read
  split at read
  · rename_i items
    refine Nat.succ_le_succ (Json.itemsDepth_le_iff.mpr (List.forall_mem_map.mpr ?_))
    intro variant mem
    obtain ⟨item, inside, same⟩ := exists_of_mem_mapM read mem
    rw [depth_toJson]
    exact (depth_of_ofJson? same).trans (Json.itemsDepth_le_iff.mp le_rfl item inside)
  · cases read

namespace SchemaPart

/-- What a part of a schema's JSON is read as: fields in key order at every level, with JSON that is
no deeper than a bound. -/
structure ShallowWithin (part : SchemaPart) (depth : Nat) : Prop where
  type : ∀ t, part.type? = some t → t.Keyed ∧ (Json.object t.members).depth ≤ depth
  field : ∀ f, part.field? = some f → f.type.Keyed ∧ (FieldType.fieldJson f).depth ≤ depth
  fields : ∀ fs, part.fields? = some fs →
    (KeyList.Ordered fs ∧ ∀ f ∈ fs, f.2.type.Keyed) ∧
      (Json.object (FieldType.fieldMembers fs)).depth ≤ depth
  json : part.json.depth ≤ depth

theorem ShallowWithin.mono {part : SchemaPart} {depth more : Nat}
    (within : part.ShallowWithin depth) (le : depth ≤ more) : part.ShallowWithin more where
  type t read := (within.type t read).imp_right fun shallow => shallow.trans le
  field f read := (within.field f read).imp_right fun shallow => shallow.trans le
  fields fs read := (within.fields fs read).imp_right fun shallow => shallow.trans le
  json := within.json.trans le

theorem mem_of_ofJson? {j : Json} {tag : TypeTag} (read : TypeTag.ofJson? j = some tag) :
    ∃ name, (name, tag) ∈ TypeTag.all := by
  unfold TypeTag.ofJson? at read
  split at read
  · rename_i name
    obtain ⟨before, after, shape, -⟩ := List.lookup_eq_some_iff.mp read
    exact ⟨name, by simp [shape]⟩
  · split at read
    · cases read
    · obtain ⟨⟨name, _⟩, found, rfl⟩ := Option.map_eq_some_iff.mp read
      exact ⟨name, List.mem_of_getElem? found⟩
  · cases read

/-- A tag of a leaf needs nothing besides. -/
theorem members_of_leaf {j : Json} {type : ScalarType}
    (read : TypeTag.ofJson? j = some (.leaf type)) : type.members = [("type", .string type.name)] := by
  obtain ⟨name, mem⟩ := mem_of_ofJson? read
  cases type with
  | enumeration => simp [TypeTag.all] at mem
  | _ => rfl

/-- A type from a tag and parts is no deeper than one more than the parts. -/
theorem typeOf?_within {j : Json} {tag : TypeTag} (told : TypeTag.ofJson? j = some tag)
    {name variants fields element : Option SchemaPart} {depth : Nat}
    (variantsWithin : ∀ p ∈ variants, p.ShallowWithin depth)
    (fieldsWithin : ∀ p ∈ fields, p.ShallowWithin depth)
    (elementWithin : ∀ p ∈ element, p.ShallowWithin depth) {t : FieldType}
    (h : typeOf? tag name variants fields element = some t) :
    t.Keyed ∧ (Json.object t.members).depth ≤ depth + 1 := by
  cases tag with
  | leaf type =>
    cases h
    refine ⟨.scalar type, ?_⟩
    rw [FieldType.members, members_of_leaf told]
    exact Nat.succ_le_succ (Nat.zero_le _)
  | enumeration =>
    obtain ⟨_, -, labelled⟩ := Option.bind_eq_some_iff.mp h
    obtain ⟨label, -, varied⟩ := Option.bind_eq_some_iff.mp labelled
    obtain ⟨part, given, listing⟩ := Option.bind_eq_some_iff.mp varied
    obtain ⟨listed, read, same⟩ := Option.bind_eq_some_iff.mp listing
    cases same
    have shallow := (EnumVariant.depth_of_listOfJson? read).trans (variantsWithin part given).json
    exact ⟨.scalar _, Nat.succ_le_succ (Nat.max_le.mpr ⟨Nat.zero_le _, Nat.max_le.mpr
      ⟨Nat.zero_le _, Nat.max_le.mpr ⟨shallow, Nat.zero_le _⟩⟩⟩)⟩
  | object =>
    obtain ⟨part, given, listing⟩ := Option.bind_eq_some_iff.mp h
    obtain ⟨listed, read, same⟩ := Option.bind_eq_some_iff.mp listing
    cases same
    obtain ⟨⟨ordered, each⟩, shallow⟩ := (fieldsWithin part given).fields listed read
    exact ⟨.object ordered each, Nat.succ_le_succ (Nat.max_le.mpr ⟨Nat.zero_le _, Nat.max_le.mpr
      ⟨shallow, Nat.zero_le _⟩⟩)⟩
  | array =>
    obtain ⟨part, given, typing⟩ := Option.bind_eq_some_iff.mp h
    obtain ⟨inner, read, same⟩ := Option.bind_eq_some_iff.mp typing
    cases same
    obtain ⟨keyed, shallow⟩ := (elementWithin part given).type inner read
    exact ⟨.array keyed, Nat.succ_le_succ (Nat.max_le.mpr ⟨Nat.zero_le _, Nat.max_le.mpr
      ⟨shallow, Nat.zero_le _⟩⟩)⟩

theorem required?_within {name : String} {members : List (String × SchemaPart)} {depth : Nat}
    (within : ∀ m ∈ members, m.2.ShallowWithin depth) :
    ∀ p ∈ required? name members, p.ShallowWithin depth :=
  fun p given => within (name, p) (mem_of_required? given)

theorem typeOfMembers?_within {members : List (String × SchemaPart)} {depth : Nat}
    (within : ∀ m ∈ members, m.2.ShallowWithin depth) {t : FieldType}
    (h : typeOfMembers? members = some t) :
    t.Keyed ∧ (Json.object t.members).depth ≤ depth + 1 := by
  obtain ⟨part, -, tagged⟩ := Option.bind_eq_some_iff.mp h
  obtain ⟨tag, told, read⟩ := Option.bind_eq_some_iff.mp tagged
  exact typeOf?_within told (required?_within within) (required?_within within)
    (required?_within within) read

theorem typeOfItems?_within {items : List SchemaPart} {depth : Nat}
    (within : ∀ p ∈ items, p.ShallowWithin depth) {t : FieldType}
    (h : typeOfItems? items = some t) :
    t.Keyed ∧ (Json.object t.members).depth ≤ depth + 1 := by
  have missing : ∀ p ∈ (none : Option SchemaPart), p.ShallowWithin depth := nofun
  cases items with
  | nil => cases h
  | cons first rest =>
    have inside {p : SchemaPart} (mem : p ∈ rest) : ∀ q ∈ some p, q.ShallowWithin depth := by
      rintro _ ⟨⟩
      exact within p (List.mem_cons_of_mem _ mem)
    obtain ⟨tag, told, read⟩ := Option.bind_eq_some_iff.mp h
    split at read
    · exact typeOf?_within told missing missing missing read
    · exact typeOf?_within told (inside (by simp)) missing missing read
    · exact typeOf?_within told missing (inside (by simp)) missing read
    · exact typeOf?_within told missing missing (inside (by simp)) read
    · cases read

theorem fieldOfMembers?_within {members : List (String × SchemaPart)} {depth : Nat}
    (within : ∀ m ∈ members, m.2.ShallowWithin depth) {f : Field}
    (h : fieldOfMembers? members = some f) :
    f.type.Keyed ∧ (FieldType.fieldJson f).depth ≤ depth + 1 := by
  obtain ⟨nullable, -, typing⟩ := Option.bind_eq_some_iff.mp h
  obtain ⟨type, read, same⟩ := Option.bind_eq_some_iff.mp typing
  cases same
  obtain ⟨keyed, shallow⟩ := typeOfMembers?_within
    (fun m mem => within m (List.mem_of_mem_filter mem)) read
  refine ⟨keyed, ?_⟩
  rw [FieldType.fieldJson_eq, Json.depth, Json.membersDepth_append]
  exact Nat.succ_le_succ (Nat.max_le.mpr ⟨Nat.le_of_succ_le_succ shallow, Nat.zero_le _⟩)

theorem fieldsOfMembers?_within {members : List (String × SchemaPart)} {depth : Nat}
    (within : ∀ m ∈ members, m.2.ShallowWithin depth) {fs : Fields}
    (h : fieldsOfMembers? members = some fs) :
    (KeyList.Ordered fs ∧ ∀ f ∈ fs, f.2.type.Keyed) ∧
      (Json.object (FieldType.fieldMembers fs)).depth ≤ depth + 1 := by
  obtain ⟨listed, read, same⟩ := Option.bind_eq_some_iff.mp h
  cases same
  have each : ∀ f ∈ KeyList.ofList listed,
      f.2.type.Keyed ∧ (FieldType.fieldJson f.2).depth ≤ depth := by
    intro f mem
    obtain ⟨m, inside, same⟩ := exists_of_mem_mapM read (KeyList.mem_of_mem_ofList mem)
    obtain ⟨field, one, rfl⟩ := Option.map_eq_some_iff.mp same
    exact (within m inside).field field one
  refine ⟨⟨KeyList.ordered_ofList listed, fun f mem => (each f mem).1⟩, ?_⟩
  rw [FieldType.fieldMembers_eq_map]
  exact Nat.succ_le_succ (Json.membersDepth_le_iff.mpr
    (List.forall_mem_map.mpr fun f mem => (each f mem).2))

/-- Whatever a part of a schema's JSON is read as has its fields in key order at every level, and
JSON that is no deeper. -/
theorem shallow_ofJson (j : Json) : (ofJson j).ShallowWithin j.depth := by
  induction j with
  | null | bool b | number n | string s => exact ⟨nofun, nofun, nofun, le_rfl⟩
  | array items ih =>
    have within : ∀ p ∈ ofItems items, p.ShallowWithin (Json.itemsDepth items) := by
      rw [ofItems_eq_map]
      refine List.forall_mem_map.mpr fun j mem => (ih j mem).mono ?_
      exact Json.itemsDepth_le_iff.mp le_rfl j mem
    exact ⟨fun t => typeOfItems?_within within, nofun, nofun, le_rfl⟩
  | object members ih =>
    have within : ∀ m ∈ ofMembers members, m.2.ShallowWithin (Json.membersDepth members) := by
      rw [ofMembers_eq_map]
      refine List.forall_mem_map.mpr fun m mem => (ih m mem).mono ?_
      exact Json.membersDepth_le_iff.mp le_rfl m mem
    exact ⟨fun t => typeOfMembers?_within within, fun f => fieldOfMembers?_within within,
      fun fs => fieldsOfMembers?_within within, le_rfl⟩

end SchemaPart

namespace Schema

/-- Only the fields of a schema go deeper than one object. -/
theorem depth_toJson (schema : Schema) :
    schema.toJson.depth = (Json.object (FieldType.fieldMembers schema.fields)).depth + 1 := by
  obtain ⟨name, description, fields⟩ := schema
  cases description <;> simp [toJson, Json.depth, Json.membersDepth]

/-- A schema that was read has its fields in key order at every level, and JSON that is no deeper
than what it was read from. -/
theorem keyed_of_ofJson? {j : Json} {schema : Schema} (h : Schema.ofJson? j = some schema) :
    schema.Keyed ∧ schema.toJson.depth ≤ j.depth := by
  have outcome {fieldsJson : Json} (inside : fieldsJson.depth < j.depth)
      (read : fieldsOfJson? fieldsJson = some schema.fields) :
      schema.Keyed ∧ schema.toJson.depth ≤ j.depth := by
    obtain ⟨⟨ordered, each⟩, shallow⟩ :=
      (SchemaPart.shallow_ofJson fieldsJson).fields schema.fields read
    refine ⟨⟨ordered, each⟩, ?_⟩
    rw [depth_toJson]
    omega
  unfold Schema.ofJson? at h
  split at h
  · obtain ⟨name, -, described⟩ := Option.bind_eq_some_iff.mp h
    obtain ⟨description, -, fielded⟩ := Option.bind_eq_some_iff.mp described
    obtain ⟨fields, read, same⟩ := Option.bind_eq_some_iff.mp fielded
    obtain ⟨fieldsJson, found, read⟩ := Option.bind_eq_some_iff.mp read
    cases same
    exact outcome (Json.depth_lt_of_mem_members (SchemaPart.mem_of_required? found)) read
  · obtain ⟨name, -, described⟩ := Option.bind_eq_some_iff.mp h
    obtain ⟨description, -, fielded⟩ := Option.bind_eq_some_iff.mp described
    obtain ⟨fields, read, same⟩ := Option.bind_eq_some_iff.mp fielded
    cases same
    exact outcome (Json.depth_lt_of_mem_items (by simp)) read
  · cases h

end Schema

end DocStore
