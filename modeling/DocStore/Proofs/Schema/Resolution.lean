import DocStore.Schema.Resolve
import Mathlib.Data.List.Infix

/-!
# Where paths lead

A path is walked from object to object: each segment is looked up among the fields that the segments
before it have led to.  Either the whole path is walked, or there is a first place from which it
does not go on.

* `InnerFields`: the fields that some segments lead to;
* `Schema.Declares`: a path leads to a field;
* `Schema.StopsAt`: the way along a path stops at a place, and what is in its way there;
* `Schema.resolve_eq_ok_iff`, `Schema.resolve_eq_error_iff`: the outcomes of resolving a path;
* `paths_resolved`: resolving is walking, also in parts, and a failure names where the way stops.
-/

namespace DocStore

/-- The fields that can be named after some segments, each of which leads to an object. -/
inductive InnerFields : Fields → List String → Fields → Prop
  | here (fields : Fields) : InnerFields fields [] fields
  | member {fields nested inner : Fields} {segment : String} {rest : List String} {nullable : Bool}
      (declared : KeyList.find? segment fields = some ⟨.object nested, nullable⟩)
      (further : InnerFields nested rest inner) : InnerFields fields (segment :: rest) inner

namespace InnerFields

variable {fields middle inner : Fields} {a b : List String}

theorem append (first : InnerFields fields a middle) (second : InnerFields middle b inner) :
    InnerFields fields (a ++ b) inner := by
  induction first with
  | here => exact second
  | member declared _ ih => exact .member declared (ih second)

theorem split (whole : InnerFields fields (a ++ b) inner) :
    ∃ middle, InnerFields fields a middle ∧ InnerFields middle b inner := by
  induction a generalizing fields with
  | nil => exact ⟨fields, .here fields, whole⟩
  | cons segment a ih =>
    cases whole with
    | member declared further =>
      obtain ⟨middle, first, second⟩ := ih further
      exact ⟨middle, .member declared first, second⟩

/-- One more object. -/
theorem snoc {nullable : Bool} {segment : String} (inside : InnerFields fields a middle)
    (declared : KeyList.find? segment middle = some ⟨.object inner, nullable⟩) :
    InnerFields fields (a ++ [segment]) inner :=
  inside.append (.member declared (.here inner))

end InnerFields

/-- What is in the way of a segment. -/
inductive Obstacle where
  /-- The object reached so far does not declare the segment. -/
  | undeclared (segment : String)
  /-- The field reached so far has no members. -/
  | memberless (type : FieldType)

namespace Schema

variable (schema : Schema)

/-- Whether a path leads to a field: its last segment is declared where those before it lead. -/
def Declares (path : FieldPath) (field : Field) : Prop :=
  ∃ before last inner, path.segments = before ++ [last] ∧
    InnerFields schema.fields before inner ∧ KeyList.find? last inner = some field

/-- The way along a path goes as far as `reached`, and something is in the way of the next
segment. -/
inductive StopsAt (path : FieldPath) : List String → Obstacle → Prop
  | undeclared {reached rest : List String} {segment : String} {inner : Fields}
      (whole : path.segments = reached ++ segment :: rest)
      (inside : InnerFields schema.fields reached inner)
      (missing : KeyList.find? segment inner = none) : StopsAt path reached (.undeclared segment)
  | memberless {before rest : List String} {segment next : String} {inner : Fields} {field : Field}
      (whole : path.segments = before ++ segment :: next :: rest)
      (inside : InnerFields schema.fields before inner)
      (declared : KeyList.find? segment inner = some field)
      (leaf : ∀ nested, field.type ≠ .object nested) :
      StopsAt path (before ++ [segment]) (.memberless field.type)

/-- The name of the place that some segments lead to: the schema itself, or the dotted path. -/
def placeName (reached : List String) : String :=
  if reached.isEmpty then schema.name else FieldPath.dotted reached

/-- The error that a path is refused with. -/
def stopError (path : FieldPath) (reached : List String) : Obstacle → QueryError
  | .undeclared segment =>
    .unsupported (.undeclaredMember path (schema.placeName reached) segment)
  | .memberless type => .unsupported (.noMembers path reached.length type)

end Schema

/-- What is said of a place from which the way does not go on. -/
def Obstacle.remark : Obstacle → String
  | .undeclared segment => "' does not declare '" ++ segment ++ "'"
  | .memberless type => "' is a " ++ type.name ++ " and has no members"

/-! ## Walking -/

namespace Schema

variable {schema : Schema} {path : FieldPath}

/-- Segments that lead to an object are passed, if there are more to come. -/
theorem resolveFrom_inside {fields inner : Fields} {before rest : List String}
    (inside : InnerFields fields before inner) (more : rest ≠ []) (depth : Nat) :
    schema.resolveFrom path depth fields (before ++ rest) =
      schema.resolveFrom path (depth + before.length) inner rest := by
  induction inside generalizing depth with
  | here => rfl
  | member declared _ ih =>
    have further (names : List String) : (names ++ rest).isEmpty = false := by
      simp [more]
    simp only [List.cons_append, resolveFrom, declared, further, Bool.false_eq_true, if_false, ih,
      List.length_cons]
    rw [Nat.add_assoc, Nat.add_comm 1]

theorem resolve_of_declares {field : Field} (declares : schema.Declares path field) :
    schema.resolve path = .ok field := by
  obtain ⟨before, last, inner, whole, inside, declared⟩ := declares
  rw [resolve, whole, resolveFrom_inside inside (List.cons_ne_nil _ _)]
  simp [resolveFrom, declared]

theorem scopeName_eq {reached rest : List String} (whole : path.segments = reached ++ rest) :
    schema.scopeName path reached.length = schema.placeName reached := by
  cases reached with
  | nil => rfl
  | cons segment reached =>
    simp [scopeName, placeName, FieldPath.textTo, whole]

theorem resolve_of_stopsAt {reached : List String} {obstacle : Obstacle}
    (stops : schema.StopsAt path reached obstacle) :
    schema.resolve path = .error (schema.stopError path reached obstacle) := by
  cases stops with
  | undeclared whole inside missing =>
    rw [resolve, whole, resolveFrom_inside inside (List.cons_ne_nil _ _)]
    simp [resolveFrom, missing, stopError, scopeName_eq whole]
  | @memberless before _ _ _ _ field whole inside declared leaf =>
    rw [resolve, whole, resolveFrom_inside inside (List.cons_ne_nil _ _)]
    cases type : field.type with
    | object nested => exact absurd type (leaf nested)
    | scalar | array => simp [resolveFrom, declared, type, stopError]

/-- Segments either lead to a field, or there is a first place from which they do not go on. -/
theorem walk (fields : Fields) (segment : String) (rest : List String) :
    ∃ before last after inner, segment :: rest = before ++ last :: after ∧
      InnerFields fields before inner ∧
      (KeyList.find? last inner = none ∨ ∃ field, KeyList.find? last inner = some field ∧
        (after = [] ∨ ∀ nested, field.type ≠ .object nested)) := by
  induction rest generalizing fields segment with
  | nil =>
    refine ⟨[], segment, [], fields, rfl, .here fields, ?_⟩
    cases KeyList.find? segment fields with
    | none => exact .inl rfl
    | some field => exact .inr ⟨field, rfl, .inl rfl⟩
  | cons next rest ih =>
    cases declared : KeyList.find? segment fields with
    | none => exact ⟨[], segment, _, fields, rfl, .here fields, .inl declared⟩
    | some field =>
      obtain ⟨type, nullable⟩ := field
      cases type with
      | object nested =>
        obtain ⟨before, last, after, inner, whole, inside, outcome⟩ := ih nested next
        exact ⟨segment :: before, last, after, inner, congrArg (segment :: ·) whole,
          .member declared inside, outcome⟩
      | scalar | array =>
        exact ⟨[], segment, _, fields, rfl, .here fields, .inr ⟨_, declared, .inr nofun⟩⟩

/-- A path that is not empty leads to a field, or the way along it stops somewhere. -/
theorem declares_or_stopsAt (schema : Schema) (nonempty : path.segments ≠ []) :
    (∃ field, schema.Declares path field) ∨
      ∃ reached obstacle, schema.StopsAt path reached obstacle := by
  obtain ⟨segment, rest, segments⟩ := List.exists_cons_of_ne_nil nonempty
  obtain ⟨before, last, after, inner, whole, inside, outcome⟩ := walk schema.fields segment rest
  rw [← segments] at whole
  rcases outcome with missing | ⟨field, declared, done | leaf⟩
  · exact .inr ⟨before, .undeclared last, .undeclared whole inside missing⟩
  · subst done
    exact .inl ⟨field, before, last, inner, whole, inside, declared⟩
  · cases after with
    | nil => exact .inl ⟨field, before, last, inner, whole, inside, declared⟩
    | cons next after =>
      exact .inr ⟨before ++ [last], .memberless field.type,
        .memberless whole inside declared leaf⟩

theorem resolve_empty (empty : path.segments = []) :
    schema.resolve path = .error (.unsupported .emptyPath) := by
  rw [resolve, empty]
  rfl

theorem resolve_eq_ok_iff {field : Field} :
    schema.resolve path = .ok field ↔ schema.Declares path field := by
  refine ⟨fun resolved => ?_, resolve_of_declares⟩
  by_cases empty : path.segments = []
  · cases (resolve_empty empty).symm.trans resolved
  · rcases declares_or_stopsAt schema empty with ⟨other, declares⟩ | ⟨reached, obstacle, stops⟩
    · cases (resolve_of_declares declares).symm.trans resolved
      exact declares
    · cases (resolve_of_stopsAt stops).symm.trans resolved

theorem resolve_eq_error_iff {e : QueryError} :
    schema.resolve path = .error e ↔
      path.segments = [] ∧ e = .unsupported .emptyPath ∨
        ∃ reached obstacle, schema.StopsAt path reached obstacle ∧
          e = schema.stopError path reached obstacle := by
  constructor
  · intro refused
    by_cases empty : path.segments = []
    · cases (resolve_empty empty).symm.trans refused
      exact .inl ⟨empty, rfl⟩
    · rcases declares_or_stopsAt schema empty with ⟨field, declares⟩ | ⟨reached, obstacle, stops⟩
      · cases (resolve_of_declares declares).symm.trans refused
      · cases (resolve_of_stopsAt stops).symm.trans refused
        exact .inr ⟨reached, obstacle, stops, rfl⟩
  · rintro (⟨empty, rfl⟩ | ⟨reached, obstacle, stops, rfl⟩)
    · exact resolve_empty empty
    · exact resolve_of_stopsAt stops

/-! ## Paths in two parts -/

/-- Segments that lead to an object are a path that does. -/
theorem declares_of_inner {a : List String} {inner : Fields} (nonempty : a ≠ [])
    (inside : InnerFields schema.fields a inner) :
    ∃ nullable, schema.Declares ⟨a⟩ ⟨.object inner, nullable⟩ := by
  obtain ⟨before, last, rfl⟩ := (List.eq_nil_or_concat' a).resolve_left nonempty
  obtain ⟨middle, first, second⟩ := inside.split
  cases second with
  | member declared further =>
    cases further
    exact ⟨_, before, last, middle, rfl, first, declared⟩

theorem Declares.inner {a : List String} {nested : Fields} {nullable : Bool}
    (declares : schema.Declares ⟨a⟩ ⟨.object nested, nullable⟩) :
    InnerFields schema.fields a nested := by
  obtain ⟨before, last, inner, rfl, inside, declared⟩ := declares
  exact inside.snoc declared

theorem declares_append_iff {p q : List String} {field : Field} (first : p ≠ [])
    (second : q ≠ []) :
    schema.Declares ⟨p ++ q⟩ field ↔ ∃ nested nullable,
      schema.Declares ⟨p⟩ ⟨.object nested, nullable⟩ ∧
        Declares { schema with fields := nested } ⟨q⟩ field := by
  obtain ⟨q, last, rfl⟩ := (List.eq_nil_or_concat' q).resolve_left second
  constructor
  · rintro ⟨before, _, inner, whole, inside, declared⟩
    obtain ⟨rfl, same⟩ := List.append_inj' ((List.append_assoc p q [last]).trans whole) rfl
    cases same
    obtain ⟨nested, outer, further⟩ := inside.split
    obtain ⟨nullable, leads⟩ := declares_of_inner first outer
    exact ⟨nested, nullable, leads, q, last, inner, rfl, further, declared⟩
  · rintro ⟨nested, nullable, leads, before, _, inner, whole, further, declared⟩
    obtain ⟨rfl, same⟩ := List.append_inj' whole rfl
    cases same
    exact ⟨p ++ q, last, inner, (List.append_assoc p q [last]).symm, leads.inner.append further,
      declared⟩

/-! ## Where the way stops -/

namespace StopsAt

variable {reached a : List String} {obstacle : Obstacle}

/-- The way along a longer part of the path stops at the same place. -/
theorem onPrefix (stops : schema.StopsAt path reached obstacle) (part : a <+: path.segments)
    (longer : reached.length < a.length) : schema.StopsAt ⟨a⟩ reached obstacle := by
  obtain ⟨later, split⟩ := part
  cases stops with
  | @undeclared _ rest segment inner whole inside missing =>
    have taken : reached <+: a := List.prefix_of_prefix_length_le ⟨_, whole.symm⟩ ⟨later, split⟩
      (Nat.le_of_lt longer)
    obtain ⟨more, rfl⟩ := taken
    cases more with
    | nil => simp at longer
    | cons next more =>
      rw [← split, List.append_assoc] at whole
      cases (List.append_cancel_left whole)
      exact .undeclared rfl inside missing
  | @memberless before rest segment next inner field whole inside declared leaf =>
    have whole' : path.segments = (before ++ [segment]) ++ next :: rest := by simp [whole]
    have taken : before ++ [segment] <+: a :=
      List.prefix_of_prefix_length_le ⟨_, whole'.symm⟩ ⟨later, split⟩ (Nat.le_of_lt longer)
    obtain ⟨more, rfl⟩ := taken
    cases more with
    | nil => simp at longer
    | cons other more =>
      have split : before ++ [segment] ++ other :: more = before ++ segment :: other :: more :=
        List.append_assoc before [segment] _
      exact .memberless split inside declared leaf

/-- Every part of the path up to the place where the way stops leads to a field. -/
theorem leads (stops : schema.StopsAt path reached obstacle) (part : a <+: reached)
    (nonempty : a ≠ []) : ∃ field, schema.Declares ⟨a⟩ field := by
  have passed {before : List String} {inner : Fields} (part : a <+: before)
      (inside : InnerFields schema.fields before inner) : ∃ field, schema.Declares ⟨a⟩ field := by
    obtain ⟨later, rfl⟩ := part
    obtain ⟨middle, first, -⟩ := inside.split
    obtain ⟨nullable, declares⟩ := declares_of_inner nonempty first
    exact ⟨_, declares⟩
  cases stops with
  | undeclared _ inside _ => exact passed part inside
  | @memberless before _ segment _ inner field _ inside declared _ =>
    rcases List.prefix_concat_iff.mp part with rfl | part
    · exact ⟨field, before, segment, inner, rfl, inside, declared⟩
    · exact passed part inside

/-- The place where the way stops is a part of the path. -/
theorem isPrefix (stops : schema.StopsAt path reached obstacle) : reached <+: path.segments := by
  cases stops with
  | undeclared whole => exact ⟨_, whole.symm⟩
  | @memberless before rest segment next _ _ whole =>
    exact ⟨next :: rest, by simp [whole]⟩

/-- The parts of a path that lead to a field are those up to the place where the way stops. -/
theorem resolves_iff (stops : schema.StopsAt path reached obstacle) (part : a <+: path.segments)
    (nonempty : a ≠ []) :
    (∃ field, schema.resolve ⟨a⟩ = .ok field) ↔ a.length ≤ reached.length := by
  constructor
  · rintro ⟨field, resolved⟩
    by_contra longer
    cases (resolve_of_stopsAt (stops.onPrefix part (Nat.lt_of_not_le longer))).symm.trans resolved
  · intro shorter
    obtain ⟨field, declares⟩ :=
      stops.leads (List.prefix_of_prefix_length_le part stops.isPrefix shorter) nonempty
    exact ⟨field, resolve_of_declares declares⟩

/-- What the error says of the place where the way stops. -/
theorem reason (stops : schema.StopsAt path reached obstacle) :
    ∃ cause, schema.stopError path reached obstacle = .unsupported cause ∧
      cause.construct = "member '" ++ path.text ++ "'" ∧
      cause.reason = "'" ++ schema.placeName reached ++ obstacle.remark := by
  cases stops with
  | @undeclared _ _ segment =>
    have said : (Unsupported.undeclaredMember path (schema.placeName reached) segment).reason =
        "'" ++ schema.placeName reached ++ "' does not declare '" ++ segment ++ "'" := rfl
    have remark : (Obstacle.undeclared segment).remark =
        "' does not declare '" ++ segment ++ "'" := rfl
    refine ⟨_, rfl, rfl, said.trans ?_⟩
    simp only [remark, String.append_assoc]
  | @memberless before rest segment next _ field whole =>
    have whole : path.segments = before ++ [segment] ++ next :: rest := by simp [whole]
    have place : path.textTo (before ++ [segment]).length =
        schema.placeName (before ++ [segment]) := by
      rw [FieldPath.textTo, whole, List.take_left, placeName, if_neg (by simp)]
    have said : (Unsupported.noMembers path (before ++ [segment]).length field.type).reason =
        "'" ++ path.textTo (before ++ [segment]).length ++ "' is a " ++ field.type.name ++
          " and has no members" := rfl
    have remark : (Obstacle.memberless field.type).remark =
        "' is a " ++ field.type.name ++ " and has no members" := rfl
    refine ⟨_, rfl, rfl, said.trans ?_⟩
    simp only [place, remark, String.append_assoc]

theorem message (stops : schema.StopsAt path reached obstacle) :
    (schema.stopError path reached obstacle).message =
      "Unsupported expression: member '" ++ path.text ++ "': '" ++ schema.placeName reached ++
        obstacle.remark := by
  obtain ⟨cause, error, construct, reason⟩ := stops.reason
  have said : (QueryError.unsupported cause).message =
      "Unsupported expression: " ++ cause.construct ++ ": " ++ cause.reason := rfl
  have start : "Unsupported expression: member '" = "Unsupported expression: " ++ "member '" := rfl
  have middle : "': '" = "'" ++ (": " ++ "'") := rfl
  rw [error, said, construct, reason, start, middle]
  simp only [String.append_assoc]

end StopsAt

end Schema

/-- Resolving a path is walking from object to object, and a path in two parts is resolved one part
after the other.  A path that cannot be resolved is empty, or there is a place from which its next
segment does not go on; the error names the whole path and that place. -/
theorem paths_resolved (schema : Schema) :
    (∀ path field, schema.resolve path = .ok field ↔ schema.Declares path field) ∧
      (∀ p q field, p ≠ [] → q ≠ [] →
        (schema.resolve ⟨p ++ q⟩ = .ok field ↔ ∃ nested nullable,
          schema.resolve ⟨p⟩ = .ok ⟨.object nested, nullable⟩ ∧
            Schema.resolve { schema with fields := nested } ⟨q⟩ = .ok field)) ∧
      ∀ path e, schema.resolve path = .error e →
        path.segments = [] ∧ e = .unsupported .emptyPath ∨
          ∃ reached obstacle, schema.StopsAt path reached obstacle ∧
            (∀ a, a <+: path.segments → a ≠ [] →
              ((∃ field, schema.resolve ⟨a⟩ = .ok field) ↔ a.length ≤ reached.length)) ∧
            e = schema.stopError path reached obstacle ∧
            e.message = "Unsupported expression: member '" ++ path.text ++ "': '" ++
              schema.placeName reached ++ obstacle.remark := by
  refine ⟨fun path field => Schema.resolve_eq_ok_iff, ?_, ?_⟩
  · intro p q field first second
    simp only [Schema.resolve_eq_ok_iff, Schema.declares_append_iff first second]
  · intro path e refused
    rcases Schema.resolve_eq_error_iff.mp refused with empty | ⟨reached, obstacle, stops, rfl⟩
    · exact .inl empty
    · exact .inr ⟨reached, obstacle, stops, fun a part nonempty => stops.resolves_iff part nonempty,
        rfl, stops.message⟩

/-- People with a home, which has coordinates. -/
def residentSchema : Schema where
  name := "Resident"
  description := none
  fields := [("home", .required (.object [("city", .required (.scalar .text)),
    ("geo", .optional (.object [("lat", .required (.scalar .float64))]))]))]

/-- A path in two parts, and one that goes on after its leaf. -/
theorem paths_resolved_of_resident :
    (["home"] ≠ [] ∧ ["geo", "lat"] ≠ [] ∧
      residentSchema.resolve ⟨["home"] ++ ["geo", "lat"]⟩ = .ok (.required (.scalar .float64)) ∧
      ∃ nested nullable, residentSchema.resolve ⟨["home"]⟩ = .ok ⟨.object nested, nullable⟩ ∧
        Schema.resolve { residentSchema with fields := nested } ⟨["geo", "lat"]⟩ =
          .ok (.required (.scalar .float64))) ∧
      ∃ e reached obstacle, residentSchema.resolve ⟨["home", "geo", "lat", "deg"]⟩ = .error e ∧
        residentSchema.StopsAt ⟨["home", "geo", "lat", "deg"]⟩ reached obstacle ∧
        reached = ["home", "geo", "lat"] ∧
        e.message = "Unsupported expression: member 'home.geo.lat.deg': " ++
          "'home.geo.lat' is a float64 and has no members" := by
  obtain ⟨-, composed, refused⟩ := paths_resolved residentSchema
  have first : ["home"] ≠ [] := List.cons_ne_nil _ _
  have second : ["geo", "lat"] ≠ [] := List.cons_ne_nil _ _
  have whole : residentSchema.resolve ⟨["home"] ++ ["geo", "lat"]⟩ =
      .ok (.required (.scalar .float64)) := rfl
  refine ⟨⟨first, second, whole, (composed _ _ _ first second).mp whole⟩, ?_⟩
  have stopped : residentSchema.resolve ⟨["home", "geo", "lat", "deg"]⟩ =
      .error (.unsupported (.noMembers ⟨["home", "geo", "lat", "deg"]⟩ 3 (.scalar .float64))) := rfl
  rcases refused _ _ stopped with ⟨empty, -⟩ | ⟨reached, obstacle, stops, parts, -, -⟩
  · cases empty
  · have leaf : ["home", "geo", "lat"].length ≤ reached.length :=
      (parts _ (by decide) (List.cons_ne_nil _ _)).mp ⟨_, rfl⟩
    have more : ¬ ["home", "geo", "lat", "deg"].length ≤ reached.length := fun long => by
      obtain ⟨field, resolved⟩ := (parts _ (by decide) (List.cons_ne_nil _ _)).mpr long
      cases stopped.symm.trans resolved
    have same : reached = ["home", "geo", "lat"] := by
      have length : reached.length = 3 := by simp at leaf more; omega
      rw [List.prefix_iff_eq_take.mp stops.isPrefix, length]
      rfl
    exact ⟨_, reached, obstacle, stopped, stops, same, rfl⟩

end DocStore
