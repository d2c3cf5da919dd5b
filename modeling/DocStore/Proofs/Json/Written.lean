import DocStore.Proofs.Json.Depth
import DocStore.Proofs.Json.Scalars

/-!
# JSON is read as it was written

The compact text of a JSON value is read back as that value, if no more arrays and objects are
nested in it than the reader may go into, and is refused otherwise.  Of numbers only the whole ones
of 64 bits with a sign are looked at.

* `Json.Legible`: a value without other numbers;
* `Json.ReadBack`: a value whose text is read back if the reader may go deep enough;
* `Json.readItems?_text`, `Json.readMembers?_text`: the items of an array, the members of an object;
* `Json.Legible.readBack`: legible values are read back;
* `Json.readRecord?_text`: so is an object whose members are all wanted.
-/

namespace DocStore

open DocStore.Text

namespace Json

/-! ## Values -/

/-- A value without other numbers than whole ones of 64 bits with a sign. -/
inductive Legible : Json → Prop
  | null : Legible .null
  | bool (b : Bool) : Legible (.bool b)
  | whole {i : Int} (fits : IntRange.signed64.holds i) : Legible (.number (.whole i))
  | string (s : String) : Legible (.string s)
  | array {items : List Json} (each : ∀ j ∈ items, Legible j) : Legible (.array items)
  | object {members : List (String × Json)} (each : ∀ m ∈ members, Legible m.2) :
      Legible (.object members)

/-- Whether the text of a value is read back as far as the reader may go. -/
def ReadBack (j : Json) : Prop :=
  ∀ {fuel depth : Nat} {rest : List Char}, 2 * j.text.toList.length ≤ fuel → ClosesValue rest →
    readValue? fuel depth (j.text.toList ++ rest) =
      if j.depth ≤ depth then some (j, rest) else none

theorem intText_head (i : Int) :
    ∃ c cs, (intText i).toList = c :: cs ∧ (c = '-' ∨ c.isDigit) := by
  rw [intText_toList]
  by_cases negative : i < 0
  · rw [if_pos negative]
    exact ⟨'-', _, rfl, .inl rfl⟩
  · obtain ⟨c, cs, shape⟩ := List.exists_cons_of_ne_nil (natDigits_ne_nil i.natAbs)
    have digit : c ∈ natDigits i.natAbs := by
      rw [shape]
      exact List.mem_cons_self ..
    rw [if_neg negative, shape]
    exact ⟨c, cs, rfl, .inr (natDigits_isDigit digit)⟩

/-- The text of a value starts neither with spacing nor with the end of an array. -/
theorem Legible.text_head {j : Json} (legible : Legible j) :
    ∃ c cs, j.text.toList = c :: cs ∧ isSpace c = false ∧ c ≠ ']' := by
  cases legible with
  | null => exact ⟨_, _, rfl, rfl, by decide⟩
  | bool b => cases b <;> exact ⟨_, _, rfl, rfl, by decide⟩
  | @whole i fits =>
    obtain ⟨c, cs, shape, mark⟩ := intText_head i
    refine ⟨c, cs, shape, ?_, ?_⟩
    · rw [Bool.eq_false_iff]
      intro space
      simp only [isSpace, Bool.or_eq_true, decide_eq_true_eq] at space
      rcases space with ((rfl | rfl) | rfl) | rfl <;> rcases mark with mark | mark <;> cases mark
    · rintro rfl
      rcases mark with mark | mark <;> cases mark
  | string s => exact ⟨'"', _, stringText_toList s, rfl, by decide⟩
  | array each => exact ⟨'[', _, by rw [text, String.toList_append, String.toList_append]; rfl,
      rfl, by decide⟩
  | object each => exact ⟨'\x7b', _, by rw [text, String.toList_append, String.toList_append]; rfl,
      rfl, by decide⟩

theorem skipSpace_cons {c : Char} (filled : isSpace c = false) (cs : List Char) :
    skipSpace (c :: cs) = c :: cs := by
  rw [skipSpace, List.dropWhile_cons, filled]
  rfl

theorem readBack_string (s : String) : ReadBack (.string s) := by
  intro fuel depth rest enough closes
  have shape : (Json.string s).text.toList ++ rest =
      '"' :: (escapedChars s.toList ++ '"' :: rest) := by
    rw [text, stringText_toList]
    simp
  have filled : (Json.string s).text.toList.length ≠ 0 := by
    rw [text, stringText_toList]
    simp
  cases fuel with
  | zero => omega
  | succ fuel =>
    rw [shape, readValue?, skipSpace_cons (by decide)]
    simp only [readString?_text, Option.map_some, Json.depth, Nat.zero_le, if_true]

theorem readBack_whole {i : Int} (fits : IntRange.signed64.holds i) :
    ReadBack (.number (.whole i)) := by
  intro fuel depth rest enough closes
  obtain ⟨c, cs, shape, mark⟩ := intText_head i
  have read := JsonNumber.readNumber?_whole fits closes
  have filled : isSpace c = false := by
    obtain ⟨d, ds, same, filled, -⟩ := (Legible.whole fits).text_head
    rw [text, JsonNumber.text, shape] at same
    cases same
    exact filled
  have numeric : (c = '-' || c.isDigit) = true := by simpa using mark
  rw [text, JsonNumber.text] at enough ⊢
  rw [shape, List.cons_append] at read
  rw [shape, List.length_cons] at enough
  rw [shape, List.cons_append]
  cases fuel with
  | zero => omega
  | succ fuel =>
    unfold readValue?
    rw [skipSpace_cons filled]
    split
    case h_1 same => cases same
    case h_8 _ _ _ _ _ _ same =>
      cases same
      rw [if_pos numeric, read]
      simp [Json.depth]
    all_goals
      rename_i same
      cases same
      rcases mark with mark | mark <;> cases mark

/-! ## Arrays and objects -/

theorem itemsText_cons_cons (j k : Json) (rest : List Json) :
    (itemsText (j :: k :: rest)).toList =
      j.text.toList ++ ',' :: (itemsText (k :: rest)).toList := by
  simp [itemsText]

theorem closesValue_cons {c : Char} (closing : c = ',' ∨ c = ']' ∨ c = '\x7d') (rest : List Char) :
    ClosesValue (c :: rest) := by
  rintro d ⟨⟩
  exact closing

theorem skipSpace_closing {c : Char} (closing : c = ',' ∨ c = ']' ∨ c = '\x7d')
    (rest : List Char) : skipSpace (c :: rest) = c :: rest := by
  rcases closing with rfl | rfl | rfl <;> exact skipSpace_cons rfl rest

theorem readItems?_last {j : Json} (back : ReadBack j) {fuel depth : Nat} (rest : List Char)
    (enough : 2 * j.text.toList.length ≤ fuel) :
    readItems? (fuel + 1) depth (j.text.toList ++ ']' :: rest) =
      if j.depth ≤ depth then some ([j], rest) else none := by
  have closing : ']' = ',' ∨ ']' = ']' ∨ ']' = '\x7d' := .inr (.inl rfl)
  rw [readItems?, back enough (closesValue_cons closing rest)]
  split_ifs
  · simp only [skipSpace_closing closing]
  · rfl

theorem readItems?_more {j : Json} (back : ReadBack j) {fuel depth : Nat} (cs : List Char)
    (enough : 2 * j.text.toList.length ≤ fuel) :
    readItems? (fuel + 1) depth (j.text.toList ++ ',' :: cs) =
      if j.depth ≤ depth then (readItems? fuel depth cs).map fun r => (j :: r.1, r.2)
      else none := by
  have closing : ',' = ',' ∨ ',' = ']' ∨ ',' = '\x7d' := .inl rfl
  rw [readItems?, back enough (closesValue_cons closing cs)]
  split_ifs
  · simp only [skipSpace_closing closing]
  · rfl

/-- Items are read back if none of them is too deep. -/
theorem readItems?_text {items : List Json} (each : ∀ j ∈ items, ReadBack j) (some_item : items ≠ [])
    {fuel depth : Nat} (rest : List Char) (enough : 2 * (itemsText items).toList.length + 1 ≤ fuel) :
    readItems? fuel depth ((itemsText items).toList ++ ']' :: rest) =
      if itemsDepth items ≤ depth then some (items, rest) else none := by
  induction items generalizing fuel with
  | nil => exact absurd rfl some_item
  | cons j others ih =>
    obtain ⟨first, remaining⟩ := List.forall_mem_cons.mp each
    obtain ⟨fuel, rfl⟩ : ∃ n, fuel = n + 1 := ⟨fuel - 1, by omega⟩
    cases others with
    | nil =>
      rw [itemsText] at enough ⊢
      rw [readItems?_last first rest (by omega), itemsDepth, itemsDepth, Nat.max_zero]
    | cons k others =>
      rw [itemsText_cons_cons] at enough ⊢
      rw [List.length_append, List.length_cons] at enough
      have next := @ih remaining (List.cons_ne_nil _ _) fuel (by omega)
      have both : itemsDepth (j :: k :: others) ≤ depth ↔
          j.depth ≤ depth ∧ itemsDepth (k :: others) ≤ depth := Nat.max_le
      rw [List.append_assoc, List.cons_append, readItems?_more first _ (by omega), next]
      simp only [both, ite_and]
      split_ifs <;> rfl

/-- The text of a member up to its value. -/
def memberHead (name : String) : List Char := '"' :: (escapedChars name.toList ++ ['"', ':'])

theorem membersText_singleton (name : String) (j : Json) :
    (membersText [(name, j)]).toList = memberHead name ++ j.text.toList := by
  simp [membersText, memberHead, stringText_toList]

theorem membersText_cons_cons (name : String) (j : Json) (m : String × Json)
    (rest : List (String × Json)) :
    (membersText ((name, j) :: m :: rest)).toList =
      memberHead name ++ (j.text.toList ++ ',' :: (membersText (m :: rest)).toList) := by
  simp [membersText, memberHead, stringText_toList]

theorem readName?_text (name : String) (rest : List Char) :
    let after := escapedChars name.toList ++ ['"', ':'] ++ rest
    readString? (after.length + 1) [] after = some (name, ':' :: rest) := by
  have shape : escapedChars name.toList ++ ['"', ':'] ++ rest =
      escapedChars name.toList ++ '"' :: (':' :: rest) := by simp
  intro after
  simp only [after, shape]
  exact readString?_text name (':' :: rest)

theorem readMembers?_last (name : String) {j : Json} (back : ReadBack j) {fuel depth : Nat}
    (rest : List Char) (enough : 2 * j.text.toList.length ≤ fuel) :
    readMembers? (fuel + 1) depth (memberHead name ++ (j.text.toList ++ '\x7d' :: rest)) =
      if j.depth ≤ depth then some ([(name, j)], rest) else none := by
  have closing : '\x7d' = ',' ∨ '\x7d' = ']' ∨ '\x7d' = '\x7d' := .inr (.inr rfl)
  have quote : isSpace '"' = false := rfl
  have colon : isSpace ':' = false := rfl
  rw [memberHead, List.cons_append, readMembers?, skipSpace_cons quote]
  simp only [readName?_text, skipSpace_cons colon, back enough (closesValue_cons closing rest)]
  split_ifs
  · simp only [skipSpace_closing closing]
  · rfl

theorem readMembers?_more (name : String) {j : Json} (back : ReadBack j) {fuel depth : Nat}
    (cs : List Char) (enough : 2 * j.text.toList.length ≤ fuel) :
    readMembers? (fuel + 1) depth (memberHead name ++ (j.text.toList ++ ',' :: cs)) =
      if j.depth ≤ depth then (readMembers? fuel depth cs).map fun r => ((name, j) :: r.1, r.2)
      else none := by
  have closing : ',' = ',' ∨ ',' = ']' ∨ ',' = '\x7d' := .inl rfl
  have quote : isSpace '"' = false := rfl
  have colon : isSpace ':' = false := rfl
  rw [memberHead, List.cons_append, readMembers?, skipSpace_cons quote]
  simp only [readName?_text, skipSpace_cons colon, back enough (closesValue_cons closing cs)]
  split_ifs
  · simp only [skipSpace_closing closing]
  · rfl

/-- Members are read back if the value of none of them is too deep. -/
theorem readMembers?_text {members : List (String × Json)} (each : ∀ m ∈ members, ReadBack m.2)
    (some_member : members ≠ []) {fuel depth : Nat} (rest : List Char)
    (enough : 2 * (membersText members).toList.length + 1 ≤ fuel) :
    readMembers? fuel depth ((membersText members).toList ++ '\x7d' :: rest) =
      if membersDepth members ≤ depth then some (members, rest) else none := by
  induction members generalizing fuel with
  | nil => exact absurd rfl some_member
  | cons m others ih =>
    obtain ⟨name, j⟩ := m
    obtain ⟨first, remaining⟩ : ReadBack j ∧ ∀ m ∈ others, ReadBack m.2 :=
      List.forall_mem_cons.mp each
    obtain ⟨fuel, rfl⟩ : ∃ n, fuel = n + 1 := ⟨fuel - 1, by omega⟩
    cases others with
    | nil =>
      rw [membersText_singleton] at enough ⊢
      rw [List.length_append] at enough
      rw [List.append_assoc, readMembers?_last name first rest (by omega), membersDepth, membersDepth,
        Nat.max_zero]
    | cons m others =>
      rw [membersText_cons_cons] at enough ⊢
      rw [List.length_append, List.length_append, List.length_cons] at enough
      have next := @ih remaining (List.cons_ne_nil _ _) fuel (by omega)
      have both : membersDepth ((name, j) :: m :: others) ≤ depth ↔
          j.depth ≤ depth ∧ membersDepth (m :: others) ≤ depth := Nat.max_le
      rw [List.append_assoc, List.append_assoc, List.cons_append,
        readMembers?_more name first _ (by omega), next]
      simp only [both, ite_and]
      split_ifs <;> rfl

theorem itemsText_head {j : Json} (legible : Legible j) (others : List Json) :
    ∃ c cs, (itemsText (j :: others)).toList = c :: cs ∧ isSpace c = false ∧ c ≠ ']' := by
  obtain ⟨c, cs, shape, filled, other⟩ := legible.text_head
  cases others with
  | nil => exact ⟨c, cs, shape, filled, other⟩
  | cons k others =>
    refine ⟨c, cs ++ ',' :: (itemsText (k :: others)).toList, ?_, filled, other⟩
    rw [itemsText_cons_cons, shape, List.cons_append]

theorem readBack_array {items : List Json} (legible : ∀ j ∈ items, Legible j)
    (each : ∀ j ∈ items, ReadBack j) : ReadBack (.array items) := by
  intro fuel depth rest enough closes
  have shape : (Json.array items).text.toList ++ rest =
      '[' :: ((itemsText items).toList ++ ']' :: rest) := by simp [text]
  have longer : (Json.array items).text.toList.length = (itemsText items).toList.length + 2 := by
    simp [text]
  rw [longer] at enough
  rw [shape, Json.depth]
  cases fuel with
  | zero => omega
  | succ fuel =>
    rw [readValue?, skipSpace_cons rfl]
    cases depth with
    | zero => rfl
    | succ depth =>
      simp only [Nat.succ_ne_zero, if_false, Nat.add_sub_cancel, Nat.add_le_add_iff_right]
      cases items with
      | nil =>
        simp [itemsText, itemsDepth, skipSpace_closing]
      | cons j others =>
        have read : readItems? fuel depth ((itemsText (j :: others)).toList ++ ']' :: rest) = _ :=
          readItems?_text each (List.cons_ne_nil _ _) rest (by omega)
        obtain ⟨c, cs, starts, filled, other⟩ :=
          itemsText_head (legible j (List.mem_cons_self ..)) others
        rw [starts, List.cons_append] at read ⊢
        rw [skipSpace_cons filled]
        split
        · rename_i same
          cases same
          exact absurd rfl other
        · rw [read]
          split <;> rfl

theorem membersText_head (m : String × Json) (others : List (String × Json)) :
    ∃ cs, (membersText (m :: others)).toList = '"' :: cs := by
  obtain ⟨name, j⟩ := m
  cases others with
  | nil => exact ⟨_, membersText_singleton name j⟩
  | cons m others => exact ⟨_, membersText_cons_cons name j m others⟩

theorem object_text (members : List (String × Json)) (rest : List Char) :
    (Json.object members).text.toList ++ rest =
      '\x7b' :: ((membersText members).toList ++ '\x7d' :: rest) := by
  simp [text]

theorem readBack_object {members : List (String × Json)} (each : ∀ m ∈ members, ReadBack m.2) :
    ReadBack (.object members) := by
  intro fuel depth rest enough closes
  have longer : (Json.object members).text.toList.length =
      (membersText members).toList.length + 2 := by simp [text]
  rw [longer] at enough
  rw [object_text, Json.depth]
  cases fuel with
  | zero => omega
  | succ fuel =>
    rw [readValue?, skipSpace_cons rfl]
    cases depth with
    | zero => rfl
    | succ depth =>
      simp only [Nat.succ_ne_zero, if_false, Nat.add_sub_cancel, Nat.add_le_add_iff_right]
      cases members with
      | nil =>
        simp [membersText, membersDepth, skipSpace_closing]
      | cons m others =>
        have read : readMembers? fuel depth
            ((membersText (m :: others)).toList ++ '\x7d' :: rest) = _ :=
          readMembers?_text each (List.cons_ne_nil _ _) rest (by omega)
        obtain ⟨cs, starts⟩ := membersText_head m others
        rw [starts, List.cons_append] at read ⊢
        rw [skipSpace_cons rfl]
        split
        · rename_i same
          cases same
        · rw [read]
          split <;> rfl

/-- A value is read back if the reader may go as deep as it is, and refused otherwise. -/
theorem Legible.readBack {j : Json} (legible : Legible j) : ReadBack j := by
  induction legible with
  | null =>
    intro fuel depth rest enough closes
    cases fuel with
    | zero => cases enough
    | succ fuel => rfl
  | bool b =>
    intro fuel depth rest enough closes
    cases fuel with
    | zero => cases b <;> cases enough
    | succ fuel => cases b <;> rfl
  | whole fits => exact readBack_whole fits
  | string s => exact readBack_string s
  | array legible ih => exact readBack_array legible ih
  | object _ ih => exact readBack_object ih

/-! ## Records -/

theorem readWanted?_text {names : List String} {name : String} (wanted : name ∈ names) {j : Json}
    (back : ReadBack j) {rest : List Char} (closes : ClosesValue rest) :
    readWanted? names name (j.text.toList ++ rest) =
      if j.depth ≤ maxDepth - 1 then some (some j, rest) else none := by
  have enough : 2 * j.text.toList.length ≤ fuelFor (j.text.toList ++ rest) := by
    simp only [fuelFor, List.length_append]
    omega
  rw [readWanted?, if_pos (List.contains_iff_mem.mpr wanted), back enough closes]
  split <;> rfl

theorem readWantedMembers?_last {names : List String} {name : String} (wanted : name ∈ names)
    {j : Json} (back : ReadBack j) (fuel : Nat) (rest : List Char) :
    readWantedMembers? names (fuel + 1) (memberHead name ++ (j.text.toList ++ '\x7d' :: rest)) =
      if j.depth ≤ maxDepth - 1 then some ([(name, j)], rest) else none := by
  have closing : '\x7d' = ',' ∨ '\x7d' = ']' ∨ '\x7d' = '\x7d' := .inr (.inr rfl)
  have quote : isSpace '"' = false := rfl
  have colon : isSpace ':' = false := rfl
  rw [memberHead, List.cons_append, readWantedMembers?, skipSpace_cons quote]
  simp only [readName?_text, skipSpace_cons colon, Option.bind_eq_bind, Option.bind_some,
    readWanted?_text wanted back (closesValue_cons closing rest)]
  split_ifs
  · simp only [skipSpace_closing closing, Option.bind_some]
    rfl
  · rfl

theorem readWantedMembers?_more {names : List String} {name : String} (wanted : name ∈ names)
    {j : Json} (back : ReadBack j) (fuel : Nat) (cs : List Char) :
    readWantedMembers? names (fuel + 1) (memberHead name ++ (j.text.toList ++ ',' :: cs)) =
      if j.depth ≤ maxDepth - 1 then
        (readWantedMembers? names fuel cs).bind fun r => some ((name, j) :: r.1, r.2)
      else none := by
  have closing : ',' = ',' ∨ ',' = ']' ∨ ',' = '\x7d' := .inl rfl
  have quote : isSpace '"' = false := rfl
  have colon : isSpace ':' = false := rfl
  rw [memberHead, List.cons_append, readWantedMembers?, skipSpace_cons quote]
  simp only [readName?_text, skipSpace_cons colon, Option.bind_eq_bind, Option.bind_some,
    readWanted?_text wanted back (closesValue_cons closing cs)]
  split_ifs
  · simp only [skipSpace_closing closing, Option.bind_some]
    rfl
  · rfl

/-- Members that are all wanted are read back if the value of none of them is too deep. -/
theorem readWantedMembers?_text {names : List String} {members : List (String × Json)}
    (wanted : ∀ m ∈ members, m.1 ∈ names) (each : ∀ m ∈ members, ReadBack m.2)
    (some_member : members ≠ []) {fuel : Nat} (rest : List Char)
    (enough : (membersText members).toList.length ≤ fuel) :
    readWantedMembers? names fuel ((membersText members).toList ++ '\x7d' :: rest) =
      if membersDepth members ≤ maxDepth - 1 then some (members, rest) else none := by
  induction members generalizing fuel with
  | nil => exact absurd rfl some_member
  | cons m others ih =>
    obtain ⟨name, j⟩ := m
    obtain ⟨first, remaining⟩ : ReadBack j ∧ ∀ m ∈ others, ReadBack m.2 :=
      List.forall_mem_cons.mp each
    obtain ⟨asked, asked_others⟩ : name ∈ names ∧ ∀ m ∈ others, m.1 ∈ names :=
      List.forall_mem_cons.mp wanted
    have filled : 0 < (memberHead name).length := Nat.succ_pos _
    cases others with
    | nil =>
      rw [membersText_singleton] at enough ⊢
      rw [List.length_append] at enough
      obtain ⟨fuel, rfl⟩ : ∃ n, fuel = n + 1 := ⟨fuel - 1, by omega⟩
      rw [List.append_assoc, readWantedMembers?_last asked first, membersDepth, membersDepth,
        Nat.max_zero]
    | cons m others =>
      rw [membersText_cons_cons] at enough ⊢
      rw [List.length_append, List.length_append, List.length_cons] at enough
      obtain ⟨fuel, rfl⟩ : ∃ n, fuel = n + 1 := ⟨fuel - 1, by omega⟩
      have next := @ih asked_others remaining (List.cons_ne_nil _ _) fuel (by omega)
      have both : membersDepth ((name, j) :: m :: others) ≤ maxDepth - 1 ↔
          j.depth ≤ maxDepth - 1 ∧ membersDepth (m :: others) ≤ maxDepth - 1 := Nat.max_le
      rw [List.append_assoc, List.append_assoc, List.cons_append,
        readWantedMembers?_more asked first, next]
      simp only [both, ite_and]
      split_ifs <;> rfl

/-- An object whose members are all wanted is read back if it is not too deep, and refused
otherwise. -/
theorem readRecord?_text {names : List String} {members : List (String × Json)}
    (wanted : ∀ m ∈ members, m.1 ∈ names) (legible : Legible (.object members)) :
    readRecord? names (Json.object members).text =
      if (Json.object members).depth ≤ maxDepth then some (.object members) else none := by
  have each : ∀ m ∈ members, ReadBack m.2 := by
    cases legible with
    | object each => exact fun m mem => (each m mem).readBack
  have shape := object_text members []
  rw [List.append_nil] at shape
  rw [readRecord?, shape, skipSpace_cons rfl]
  cases members with
  | nil => rfl
  | cons m others =>
    have enough : (membersText (m :: others)).toList.length ≤
        fuelFor ((membersText (m :: others)).toList ++ ['\x7d']) := by
      simp only [fuelFor, List.length_append]
      omega
    have read := readWantedMembers?_text wanted each (List.cons_ne_nil _ _) [] enough
    have depth_le : (Json.object (m :: others)).depth ≤ maxDepth ↔
        membersDepth (m :: others) ≤ maxDepth - 1 := by
      rw [Json.depth, maxDepth]
      omega
    obtain ⟨cs, starts⟩ := membersText_head m others
    rw [starts, List.cons_append] at read ⊢
    have quote : isSpace '"' = false := rfl
    simp only [skipSpace_cons quote, depth_le]
    split
    · rename_i same
      cases same
    · rw [read]
      split <;> rfl

end Json

end DocStore
