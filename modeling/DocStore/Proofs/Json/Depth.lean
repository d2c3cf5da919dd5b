import DocStore.Json.Outline

/-!
# How deep JSON is nested

The reader bounds how many arrays and objects stand around a value, and so how deep what it reads is
nested.

* `Json.induction`: induction over JSON values;
* `Json.depth`: how many arrays and objects are nested in each other;
* `Json.depth_of_readValue?`: a value is no deeper than the reader was allowed to go;
* `Json.depth_of_readRecord?`: nor is a record.
-/

namespace DocStore.Json

/-- Induction over JSON values. -/
@[induction_eliminator]
theorem induction {motive : Json → Prop} (null : motive .null)
    (bool : ∀ b, motive (.bool b)) (number : ∀ n, motive (.number n))
    (string : ∀ s, motive (.string s))
    (array : ∀ items, (∀ j ∈ items, motive j) → motive (.array items))
    (object : ∀ members, (∀ m ∈ members, motive m.2) → motive (.object members)) (j : Json) :
    motive j :=
  @Json.rec motive (fun items => ∀ j ∈ items, motive j) (fun members => ∀ m ∈ members, motive m.2)
    (fun m => motive m.2) null bool number string array object (fun _ h => nomatch h)
    (fun _ _ head tail => List.forall_mem_cons.mpr ⟨head, tail⟩) (fun _ h => nomatch h)
    (fun _ _ head tail => List.forall_mem_cons.mpr ⟨head, tail⟩) (fun _ _ value => value) j

mutual

/-- How many arrays and objects are nested in each other, the value itself among them. -/
def depth : Json → Nat
  | .array items => itemsDepth items + 1
  | .object members => membersDepth members + 1
  | .null => 0
  | .bool _ => 0
  | .number _ => 0
  | .string _ => 0

/-- The greatest depth of some items. -/
def itemsDepth : List Json → Nat
  | [] => 0
  | j :: rest => max (depth j) (itemsDepth rest)

/-- The greatest depth of the values of some members. -/
def membersDepth : List (String × Json) → Nat
  | [] => 0
  | (_, j) :: rest => max (depth j) (membersDepth rest)

end

theorem itemsDepth_le_iff {items : List Json} {n : Nat} :
    itemsDepth items ≤ n ↔ ∀ j ∈ items, j.depth ≤ n := by
  induction items with
  | nil => simp [itemsDepth]
  | cons j rest ih => simp only [itemsDepth, Nat.max_le, ih, List.forall_mem_cons]

theorem membersDepth_le_iff {members : List (String × Json)} {n : Nat} :
    membersDepth members ≤ n ↔ ∀ m ∈ members, m.2.depth ≤ n := by
  induction members with
  | nil => simp [membersDepth]
  | cons m rest ih => simp only [membersDepth, Nat.max_le, ih, List.forall_mem_cons]

theorem membersDepth_append (xs ys : List (String × Json)) :
    membersDepth (xs ++ ys) = max (membersDepth xs) (membersDepth ys) := by
  induction xs with
  | nil => simp [membersDepth]
  | cons m rest ih => simp only [List.cons_append, membersDepth, ih, Nat.max_assoc]

/-! ## What is read -/

/-- Whether what is read with some fuel is no deeper than allowed. -/
structure ReadsWithin (fuel : Nat) : Prop where
  value : ∀ {depth cs j rest}, readValue? fuel depth cs = some (j, rest) → j.depth ≤ depth
  items : ∀ {depth cs items rest}, readItems? fuel depth cs = some (items, rest) →
    itemsDepth items ≤ depth
  members : ∀ {depth cs members rest}, readMembers? fuel depth cs = some (members, rest) →
    membersDepth members ≤ depth

theorem ReadsWithin.value_succ {fuel : Nat} (within : ReadsWithin fuel) {depth : Nat}
    {cs : List Char} {j : Json} {rest : List Char}
    (h : readValue? (fuel + 1) depth cs = some (j, rest)) : j.depth ≤ depth := by
  have inside {n : Nat} (open_ : depth ≠ 0) (few : n ≤ depth - 1) : n + 1 ≤ depth := by omega
  unfold readValue? at h
  split at h
  case h_1 => cases h
  case h_2 | h_3 | h_4 | h_5 =>
    obtain ⟨_, -, same⟩ := Option.map_eq_some_iff.mp h
    cases same
    exact Nat.zero_le _
  case h_6 =>
    split at h
    · cases h
    · rename_i open_
      split at h
      · cases h
        exact inside open_ (Nat.zero_le _)
      · obtain ⟨_, read, same⟩ := Option.map_eq_some_iff.mp h
        cases same
        exact inside open_ (within.items read)
  case h_7 =>
    split at h
    · cases h
    · rename_i open_
      split at h
      · cases h
        exact inside open_ (Nat.zero_le _)
      · obtain ⟨_, read, same⟩ := Option.map_eq_some_iff.mp h
        cases same
        exact inside open_ (within.members read)
  case h_8 =>
    split at h
    · obtain ⟨_, -, same⟩ := Option.map_eq_some_iff.mp h
      cases same
      exact Nat.zero_le _
    · cases h

theorem ReadsWithin.items_succ {fuel : Nat} (within : ReadsWithin fuel) {depth : Nat}
    {cs : List Char} {items : List Json} {rest : List Char}
    (h : readItems? (fuel + 1) depth cs = some (items, rest)) : itemsDepth items ≤ depth := by
  unfold readItems? at h
  split at h
  · cases h
  · rename_i item _ read
    have first := within.value read
    split at h
    · obtain ⟨_, others, same⟩ := Option.map_eq_some_iff.mp h
      cases same
      exact Nat.max_le.mpr ⟨first, within.items others⟩
    · cases h
      exact Nat.max_le.mpr ⟨first, Nat.zero_le _⟩
    · cases h

theorem ReadsWithin.members_succ {fuel : Nat} (within : ReadsWithin fuel) {depth : Nat}
    {cs : List Char} {members : List (String × Json)} {rest : List Char}
    (h : readMembers? (fuel + 1) depth cs = some (members, rest)) :
    membersDepth members ≤ depth := by
  unfold readMembers? at h
  split at h
  · split at h
    · cases h
    · split at h
      · split at h
        · cases h
        · rename_i read
          have first := within.value read
          split at h
          · obtain ⟨_, others, same⟩ := Option.map_eq_some_iff.mp h
            cases same
            exact Nat.max_le.mpr ⟨first, within.members others⟩
          · cases h
            exact Nat.max_le.mpr ⟨first, Nat.zero_le _⟩
          · cases h
      · cases h
  · cases h

theorem readsWithin (fuel : Nat) : ReadsWithin fuel := by
  induction fuel with
  | zero => exact ⟨nofun, nofun, nofun⟩
  | succ fuel ih => exact ⟨ih.value_succ, ih.items_succ, ih.members_succ⟩

/-- A value is no deeper than the reader was allowed to go. -/
theorem depth_of_readValue? {fuel depth : Nat} {cs : List Char} {j : Json} {rest : List Char}
    (h : readValue? fuel depth cs = some (j, rest)) : j.depth ≤ depth :=
  (readsWithin fuel).value h

theorem wholeText?_eq_some {α : Type} {result : Option (α × List Char)} {a : α}
    (h : wholeText? result = some a) : ∃ rest, result = some (a, rest) := by
  obtain ⟨⟨_, rest⟩, read, same⟩ := Option.bind_eq_some_iff.mp h
  split at same
  · cases same
    exact ⟨rest, read⟩
  · cases same

theorem depth_of_readWanted? {names : List String} {name : String} {cs : List Char}
    {value : Option Json} {rest : List Char}
    (h : readWanted? names name cs = some (value, rest)) :
    membersDepth (value.toList.map fun value => (name, value)) ≤ maxDepth - 1 := by
  unfold readWanted? at h
  split at h
  · obtain ⟨_, read, same⟩ := Option.map_eq_some_iff.mp h
    cases same
    exact Nat.max_le.mpr ⟨depth_of_readValue? read, Nat.zero_le _⟩
  · obtain ⟨_, -, same⟩ := Option.map_eq_some_iff.mp h
    cases same
    exact Nat.zero_le _

theorem depth_of_readWantedMembers? {names : List String} {fuel : Nat} {cs : List Char}
    {members : List (String × Json)} {rest : List Char}
    (h : readWantedMembers? names fuel cs = some (members, rest)) :
    membersDepth members ≤ maxDepth - 1 := by
  induction fuel generalizing cs members rest with
  | zero => cases h
  | succ fuel ih =>
    unfold readWantedMembers? at h
    split at h
    · obtain ⟨⟨name, _⟩, -, h⟩ := Option.bind_eq_some_iff.mp h
      simp only at h
      split at h
      · obtain ⟨⟨value, _⟩, wanted, h⟩ := Option.bind_eq_some_iff.mp h
        have first := depth_of_readWanted? wanted
        simp only at h
        split at h
        · obtain ⟨⟨others, _⟩, read, same⟩ := Option.bind_eq_some_iff.mp h
          cases same
          rw [membersDepth_append]
          exact Nat.max_le.mpr ⟨first, ih read⟩
        · cases h
          exact first
        · cases h
      · cases h
    · cases h

/-- A record is no deeper than the reader may go. -/
theorem depth_of_readRecord? {names : List String} {s : String} {j : Json}
    (h : readRecord? names s = some j) : j.depth ≤ maxDepth := by
  unfold readRecord? at h
  split at h
  · split at h
    · obtain ⟨_, same⟩ := wholeText?_eq_some h
      cases same
      decide
    · obtain ⟨members, read, rfl⟩ := Option.map_eq_some_iff.mp h
      obtain ⟨_, read⟩ := wholeText?_eq_some read
      exact Nat.succ_le_succ (depth_of_readWantedMembers? read)
  · obtain ⟨_, read⟩ := wholeText?_eq_some h
    exact depth_of_readValue? read

end DocStore.Json
