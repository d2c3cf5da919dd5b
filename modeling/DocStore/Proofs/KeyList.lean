import DocStore.KeyList
import Mathlib.Order.Compare

/-!
# Finite maps as ordered lists

Lists in strictly increasing key order are finite maps: what is found under each key settles the
list.  Putting a value under a key and leaving out entries keep the order, and what is found
afterwards is told by what was found before.

* `KeyList.Ordered`: strictly increasing keys;
* `KeyList.find?_insert`, `KeyList.Ordered.find?_filter`, `KeyList.find?_mapped`: what is found
  after a change;
* `KeyList.Ordered.ext`: ordered lists in which the same is found are the same;
* `KeyList.Ordered.ofList_eq`: an ordered list is the map of its own entries.
-/

namespace DocStore.KeyList

variable {κ α β : Type}

/-! ## Finding -/

section

variable [BEq κ]

theorem find?_nil (q : κ) : find? q ([] : List (κ × α)) = none := rfl

theorem find?_cons (q : κ) (entry : κ × α) (rest : List (κ × α)) :
    find? q (entry :: rest) = if q == entry.1 then some entry.2 else find? q rest := by
  obtain ⟨k, v⟩ := entry
  rw [find?, List.lookup_cons]
  cases q == k <;> rfl

/-- What is found under a key is there. -/
theorem mem_of_find? [LawfulBEq κ] {q : κ} {v : α} {entries : List (κ × α)}
    (found : find? q entries = some v) : (q, v) ∈ entries := by
  obtain ⟨before, after, rfl, -⟩ := List.lookup_eq_some_iff.mp found
  exact List.mem_append_right _ List.mem_cons_self

theorem find?_mapped (f : α → β) (q : κ) (entries : List (κ × α)) :
    find? q (entries.map fun entry => (entry.1, f entry.2)) = (find? q entries).map f := by
  induction entries with
  | nil => rfl
  | cons first rest ih =>
    rw [List.map_cons, find?_cons, find?_cons, ih]
    split <;> rfl

end

/-! ## Ordered lists -/

variable [Ord κ]

/-- Whether the keys of some entries strictly increase. -/
def Ordered (entries : List (κ × α)) : Prop := entries.Pairwise fun a b => compare a.1 b.1 = .lt

theorem ne_of_compare [Std.LawfulEqOrd κ] {a b : κ} (order : compare a b ≠ .eq) : a ≠ b := by
  rintro rfl
  exact order Std.compare_self

theorem eq_or_mem_of_mem_insert {k : κ} {v : α} {entries : List (κ × α)} {entry : κ × α}
    (mem : entry ∈ insert k v entries) : entry = (k, v) ∨ entry ∈ entries := by
  induction entries with
  | nil => exact .inl (List.mem_singleton.mp mem)
  | cons first rest ih =>
    simp only [insert] at mem
    split at mem
    · exact List.mem_cons.mp mem
    · exact (List.mem_cons.mp mem).imp_right (List.mem_cons_of_mem _)
    · rcases List.mem_cons.mp mem with rfl | mem
      · exact .inr List.mem_cons_self
      · exact (ih mem).imp_right (List.mem_cons_of_mem _)

theorem Ordered.insert [Std.TransOrd κ] [Std.LawfulEqOrd κ] {entries : List (κ × α)}
    (ordered : Ordered entries) (k : κ) (v : α) : Ordered (KeyList.insert k v entries) := by
  induction entries with
  | nil => exact List.pairwise_singleton ..
  | cons first rest ih =>
    obtain ⟨before, ordered⟩ := List.pairwise_cons.mp ordered
    simp only [KeyList.insert]
    split
    · next less =>
      apply List.Pairwise.cons
      · intro entry mem
        rcases List.mem_cons.mp mem with rfl | mem
        · exact less
        · exact Std.TransCmp.lt_trans less (before entry mem)
      · exact .cons before ordered
    · next same =>
      rw [Std.LawfulEqOrd.eq_of_compare same]
      exact .cons before ordered
    · next greater =>
      apply List.Pairwise.cons
      · intro entry mem
        rcases eq_or_mem_of_mem_insert mem with rfl | mem
        · exact Std.OrientedCmp.lt_of_gt greater
        · exact before entry mem
      · exact ih ordered

theorem Ordered.filter {entries : List (κ × α)} (ordered : Ordered entries)
    (test : κ × α → Bool) : Ordered (entries.filter test) :=
  List.Pairwise.filter test ordered

/-- Changing values leaves the keys in order. -/
theorem Ordered.mapped {entries : List (κ × α)} (ordered : Ordered entries) (f : α → β) :
    Ordered (entries.map fun entry => (entry.1, f entry.2)) :=
  List.pairwise_map.mpr ordered

/-- Changing values commutes with putting a value under a key. -/
theorem mapped_insert (f : α → β) (k : κ) (v : α) (entries : List (κ × α)) :
    (insert k v entries).map (fun entry => (entry.1, f entry.2)) =
      insert k (f v) (entries.map fun entry => (entry.1, f entry.2)) := by
  induction entries with
  | nil => rfl
  | cons first rest ih =>
    simp only [insert, List.map_cons]
    split
    · rfl
    · rfl
    · rw [List.map_cons, ih]

theorem Ordered.keys_nodup [Std.LawfulEqOrd κ] {entries : List (κ × α)}
    (ordered : Ordered entries) : (entries.map (·.1)).Nodup := by
  apply List.pairwise_map.mpr
  apply ordered.imp
  intro a b less
  exact ne_of_compare (by simp [less])

theorem Ordered.nodup [Std.LawfulEqOrd κ] {entries : List (κ × α)} (ordered : Ordered entries) :
    entries.Nodup := by
  apply List.Pairwise.of_map Prod.fst _ ordered.keys_nodup
  intro a b different same
  exact different (congrArg Prod.fst same)

section

variable [BEq κ] [LawfulBEq κ] [Std.LawfulEqOrd κ]

theorem Ordered.find?_eq_some_iff {entries : List (κ × α)}
    (ordered : Ordered entries) {q : κ} {v : α} :
    find? q entries = some v ↔ (q, v) ∈ entries := by
  constructor
  · exact mem_of_find?
  intro mem
  induction entries with
  | nil => cases mem
  | cons first rest ih =>
    obtain ⟨before, ordered⟩ := List.pairwise_cons.mp ordered
    rw [find?_cons]
    rcases List.mem_cons.mp mem with rfl | mem
    · simp
    · have less := before _ mem
      have different : first.1 ≠ q := ne_of_compare (by simp [less])
      rw [if_neg (by simpa using different.symm)]
      exact ih ordered mem

/-- Putting a value under a key changes what is found there and nowhere else. -/
theorem find?_insert (q k : κ) (v : α) (entries : List (κ × α)) :
    find? q (insert k v entries) = if q == k then some v else find? q entries := by
  induction entries with
  | nil => exact find?_cons q (k, v) []
  | cons first rest ih =>
    simp only [insert]
    split
    · exact find?_cons ..
    · next same =>
      rw [find?_cons, find?_cons, Std.LawfulEqOrd.eq_of_compare same]
      split <;> rfl
    · next greater =>
      rw [find?_cons, find?_cons, ih]
      by_cases here : q = first.1
      · have different : k ≠ first.1 := ne_of_compare (by simp [greater])
        simp [here, different.symm]
      · simp [here]

/-- Of the entries that pass a test, the one under a key is what it was if it passes. -/
theorem Ordered.find?_filter {entries : List (κ × α)}
    (ordered : Ordered entries) (test : κ × α → Bool) (q : κ) :
    find? q (entries.filter test) = (find? q entries).filter fun v => test (q, v) := by
  ext v
  rw [(ordered.filter test).find?_eq_some_iff, List.mem_filter, Option.filter_eq_some_iff,
    ordered.find?_eq_some_iff]

/-- Ordered lists in which the same is found under every key are the same. -/
theorem Ordered.ext [Std.TransOrd κ] {a b : List (κ × α)} (ha : Ordered a)
    (hb : Ordered b) (same : ∀ q, find? q a = find? q b) : a = b := by
  have perm : a.Perm b := by
    apply (List.perm_ext_iff_of_nodup ha.nodup hb.nodup).mpr
    intro entry
    rw [← ha.find?_eq_some_iff, ← hb.find?_eq_some_iff, same]
  apply perm.eq_of_pairwise _ ha hb
  intro x y _ _ less greater
  rw [Std.OrientedOrd.eq_swap, greater] at less
  cases less

/-- What fails a test need not be there when a value is put under a key and the test comes after. -/
theorem Ordered.filter_insert [Std.TransOrd κ] {entries : List (κ × α)} (ordered : Ordered entries)
    (test : κ × α → Bool) (k : κ) (v : α) :
    (KeyList.insert k v (entries.filter test)).filter test =
      (KeyList.insert k v entries).filter test := by
  have kept := (ordered.filter test).insert k v
  apply (kept.filter test).ext ((ordered.insert k v).filter test)
  intro q
  rw [kept.find?_filter, (ordered.insert k v).find?_filter, find?_insert, find?_insert,
    ordered.find?_filter]
  split
  · rfl
  · rw [Option.filter_filter]
    simp only [Bool.and_self]

/-- What fails a test need not be put under a key if the test comes after. -/
theorem Ordered.filter_insert_of_not [Std.TransOrd κ] {entries : List (κ × α)}
    (ordered : Ordered entries) (test : κ × α → Bool) {k : κ} (failed : ∀ w, test (k, w) = false)
    (v : α) : (KeyList.insert k v entries).filter test = entries.filter test := by
  apply ((ordered.insert k v).filter test).ext (ordered.filter test)
  intro q
  rw [(ordered.insert k v).find?_filter, ordered.find?_filter, find?_insert]
  by_cases here : q = k
  · rw [here]
    simp [failed]
  · rw [if_neg (by simpa using here)]

/-- The entries under a key are the one that is found there. -/
theorem Ordered.filter_key [Std.TransOrd κ] {entries : List (κ × α)} (ordered : Ordered entries)
    (k : κ) :
    (entries.filter fun entry => entry.1 == k) = ((find? k entries).map fun v => (k, v)).toList := by
  have alone : Ordered ((find? k entries).map fun v => (k, v)).toList := by
    cases find? k entries with
    | none => exact .nil
    | some v => exact List.pairwise_singleton ..
  apply (ordered.filter _).ext alone
  intro q
  rw [ordered.find?_filter]
  by_cases here : q = k
  · rw [here]
    cases find? k entries with
    | none => rfl
    | some v => simp [find?_cons]
  · cases find? k entries with
    | none => simp [here, find?_nil]
    | some v => simp [here, find?_cons, find?_nil]

/-- Putting a value under a key takes the place of what was there. -/
theorem Ordered.insert_perm [Std.TransOrd κ] {entries : List (κ × α)} (ordered : Ordered entries)
    (k : κ) (v : α) :
    (KeyList.insert k v entries).Perm ((k, v) :: entries.filter fun entry => entry.1 != k) := by
  have inserted := ordered.insert k v
  have fresh : ((k, v) :: entries.filter fun entry => entry.1 != k).Nodup :=
    List.nodup_cons.mpr ⟨fun mem => by simp at mem, (ordered.filter _).nodup⟩
  apply (List.perm_ext_iff_of_nodup inserted.nodup fresh).mpr
  rintro ⟨q, w⟩
  rw [← inserted.find?_eq_some_iff, find?_insert, List.mem_cons, List.mem_filter,
    ← ordered.find?_eq_some_iff]
  by_cases here : q = k
  · simp only [here, beq_self_eq_true, if_true, Option.some_inj, Prod.mk.injEq, true_and,
      bne_self_eq_false, Bool.false_eq_true, and_false, or_false]
    exact eq_comm
  · simp [here]

end

/-! ## Pairs as maps -/

theorem ordered_foldl [Std.TransOrd κ] [Std.LawfulEqOrd κ] (pairs : List (κ × α))
    {entries : List (κ × α)} (ordered : Ordered entries) :
    Ordered (pairs.foldl (fun entries p => KeyList.insert p.1 p.2 entries) entries) := by
  induction pairs generalizing entries with
  | nil => exact ordered
  | cons p rest ih => exact ih (ordered.insert p.1 p.2)

/-- The map of some pairs is in key order. -/
theorem ordered_ofList [Std.TransOrd κ] [Std.LawfulEqOrd κ] (pairs : List (κ × α)) :
    Ordered (ofList pairs) :=
  ordered_foldl pairs List.Pairwise.nil

theorem mem_foldl {pairs entries : List (κ × α)} {entry : κ × α}
    (mem : entry ∈ pairs.foldl (fun entries p => KeyList.insert p.1 p.2 entries) entries) :
    entry ∈ entries ∨ entry ∈ pairs := by
  induction pairs generalizing entries with
  | nil => exact .inl mem
  | cons p rest ih =>
    rcases ih mem with mem | mem
    · rcases eq_or_mem_of_mem_insert mem with rfl | mem
      · exact .inr List.mem_cons_self
      · exact .inl mem
    · exact .inr (List.mem_cons_of_mem _ mem)

theorem mem_of_mem_ofList {pairs : List (κ × α)} {entry : κ × α} (mem : entry ∈ ofList pairs) :
    entry ∈ pairs :=
  (mem_foldl mem).resolve_left (List.not_mem_nil (a := entry))

theorem insert_last [Std.OrientedOrd κ] {k : κ} {entries : List (κ × α)}
    (later : ∀ entry ∈ entries, compare entry.1 k = .lt) (v : α) :
    insert k v entries = entries ++ [(k, v)] := by
  induction entries with
  | nil => rfl
  | cons first rest ih =>
    obtain ⟨before, others⟩ := List.forall_mem_cons.mp later
    have greater : compare k first.1 = .gt := Std.OrientedCmp.gt_of_lt before
    rw [insert, greater, ih others]
    rfl

theorem foldl_eq_append [Std.OrientedOrd κ] {pairs entries : List (κ × α)}
    (ordered : Ordered (entries ++ pairs)) :
    pairs.foldl (fun entries p => KeyList.insert p.1 p.2 entries) entries = entries ++ pairs := by
  induction pairs generalizing entries with
  | nil => exact (List.append_nil _).symm
  | cons p rest ih =>
    have later : ∀ entry ∈ entries, compare entry.1 p.1 = .lt := fun entry mem =>
      (List.pairwise_append.mp ordered).2.2 entry mem p List.mem_cons_self
    rw [List.append_cons] at ordered
    rw [List.foldl_cons, insert_last later p.2]
    exact (ih ordered).trans (List.append_cons ..).symm

/-- Entries in key order are their own map. -/
theorem Ordered.ofList_eq [Std.OrientedOrd κ] {entries : List (κ × α)}
    (ordered : Ordered entries) : KeyList.ofList entries = entries :=
  foldl_eq_append ordered

end DocStore.KeyList
