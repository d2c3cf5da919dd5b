import DocStore.Numeric.Exact
import Mathlib.Algebra.Group.Nat.Defs
import Mathlib.Data.List.TakeWhile

/-!
# The parts of texts that are read as numbers

* `takeWhile_run`: a run of characters ends before the first that fails its test;
* `natDigits_isDigit`, `length_natDigits_le`: the digits of a number;
* `trimmed_spaced`, `spaced_trimmed`: a text and its blank ends;
* `splitFirst_append`, `splitFirst_eq_some`: a text and what stands around a mark in it;
* `splitFirst_numeral`: digits with an optional point.
-/

namespace DocStore

open DocStore.Text

/-! ## Runs -/

/-- A run of characters that pass a test ends before one that fails it. -/
theorem takeWhile_run {test : Char → Bool} {run after : List Char} (passes : ∀ c ∈ run, test c)
    (fails : ∀ c ∈ after.head?, test c = false) :
    (run ++ after).takeWhile test = run ∧ (run ++ after).dropWhile test = after := by
  rw [List.takeWhile_append_of_pos passes, List.dropWhile_append_of_pos passes]
  cases after with
  | nil => simp
  | cons c after =>
    have other : ¬ test c = true := by simp [fails c rfl]
    rw [List.takeWhile_cons_of_neg other, List.dropWhile_cons_of_neg other, List.append_nil]
    exact ⟨rfl, rfl⟩

/-! ## Digits -/

theorem natDigits_isDigit {n : Nat} {c : Char} (h : c ∈ natDigits n) : c.isDigit :=
  Nat.isDigit_of_mem_toDigits (by decide) (by decide) h

theorem natDigits_ne_nil (n : Nat) : natDigits n ≠ [] := Nat.toDigits_ne_nil

theorem length_natDigits_le {n k : Nat} (positive : 0 < k) (h : n < 10 ^ k) :
    (natDigits n).length ≤ k :=
  (Nat.length_toDigits_le_iff (by decide) positive).mpr h

/-! ## Blank ends -/

/-- No printable character but the space is blank. -/
theorem isBlank_of_printable {c : Char} (least : 0x21 ≤ c.toNat) (greatest : c.toNat ≤ 0x7e) :
    isBlank c = false := by
  simp [isBlank, inRanges, blankRanges]
  omega

theorem isBlank_of_isDigit {c : Char} (h : c.isDigit) : isBlank c = false := by
  obtain ⟨least, greatest⟩ := Char.isDigit_iff_toNat.mp h
  exact isBlank_of_printable (by simp at least; omega) (by simp at greatest; omega)

variable {s : String} {before inner after : List Char}

theorem trimmed_spaced (text : s.toList = before ++ inner ++ after) (filled : inner ≠ [])
    (blankBefore : ∀ c ∈ before, isBlank c) (visible : ∀ c ∈ inner, isBlank c = false)
    (blankAfter : ∀ c ∈ after, isBlank c) : trimmed s = inner := by
  have kept {cs rest : List Char} (filled : cs ≠ []) (visible : ∀ c ∈ cs, isBlank c = false) :
      (cs ++ rest).dropWhile isBlank = cs ++ rest := by
    cases cs with
    | nil => exact absurd rfl filled
    | cons c cs => rw [List.cons_append, List.dropWhile_cons, visible c (by simp)]; rfl
  unfold trimmed
  rw [text, List.append_assoc, List.dropWhile_append_of_pos blankBefore, kept filled visible,
    List.reverse_append, List.dropWhile_append_of_pos (by simpa using blankAfter),
    ← List.append_nil inner.reverse, kept (by simpa using filled) (by simpa using visible),
    List.append_nil, List.reverse_reverse]

theorem spaced_trimmed (s : String) :
    ∃ before after, (∀ c ∈ before, isBlank c) ∧ (∀ c ∈ after, isBlank c) ∧
      s.toList = before ++ trimmed s ++ after := by
  refine ⟨s.toList.takeWhile isBlank,
    ((s.toList.dropWhile isBlank).reverse.takeWhile isBlank).reverse,
    fun _ => List.mem_takeWhile_imp,
    fun c hc => List.mem_takeWhile_imp (List.mem_reverse.mp hc), ?_⟩
  rw [trimmed, List.append_assoc, ← List.reverse_append, List.takeWhile_append_dropWhile,
    List.reverse_reverse, List.takeWhile_append_dropWhile]

/-! ## Marks -/

theorem splitFirst_eq_none {stop : Char → Bool} {cs : List Char} (h : ∀ c ∈ cs, stop c = false) :
    splitFirst stop cs = none := by
  induction cs with
  | nil => rfl
  | cons c rest ih =>
    rw [splitFirst, h c (by simp), ih fun d hd => h d (List.mem_cons_of_mem _ hd)]
    rfl

theorem splitFirst_append {stop : Char → Bool} {before after : List Char} {c : Char}
    (h : ∀ d ∈ before, stop d = false) (hc : stop c = true) :
    splitFirst stop (before ++ c :: after) = some (before, after) := by
  induction before with
  | nil => simp [splitFirst, hc]
  | cons d rest ih =>
    rw [List.cons_append, splitFirst, h d (by simp), ih fun e he => h e (List.mem_cons_of_mem _ he)]
    rfl

theorem splitFirst_eq_some {stop : Char → Bool} {cs before after : List Char}
    (split : splitFirst stop cs = some (before, after)) :
    ∃ c, stop c = true ∧ (∀ d ∈ before, stop d = false) ∧ cs = before ++ c :: after := by
  induction cs generalizing before with
  | nil => cases split
  | cons c rest ih =>
    rw [splitFirst] at split
    cases stopped : stop c with
    | true =>
      rw [if_pos stopped] at split
      obtain ⟨rfl, rfl⟩ := Prod.mk.inj (Option.some.inj split)
      exact ⟨c, stopped, by simp, rfl⟩
    | false =>
      rw [if_neg (by simp [stopped])] at split
      obtain ⟨⟨before', after'⟩, halves, same⟩ := Option.map_eq_some_iff.mp split
      obtain ⟨rfl, rfl⟩ := Prod.mk.inj same
      obtain ⟨d, stop, free, rfl⟩ := ih halves
      exact ⟨d, stop, List.forall_mem_cons.mpr ⟨stopped, free⟩, rfl⟩

namespace ExactNumber

/-! ## Numerals -/

/-- Digits, and after a point further digits, which need not be there. -/
def numeral (whole : List Char) (fraction : Option (List Char)) : List Char :=
  whole ++ (fraction.map ('.' :: ·)).getD []

variable {whole : List Char} {fraction : Option (List Char)}

/-- What a numeral consists of. -/
theorem mem_numeral {c : Char} (digits : ∀ c ∈ whole ++ fraction.getD [], c.isDigit)
    (h : c ∈ numeral whole fraction) : c.isDigit ∨ c = '.' := by
  cases fraction with
  | none =>
    simp only [numeral, Option.map_none, Option.getD_none, List.append_nil] at h digits
    exact .inl (digits c h)
  | some f =>
    simp only [numeral, Option.map_some, Option.getD_some, List.mem_append, List.mem_cons] at h
    rcases h with h | rfl | h
    · exact .inl (digits c (List.mem_append_left _ h))
    · exact .inr rfl
    · exact .inl (digits c (List.mem_append_right _ h))

theorem splitFirst_numeral (digits : ∀ c ∈ whole ++ fraction.getD [], c.isDigit) :
    (splitFirst (· = '.') (numeral whole fraction)).getD (numeral whole fraction, []) =
      (whole, fraction.getD []) := by
  have noPoint : ∀ c ∈ whole, decide (c = '.') = false := by
    intro c hc
    have digit := digits c (List.mem_append_left _ hc)
    rw [decide_eq_false_iff_not]
    rintro rfl
    exact absurd digit (by decide)
  cases fraction with
  | none =>
    simp only [numeral, Option.map_none, Option.getD_none, List.append_nil]
    rw [splitFirst_eq_none noPoint]
    rfl
  | some f =>
    simp only [numeral, Option.map_some, Option.getD_some]
    rw [splitFirst_append noPoint (by decide)]
    rfl

end ExactNumber

end DocStore
