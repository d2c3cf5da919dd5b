import DocStore.Guid
import Mathlib.Data.List.Basic

/-!
# Identifiers as they are written

The written spelling of an identifier is read back as it.

* `Guid.hexNumber?_toDigits`: the hexadecimal digits of a number are read as it;
* `Guid.read?_text`: so is the text of an identifier.
-/

namespace DocStore.Guid

/-! ## Digits -/

theorem hexValue?_digitChar {n : Nat} (small : n < 16) : hexValue? (Nat.digitChar n) = some n := by
  have all : ∀ n < 16, hexValue? (Nat.digitChar n) = some n := by decide
  exact all n small

theorem hexNumber?_append (cs : List Char) (c : Char) :
    hexNumber? (cs ++ [c]) =
      (hexNumber? cs).bind fun n => (hexValue? c).map (n * 16 + ·) := by
  simp [hexNumber?, List.foldlM_append]

/-- The hexadecimal digits of a number are read as it. -/
theorem hexNumber?_toDigits (n : Nat) : hexNumber? (Nat.toDigits 16 n) = some n := by
  induction n using Nat.strongRecOn with
  | ind n ih =>
    by_cases small : n < 16
    · rw [Nat.toDigits_of_lt_base small]
      simp [hexNumber?, hexValue?_digitChar small]
    · have shorter : n / 16 < n := by omega
      have last := hexValue?_digitChar (Nat.mod_lt n (by decide : 0 < 16))
      have worth : n / 16 * 16 + n % 16 = n := Nat.div_add_mod' n 16
      rw [Nat.toDigits_of_base_le (by decide) (by omega), hexNumber?_append, ih _ shorter, last,
        Option.bind_some, Option.map_some, worth]

theorem hexNumber?_zeros (k : Nat) (cs : List Char) :
    hexNumber? (List.replicate k '0' ++ cs) = hexNumber? cs := by
  induction k with
  | zero => rfl
  | succ k ih =>
    have zero : hexValue? '0' = some 0 := rfl
    rw [List.replicate_succ, List.cons_append]
    simpa [hexNumber?, zero] using ih

/-! ## Spellings -/

/-- Groups of digits with hyphens between them are read as the digits without them. -/
theorem readHyphenated?_groups {a b c d e : List Char} (ha : a.length = 8) (hb : b.length = 4)
    (hc : c.length = 4) (hd : d.length = 4) (he : e.length = 12) :
    readHyphenated? (a ++ ['-'] ++ b ++ ['-'] ++ c ++ ['-'] ++ d ++ ['-'] ++ e) =
      readSimple? (a ++ b ++ c ++ d ++ e) := by
  let cs := a ++ ['-'] ++ b ++ ['-'] ++ c ++ ['-'] ++ d ++ ['-'] ++ e
  have hyphens : cs.length = 36 ∧ [8, 13, 18, 23].all (fun i => cs[i]? = some '-') := by
    simp [cs, List.getElem?_append, ha, hb, hc, hd, he]
  have groups : cs.take 8 ++ (cs.drop 9).take 4 ++ (cs.drop 14).take 4 ++ (cs.drop 19).take 4 ++
      cs.drop 24 = a ++ b ++ c ++ d ++ e := by
    simp [cs, List.drop_append, List.drop_eq_nil_of_le, ha, hb, hc, hd]
  rw [readHyphenated?, if_pos hyphens, groups]

variable (g : Guid)

/-- The thirty-two digits of an identifier. -/
def digits : List Char :=
  List.replicate (32 - (Nat.toDigits 16 g.value).length) '0' ++ Nat.toDigits 16 g.value

theorem length_digits : g.digits.length = 32 := by
  have few : (Nat.toDigits 16 g.value).length ≤ 32 :=
    (Nat.length_toDigits_le_iff (by decide) (by decide)).mpr g.value_lt
  rw [digits, List.length_append, List.length_replicate]
  omega

theorem readSimple?_digits : readSimple? g.digits = some g := by
  have number : hexNumber? g.digits = some g.value := by
    rw [digits, hexNumber?_zeros, hexNumber?_toDigits]
  rw [readSimple?, if_pos g.length_digits, number, Option.bind_some, dif_pos g.value_lt]

theorem text_toList : g.text.toList =
    g.digits.take 8 ++ ['-'] ++ (g.digits.drop 8).take 4 ++ ['-'] ++ (g.digits.drop 12).take 4 ++
      ['-'] ++ (g.digits.drop 16).take 4 ++ ['-'] ++ g.digits.drop 20 := by
  rw [text, String.toList_ofList]
  rfl

/-- What is written of an identifier is read as it. -/
theorem read?_text : read? g.text = some g := by
  have length := g.length_digits
  have written : g.text.toList.length = 36 := by simp [text_toList, length]
  have whole : g.digits.take 8 ++ (g.digits.drop 8).take 4 ++ (g.digits.drop 12).take 4 ++
      (g.digits.drop 16).take 4 ++ g.digits.drop 20 = g.digits := by
    rw [← List.take_add, ← List.take_add, ← List.take_add, List.take_append_drop]
  rw [read?, readChars?, if_neg (by omega), if_pos written, text_toList,
    readHyphenated?_groups (by simp [length]) (by simp [length]) (by simp [length])
      (by simp [length]) (by simp [length]), whole, readSimple?_digits]

end DocStore.Guid
