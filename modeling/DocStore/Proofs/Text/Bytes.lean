import Mathlib.Data.String.Basic
import Mathlib.Order.Compare

/-!
# Texts in the order of their bytes

Texts are compared character by character.  UTF-8 is made so that this is the same as to compare
their bytes: a greater character has a greater byte where the two first differ.

* `bytesOf`: the bytes of a text in UTF-8;
* `encodeChar_lt`: the bytes of a lesser character come first, whatever follows;
* `lt_iff_bytes_lt`: a text comes before another where its bytes do.
-/

namespace DocStore

/-- The bytes of a text in UTF-8. -/
def bytesOf (s : String) : List UInt8 := s.toUTF8.data.toList

theorem bytesOf_eq (s : String) : bytesOf s = s.toList.flatMap String.utf8EncodeChar := by
  show s.toByteArray.data.toList = _
  rw [← String.utf8Encode_toList, List.utf8Encode]
  simp

/-- A lesser character has the lesser lead byte, or the same one and a lesser byte later. -/
theorem encodeChar_lt {c d : Char} (less : c < d) (s t : List UInt8) :
    String.utf8EncodeChar c ++ s < String.utf8EncodeChar d ++ t := by
  have code : c.val.toNat < d.val.toNat := less
  have top : d.val.toNat < 0x110000 := by
    have valid := d.valid
    simp only [UInt32.isValidChar, Nat.isValidChar] at valid
    omega
  unfold String.utf8EncodeChar
  generalize c.val.toNat = v at *
  generalize d.val.toNat = w at *
  -- A byte after the first holds six bits, so the numbers are taken apart by 64.
  have twice (n : Nat) : n / 4096 = n / 64 / 64 := by omega
  have thrice (n : Nat) : n / 262144 = n / 64 / 64 / 64 := by omega
  dsimp only
  split_ifs
  all_goals
    simp only [List.cons_append, List.nil_append, List.cons_lt_cons_iff, UInt8.lt_iff_toNat_lt,
      ← UInt8.toNat_inj, UInt8.toNat_ofNat', twice, thrice]
    omega

theorem encode_lt {a b : List Char} (less : a < b) :
    a.flatMap String.utf8EncodeChar < b.flatMap String.utf8EncodeChar := by
  induction less with
  | nil =>
    rename_i d rest
    rw [List.flatMap_cons, List.flatMap_nil]
    cases encoded : String.utf8EncodeChar d with
    | nil => exact absurd encoded String.utf8EncodeChar_ne_nil
    | cons first others => exact List.nil_lt_cons ..
  | rel less => simpa only [List.flatMap_cons] using encodeChar_lt less ..
  | cons _ ih => simpa only [List.flatMap_cons] using List.append_left_lt ih

/-- The order of texts is the order of their bytes. -/
theorem lt_iff_bytes_lt {a b : String} : a < b ↔ bytesOf a < bytesOf b := by
  simp only [bytesOf_eq, String.lt_iff]
  constructor
  · exact encode_lt
  · intro less
    rcases lt_trichotomy a.toList b.toList with below | same | above
    · exact below
    · rw [same] at less
      exact absurd less (List.lt_irrefl _)
    · exact absurd less (List.lt_asymm (encode_lt above))

theorem compare_eq_lt_iff_bytes {a b : String} : compare a b = .lt ↔ bytesOf a < bytesOf b :=
  compareOfLessAndEq_eq_lt.trans lt_iff_bytes_lt

end DocStore
