import DocStore.Text.Blank
import DocStore.Text.Printable

/-!
# Quoted text

A text between double quotes that shows every character: quotes and backslashes are escaped,
the usual control characters have their short names, and a character that cannot be seen on its own
is written by its code point.
-/

namespace DocStore.Text

def hexDigits (n : Nat) : String := String.ofList (Nat.toDigits 16 n)

/-- How one character stands in a quoted text. -/
def quotedChar (c : Char) : String :=
  if c = '"' then "\\\""
  else if c = '\\' then "\\\\"
  else if c = '\n' then "\\n"
  else if c = '\r' then "\\r"
  else if c = '\t' then "\\t"
  else if c = '\x00' then "\\0"
  else if inRanges unprintableRanges c.toNat || inRanges extenderRanges c.toNat ||
      inRanges fillerRanges c.toNat then
    "\\u\x7b" ++ hexDigits c.toNat ++ "\x7d"
  else String.singleton c

def quoted (s : String) : String :=
  "\"" ++ String.join (s.toList.map quotedChar) ++ "\""

end DocStore.Text
