/-!
# Searching and splitting texts

Where one text occurs in another, and splitting at a separator, over the characters of the text.
-/

namespace DocStore.Text

/-- Whether `needle` occurs in a list of characters. -/
def occursIn (needle : List Char) : List Char → Bool
  | [] => needle.isEmpty
  | c :: rest => needle.isPrefixOf (c :: rest) || occursIn needle rest

def startsWith (text head : String) : Bool := head.toList.isPrefixOf text.toList

def endsWith (text tail : String) : Bool := tail.toList.isSuffixOf text.toList

def contains (text part : String) : Bool := occursIn part.toList text.toList

/-- The pieces between separators; there is one more piece than there are separators. -/
def splitAt (separator : Char) : List Char → List (List Char)
  | [] => [[]]
  | c :: rest =>
    match splitAt separator rest with
    | [] => [[c]]
    | piece :: pieces =>
      if c = separator then [] :: piece :: pieces else (c :: piece) :: pieces

/-- What stands before and after the first character that satisfies `stop`, if there is one. -/
def splitFirst (stop : Char → Bool) : List Char → Option (List Char × List Char)
  | [] => none
  | c :: rest =>
    if stop c then some ([], rest)
    else (splitFirst stop rest).map fun halves => (c :: halves.1, halves.2)

end DocStore.Text
