/-! # Cutting texts at a separator -/

namespace TeamAccess.Text

/-- Cuts a text at every occurrence of a character. -/
def splitAll (sep : Char) : List Char → List (List Char)
  | [] => [[]]
  | c :: rest =>
    if c = sep then [] :: splitAll sep rest
    else
      match splitAll sep rest with
      | [] => [[c]]
      | first :: others => (c :: first) :: others

/-- Cuts a text at the first occurrence of a character, if there is one. -/
def splitFirst? (sep : Char) : List Char → Option (List Char × List Char)
  | [] => none
  | c :: rest =>
    if c = sep then some ([], rest)
    else (splitFirst? sep rest).map fun (before, after) => (c :: before, after)

/-- Cuts a text at the last occurrence of a character, if there is one. -/
def splitLast? (sep : Char) (text : List Char) : Option (List Char × List Char) :=
  (splitFirst? sep text.reverse).map fun (after, before) => (before.reverse, after.reverse)

/-- Drops what `p` holds of from both ends. -/
def trim (p : Char → Bool) (text : List Char) : List Char :=
  ((text.dropWhile p).reverse.dropWhile p).reverse

/-- Whether some end of a text, the empty one included, has a property. -/
def anySuffix (p : List Char → Bool) : List Char → Bool
  | [] => p []
  | c :: rest => p (c :: rest) || anySuffix p rest

end TeamAccess.Text
