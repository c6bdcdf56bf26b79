import TeamAccess.Text.Alphabet

/-! # Masked keys

A key is shown with every word character hidden that four word characters directly follow.
-/

namespace TeamAccess

/-- Whether a text begins with `n` characters of a class. -/
def startsWithRun (p : Char → Bool) (n : Nat) (text : List Char) : Bool :=
  (text.take n).length == n && (text.take n).all p

/-- Hides each character of the class that four characters of the class directly follow. -/
def maskChars (p : Char → Bool) : List Char → List Char
  | [] => []
  | c :: rest => (if p c && startsWithRun p 4 rest then '*' else c) :: maskChars p rest

/-- A key as it is shown in logs and to its holder. -/
def maskKey (key : String) : String := String.ofList (maskChars Text.isWord key.toList)

end TeamAccess
