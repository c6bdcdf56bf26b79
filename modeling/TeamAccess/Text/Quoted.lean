import TeamAccess.Text.Alphabet
import TeamAccess.Text.Hex

/-! # Quoted texts

A text is shown between single quotes, or between double quotes if it holds a single quote and no
double one. What has no printed form is shown by its code point.
-/

namespace TeamAccess.Text.Quoted

/-- A character between the given quotes. -/
def escape (mark c : Char) : List Char :=
  if c = mark || c = '\\' then ['\\', c]
  else if c = '\n' then ['\\', 'n']
  else if c = '\r' then ['\\', 'r']
  else if c = '\t' then ['\\', 't']
  else if c = ' ' || isPrintable c then [c]
  else if c.toNat < 0x100 then '\\' :: 'x' :: Hex.write 2 c.toNat
  else if c.toNat < 0x10000 then '\\' :: 'u' :: Hex.write 4 c.toNat
  else '\\' :: 'U' :: Hex.write 8 c.toNat

/-- The quote that a text is shown in. -/
def mark (text : List Char) : Char :=
  if text.contains '\'' && !text.contains '"' then '"' else '\''

/-- The text in quotes. -/
def quote (s : String) : String :=
  let m := mark s.toList
  String.ofList (m :: (s.toList.flatMap (escape m) ++ [m]))

end TeamAccess.Text.Quoted
