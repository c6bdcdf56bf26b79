import TeamAccess.Json.Basic
import TeamAccess.Text.Hex

/-! # Printing JSON

The text is ASCII on one line: a character outside the printable ASCII range is written as one or
two `\u` escapes. Two layouts differ only in the blank after a comma and a colon.
-/

namespace TeamAccess

namespace Json

/-- Whether a comma and a colon are followed by a blank. -/
inductive Layout where
  | compact
  | spaced
  deriving DecidableEq, Repr

/-- The blank after a separator. -/
def Layout.gap : Layout → List Char
  | .compact => []
  | .spaced => [' ']

/-- A UTF-16 code unit as an escape. -/
def escapeUnit (n : Nat) : List Char := '\\' :: 'u' :: Text.Hex.write 4 n

/-- A character of a text value. -/
def escapeChar (c : Char) : List Char :=
  if c = '"' then ['\\', '"']
  else if c = '\\' then ['\\', '\\']
  else if c = '\n' then ['\\', 'n']
  else if c = '\r' then ['\\', 'r']
  else if c = '\t' then ['\\', 't']
  else if c = '\x08' then ['\\', 'b']
  else if c = '\x0c' then ['\\', 'f']
  else if ' ' ≤ c ∧ c ≤ '~' then [c]
  else if c.toNat < 0x10000 then escapeUnit c.toNat
  else
    escapeUnit (0xD800 + (c.toNat - 0x10000) / 0x400)
      ++ escapeUnit (0xDC00 + (c.toNat - 0x10000) % 0x400)

/-- A text value in quotes. -/
def quote (s : String) : List Char := '"' :: (s.toList.flatMap escapeChar ++ ['"'])

/-- The digits of a whole number. -/
def printInt (n : Int) : List Char :=
  if n < 0 then '-' :: Nat.toDigits 10 n.natAbs else Nat.toDigits 10 n.natAbs

/-- All digits and then the power of ten, so that the text is not taken for an integer. -/
def printDecimal (d : Decimal) : List Char :=
  (if d.negative then ['-'] else []) ++ Nat.toDigits 10 d.digits ++ 'e' :: printInt d.exponent

mutual

/-- The text of a value. -/
def print (layout : Layout) : Json → List Char
  | .null => ['n', 'u', 'l', 'l']
  | .bool true => ['t', 'r', 'u', 'e']
  | .bool false => ['f', 'a', 'l', 's', 'e']
  | .int n => printInt n
  | .decimal d => printDecimal d
  | .notANumber => ['N', 'a', 'N']
  | .infinity negative => (if negative then ['-'] else []) ++ "Infinity".toList
  | .str s => quote s
  | .arr items => '[' :: (printItems layout items ++ [']'])
  | .obj members => '\x7b' :: (printMembers layout members ++ ['\x7d'])

/-- Values separated by commas. -/
def printItems (layout : Layout) : List Json → List Char
  | [] => []
  | [item] => print layout item
  | item :: next :: rest =>
    print layout item ++ ',' :: (layout.gap ++ printItems layout (next :: rest))

/-- Members separated by commas. -/
def printMembers (layout : Layout) : List (String × Json) → List Char
  | [] => []
  | [(name, value)] => quote name ++ ':' :: (layout.gap ++ print layout value)
  | (name, value) :: next :: rest =>
    quote name ++ ':' :: (layout.gap ++ print layout value)
      ++ ',' :: (layout.gap ++ printMembers layout (next :: rest))

end

/-- The text of a value as a string. -/
def render (layout : Layout) (j : Json) : String := String.ofList (j.print layout)

end Json

end TeamAccess
