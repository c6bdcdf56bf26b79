import TeamAccess.Text.Alphabet
import TeamAccess.Text.Split

/-! # Whole numbers written in a text

Blanks around the number and a sign before it are allowed, and single underscores between its
digits. The liberal reading takes the decimal digits of any script; the plain one takes ASCII
digits, and also a fraction of zeros.
-/

namespace TeamAccess.Text.Numeral

/-- The digits of a number, single underscores between them left out; `prior` tells whether a digit
stands before the text. -/
def ungroup (digit? : Char → Option Nat) (prior : Bool) : List Char → Option (List Nat)
  | [] => if prior then some [] else none
  | '_' :: rest => if prior then ungroup digit? false rest else none
  | c :: rest =>
    match digit? c with
    | none => none
    | some d => (ungroup digit? true rest).map (d :: ·)

/-- The number that digits spell. -/
def ofDigits (digits : List Nat) : Nat := digits.foldl (fun n d => n * 10 + d) 0

/-- The sign of a number and the text after it. -/
def sign : List Char → Bool × List Char
  | '-' :: rest => (true, rest)
  | '+' :: rest => (false, rest)
  | text => (false, text)

/-- A number with a sign. -/
def signed? (digit? : Char → Option Nat) (limit : Nat) (text : List Char) : Option Int := do
  let (negative, body) := sign text
  let digits ← ungroup digit? false body
  if limit < digits.length then none
  else
    let n : Int := ofDigits digits
    return if negative then -n else n

/-- The most digits that a number may have. -/
def maxDigits : Nat := 4300

/-- A separator between words other than the four control characters `U+001C` to `U+001F`. -/
def isSpace (c : Char) : Bool := isBlank c && !('\x1c' ≤ c && c ≤ '\x1f')

/-- The number in a text, in the digits of any script. -/
def liberal? (s : String) : Option Int :=
  signed? digit? maxDigits (trim isSpace s.toList)

/-- The value of an ASCII digit. -/
def asciiDigit? (c : Char) : Option Nat :=
  if '0' ≤ c && c ≤ '9' then some (c.toNat - '0'.toNat) else none

/-- The part before a decimal point that only zeros follow. -/
def dropZeroFraction (text : List Char) : List Char :=
  match text.dropWhile (· != '.') with
  | '.' :: zeros => if zeros.all (· == '0') then text.takeWhile (· != '.') else text
  | _ => text

/-- The number in a text, in ASCII digits. -/
def plain? (s : String) : Option Int :=
  signed? asciiDigit? maxDigits (dropZeroFraction (trim isSpace s.toList))

end TeamAccess.Text.Numeral
