/-! # Hexadecimal digits

Numbers are written in lower-case digits of a fixed width, and digits of either case are read.
-/

namespace TeamAccess.Text.Hex

/-- The value of a digit. -/
def digit? (c : Char) : Option Nat :=
  if '0' ≤ c && c ≤ '9' then some (c.toNat - '0'.toNat)
  else if 'a' ≤ c && c ≤ 'f' then some (c.toNat - 'a'.toNat + 10)
  else if 'A' ≤ c && c ≤ 'F' then some (c.toNat - 'A'.toNat + 10)
  else none

/-- The number that digits spell after a number that has been read. -/
def readFrom (n : Nat) : List Char → Option Nat
  | [] => some n
  | c :: rest =>
    match digit? c with
    | some d => readFrom (n * 16 + d) rest
    | none => none

/-- The number that digits spell. -/
def read? (digits : List Char) : Option Nat := readFrom 0 digits

/-- The last `width` digits of a number. -/
def write (width n : Nat) : List Char :=
  match width with
  | 0 => []
  | k + 1 => write k (n / 16) ++ [Nat.digitChar (n % 16)]

end TeamAccess.Text.Hex
