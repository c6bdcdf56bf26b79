import TeamAccess.Text.Hex

/-! # Identifiers

An identifier is a number below `2 ^ 128`, written as 32 hexadecimal digits, usually in five groups.
Reading takes the plain digits, the groups, the groups in braces and the groups after `urn:uuid:`.
-/

namespace TeamAccess

/-- The identifier of a row. -/
structure Uuid where
  value : Nat
  deriving DecidableEq, Repr

namespace Uuid

/-- The 32 digits. -/
def digits (u : Uuid) : List Char := Text.Hex.write 32 u.value

/-- The digits in groups of 8, 4, 4, 4 and 12. -/
def text (u : Uuid) : String :=
  let d := u.digits
  String.ofList (d.take 8 ++ '-' :: (d.drop 8).take 4 ++ '-' :: (d.drop 12).take 4
    ++ '-' :: (d.drop 16).take 4 ++ '-' :: d.drop 20)

/-- The identifier of 32 digits. -/
def ofDigits? (cs : List Char) : Option Uuid :=
  if cs.length = 32 then (Text.Hex.read? cs).map (⟨·⟩) else none

/-- The identifier of five groups. -/
def ofGroups? (cs : List Char) : Option Uuid :=
  if cs.length = 36 && cs[8]? == some '-' && cs[13]? == some '-' && cs[18]? == some '-'
      && cs[23]? == some '-' then
    ofDigits? (cs.take 8 ++ (cs.drop 9).take 4 ++ (cs.drop 14).take 4 ++ (cs.drop 19).take 4
      ++ cs.drop 24)
  else none

/-- The groups inside braces or after the scheme, or the text itself. -/
def unwrap (cs : List Char) : List Char :=
  match cs with
  | '\x7b' :: rest =>
    if cs.length = 38 && rest.getLast? == some '\x7d' then rest.dropLast else cs
  | 'u' :: 'r' :: 'n' :: ':' :: 'u' :: 'u' :: 'i' :: 'd' :: ':' :: rest => rest
  | _ => cs

/-- The identifier that a text spells. -/
def parse? (s : String) : Option Uuid :=
  if s.length = 32 then ofDigits? s.toList else ofGroups? (unwrap s.toList)

end Uuid

end TeamAccess
