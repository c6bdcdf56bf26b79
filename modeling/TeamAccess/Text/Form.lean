import TeamAccess.Text.Percent
import TeamAccess.Text.Split

/-! # Form-encoded pairs

A query is names and values joined by `=` and `&`; a blank is written `+`. Pairs are read in order,
each name as often as it stands there.
-/

namespace TeamAccess.Text.Form

/-- The text of a name or a value. -/
def decode (text : List Char) : String :=
  String.ofList (Percent.decode (text.map fun c => if c = '+' then ' ' else c))

/-- The text of a name or a value as it is written. -/
def encode (s : String) : String :=
  String.ofList ((Percent.encode [' '] s.toList).map fun c => if c = ' ' then '+' else c)

/-- The pairs of a query. A name without `=` has the empty value. -/
def pairs (query : List Char) : List (String × String) :=
  ((splitAll '&' query).filter (!·.isEmpty)).map fun part =>
    match splitFirst? '=' part with
    | some (name, value) => (decode name, decode value)
    | none => (decode part, "")

/-- The pairs whose value is written and not empty. -/
def filledPairs (query : List Char) : List (String × String) :=
  (splitAll '&' query).filterMap fun part =>
    match splitFirst? '=' part with
    | some (name, value) => if value.isEmpty then none else some (decode name, decode value)
    | none => none

end TeamAccess.Text.Form
