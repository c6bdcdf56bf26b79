import TeamAccess.Decimal

/-! # JSON values

Objects keep their members in order of first appearance. Numbers written without a fraction or an
exponent are integers of any size; every other number keeps its decimal digits.
-/

namespace TeamAccess

/-- A JSON value, with the three values that JSON itself has no number for. -/
inductive Json where
  | null
  | bool (value : Bool)
  | int (value : Int)
  | decimal (value : Decimal)
  | notANumber
  | infinity (negative : Bool)
  | str (value : String)
  | arr (items : List Json)
  | obj (members : List (String × Json))
  deriving Inhabited, Repr

namespace Json

/-- Sets a member: a known name keeps its place, a new one goes to the end. -/
def setMember (name : String) (value : Json) : List (String × Json) → List (String × Json)
  | [] => [(name, value)]
  | (n, v) :: rest =>
    if n = name then (name, value) :: rest else (n, v) :: setMember name value rest

/-- The members of an object written with repeated names: the last value of a name wins. -/
def unique (members : List (String × Json)) : List (String × Json) :=
  members.foldl (fun acc m => setMember m.1 m.2 acc) []

/-- The value of a name among the members of an object. -/
def member? (name : String) : List (String × Json) → Option Json
  | [] => none
  | (n, v) :: rest => if n = name then some v else member? name rest

/-- The value of a name, if the value is an object that has it. -/
def get? (j : Json) (name : String) : Option Json :=
  match j with
  | .obj members => member? name members
  | _ => none

/-- The text of a text value. -/
def text? : Json → Option String
  | .str s => some s
  | _ => none

/-- The array of some texts. -/
def texts (items : List String) : Json := .arr (items.map .str)

/-- The text, or null for none. -/
def ofText? : Option String → Json
  | none => .null
  | some s => .str s

/-- Whether a value counts as true: all do but null, false, zero and what is empty. -/
def truthy : Json → Bool
  | .null => false
  | .bool b => b
  | .int n => n != 0
  | .decimal d => d.nearest != some ⟨0, 0⟩ && (d.nearest.map (·.mantissa)) != some 0
  | .notANumber | .infinity _ => true
  | .str s => s != ""
  | .arr items => !items.isEmpty
  | .obj members => !members.isEmpty

end Json

end TeamAccess
