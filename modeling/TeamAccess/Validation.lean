import TeamAccess.Json.Basic
import TeamAccess.Text.Numeral

/-! # Checking values

What is wrong with a value that settings or a request hold, and where. Numbers and flags are also
taken from texts that spell them.
-/

namespace TeamAccess

/-- What is wrong with a value. -/
inductive Defect where
  | missing
  | extraForbidden
  | jsonInvalid
  | notAnObject
  | notText
  | textTooShort
  | textTooLong
  | notList
  | notListed
  | notLiteral
  | notUuid
  | notFlag
  | notFlagText
  | notInteger
  | notIntegerText
  | integerTooLong
  | fraction
  | notFinite
  | tooSmall
  | tooLarge
  deriving DecidableEq, Repr

/-- The name of a defect in answers. -/
def Defect.code : Defect → String
  | .missing => "missing"
  | .extraForbidden => "extra_forbidden"
  | .jsonInvalid => "json_invalid"
  | .notAnObject => "model_attributes_type"
  | .notText => "string_type"
  | .textTooShort => "string_too_short"
  | .textTooLong => "string_too_long"
  | .notList => "list_type"
  | .notListed => "enum"
  | .notLiteral => "literal_error"
  | .notUuid => "uuid_parsing"
  | .notFlag => "bool_type"
  | .notFlagText => "bool_parsing"
  | .notInteger => "int_type"
  | .notIntegerText => "int_parsing"
  | .integerTooLong => "int_parsing_size"
  | .fraction => "int_from_float"
  | .notFinite => "finite_number"
  | .tooSmall => "greater_than_equal"
  | .tooLarge => "less_than_equal"

/-- A step on the way to a value: a name or a position. -/
inductive Place where
  | name (text : String)
  | index (n : Nat)
  deriving DecidableEq, Repr

/-- A defect and the way to the value that has it. -/
structure Complaint where
  defect : Defect
  path : List Place
  deriving DecidableEq, Repr

namespace Validation

/-- A text. -/
def text : Json → Except Defect String
  | .str s => .ok s
  | _ => .error .notText

/-- A text or null. -/
def text? : Json → Except Defect (Option String)
  | .null => .ok none
  | j => (text j).map some

/-- A text whose number of characters lies within bounds. -/
def boundedText (least : Nat) (most : Option Nat) (j : Json) : Except Defect String := do
  let s ← text j
  if s.length < least then throw .textTooShort
  if most.any (· < s.length) then throw .textTooLong
  return s

/-- A whole number of 64 bits written with a fraction of zeros or an exponent. -/
def wholeDecimal (d : Decimal) : Except Defect Int :=
  match d.nearest with
  | none => .error .notFinite
  | some x =>
    if !x.isWhole then .error .fraction
    else if Int64.minValue.toInt < x.truncate ∧ x.truncate ≤ Int64.maxValue.toInt then
      .ok x.truncate
    else .error .integerTooLong

/-- A whole number, also in the form of a flag, a number without a fraction or a text. -/
def integer : Json → Except Defect Int
  | .int n => .ok n
  | .bool b => .ok (if b then 1 else 0)
  | .decimal d => wholeDecimal d
  | .notANumber | .infinity _ => .error .notFinite
  | .str s =>
    match Text.Numeral.plain? s with
    | some n => .ok n
    | none =>
      if Text.Numeral.maxDigits < s.length then .error .integerTooLong else .error .notIntegerText
  | _ => .error .notInteger

/-- A whole number within bounds. -/
def boundedInteger (least most : Int) (j : Json) : Except Defect Int := do
  let n ← integer j
  if n < least then throw .tooSmall
  if most < n then throw .tooLarge
  return n

/-- The texts that spell a flag, in lower case. -/
def flagTexts : List (String × Bool) :=
  [("0", false), ("off", false), ("f", false), ("false", false), ("n", false), ("no", false),
    ("1", true), ("on", true), ("t", true), ("true", true), ("y", true), ("yes", true)]

/-- A flag, also in the form of a number or a text. -/
def flag : Json → Except Defect Bool
  | .bool b => .ok b
  | .int n => if n = 0 then .ok false else if n = 1 then .ok true else .error .notFlagText
  | .decimal d =>
    match wholeDecimal d with
    | .ok 0 => .ok false
    | .ok 1 => .ok true
    | .ok _ => .error .notFlagText
    | .error _ => .error .notFlag
  | .str s =>
    match flagTexts.find? (·.1 = s.map Char.toLower) with
    | some (_, b) => .ok b
    | none => .error .notFlagText
  | _ => .error .notFlag

end Validation

end TeamAccess
