import TeamAccess.Json.Basic
import TeamAccess.Text.Encoding
import TeamAccess.Text.Hex

/-! # Reading JSON

A reader returns the value and the text after it, or the first thing wrong with the text and how
much of the text was left there. Beside standard JSON the reader takes `NaN`, `Infinity` and
`-Infinity`.
-/

namespace TeamAccess

namespace Json

/-- What is wrong with a text. -/
inductive Issue where
  | expectedValue
  | expectedName
  | expectedColon
  | expectedComma
  | unterminated
  | controlCharacter
  | badEscape
  | badUnicodeEscape
  | extraData
  | tooManyDigits (count : Nat)
  deriving DecidableEq, Repr

/-- An issue, and the number of characters from there to the end of the text. -/
structure Stop where
  issue : Issue
  left : Nat
  deriving DecidableEq, Repr

/-- The text after its leading blanks. -/
def skipBlanks (text : List Char) : List Char :=
  text.dropWhile fun c => c = ' ' || c = '\t' || c = '\n' || c = '\r'

/-- The character after a backslash. -/
def simpleEscape? : Char → Option Char
  | '"' => some '"'
  | '\\' => some '\\'
  | '/' => some '/'
  | 'b' => some '\x08'
  | 'f' => some '\x0c'
  | 'n' => some '\n'
  | 'r' => some '\r'
  | 't' => some '\t'
  | _ => none

/-- The code points of a text value up to its closing quote, escaped surrogates not yet joined. An
unclosed text is reported at its opening quote, where `start` characters were left. -/
def readUnits (start : Nat) : List Char → Except Stop (List Nat × List Char)
  | [] => .error ⟨.unterminated, start⟩
  | '"' :: rest => .ok ([], rest)
  | ['\\'] => .error ⟨.unterminated, start⟩
  | '\\' :: 'u' :: a :: b :: c :: d :: e :: rest =>
    match Text.Hex.read? [a, b, c, d] with
    | none => .error ⟨.badUnicodeEscape, rest.length + 6⟩
    | some n => do
      let (units, after) ← readUnits start (e :: rest)
      return (n :: units, after)
  | '\\' :: 'u' :: rest => .error ⟨.badUnicodeEscape, rest.length + 1⟩
  | '\\' :: c :: rest =>
    match simpleEscape? c with
    | none => .error ⟨.badEscape, rest.length + 2⟩
    | some e => do
      let (units, after) ← readUnits start rest
      return (e.toNat :: units, after)
  | c :: rest =>
    if c < ' ' then .error ⟨.controlCharacter, rest.length + 1⟩
    else do
      let (units, after) ← readUnits start rest
      return (c.toNat :: units, after)

/-- The rest of a text value whose opening quote has been read. -/
def readText (text : List Char) : Except Stop (String × List Char) := do
  let (units, after) ← readUnits (text.length + 1) text
  return (String.ofList (Text.Encoding.joinUnits units), after)

/-- A digit of a number. -/
def isDigit (c : Char) : Bool := '0' ≤ c && c ≤ '9'

/-- The number that decimal digits spell. -/
def digitsValue (digits : List Char) : Nat :=
  digits.foldl (fun n c => n * 10 + (c.toNat - '0'.toNat)) 0

/-- The digits after a decimal point, if the text begins with such. -/
def readFraction : List Char → List Char × List Char
  | '.' :: rest =>
    if (rest.takeWhile isDigit).isEmpty then ([], '.' :: rest)
    else (rest.takeWhile isDigit, rest.dropWhile isDigit)
  | text => ([], text)

/-- The sign and the digits of a power of ten, if the text begins with such. -/
def readExponent (text : List Char) : Option Int × List Char :=
  match text with
  | e :: rest =>
    if e = 'e' || e = 'E' then
      let (negative, digits) := match rest with
        | '-' :: rest => (true, rest)
        | '+' :: rest => (false, rest)
        | rest => (false, rest)
      if (digits.takeWhile isDigit).isEmpty then (none, text)
      else
        let n : Int := digitsValue (digits.takeWhile isDigit)
        (some (if negative then -n else n), digits.dropWhile isDigit)
    else (none, text)
  | [] => (none, text)

/-- The most digits an integer may have. -/
def maxDigits : Nat := 4300

/-- A number after its sign; `left` counts the characters from the sign on. -/
def readMagnitude (negative : Bool) (left : Nat) (text : List Char) :
    Except Stop (Json × List Char) :=
  let (whole, rest) := match text with
    | '0' :: rest => (['0'], rest)
    | text => (text.takeWhile isDigit, text.dropWhile isDigit)
  if whole.isEmpty then .error ⟨.expectedValue, left⟩
  else
    let (fraction, rest) := readFraction rest
    let (power, rest) := readExponent rest
    if fraction.isEmpty && power.isNone then
      if maxDigits < whole.length then .error ⟨.tooManyDigits whole.length, left⟩
      else
        let n : Int := digitsValue whole
        .ok (.int (if negative then -n else n), rest)
    else
      let digits := digitsValue (whole ++ fraction)
      .ok (.decimal ⟨negative, digits, power.getD 0 - fraction.length⟩, rest)

/-- A value that is neither text, array nor object. -/
def readScalar (text : List Char) : Except Stop (Json × List Char) :=
  match text with
  | 'n' :: 'u' :: 'l' :: 'l' :: rest => .ok (.null, rest)
  | 't' :: 'r' :: 'u' :: 'e' :: rest => .ok (.bool true, rest)
  | 'f' :: 'a' :: 'l' :: 's' :: 'e' :: rest => .ok (.bool false, rest)
  | 'N' :: 'a' :: 'N' :: rest => .ok (.notANumber, rest)
  | 'I' :: 'n' :: 'f' :: 'i' :: 'n' :: 'i' :: 't' :: 'y' :: rest => .ok (.infinity false, rest)
  | '-' :: 'I' :: 'n' :: 'f' :: 'i' :: 'n' :: 'i' :: 't' :: 'y' :: rest =>
    .ok (.infinity true, rest)
  | '-' :: rest => readMagnitude true (rest.length + 1) rest
  | _ => readMagnitude false text.length text

mutual

/-- A value; the first argument bounds the depth of the reading. -/
def readValue : Nat → List Char → Except Stop (Json × List Char)
  | 0, text => .error ⟨.expectedValue, text.length⟩
  | fuel + 1, text =>
    match text with
    | '"' :: rest => do
      let (s, after) ← readText rest
      return (.str s, after)
    | '[' :: rest =>
      match skipBlanks rest with
      | ']' :: after => .ok (.arr [], after)
      | rest => do
        let (items, after) ← readItems fuel rest
        return (.arr items, after)
    | '\x7b' :: rest =>
      match skipBlanks rest with
      | '\x7d' :: after => .ok (.obj [], after)
      | rest => do
        let (members, after) ← readMembers fuel rest
        return (.obj (unique members), after)
    | text => readScalar text

/-- Values up to the closing bracket. -/
def readItems : Nat → List Char → Except Stop (List Json × List Char)
  | 0, text => .error ⟨.expectedValue, text.length⟩
  | fuel + 1, text => do
    let (item, rest) ← readValue fuel text
    match skipBlanks rest with
    | ']' :: after => return ([item], after)
    | ',' :: rest =>
      let (items, after) ← readItems fuel (skipBlanks rest)
      return (item :: items, after)
    | rest => .error ⟨.expectedComma, rest.length⟩

/-- Members up to the closing brace. -/
def readMembers : Nat → List Char → Except Stop (List (String × Json) × List Char)
  | 0, text => .error ⟨.expectedName, text.length⟩
  | fuel + 1, text =>
    match text with
    | '"' :: rest => do
      let (name, rest) ← readText rest
      match skipBlanks rest with
      | ':' :: rest =>
        let (value, rest) ← readValue fuel (skipBlanks rest)
        match skipBlanks rest with
        | '\x7d' :: after => return ([(name, value)], after)
        | ',' :: rest =>
          let (members, after) ← readMembers fuel (skipBlanks rest)
          return ((name, value) :: members, after)
        | rest => .error ⟨.expectedComma, rest.length⟩
      | rest => .error ⟨.expectedColon, rest.length⟩
    | text => .error ⟨.expectedName, text.length⟩

end

/-- The value that a whole text spells. Every two calls of the reader take up a character, so the
bound on the depth is never met. -/
def parse (text : List Char) : Except Stop Json := do
  let (value, rest) ← readValue (2 * text.length + 2) (skipBlanks text)
  match skipBlanks rest with
  | [] => return value
  | rest => .error ⟨.extraData, rest.length⟩

/-- Where a text is wrong, and how. -/
structure ParseError where
  issue : Issue
  position : Nat
  line : Nat
  column : Nat
  deriving DecidableEq, Repr

/-- The place of a stop in its text: lines and columns are counted from one. -/
def Stop.locate (text : List Char) (stop : Stop) : ParseError :=
  let before := text.take (text.length - stop.left)
  ⟨stop.issue, before.length, before.count '\n' + 1,
    (before.reverse.takeWhile (· != '\n')).length + 1⟩

/-- The cause in words. -/
def Issue.message : Issue → String
  | .expectedValue => "Expecting value"
  | .expectedName => "Expecting property name enclosed in double quotes"
  | .expectedColon => "Expecting ':' delimiter"
  | .expectedComma => "Expecting ',' delimiter"
  | .unterminated => "Unterminated string starting at"
  | .controlCharacter => "Invalid control character at"
  | .badEscape => "Invalid \\escape"
  | .badUnicodeEscape => "Invalid \\uXXXX escape"
  | .extraData => "Extra data"
  | .tooManyDigits count =>
    s!"Exceeds the limit ({maxDigits} digits) for integer string conversion: "
      ++ s!"value has {count} digits; use sys.set_int_max_str_digits() to increase the limit"

/-- The cause and, unless a number is too long, its place. -/
def ParseError.message (e : ParseError) : String :=
  match e.issue with
  | .tooManyDigits _ => e.issue.message
  | issue => s!"{issue.message}: line {e.line} column {e.column} (char {e.position})"

/-- Why bytes are no JSON. -/
inductive ByteError where
  | encoding (error : Text.DecodeError)
  | parse (error : ParseError)

/-- The cause in words. -/
def ByteError.message : ByteError → String
  | .encoding e => e.message
  | .parse e => e.message

/-- The value of a text, with the place of an issue. -/
def parseText (text : List Char) : Except ParseError Json :=
  (parse text).mapError (·.locate text)

/-- The value that bytes spell, in the encoding that they suggest. -/
def parseBytes (bytes : List UInt8) : Except ByteError Json :=
  match Text.Encoding.decode bytes with
  | .error e => .error (.encoding e)
  | .ok text => (parseText text).mapError .parse

end Json

end TeamAccess
