import TeamAccess.Log.Level

/-! # Threshold of the log -/

namespace TeamAccess.Log

/-- A letter in upper case. Beside the ASCII letters some others have ASCII capitals, of which a
ligature has several. -/
def capitals : Char → List Char
  | 'ı' => ['I']
  | 'ſ' => ['S']
  | 'ß' => ['S', 'S']
  | 'ﬀ' => ['F', 'F']
  | 'ﬁ' => ['F', 'I']
  | 'ﬂ' => ['F', 'L']
  | 'ﬃ' => ['F', 'F', 'I']
  | 'ﬄ' => ['F', 'F', 'L']
  | 'ﬅ' | 'ﬆ' => ['S', 'T']
  | c => [c.toUpper]

/-- A text in upper case. -/
def inCapitals (text : String) : String := String.ofList (text.toList.flatMap capitals)

/-- The names that a threshold has. -/
def thresholds : List (String × Nat) :=
  [("CRITICAL", 50), ("FATAL", 50), ("ERROR", 40), ("WARNING", 30), ("WARN", 30), ("INFO", 20),
    ("DEBUG", 10), ("NOTSET", 0)]

/-- Something of the pipeline that has a name like a level and is none. -/
inductive NoLevel where
  | lineFormat
  | lineStyles
  deriving DecidableEq, Repr

namespace NoLevel

/-- What goes by a name without being a level. -/
def ofName? : String → Option NoLevel
  | "BASIC_FORMAT" => some .lineFormat
  | "_STYLES" => some .lineStyles
  | _ => none

/-- The failure in words. -/
def message : NoLevel → String
  | .lineFormat => "Unknown level: '%(levelname)s:%(name)s:%(message)s'"
  | .lineStyles => "Level not an integer or a valid string: "
      ++ "\x7b'%': (<class 'logging.PercentStyle'>, '%(levelname)s:%(name)s:%(message)s'), "
      ++ "'\x7b': (<class 'logging.StrFormatStyle'>, "
      ++ "'\x7blevelname\x7d:\x7bname\x7d:\x7bmessage\x7d'), "
      ++ "'$': (<class 'logging.StringTemplateStyle'>, "
      ++ "'$\x7blevelname\x7d:$\x7bname\x7d:$\x7bmessage\x7d')\x7d"

end NoLevel

/-- The weight that an event needs to be kept. A text that names no level stands for INFO; the
names of other things of the pipeline are refused. -/
def threshold (level : String) : Except NoLevel Nat :=
  let name := inCapitals level
  match NoLevel.ofName? name with
  | some error => .error error
  | none => .ok (((thresholds.find? (·.1 = name)).map (·.2)).getD Level.info.weight)

end TeamAccess.Log
