import Neutrino.ProjectionGraph

/-! The compact text of a JSON value, and a text form that reads back a list of known values. -/

namespace Neutrino

/-- The two hexadecimal digits of a control character. -/
def controlDigits (code : Nat) : String :=
  String.ofList [Nat.digitChar (code / 16), Nat.digitChar (code % 16)]

def quoteChar (c : Char) : String :=
  if c = '"' then "\\\""
  else if c = '\\' then "\\\\"
  else if c = '\t' then "\\t"
  else if c = '\n' then "\\n"
  else if c = '\r' then "\\r"
  else if c.toNat < 32 then "\\u00" ++ controlDigits c.toNat
  else c.toString

def quote (text : String) : String :=
  "\"" ++ String.join (text.toList.map quoteChar) ++ "\""

namespace Json

def Number.compact : Number → String
  | .integer value => toString value.toInt
  | .unsigned value => toString value.toNat
  -- The documents printed here hold no doubles.
  | .double value => toString value.num ++ "/" ++ toString value.den

mutual

/-- Members stand in the order given, which for printed values is the sorted one. -/
def compact : Json → String
  | .null => "null"
  | .boolean value => if value then "true" else "false"
  | .number value => value.compact
  | .string value => quote value
  | .array [] => "[]"
  | .array (first :: rest) => "[" ++ (compact first ++ compactElements rest)
  | .object [] => "\x7b\x7d"
  | .object ((key, value) :: rest) =>
      "\x7b" ++ (quote key ++ (":" ++ (compact value ++ compactMembers rest)))

def compactElements : List Json → String
  | [] => "]"
  | element :: rest => "," ++ (compact element ++ compactElements rest)

def compactMembers : List (String × Json) → String
  | [] => "\x7d"
  | (key, value) :: rest =>
      "," ++ (quote key ++ (":" ++ (compact value ++ compactMembers rest)))

end

end Json

namespace Projection

/-- A text form that prints every value and reads back the known ones. -/
def knownText (known : List Json) : JsonText where
  compactJson := Json.compact
  parse text :=
    match known.find? fun json => json.compact = text with
    | some json => .ok json
    | none => .error "unknown text"

theorem knownText_first (json : Json) (rest : List Json) :
    (knownText (json :: rest)).ReadsBack json := by
  simp [JsonText.ReadsBack, knownText]

theorem knownText_second {first json : Json} (rest : List Json)
    (differ : first.compact ≠ json.compact) :
    (knownText (first :: json :: rest)).ReadsBack json := by
  simp [JsonText.ReadsBack, knownText, differ]

end Projection

end Neutrino
