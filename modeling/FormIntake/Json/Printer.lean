/-
  FormIntake — writing JSON.

  Values are written without blanks.  In a text only quotes, backslashes and
  controls are escaped.
-/
import FormIntake.Json.Value
import FormIntake.Number.Shortest

namespace FormIntake.Json

/-- The escape of a control that has no letter. -/
def controlEscape (c : Char) : List Char :=
  ['\\', 'u'] ++ List.replicate (4 - (Text.hexDigits c.toNat).length) '0' ++
    Text.hexDigits c.toNat

/-- One character of a text. -/
def writeChar (c : Char) : List Char :=
  if c = '"' then ['\\', '"']
  else if c = '\\' then ['\\', '\\']
  else if c = '\x08' then ['\\', 'b']
  else if c = '\x0c' then ['\\', 'f']
  else if c = '\n' then ['\\', 'n']
  else if c = '\r' then ['\\', 'r']
  else if c = '\t' then ['\\', 't']
  else if c.toNat < 32 then controlEscape c
  else [c]

/-- A text in quotes. -/
def writeText (s : String) : List Char := '"' :: s.toList.flatMap writeChar ++ ['"']

/-- A whole number. -/
def writeInt (i : Int) : List Char :=
  if i < 0 then '-' :: Text.digits i.natAbs else Text.digits i.natAbs

/-- A number. -/
def writeNumber : Number → List Char
  | .int i => writeInt i
  | .real d => d.text.toList

mutual

/-- A value. -/
def write : Json → List Char
  | null => "null".toList
  | bool b => (if b then "true" else "false").toList
  | number n => writeNumber n
  | text s => writeText s
  | array [] => ['[', ']']
  | array (v :: rest) => '[' :: write v ++ writeItems rest
  | object [] => ['\x7b', '\x7d']
  | object ((key, v) :: rest) => '\x7b' :: writeText key ++ ':' :: write v ++ writeMembers rest

/-- The items after the first one, and the closing bracket. -/
def writeItems : List Json → List Char
  | [] => [']']
  | v :: rest => ',' :: write v ++ writeItems rest

/-- The members after the first one, and the closing brace. -/
def writeMembers : List (String × Json) → List Char
  | [] => ['\x7d']
  | (key, v) :: rest => ',' :: writeText key ++ ':' :: write v ++ writeMembers rest

end

/-- The text of a value. -/
def print (v : Json) : String := String.ofList v.write

end FormIntake.Json
