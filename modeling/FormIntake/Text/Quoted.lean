/-
  FormIntake — a text shown in quotes inside a message.

  Quotes and backslashes are escaped, the usual controls have a letter of
  their own, and whatever has no shape is given by its number in base sixteen.
-/
import FormIntake.Text.Invisible
import FormIntake.Text.Numeral

namespace FormIntake.Text

/-- One character of a quoted text. -/
def quotedChar (c : Char) : List Char :=
  if c = '"' then ['\\', '"']
  else if c = '\\' then ['\\', '\\']
  else if c = '\t' then ['\\', 't']
  else if c = '\r' then ['\\', 'r']
  else if c = '\n' then ['\\', 'n']
  else if c = '\x00' then ['\\', '0']
  else if isInvisible c then ['\\', 'u', '\x7b'] ++ hexDigits c.toNat ++ ['\x7d']
  else [c]

/-- The text in quotes, with every character that does not stand for itself
    escaped. -/
def quoted (s : String) : String :=
  String.ofList ('"' :: s.toList.flatMap quotedChar ++ ['"'])

end FormIntake.Text
