import AriaLocator.Text.Digits
import AriaLocator.Text.Unprintable

/-!
# A text made visible

Reports for people show a name in double quotes with everything that could be mistaken written as an
escape: the quote, the backslash, NUL, tab and line ends by a letter, other characters without a
shape of their own by their code.
-/

namespace AriaLocator.Text

/-- How a character is shown. -/
def escapedChar (c : Char) : List Char :=
  if c = '\x00' then ['\\', '0']
  else if c = '\t' then ['\\', 't']
  else if c = '\r' then ['\\', 'r']
  else if c = '\n' then ['\\', 'n']
  else if c = '\\' then ['\\', '\\']
  else if c = '"' then ['\\', '"']
  else if isUnprintable c then ['\\', 'u', '\x7b'] ++ hexDigits c.toNat ++ ['\x7d']
  else [c]

/-- A text in double quotes with escapes. -/
def escaped (s : String) : String :=
  "\"" ++ String.ofList (s.toList.flatMap escapedChar) ++ "\""

end AriaLocator.Text
