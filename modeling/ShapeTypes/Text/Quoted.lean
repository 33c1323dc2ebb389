import ShapeTypes.Text.Hex
import ShapeTypes.Text.Hidden

/-!
# Quoted text

Text between double quotes as messages and default values show it: quotes, backslashes and the common
controls by a letter, everything else that would not show by its code point in braces.

* `quotedChar` — one character;
* `quoted` — a whole text with its quotes.
-/

namespace ShapeTypes.Text

/-- A character inside quotes. A single quote stands for itself. -/
def quotedChar (c : Char) : List Char :=
  if c = '"' then ['\\', '"']
  else if c = '\\' then ['\\', '\\']
  else if c = '\n' then ['\\', 'n']
  else if c = '\r' then ['\\', 'r']
  else if c = '\t' then ['\\', 't']
  else if c = '\x00' then ['\\', '0']
  else if isHidden c then ['\\', 'u', '\x7b'] ++ hex c.toNat ++ ['\x7d']
  else [c]

/-- The text between double quotes, with what would not show escaped. -/
def quoted (s : String) : String :=
  String.ofList ('"' :: s.toList.flatMap quotedChar ++ ['"'])

end ShapeTypes.Text
