import LoxReader.Text
import LoxReader.Text.Printable

/-!
# Quoted texts

A quoted text stands between double quotes on one line: what would break the line or the quotes,
or could not be seen, is written as an escape.
-/

namespace LoxReader

namespace Text

/-- How a character is written between double quotes. -/
def escape (c : Char) : Text :=
  if c = '\x00' then ['\\', '0']
  else if c = '\t' then ['\\', 't']
  else if c = '\r' then ['\\', 'r']
  else if c = '\n' then ['\\', 'n']
  else if c = '"' then ['\\', '"']
  else if c = '\\' then ['\\', '\\']
  else if isPrintable c then [c]
  else '\\' :: 'u' :: '\x7b' :: Nat.toDigits 16 c.toNat ++ ['\x7d']

def quoted (t : Text) : Text := '"' :: t.flatMap escape ++ ['"']

end Text

end LoxReader
