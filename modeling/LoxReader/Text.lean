/-!
# Texts

A text is the list of its characters, so that every statement about sources, lexemes and
messages is one about lists. Strings appear only where a text enters or leaves the program.
-/

namespace LoxReader

abbrev Text := List Char

namespace Text

/-- The decimal digits of a number, without leading zeros. -/
def ofNat (n : Nat) : Text := Nat.toDigits 10 n

end Text

end LoxReader
