import LoxReader.Position
import LoxReader.Text.Quoted

/-!
# Places in a text

A place is a point between two characters of a text: how many characters lie before it, which
ones follow, and the position of the first of those. Places are values: keeping one is enough to
come back to it.
-/

namespace LoxReader

structure Place where
  offset : Nat
  position : Position
  rest : Text
  deriving DecidableEq, Repr

namespace Place

/-- The place before the first character. -/
def start (source : Text) : Place := ⟨0, .start, source⟩

def isAtEnd (a : Place) : Bool := a.rest.isEmpty

/-! ### Looking ahead -/

def peek? (a : Place) : Option Char := a.rest[0]?

def peekSecond? (a : Place) : Option Char := a.rest[1]?

/-! ### Moving on -/

/-- The place behind the next character; the end of the text stays where it is. -/
def next (a : Place) : Place :=
  match a.rest with
  | [] => a
  | c :: rest => ⟨a.offset + 1, a.position.next c, rest⟩

/-- Moves on if the next character is `c`. -/
def skip? (a : Place) (c : Char) : Option Place :=
  if a.peek? = some c then some a.next else none

/-- Moves on over the longest run of characters that satisfy `p`. -/
def skipWhile (p : Char → Bool) (a : Place) : Place :=
  let run := a.rest.takeWhile p
  ⟨a.offset + run.length, a.position.after run, a.rest.dropWhile p⟩

/-- The text from `a` to `b`, two places in one text, unless `b` lies before `a`. -/
def textUntil? (a b : Place) : Option Text :=
  if a.offset ≤ b.offset then some (a.rest.take (b.offset - a.offset)) else none

/-! ### Descriptions -/

/-- A place on one line: its line and column. -/
def describe (a : Place) : Text :=
  "Cursor \x7b line: Line(".toList ++ Text.ofNat a.position.line
    ++ "), col: Col(".toList ++ Text.ofNat a.position.column ++ ") \x7d".toList

/-- A place over several lines, with the text that follows it. -/
def describeFully (a : Place) : Text :=
  "Cursor \x7b\n    line: Line(\n        ".toList ++ Text.ofNat a.position.line
    ++ ",\n    ),\n    col: Col(\n        ".toList ++ Text.ofNat a.position.column
    ++ ",\n    ),\n    rest: ".toList ++ a.rest.quoted ++ ",\n\x7d".toList

end Place

end LoxReader
