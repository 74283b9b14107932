import LoxReader.Text

/-!
# Positions

Lines and columns are counted from one, a column in characters. Only a line feed starts a new
line.
-/

namespace LoxReader

structure Position where
  line : Nat
  column : Nat
  deriving DecidableEq, Repr, Inhabited

namespace Position

/-- The position of the first character of a source. -/
def start : Position := ⟨1, 1⟩

/-- The position behind one character. -/
def next (p : Position) (c : Char) : Position :=
  if c = '\n' then ⟨p.line + 1, 1⟩ else ⟨p.line, p.column + 1⟩

/-- The position behind a text. -/
def after (p : Position) (t : Text) : Position := t.foldl next p

@[simp] theorem after_nil (p : Position) : p.after [] = p := rfl

@[simp] theorem after_cons (p : Position) (c : Char) (t : Text) :
    p.after (c :: t) = (p.next c).after t := rfl

theorem after_append (p : Position) (t u : Text) : p.after (t ++ u) = (p.after t).after u := by
  simp [after]

end Position

end LoxReader
