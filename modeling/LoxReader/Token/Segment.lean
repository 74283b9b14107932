import LoxReader.Token.Basic

/-!
# Segments of a source

A source is cut from left to right into segments: tokens as long as possible, blanks, comments up
to the end of their line, single characters that nothing can start with, and at most one string
that is never closed. The first characters alone decide where a segment ends, and every segment
holds at least one character.
-/

namespace LoxReader

/-- What a segment is. -/
inductive Shape where
  | token (content : Content)
  | blank
  | comment
  | stray (c : Char)
  | unclosed
  deriving DecidableEq, Repr

structure Segment where
  shape : Shape
  text : Text
  position : Position
  deriving DecidableEq, Repr

/-! ### Classes of characters -/

def isBlank (c : Char) : Bool := c = ' ' || c = '\t' || c = '\r' || c = '\n'

/-- An ASCII letter or an underscore. -/
def startsName (c : Char) : Bool := c.isAlpha || c = '_'

/-- What may follow in a name: digits too. -/
def continuesName (c : Char) : Bool := c.isAlphanum || c = '_'

/-! ### Cutting one segment -/

/-- A segment behind its first character: its shape, the characters taken, and those left. -/
structure Cut where
  shape : Shape
  taken : Text
  left : Text
  deriving DecidableEq, Repr

namespace Cut

/-- A number: digits, and a point only where another digit follows it. -/
def number (c : Char) (rest : Text) : Cut :=
  let digits := rest.takeWhile Char.isDigit
  match rest.dropWhile Char.isDigit with
  | '.' :: d :: left =>
    if d.isDigit then
      let fraction := d :: left.takeWhile Char.isDigit
      ⟨.token (.number (.ofDecimal (.ofDigits (c :: digits) fraction))),
        digits ++ '.' :: fraction, left.dropWhile Char.isDigit⟩
    else ⟨.token (.number (.ofDecimal (.ofDigits (c :: digits) []))), digits, '.' :: d :: left⟩
  | left => ⟨.token (.number (.ofDecimal (.ofDigits (c :: digits) []))), digits, left⟩

/-- A keyword or an identifier. -/
def name (c : Char) (rest : Text) : Cut :=
  let others := rest.takeWhile continuesName
  let content :=
    match Keyword.ofText? (c :: others) with
    | some k => .keyword k
    | none => .identifier
  ⟨.token content, others, rest.dropWhile continuesName⟩

/-- A string, behind its opening quote. -/
def string (rest : Text) : Cut :=
  match rest.dropWhile (· ≠ '"') with
  | [] => ⟨.unclosed, rest, []⟩
  | quote :: left =>
    let value := rest.takeWhile (· ≠ '"')
    ⟨.token (.string value), value ++ [quote], left⟩

/-- A comment, behind its first slash. -/
def comment (rest : Text) : Cut :=
  ⟨.comment, rest.takeWhile (· ≠ '\n'), rest.dropWhile (· ≠ '\n')⟩

/-- A symbol, with an equals sign if it takes one, or a character that starts nothing. -/
def symbol (c : Char) (rest : Text) : Cut :=
  match Symbol.ofChar? c with
  | none => ⟨.stray c, [], rest⟩
  | some s =>
    match s.withEqual?, rest with
    | some t, '=' :: left => ⟨.token (.symbol t), ['='], left⟩
    | _, _ => ⟨.token (.symbol s), [], rest⟩

end Cut

/-- Cuts the first segment off the text that starts with `c`. -/
def cut (c : Char) (rest : Text) : Cut :=
  if isBlank c then ⟨.blank, [], rest⟩
  else if c.isDigit then .number c rest
  else if startsName c then .name c rest
  else if c = '"' then .string rest
  else if c = '/' ∧ rest.head? = some '/' then .comment rest
  else .symbol c rest

namespace Cut

theorem number_append (c : Char) (rest : Text) :
    (number c rest).taken ++ (number c rest).left = rest := by
  unfold number
  have h := List.takeWhile_append_dropWhile (p := Char.isDigit) (l := rest)
  split
  next d left heq =>
    rw [heq] at h
    split
    · simpa using h
    · exact h
  next => exact h

theorem name_append (c : Char) (rest : Text) :
    (name c rest).taken ++ (name c rest).left = rest :=
  List.takeWhile_append_dropWhile

theorem string_append (rest : Text) : (string rest).taken ++ (string rest).left = rest := by
  unfold string
  have h := List.takeWhile_append_dropWhile (p := (· ≠ '"')) (l := rest)
  split
  next => simp
  next quote left heq =>
    rw [heq] at h
    simpa using h

theorem comment_append (rest : Text) : (comment rest).taken ++ (comment rest).left = rest :=
  List.takeWhile_append_dropWhile

theorem symbol_append (c : Char) (rest : Text) :
    (symbol c rest).taken ++ (symbol c rest).left = rest := by
  unfold symbol
  split
  · rfl
  · split <;> rfl

end Cut

/-- Cutting loses nothing. -/
theorem cut_append (c : Char) (rest : Text) : (cut c rest).taken ++ (cut c rest).left = rest := by
  unfold cut
  split
  · rfl
  split
  · exact Cut.number_append c rest
  split
  · exact Cut.name_append c rest
  split
  · exact Cut.string_append rest
  split
  · exact Cut.comment_append rest
  · exact Cut.symbol_append c rest

theorem cut_left_length (c : Char) (rest : Text) : (cut c rest).left.length ≤ rest.length := by
  have h := congrArg List.length (cut_append c rest)
  rw [List.length_append] at h
  omega

/-! ### Cutting a source -/

/-- The segments of a text whose first character stands at `p`. -/
def segments (p : Position) : Text → List Segment
  | [] => []
  | c :: rest =>
    let first := cut c rest
    let text := c :: first.taken
    ⟨first.shape, text, p⟩ :: segments (p.after text) first.left
termination_by source => source.length
decreasing_by exact Nat.lt_succ_of_le (cut_left_length c rest)

end LoxReader
