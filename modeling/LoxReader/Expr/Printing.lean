import LoxReader.Expr.Basic

/-!
# Expressions as texts

A tree has two texts: one in brackets with the operator in front, which shows its shape, and one
with the operators between the operands, as in a source. Neither adds parentheses of its own
around a grouping. Both are written from the back, onto the text that follows.
-/

namespace LoxReader

namespace Expr

/-! ### Operators in front -/

/-- What opens the bracketed form of a grouping. -/
def groupingHead : Text := "(group ".toList

/-- The bracketed form of a tree, in front of `tail`. -/
def bracketedOnto (tail : Text) : Expr → Text
  | literal t => t.lexeme ++ tail
  | grouping e => groupingHead ++ e.bracketedOnto (')' :: tail)
  | unary op e => '(' :: op.lexeme ++ ' ' :: e.bracketedOnto (')' :: tail)
  | binary l op r =>
    '(' :: op.lexeme ++ ' ' :: l.bracketedOnto (' ' :: r.bracketedOnto (')' :: tail))

/-- The tree in brackets: operator first, operands behind it. -/
def bracketed (e : Expr) : Text := e.bracketedOnto []

theorem bracketedOnto_eq (tail : Text) (e : Expr) :
    e.bracketedOnto tail = e.bracketed ++ tail := by
  induction e generalizing tail with
  | literal t => simp [bracketed, bracketedOnto]
  | grouping e ih =>
    simp only [bracketed, bracketedOnto]
    rw [ih (')' :: tail), ih [')']]
    simp
  | unary op e ih =>
    simp only [bracketed, bracketedOnto]
    rw [ih (')' :: tail), ih [')']]
    simp
  | binary l op r ihl ihr =>
    simp only [bracketed, bracketedOnto]
    rw [ihl, ihr (')' :: tail), ihl (' ' :: _), ihr [')']]
    simp

@[simp] theorem bracketed_literal (t : Token) : (literal t).bracketed = t.lexeme := by
  simp [bracketed, bracketedOnto]

@[simp] theorem bracketed_grouping (e : Expr) :
    (grouping e).bracketed = groupingHead ++ e.bracketed ++ [')'] := by
  simp [bracketed, bracketedOnto, bracketedOnto_eq [')']]

@[simp] theorem bracketed_unary (op : Token) (e : Expr) :
    (unary op e).bracketed = '(' :: op.lexeme ++ ' ' :: e.bracketed ++ [')'] := by
  simp [bracketed, bracketedOnto, bracketedOnto_eq [')']]

@[simp] theorem bracketed_binary (l : Expr) (op : Token) (r : Expr) :
    (binary l op r).bracketed
      = '(' :: op.lexeme ++ ' ' :: l.bracketed ++ ' ' :: r.bracketed ++ [')'] := by
  simp [bracketed, bracketedOnto, bracketedOnto_eq [')'], bracketedOnto_eq (' ' :: _)]

/-! ### Operators between -/

/-- The infix form of a tree, in front of `tail`. -/
def sourceOnto (tail : Text) : Expr → Text
  | literal t => t.lexeme ++ tail
  | grouping e => '(' :: e.sourceOnto (')' :: tail)
  | unary op e => op.lexeme ++ e.sourceOnto tail
  | binary l op r => l.sourceOnto (' ' :: op.lexeme ++ ' ' :: r.sourceOnto tail)

/-- The tree as infix source, with a blank on either side of a binary operator. -/
def source (e : Expr) : Text := e.sourceOnto []

theorem sourceOnto_eq (tail : Text) (e : Expr) : e.sourceOnto tail = e.source ++ tail := by
  induction e generalizing tail with
  | literal t => simp [source, sourceOnto]
  | grouping e ih =>
    simp only [source, sourceOnto]
    rw [ih (')' :: tail), ih [')']]
    simp
  | unary op e ih =>
    simp only [source, sourceOnto]
    rw [ih tail, ih []]
    simp
  | binary l op r ihl ihr =>
    simp only [source, sourceOnto]
    rw [ihl, ihr tail, ihl (' ' :: _ ++ _), ihr []]
    simp

@[simp] theorem source_literal (t : Token) : (literal t).source = t.lexeme := by
  simp [source, sourceOnto]

@[simp] theorem source_grouping (e : Expr) :
    (grouping e).source = '(' :: e.source ++ [')'] := by
  simp [source, sourceOnto, sourceOnto_eq [')']]

@[simp] theorem source_unary (op : Token) (e : Expr) :
    (unary op e).source = op.lexeme ++ e.source := by
  simp [source, sourceOnto]

@[simp] theorem source_binary (l : Expr) (op : Token) (r : Expr) :
    (binary l op r).source = l.source ++ ' ' :: op.lexeme ++ ' ' :: r.source := by
  rw [source, sourceOnto, sourceOnto_eq, sourceOnto_eq]
  simp

end Expr

end LoxReader
