import LoxReader.Token.Basic

/-!
# Expressions

The tree of an expression. Its nodes hold the tokens they were made of, but for the parentheses
of a grouping.
-/

namespace LoxReader

inductive Expr where
  | literal (token : Token)
  | grouping (inner : Expr)
  | unary (operator : Token) (operand : Expr)
  | binary (left : Expr) (operator : Token) (right : Expr)
  deriving DecidableEq, Repr

namespace Expr

/-- Equality of shape and of all tokens, with their places. -/
def equals : Expr → Expr → Bool
  | literal t, literal u => t.equals u
  | grouping d, grouping e => d.equals e
  | unary t d, unary u e => t.equals u && d.equals e
  | binary d t d', binary e u e' => d.equals e && t.equals u && d'.equals e'
  | _, _ => false

end Expr

end LoxReader
