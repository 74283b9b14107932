import LoxReader.Expr.Basic

/-!
# The grammar of expressions

Binary operators stand on four levels and group to the left; a looser level has operands of the
next tighter one. Unary operators bind tighter than all of them, and parentheses start over at
the loosest level. What a token does depends on its kind alone.
-/

namespace LoxReader

/-- How many unary operators and groupings may enclose one another. -/
def maxNesting : Nat := 100

/-- The levels of binary operators, the loosest first. -/
inductive Level where
  | equality
  | comparison
  | sum
  | product
  deriving DecidableEq, Repr

namespace Kind

/-- The level on which a kind is a binary operator. -/
def level? : Kind → Option Level
  | symbol .bangEqual | symbol .equalEqual => some .equality
  | symbol .greater | symbol .greaterEqual | symbol .less | symbol .lessEqual => some .comparison
  | symbol .minus | symbol .plus => some .sum
  | symbol .slash | symbol .star => some .product
  | _ => none

def isUnary : Kind → Bool
  | symbol .bang | symbol .minus => true
  | _ => false

/-- Is this kind an expression of its own? -/
def isLiteral : Kind → Bool
  | number | string | keyword .true | keyword .false | keyword .nil => true
  | _ => false

end Kind

end LoxReader
