import LoxReader.Diagnostic
import LoxReader.Expr.Grammar

/-!
# Reading an expression from tokens

Every rule of the grammar reads from the front of the tokens that are left. It returns a tree and
the tokens behind it, fewer than before, or the tokens at which it had to stop and the reason.
The nesting that is still allowed is handed down, so that it bounds the recursion; the loop over
the operators of a level is bounded by the tokens.
-/

namespace LoxReader

namespace Parse

inductive Reason where
  | expectedExpression
  | expectedRightParen
  | expectedEnd
  | tooDeeplyNested
  deriving DecidableEq, Repr

def Reason.message : Reason → Text
  | expectedExpression => "Expect expression.".toList
  | expectedRightParen => "Expect ')' after expression.".toList
  | expectedEnd => "Expect end of expression.".toList
  | tooDeeplyNested => "Expression nests too deeply.".toList

/-- Where the tokens stop matching the grammar: the tokens from there on, and why. -/
structure Failure where
  reason : Reason
  rest : List Token
  deriving DecidableEq, Repr

/-- A rule of the grammar: what it reads from the front of the tokens, always one at least. -/
structure Rule where
  read : List Token → Except Failure (Expr × List Token)
  length_of_read {ts : List Token} {e : Expr} {rest : List Token} :
    read ts = .ok (e, rest) → rest.length < ts.length

/-! ### Binary operators -/

/-- Goes on behind the tree `left` with the operators of a level, as long as there is one. -/
def extend (level : Level) (operand : Rule) (left : Expr) (ts : List Token) :
    Except Failure (Expr × List Token) :=
  match ts with
  | [] => .ok (left, [])
  | op :: rest =>
    if op.kind.level? = some level then
      match _read : operand.read rest with
      | .error failure => .error failure
      | .ok (right, behind) => extend level operand (.binary left op right) behind
    else .ok (left, op :: rest)
termination_by ts.length
decreasing_by exact Nat.lt_succ_of_lt (operand.length_of_read _read)

theorem length_of_extend {level : Level} {operand : Rule} {left e : Expr} {ts rest : List Token}
    (h : extend level operand left ts = .ok (e, rest)) : rest.length ≤ ts.length := by
  fun_induction extend level operand left ts with
  | case1 => cases h; exact Nat.le_refl _
  | case2 => cases h
  | case3 left op ts hop right behind hright ih =>
    have hlt := operand.length_of_read hright
    have hle := ih h
    rw [List.length_cons]
    omega
  | case4 => cases h; exact Nat.le_refl _

/-- Operands with operators of one level between them, grouped to the left. -/
def chain (level : Level) (operand : Rule) : Rule where
  read ts :=
    match operand.read ts with
    | .error failure => .error failure
    | .ok (first, rest) => extend level operand first rest
  length_of_read h := by
    split at h
    · cases h
    · next hfirst =>
      exact Nat.lt_of_le_of_lt (length_of_extend h) (operand.length_of_read hfirst)

/-- An expression with the given operands of its tightest level. -/
def expressionOver (operand : Rule) : Rule :=
  chain .equality (chain .comparison (chain .sum (chain .product operand)))

/-! ### Operands -/

/-- The closing parenthesis behind the inside of a grouping. -/
def close : Expr × List Token → Except Failure (Expr × List Token)
  | (e, t :: rest) =>
    if t.kind = .symbol .rightParen then .ok (.grouping e, rest)
    else .error ⟨.expectedRightParen, t :: rest⟩
  | (_, []) => .error ⟨.expectedRightParen, []⟩

theorem length_of_close {inner : Expr × List Token} {e : Expr} {rest : List Token}
    (h : close inner = .ok (e, rest)) : rest.length < inner.2.length := by
  unfold close at h
  split at h
  · split at h
    · cases h; exact Nat.lt_succ_self _
    · cases h
  · cases h

/-- A literal, a unary operator with its operand, or a grouping. What a unary operator or a
grouping encloses is read by `inner?`, unless they may not nest any more. -/
def readOperand (inner? : Option Rule) : List Token → Except Failure (Expr × List Token)
  | [] => .error ⟨.expectedExpression, []⟩
  | t :: rest =>
    if t.kind.isLiteral then .ok (.literal t, rest)
    else if t.kind.isUnary then
      match inner? with
      | none => .error ⟨.tooDeeplyNested, rest⟩
      | some inner => (inner.read rest).map fun (e, behind) => (.unary t e, behind)
    else if t.kind = .symbol .leftParen then
      match inner? with
      | none => .error ⟨.tooDeeplyNested, rest⟩
      | some inner => ((expressionOver inner).read rest).bind close
    else .error ⟨.expectedExpression, t :: rest⟩

theorem length_of_readOperand {inner? : Option Rule} {ts : List Token} {e : Expr}
    {rest : List Token} (h : readOperand inner? ts = .ok (e, rest)) :
    rest.length < ts.length := by
  unfold readOperand at h
  split at h
  · cases h
  next t ts =>
  split at h
  · cases h; exact Nat.lt_succ_self _
  split at h
  · split at h
    · cases h
    next inner =>
    cases hinner : inner.read ts with
    | error => rw [hinner] at h; cases h
    | ok reading =>
      rw [hinner] at h
      cases h
      exact Nat.lt_succ_of_lt (inner.length_of_read hinner)
  split at h
  · split at h
    · cases h
    next inner =>
    cases hinner : (expressionOver inner).read ts with
    | error => rw [hinner] at h; cases h
    | ok reading =>
      rw [hinner] at h
      exact Nat.lt_succ_of_lt
        (Nat.lt_trans (length_of_close h) ((expressionOver inner).length_of_read hinner))
  · cases h

/-- An operand with at most `nesting` unary operators and groupings around one another. -/
def operand : Nat → Rule
  | 0 => ⟨readOperand none, length_of_readOperand⟩
  | nesting + 1 => ⟨readOperand (some (operand nesting)), length_of_readOperand⟩

/-- An expression with at most `nesting` unary operators and groupings around one another. -/
def expression (nesting : Nat) : Rule := expressionOver (operand nesting)

/-! ### Whole sequences of tokens -/

/-- The first token at which a sequence stops being an expression, how many tokens lie before it,
and the reason. -/
structure Error where
  reason : Reason
  index : Nat
  token : Token
  deriving DecidableEq, Repr

namespace Error

def diagnostic (e : Error) : Diagnostic :=
  ⟨e.token.position.line, if e.token.isEof then .atEnd else .atLexeme e.token.lexeme,
    e.reason.message⟩

def text (e : Error) : Text := e.diagnostic.text

end Error

/-- A failure inside the given tokens; with none left it lies at the end. -/
def Failure.inside (tokens : Tokens) (f : Failure) : Error :=
  ⟨f.reason, tokens.body.length - f.rest.length, f.rest.headD tokens.eof⟩

end Parse

/-- The expression that the tokens are, all of them. -/
def parse (tokens : Tokens) : Except Parse.Error Expr :=
  match (Parse.expression maxNesting).read tokens.body with
  | .error failure => .error (failure.inside tokens)
  | .ok (e, []) => .ok e
  | .ok (_, rest) => .error (Parse.Failure.inside tokens ⟨.expectedEnd, rest⟩)

end LoxReader
