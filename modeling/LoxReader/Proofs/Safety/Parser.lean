import LoxReader.Expr.Parse
import LoxReader.Proofs.Grammar.Tree
import LoxReader.Proofs.Lexical.Tiling
import LoxReader.Proofs.Safety.Access

/-!
# A parser with guards

The rules of the grammar as they run on an index into the tokens and a count of the openers around
it: each access to the tokens and each decrement is guarded, and there is no result once a guard
fails. In single steps no guard fails as long as a mark of their end closes the tokens.
-/

namespace LoxReader

namespace Guarded

/-- The index of the next token, and how many unary operators and groupings it lies in. -/
structure Cursor where
  current : Nat
  depth : Nat

/-- A rule at work: it ends with a result or an error, unless a guard fails. -/
abbrev Parser := ExceptT Parse.Error (StateT Cursor Option)

namespace Parser

variable (tokens : Tokens)

/-! ### Steps -/

def peek : Parser Token := do liftM tokens.toList[(← get).current]?

def isAtEnd : Parser Bool := do return (← peek tokens).isEof

def check (kind : Kind) : Parser Bool := do
  return !(← isAtEnd tokens) && (← peek tokens).kind = kind

def advance : Parser Token := do
  let t ← peek tokens
  unless ← isAtEnd tokens do
    modify fun s => { s with current := s.current + 1 }
  return t

def matchAny (kinds : List Kind) : Parser (Option Token) := do
  if ← kinds.anyM (check tokens) then return some (← advance tokens) else return none

def fail {α : Type} (reason : Parse.Reason) : Parser α := do
  throw ⟨reason, (← get).current, ← peek tokens⟩

def consume (kind : Kind) (reason : Parse.Reason) : Parser Token := do
  if ← check tokens kind then advance tokens else fail tokens reason

/-- Runs a rule one level deeper, unless this is too deep, and comes back even if it fails. -/
def nested (rule : Parser Expr) : Parser Expr := do
  if maxNesting ≤ (← get).depth then fail tokens .tooDeeplyNested
  else
    modify fun s => { s with depth := s.depth + 1 }
    let outcome ← liftM rule.run
    let depth ← liftM (subtract? (← get).depth 1)
    modify fun s => { s with depth }
    liftExcept outcome

/-! ### Rules -/

/-- Goes on behind the tree with operators of these kinds, as long as there are turns. -/
def extend (kinds : List Kind) (operand : Parser Expr) : Nat → Expr → Parser Expr
  | 0, _            => liftM (none : Option Expr)
  | turns + 1, left => do
    match ← matchAny tokens kinds with
    | some op => extend kinds operand turns (.binary left op (← operand))
    | none    => return left

def chain (level : Level) (operand : Parser Expr) : Parser Expr := do
  extend tokens level.operators operand tokens.toList.length (← operand)

/-- The rules of the grammar, from the loosest to the tightest. -/
inductive Nonterminal where
  | expression
  | binary (level : Level)
  | unary
  | primary
  deriving DecidableEq, Repr

namespace Nonterminal

/-- The rule for the operands of a level. -/
def operand : Level → Nonterminal
  | .equality   => .binary .comparison
  | .comparison => .binary .sum
  | .sum        => .binary .product
  | .product    => .unary

/-- What a rule does, with `call` for the rules that it calls. -/
def body (call : Nonterminal → Parser Expr) : Nonterminal → Parser Expr
  | .expression   => call (.binary .equality)
  | .binary level => chain tokens level (call (operand level))
  | .unary        => do
    match ← matchAny tokens unaryOperators with
    | some op => return .unary op (← nested tokens (call .unary))
    | none    => call .primary
  | .primary      => do
    match ← matchAny tokens literalKinds with
    | some value => return .literal value
    | none =>
      if (← matchAny tokens [.symbol .leftParen]).isSome then
        let e ← nested tokens (call .expression)
        let _ ← consume tokens (.symbol .rightParen) .expectedRightParen
        return .grouping e
      else fail tokens .expectedExpression

/-- A rule that is called, with `calls` rules at work inside one another at most. The depth is
guarded too: there is no result once a rule is called at one above the limit. -/
def run : Nat → Nonterminal → Parser Expr
  | 0, _            => liftM (none : Option Expr)
  | calls + 1, rule => do
    if maxNesting < (← get).depth then liftM (none : Option Expr)
    else body tokens (run calls) rule

end Nonterminal

/-- One expression, and nothing behind it. -/
def whole (calls : Nat) : Parser Expr := do
  let e ← Nonterminal.run tokens calls .expression
  if ← isAtEnd tokens then return e else fail tokens .expectedEnd

end Parser

/-- The expression that the tokens are, or the first error, if no guard fails. From one opener to
the next at most seven rules are called inside one another. -/
def parse (tokens : Tokens) : Option (Except Parse.Error Expr) := do
  return (← (Parser.whole tokens (7 * (maxNesting + 1))).run.run ⟨0, 0⟩).1

namespace Parser

/-! ### Runs -/

/-- From `s` the parser runs to `t` with this outcome, and no guard fails. -/
def Runs {α : Type} (x : Parser α) (s : Cursor) (outcome : Except Parse.Error α) (t : Cursor) :
    Prop :=
  x.run.run s = some (outcome, t)

section

variable {α β : Type} {s t u : Cursor} {x : Parser α} {f : α → Parser β} {a : α}
  {error : Parse.Error} {outcome : Except Parse.Error β}

lemma runs_pure (a : α) (s : Cursor) : Runs (pure a) s (.ok a) s := rfl

lemma runs_get (s : Cursor) : Runs get s (.ok s) s := rfl

lemma runs_modify (f : Cursor → Cursor) (s : Cursor) : Runs (modify f) s (.ok ()) (f s) := rfl

lemma runs_throw (error : Parse.Error) (s : Cursor) :
    Runs (throw error : Parser α) s (.error error) s := rfl

lemma runs_some {o : Option α} (h : o = some a) (s : Cursor) :
    Runs (liftM o) s (.ok a) s := by
  subst h
  rfl

lemma Runs.bind (h : Runs x s (.ok a) t) (hf : Runs (f a) t outcome u) :
    Runs (x >>= f) s outcome u := by
  rw [Runs] at h hf
  simp only [Runs, ExceptT.run_bind, StateT.run_bind, h, Option.bind_eq_bind, Option.bind_some, hf]

lemma Runs.bind_error (h : Runs x s (.error error) t) : Runs (x >>= f) s (.error error) t := by
  rw [Runs] at h
  simp only [Runs, ExceptT.run_bind, StateT.run_bind, h, Option.bind_eq_bind, Option.bind_some]
  rfl

/-- The outcome of a run is a value, whatever it is. -/
lemma Runs.run {outcome : Except Parse.Error α} (h : Runs x s outcome t) :
    Runs (liftM x.run) s (.ok outcome) t := by
  rw [Runs] at h
  change (x.run.run s).bind _ = _
  rw [h]
  rfl

end

/-- The cursor in front of the tokens that are left. -/
def facing (tokens : Tokens) (ts : List Token) (depth : Nat) : Cursor :=
  ⟨tokens.body.length - ts.length, depth⟩

variable {tokens : Tokens} {ts rest : List Token} {t : Token} {kind : Kind} {kinds : List Kind}
  {depth : Nat} {reason : Parse.Reason}

/-! ### Single steps -/

lemma getElem?_facing (h : ts <:+ tokens.body) :
    tokens.toList[tokens.body.length - ts.length]? = some (ts.headD tokens.eof) := by
  obtain ⟨front, hbody⟩ := h
  have hlist : tokens.toList = front ++ (ts ++ [tokens.eof]) := by
    rw [Tokens.toList, ← hbody, List.append_assoc]
  have hlength : tokens.body.length - ts.length = front.length := by simp [← hbody]
  rw [hlist, hlength]
  cases ts <;> simp

lemma runs_peek (h : ts <:+ tokens.body) :
    Runs (peek tokens) (facing tokens ts depth) (.ok (ts.headD tokens.eof))
      (facing tokens ts depth) :=
  (runs_get _).bind (runs_some (getElem?_facing h) _)

lemma runs_isAtEnd (htokens : tokens.Terminated) (h : ts <:+ tokens.body) :
    Runs (isAtEnd tokens) (facing tokens ts depth) (.ok ts.isEmpty) (facing tokens ts depth) := by
  have heof : (ts.headD tokens.eof).isEof = ts.isEmpty := by
    cases ts with
    | nil => exact htokens.eof
    | cons t ts => exact Bool.eq_false_iff.mpr (htokens.body t (h.subset List.mem_cons_self))
  rw [← heof]
  exact (runs_peek h).bind (runs_pure _ _)

lemma runs_check (htokens : tokens.Terminated) (h : ts <:+ tokens.body) (kind : Kind) :
    Runs (check tokens kind) (facing tokens ts depth) (.ok (ts.head?.any (·.kind = kind)))
      (facing tokens ts depth) := by
  refine (runs_isAtEnd htokens h).bind ((runs_peek h).bind ?_)
  cases ts <;> exact runs_pure _ _

lemma runs_anyM (htokens : tokens.Terminated) (h : ts <:+ tokens.body) (kinds : List Kind) :
    Runs (kinds.anyM (check tokens)) (facing tokens ts depth) (.ok (ts.head?.any (·.kind ∈ kinds)))
      (facing tokens ts depth) := by
  induction kinds with
  | nil => cases ts <;> exact runs_pure _ _
  | cons kind kinds ih =>
    refine (runs_check htokens h kind).bind ?_
    cases ts with
    | nil => exact ih
    | cons t ts =>
      by_cases hkind : t.kind = kind
      · simp only [List.head?_cons, Option.any_some, hkind, decide_true, List.mem_cons, true_or]
        exact runs_pure _ _
      · simpa [hkind] using ih

lemma runs_advance (htokens : tokens.Terminated) (h : t :: ts <:+ tokens.body) :
    Runs (advance tokens) (facing tokens (t :: ts) depth) (.ok t) (facing tokens ts depth) := by
  refine (runs_peek h).bind ((runs_isAtEnd htokens h).bind ?_)
  have hlength := h.length_le
  have hcursor : facing tokens ts depth
      = ⟨(facing tokens (t :: ts) depth).current + 1, depth⟩ := by
    simp only [facing, List.length_cons] at hlength ⊢
    congr
    omega
  rw [hcursor]
  exact (runs_modify _ _).bind (runs_pure _ _)

lemma any_head?_eq_false {p : Token → Prop} [DecidablePred p] (h : ∀ t ∈ ts.head?, ¬ p t) :
    ts.head?.any p = false := by
  cases ts with
  | nil => rfl
  | cons t ts => exact decide_eq_false (h t rfl)

lemma runs_matchAny (htokens : tokens.Terminated) (h : t :: ts <:+ tokens.body)
    (hkind : t.kind ∈ kinds) :
    Runs (matchAny tokens kinds) (facing tokens (t :: ts) depth) (.ok (some t))
      (facing tokens ts depth) := by
  have hany : Runs (kinds.anyM (check tokens)) (facing tokens (t :: ts) depth) (.ok true)
      (facing tokens (t :: ts) depth) := by
    rw [← decide_eq_true hkind]
    exact runs_anyM htokens h kinds
  exact hany.bind ((runs_advance htokens h).bind (runs_pure _ _))

lemma runs_matchAny_none (htokens : tokens.Terminated) (h : ts <:+ tokens.body)
    (hkind : ∀ t ∈ ts.head?, t.kind ∉ kinds) :
    Runs (matchAny tokens kinds) (facing tokens ts depth) (.ok none) (facing tokens ts depth) := by
  have hany : Runs (kinds.anyM (check tokens)) (facing tokens ts depth) (.ok false)
      (facing tokens ts depth) := by
    rw [← any_head?_eq_false hkind]
    exact runs_anyM htokens h kinds
  exact hany.bind (runs_pure _ _)

lemma runs_fail {α : Type} (h : ts <:+ tokens.body) (reason : Parse.Reason) :
    Runs (fail tokens reason : Parser α) (facing tokens ts depth)
      (.error (Parse.Failure.inside tokens ⟨reason, ts⟩)) (facing tokens ts depth) :=
  (runs_get _).bind ((runs_peek h).bind (runs_throw _ _))

lemma runs_consume (htokens : tokens.Terminated) (h : t :: ts <:+ tokens.body)
    (hkind : t.kind = kind) :
    Runs (consume tokens kind reason) (facing tokens (t :: ts) depth) (.ok t)
      (facing tokens ts depth) := by
  have hcheck : Runs (check tokens kind) (facing tokens (t :: ts) depth) (.ok true)
      (facing tokens (t :: ts) depth) := by
    rw [← decide_eq_true hkind]
    exact runs_check htokens h kind
  exact hcheck.bind (runs_advance htokens h)

lemma runs_consume_fail (htokens : tokens.Terminated) (h : ts <:+ tokens.body)
    (hkind : ∀ t ∈ ts.head?, t.kind ≠ kind) :
    Runs (consume tokens kind reason) (facing tokens ts depth)
      (.error (Parse.Failure.inside tokens ⟨reason, ts⟩)) (facing tokens ts depth) := by
  have hcheck : Runs (check tokens kind) (facing tokens ts depth) (.ok false)
      (facing tokens ts depth) := by
    rw [← any_head?_eq_false hkind]
    exact runs_check htokens h kind
  exact hcheck.bind (runs_fail h reason)

/-! ### Nesting -/

/-- A rule that runs one level deeper leaves the depth as it was, also where it fails. -/
lemma runs_nested {rule : Parser Expr} {outcome : Except Parse.Error Expr}
    (hdepth : depth < maxNesting)
    (h : Runs rule (facing tokens ts (depth + 1)) outcome (facing tokens rest (depth + 1))) :
    Runs (nested tokens rule) (facing tokens ts depth) outcome (facing tokens rest depth) := by
  refine (runs_get _).bind ?_
  rw [if_neg (Nat.not_le_of_lt hdepth : ¬ maxNesting ≤ (facing tokens ts depth).depth)]
  refine (runs_modify _ _).bind ?_
  have hsubtract : subtract? (facing tokens rest (depth + 1)).depth 1 = some depth :=
    subtract?_add depth 1
  refine h.run.bind ((runs_get _).bind ((runs_some hsubtract _).bind ((runs_modify _ _).bind ?_)))
  cases outcome <;> rfl

lemma runs_nested_fail {rule : Parser Expr} (h : ts <:+ tokens.body) (hdepth : maxNesting ≤ depth) :
    Runs (nested tokens rule) (facing tokens ts depth)
      (.error (Parse.Failure.inside tokens ⟨.tooDeeplyNested, ts⟩)) (facing tokens ts depth) := by
  refine (runs_get _).bind ?_
  rw [if_pos (show maxNesting ≤ (facing tokens ts depth).depth from hdepth)]
  exact runs_fail h .tooDeeplyNested

end Parser

end Guarded

end LoxReader
