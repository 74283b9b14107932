import LoxReader.Expr.Grammar
import Mathlib.Tactic.Lemma

/-!
# Trees of the grammar

A tree spells a sequence of tokens from left to right, with a pair of parentheses for each of its
groupings. The grammar has the trees whose operators are ordered by their levels, and an expression
may use those in which few enough unary operators and groupings enclose one another.
-/

namespace LoxReader

/-! ### The vocabulary of the grammar -/

/-- The kinds that are expressions of their own. -/
def literalKinds : List Kind :=
  [.number, .string, .keyword .true, .keyword .false, .keyword .nil]

def unaryOperators : List Kind := [.symbol .bang, .symbol .minus]

def Level.operators : Level → List Kind
  | .equality   => [.symbol .bangEqual, .symbol .equalEqual]
  | .comparison => [.symbol .greater, .symbol .greaterEqual, .symbol .less, .symbol .lessEqual]
  | .sum        => [.symbol .plus, .symbol .minus]
  | .product    => [.symbol .star, .symbol .slash]

lemma Kind.isLiteral_iff {k : Kind} : k.isLiteral ↔ k ∈ literalKinds := by
  match k with
  | .symbol _ | .identifier | .string | .number | .eof => simp [isLiteral, literalKinds]
  | .keyword k => cases k <;> simp [isLiteral, literalKinds]

lemma Kind.isUnary_iff {k : Kind} : k.isUnary ↔ k ∈ unaryOperators := by
  match k with
  | .keyword _ | .identifier | .string | .number | .eof => simp [isUnary, unaryOperators]
  | .symbol s => cases s <;> simp [isUnary, unaryOperators]

lemma Kind.level?_eq_some_iff {k : Kind} {level : Level} :
    k.level? = some level ↔ k ∈ level.operators := by
  match k with
  | .keyword _ | .identifier | .string | .number | .eof =>
    cases level <;> simp [level?, Level.operators]
  | .symbol s => cases s <;> cases level <;> simp [level?, Level.operators]

/-- How tightly a level binds, the loosest first. -/
def Level.rank : Level → Nat
  | .equality   => 0
  | .comparison => 1
  | .sum        => 2
  | .product    => 3

/-- How tightly literals, groupings and unary operators bind: tighter than every level. -/
def operandRank : Nat := 4

lemma Level.rank_lt (level : Level) : level.rank < operandRank := by
  cases level <;> decide

lemma Level.rank_injective {level level' : Level} (h : level.rank = level'.rank) :
    level = level' := by
  cases level <;> cases level' <;> first | rfl | cases h

/-! ### Trees -/

/-- A parenthesis for trees that are put together: its place does not matter. -/
def Token.leftParen : Token := ⟨.symbol .leftParen, ['('], .start⟩

def Token.rightParen : Token := ⟨.symbol .rightParen, [')'], .start⟩

namespace Expr

/-- The tokens of a tree in order, with parentheses around what a grouping holds. -/
inductive Spells : Expr → List Token → Prop where
  | literal (t : Token) : Spells (.literal t) [t]
  | grouping {opening closing : Token} {e : Expr} {ts : List Token}
      (hopening : opening.kind = .symbol .leftParen)
      (hclosing : closing.kind = .symbol .rightParen) (h : Spells e ts) :
      Spells (.grouping e) (opening :: ts ++ [closing])
  | unary (op : Token) {e : Expr} {ts : List Token} (h : Spells e ts) :
      Spells (.unary op e) (op :: ts)
  | binary {l r : Expr} {ls rs : List Token} (op : Token) (hl : Spells l ls) (hr : Spells r rs) :
      Spells (.binary l op r) (ls ++ op :: rs)

lemma Spells.ne_nil {e : Expr} {ts : List Token} (h : e.Spells ts) : ts ≠ [] := by
  cases h <;> simp

/-- How tightly the outermost node binds. -/
def rank : Expr → Nat
  | .binary _ op _ => (op.kind.level?.map Level.rank).getD 0
  | _              => operandRank

/-- The order of the levels: to the left of a binary operator stands a tree of its level or
tighter, to its right a tighter one, and behind a unary operator no binary one. -/
def Stratified : Expr → Prop
  | .literal t     => t.kind ∈ literalKinds
  | .grouping e    => e.Stratified
  | .unary op e    => op.kind ∈ unaryOperators ∧ e.rank = operandRank ∧ e.Stratified
  | .binary l op r => ∃ level : Level, op.kind ∈ level.operators ∧
      level.rank ≤ l.rank ∧ level.rank < r.rank ∧ l.Stratified ∧ r.Stratified

/-- How many unary operators and groupings enclose one another at most. -/
def nesting : Expr → Nat
  | .literal _    => 0
  | .grouping e   => e.nesting + 1
  | .unary _ e    => e.nesting + 1
  | .binary l _ r => max l.nesting r.nesting

lemma rank_binary {l r : Expr} {op : Token} {level : Level} (h : op.kind.level? = some level) :
    (binary l op r).rank = level.rank := by
  simp [rank, h]

lemma rank_le (e : Expr) : e.rank ≤ operandRank := by
  match e with
  | .literal _ | .grouping _ | .unary _ _ => exact Nat.le_refl _
  | .binary l op r =>
    cases h : op.kind.level? with
    | none => simp [rank, h]
    | some level =>
      rw [rank_binary h]
      exact Nat.le_of_lt level.rank_lt

end Expr

/-- A tree of the grammar for the tokens `ts`: it binds at least as tightly as `rank`, and at most
`nesting` unary operators and groupings enclose one another in it. -/
structure Reading (rank nesting : Nat) (e : Expr) (ts : List Token) : Prop where
  spells : e.Spells ts
  stratified : e.Stratified
  rank_le : rank ≤ e.rank
  nesting_le : e.nesting ≤ nesting

/-- The expressions of the language. -/
def InGrammar (ts : List Token) : Prop := ∃ e, Reading 0 maxNesting e ts

namespace Reading

variable {rank nesting : Nat} {e l r : Expr} {ts ls rs : List Token} {op : Token}

lemma of_le {looser : Nat} (h : Reading rank nesting e ts) (hle : looser ≤ rank) :
    Reading looser nesting e ts :=
  ⟨h.spells, h.stratified, Nat.le_trans hle h.rank_le, h.nesting_le⟩

lemma literal {t : Token} (h : t.kind.isLiteral) : Reading operandRank nesting (.literal t) [t] :=
  ⟨.literal t, Kind.isLiteral_iff.mp h, Nat.le_refl _, Nat.zero_le _⟩

lemma grouping {opening closing : Token} (hopening : opening.kind = .symbol .leftParen)
    (hclosing : closing.kind = .symbol .rightParen) (h : Reading 0 nesting e ts) :
    Reading operandRank (nesting + 1) (.grouping e) (opening :: ts ++ [closing]) :=
  ⟨.grouping hopening hclosing h.spells, h.stratified, Nat.le_refl _,
    Nat.succ_le_succ h.nesting_le⟩

lemma unary (hop : op.kind.isUnary) (h : Reading operandRank nesting e ts) :
    Reading operandRank (nesting + 1) (.unary op e) (op :: ts) := by
  refine ⟨.unary op h.spells, ⟨Kind.isUnary_iff.mp hop, ?_, h.stratified⟩, Nat.le_refl _, ?_⟩
  · exact Nat.le_antisymm e.rank_le h.rank_le
  · exact Nat.succ_le_succ h.nesting_le

lemma binary {level : Level} (hop : op.kind.level? = some level)
    (hl : Reading level.rank nesting l ls) (hr : Reading (level.rank + 1) nesting r rs) :
    Reading level.rank nesting (.binary l op r) (ls ++ op :: rs) := by
  refine ⟨.binary op hl.spells hr.spells, ?_, ?_, ?_⟩
  · exact ⟨level, Kind.level?_eq_some_iff.mp hop, hl.rank_le, hr.rank_le, hl.stratified,
      hr.stratified⟩
  · exact Nat.le_of_eq (Expr.rank_binary hop).symm
  · exact Nat.max_le.mpr ⟨hl.nesting_le, hr.nesting_le⟩

lemma literal_inv {t : Token} (h : Reading rank nesting (.literal t) ts) :
    t.kind.isLiteral ∧ ts = [t] := by
  obtain ⟨hspells, hliteral, -, -⟩ := h
  cases hspells with
  | literal => exact ⟨Kind.isLiteral_iff.mpr hliteral, rfl⟩

lemma grouping_inv (h : Reading rank (nesting + 1) (.grouping e) ts) :
    ∃ opening closing ts', opening.kind = .symbol .leftParen ∧ closing.kind = .symbol .rightParen ∧
      ts = opening :: ts' ++ [closing] ∧ Reading 0 nesting e ts' := by
  obtain ⟨hspells, hstratified, -, hnesting⟩ := h
  cases hspells with
  | grouping hopening hclosing hspells =>
    exact ⟨_, _, _, hopening, hclosing, rfl, hspells, hstratified, Nat.zero_le _,
      Nat.le_of_succ_le_succ hnesting⟩

lemma unary_inv (h : Reading rank (nesting + 1) (.unary op e) ts) :
    op.kind.isUnary ∧ ∃ ts', ts = op :: ts' ∧ Reading operandRank nesting e ts' := by
  obtain ⟨hspells, ⟨hop, hoperand, hstratified⟩, -, hnesting⟩ := h
  cases hspells with
  | unary _ hspells =>
    exact ⟨Kind.isUnary_iff.mpr hop, _, rfl, hspells, hstratified, Nat.le_of_eq hoperand.symm,
      Nat.le_of_succ_le_succ hnesting⟩

lemma not_binary : ¬ Reading operandRank nesting (.binary l op r) ts := by
  rintro ⟨-, ⟨level, hop, -⟩, hrank, -⟩
  rw [Expr.rank_binary (Kind.level?_eq_some_iff.mpr hop)] at hrank
  exact absurd hrank (Nat.not_le_of_lt level.rank_lt)

/-- A tree that binds no tighter than a level has an operator of this level outermost. -/
lemma binary_inv {level : Level} (h : Reading level.rank nesting (.binary l op r) ts)
    (hrank : (Expr.binary l op r).rank = level.rank) :
    op.kind.level? = some level ∧ ∃ ls rs, ts = ls ++ op :: rs ∧
      Reading level.rank nesting l ls ∧ Reading (level.rank + 1) nesting r rs := by
  obtain ⟨hspells, ⟨level', hop, hl, hr, hsl, hsr⟩, -, hnesting⟩ := h
  have hop := Kind.level?_eq_some_iff.mpr hop
  have heq : level' = level := Level.rank_injective (by rw [← hrank, Expr.rank_binary hop])
  subst heq
  obtain ⟨hnl, hnr⟩ := Nat.max_le.mp hnesting
  cases hspells with
  | binary _ hls hrs => exact ⟨hop, _, _, rfl, ⟨hls, hsl, hl, hnl⟩, ⟨hrs, hsr, hr, hnr⟩⟩

end Reading

end LoxReader
